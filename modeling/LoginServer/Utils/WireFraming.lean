import LoginServer.Streams.FrameCodec
import LoginServer.Utils.Bytes

/-!
# The wire format: length-prefixed frames

`packFramedMessage` writes `[u32 little-endian length][bytes]`. The receiving side
reads the length back from the four bytes; `scanFrame` is the test the extraction
loop makes at the head of its buffer, and `wireCodec` collects the laws that connect
the two.
-/

namespace LoginServer

open Streams

namespace protocol

/-- `kMaxMessageBytes`, also the size of a read chunk. -/
def kMaxMessageBytes : Nat := 8 * 1024

def kMaxFrameBytes : Nat := 4 * 1024 * 1024

def kMaxAccumulatedBytesV2 : Nat := kMaxFrameBytes + 64 * 1024

def kErrOversize : Bytes := str "ERR_OVERSIZE"

def kErrMalformed : Bytes := str "ERR_MALFORMED"

def kProtocolVersion : Bytes := str "1.0"

def kFramingV2 : Int := 2

end protocol

open protocol

/-- The four bytes `out.push_back(static_cast<char>((n >> i) & 0xFF))`. -/
def lengthPrefix (n : UInt32) : Bytes :=
  [(n &&& 0xFF).toUInt8, ((n >>> 8) &&& 0xFF).toUInt8, ((n >>> 16) &&& 0xFF).toUInt8,
    ((n >>> 24) &&& 0xFF).toUInt8]

def packFramedMessage (message : Bytes) : Bytes :=
  if message.length > kMaxFrameBytes then []
  else lengthPrefix (UInt32.ofNat message.length) ++ message

/-- `b[0] | b[1] << 8 | b[2] << 16 | b[3] << 24`. -/
def frameLength (b0 b1 b2 b3 : UInt8) : UInt32 :=
  b0.toUInt32 ||| (b1.toUInt32 <<< 8) ||| (b2.toUInt32 <<< 16) ||| (b3.toUInt32 <<< 24)

/-! ## The length prefix -/

theorem or_shiftLeft_eq_add {a i : Nat} (h : a < 2 ^ i) (b : Nat) :
    a ||| b <<< i = a + 2 ^ i * b := by
  rw [Nat.or_comm, ← Nat.shiftLeft_add_eq_or_of_lt h, Nat.shiftLeft_eq, Nat.mul_comm,
    Nat.add_comm]

theorem shiftedByte_toNat (b : UInt8) {i : Nat} (hi : i ≤ 24) :
    (b.toUInt32 <<< UInt32.ofNat i).toNat = b.toNat <<< i := by
  have hb := b.toNat_lt
  have hmod : (UInt32.ofNat i).toNat % 32 = i := by
    rw [UInt32.toNat_ofNat']
    omega
  rw [UInt32.toNat_shiftLeft, UInt8.toNat_toUInt32, hmod]
  refine Nat.mod_eq_of_lt ?_
  rw [Nat.shiftLeft_eq]
  calc b.toNat * 2 ^ i ≤ b.toNat * 2 ^ 24 :=
        Nat.mul_le_mul_left _ (Nat.pow_le_pow_right (by omega) hi)
    _ < 2 ^ 32 := by omega

theorem frameLength_toNat (b0 b1 b2 b3 : UInt8) :
    (frameLength b0 b1 b2 b3).toNat =
      b0.toNat + 2 ^ 8 * b1.toNat + 2 ^ 16 * b2.toNat + 2 ^ 24 * b3.toNat := by
  have h0 := b0.toNat_lt
  have h1 := b1.toNat_lt
  have h2 := b2.toNat_lt
  have e1 : (b1.toUInt32 <<< 8).toNat = b1.toNat <<< 8 :=
    shiftedByte_toNat b1 (i := 8) (by omega)
  have e2 : (b2.toUInt32 <<< 16).toNat = b2.toNat <<< 16 :=
    shiftedByte_toNat b2 (i := 16) (by omega)
  have e3 : (b3.toUInt32 <<< 24).toNat = b3.toNat <<< 24 :=
    shiftedByte_toNat b3 (i := 24) (by omega)
  have o1 : b0.toNat ||| b1.toNat <<< 8 = b0.toNat + 2 ^ 8 * b1.toNat :=
    or_shiftLeft_eq_add h0 _
  have o2 : b0.toNat + 2 ^ 8 * b1.toNat ||| b2.toNat <<< 16 =
      b0.toNat + 2 ^ 8 * b1.toNat + 2 ^ 16 * b2.toNat :=
    or_shiftLeft_eq_add (by omega) _
  rw [frameLength, UInt32.toNat_or, UInt32.toNat_or, UInt32.toNat_or, e1, e2, e3,
    UInt8.toNat_toUInt32, o1, o2]
  exact or_shiftLeft_eq_add (by omega) _

theorem lengthByte_toNat (n : UInt32) (i : Nat) (hi : i < 32) :
    ((n >>> UInt32.ofNat i &&& 0xFF).toUInt8).toNat = n.toNat / 2 ^ i % 2 ^ 8 := by
  have hmod : (UInt32.ofNat i).toNat = i := by
    rw [UInt32.toNat_ofNat']
    omega
  rw [UInt32.toNat_toUInt8, UInt32.toNat_and, UInt32.toNat_shiftRight, hmod,
    Nat.mod_eq_of_lt hi, Nat.shiftRight_eq_div_pow]
  change (n.toNat / 2 ^ i &&& (2 ^ 8 - 1)) % 2 ^ 8 = _
  rw [Nat.and_two_pow_sub_one_eq_mod, Nat.mod_mod]

theorem lengthPrefix_eq (n : UInt32) :
    ∃ b0 b1 b2 b3 : UInt8, lengthPrefix n = [b0, b1, b2, b3] ∧
      b0.toNat = n.toNat % 2 ^ 8 ∧ b1.toNat = n.toNat / 2 ^ 8 % 2 ^ 8 ∧
      b2.toNat = n.toNat / 2 ^ 16 % 2 ^ 8 ∧ b3.toNat = n.toNat / 2 ^ 24 % 2 ^ 8 := by
  refine ⟨_, _, _, _, rfl, ?_, ?_, ?_, ?_⟩
  · have h : n >>> UInt32.ofNat 0 = n := UInt32.toNat_inj.mp (by simp)
    have h0 := lengthByte_toNat n 0 (by omega)
    rw [h] at h0
    simpa using h0
  · exact lengthByte_toNat n 8 (by omega)
  · exact lengthByte_toNat n 16 (by omega)
  · exact lengthByte_toNat n 24 (by omega)

/-- Reading a written prefix gives the length back. -/
theorem frameLength_lengthPrefix {n : UInt32} {b0 b1 b2 b3 : UInt8}
    (h : lengthPrefix n = [b0, b1, b2, b3]) : frameLength b0 b1 b2 b3 = n := by
  obtain ⟨c0, c1, c2, c3, hc, h0, h1, h2, h3⟩ := lengthPrefix_eq n
  rw [hc] at h
  injection h with e0 h
  injection h with e1 h
  injection h with e2 h
  injection h with e3
  subst e0 e1 e2 e3
  apply UInt32.toNat_inj.mp
  have hn := n.toNat_lt
  rw [frameLength_toNat]
  omega

/-- Writing a length that was read gives the four bytes back. -/
theorem lengthPrefix_frameLength (b0 b1 b2 b3 : UInt8) :
    lengthPrefix (frameLength b0 b1 b2 b3) = [b0, b1, b2, b3] := by
  obtain ⟨c0, c1, c2, c3, hc, h0, h1, h2, h3⟩ := lengthPrefix_eq (frameLength b0 b1 b2 b3)
  have l0 := b0.toNat_lt
  have l1 := b1.toNat_lt
  have l2 := b2.toNat_lt
  have l3 := b3.toNat_lt
  rw [frameLength_toNat] at h0 h1 h2 h3
  have e0 : c0 = b0 := UInt8.toNat_inj.mp (by omega)
  have e1 : c1 = b1 := UInt8.toNat_inj.mp (by omega)
  have e2 : c2 = b2 := UInt8.toNat_inj.mp (by omega)
  have e3 : c3 = b3 := UInt8.toNat_inj.mp (by omega)
  rw [hc, e0, e1, e2, e3]

theorem lengthPrefix_length (n : UInt32) : (lengthPrefix n).length = 4 := rfl

/-- The 32-bit sum `4 + n` does not wrap for a length within the cap. -/
theorem four_add_toNat {n : UInt32} (h : n.toNat ≤ kMaxFrameBytes) :
    (4 + n).toNat = 4 + n.toNat := by
  rw [UInt32.toNat_add]
  simp only [kMaxFrameBytes, UInt32.reduceToNat] at h ⊢
  omega

/-! ## The codec -/

/-- What the extraction loop finds at the head of its buffer: fewer than four bytes,
a length above the cap, a partial frame, or a frame. -/
def scanFrame (data : Bytes) : Scan UInt8 Bytes :=
  match data with
  | b0 :: b1 :: b2 :: b3 :: rest =>
    if (frameLength b0 b1 b2 b3).toNat > kMaxFrameBytes then .reject
    else if rest.length < (frameLength b0 b1 b2 b3).toNat then .more
    else .frame (rest.take (frameLength b0 b1 b2 b3).toNat)
      (rest.drop (frameLength b0 b1 b2 b3).toNat)
  | _ => .more

theorem pack_of_valid {message : Bytes} (h : message.length ≤ kMaxFrameBytes) :
    packFramedMessage message = lengthPrefix (UInt32.ofNat message.length) ++ message :=
  if_neg (Nat.not_lt.mpr h)

theorem ofNat_length_toNat {message : Bytes} (h : message.length ≤ kMaxFrameBytes) :
    (UInt32.ofNat message.length).toNat = message.length := by
  rw [UInt32.toNat_ofNat']
  simp only [kMaxFrameBytes] at h
  omega

theorem pack_length {message : Bytes} (h : message.length ≤ kMaxFrameBytes) :
    (packFramedMessage message).length = 4 + message.length := by
  rw [pack_of_valid h, List.length_append, lengthPrefix_length]

theorem scanFrame_pack {message : Bytes} (rest : Bytes)
    (h : message.length ≤ kMaxFrameBytes) :
    scanFrame (packFramedMessage message ++ rest) = .frame message rest := by
  obtain ⟨b0, b1, b2, b3, hb, -⟩ := lengthPrefix_eq (UInt32.ofNat message.length)
  have hn : (frameLength b0 b1 b2 b3).toNat = message.length := by
    rw [frameLength_lengthPrefix hb, ofNat_length_toNat h]
  have hcap : ¬ message.length > kMaxFrameBytes := Nat.not_lt.mpr h
  have hlen : ¬ (message ++ rest).length < message.length := by
    rw [List.length_append]
    omega
  rw [pack_of_valid h, hb]
  simp only [List.cons_append, List.nil_append, scanFrame, hn, hcap, hlen, if_false]
  rw [List.take_left, List.drop_left]

theorem scanFrame_frame {data message rest : Bytes} (h : scanFrame data = .frame message rest) :
    message.length ≤ kMaxFrameBytes ∧ data = packFramedMessage message ++ rest := by
  unfold scanFrame at h
  split at h
  · rename_i b0 b1 b2 b3 tail
    split at h
    · cases h
    · rename_i hcap
      split at h
      · cases h
      · rename_i hlen
        injection h with hm hr
        have hml : message.length = (frameLength b0 b1 b2 b3).toNat := by
          rw [← hm, List.length_take]
          omega
        have hle : message.length ≤ kMaxFrameBytes := by omega
        have hback : UInt32.ofNat message.length = frameLength b0 b1 b2 b3 :=
          UInt32.toNat_inj.mp (by rw [ofNat_length_toNat hle, hml])
        refine ⟨hle, ?_⟩
        rw [pack_of_valid hle, hback, lengthPrefix_frameLength, ← hm, ← hr, List.append_assoc,
          List.take_append_drop]
        rfl
  · cases h

theorem scanFrame_reject {data : Bytes} (more : Bytes) (h : scanFrame data = .reject) :
    scanFrame (data ++ more) = .reject := by
  unfold scanFrame at h
  split at h
  · rename_i b0 b1 b2 b3 tail
    split at h
    · rename_i hcap
      simp only [List.cons_append, scanFrame, hcap, if_true]
    · split at h <;> cases h
  · cases h

theorem pack_ne_nil {message : Bytes} (h : message.length ≤ kMaxFrameBytes) :
    packFramedMessage message ≠ [] := by
  intro hnil
  have := pack_length h
  rw [hnil, List.length_nil] at this
  omega

/-- The frames of protocol v2: any message within the cap. -/
def wireCodec : FrameCodec UInt8 Bytes where
  scan := scanFrame
  encode := packFramedMessage
  Valid message := message.length ≤ kMaxFrameBytes
  encode_ne_nil := pack_ne_nil
  scan_encode := scanFrame_pack
  scan_frame := scanFrame_frame
  scan_reject := scanFrame_reject

@[simp] theorem wireCodec_scan (data : Bytes) : wireCodec.scan data = scanFrame data := rfl

@[simp] theorem wireCodec_encode (message : Bytes) :
    wireCodec.encode message = packFramedMessage message := rfl

/-- The reference decoding of a byte stream: `[u32 little-endian length n][n bytes]`,
repeated, up to the first incomplete frame or length above the cap. -/
def referenceDecoding (s : Bytes) : List Bytes := wireCodec.decode s

/-- The frames of the messages, one after another. -/
def packAll (messages : List Bytes) : Bytes := wireCodec.encodeAll messages

/-- A partial frame is shorter than the longest frame. -/
theorem length_of_scanFrame_more {data : Bytes} (h : scanFrame data = .more) :
    data.length < 4 + kMaxFrameBytes := by
  unfold scanFrame at h
  split at h
  · split at h
    · cases h
    · split at h
      · simp only [List.length_cons]
        omega
      · cases h
  · rename_i hshort
    by_contra hlen
    match data, hshort with
    | [], _ => simp at hlen
    | [_], _ => simp [kMaxFrameBytes] at hlen
    | [_, _], _ => simp [kMaxFrameBytes] at hlen
    | [_, _, _], _ => simp [kMaxFrameBytes] at hlen
    | _ :: _ :: _ :: _ :: _, hshort => exact hshort _ _ _ _ _ rfl

end LoginServer
