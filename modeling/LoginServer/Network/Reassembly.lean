import LoginServer.Network.Framing

/-!
# Reassembly of messages from a byte stream

A `Link` is what the framing layer keeps for one connection, and `Link.read` what one
completed read does to it, in terms of the codec: drain at most
`MAX_MESSAGES_PER_READ` frames, close on a length above the cap or on more than
`kMaxAccumulatedBytesV2` accumulated bytes. `link_readCompleted` shows that the two
maps of the network manager implement one independent link per connection.

On a link, the messages delivered are a prefix of the reference decoding and, while it
is open, they account for every byte received (`Link.Faithful`).
-/

namespace LoginServer

open protocol Streams

/-- The state of the framing layer for one connection. -/
structure Link where
  delivered : List Bytes
  kept : Bytes
  isOpen : Bool
  overflowed : Bool

namespace Link

def start : Link := ⟨[], [], true, false⟩

/-- One completed read on an open link. -/
def handle (l : Link) (chunk : Bytes) : Link :=
  if l.kept.length + chunk.length > kMaxAccumulatedBytesV2 then
    { l with kept := [], isOpen := false, overflowed := true }
  else
    let d := wireCodec.drain NetworkManager.MAX_MESSAGES_PER_READ (l.kept ++ chunk)
    if d.1.length < NetworkManager.MAX_MESSAGES_PER_READ ∧ (scanFrame d.2).isReject then
      { l with delivered := l.delivered ++ d.1, kept := [], isOpen := false }
    else { l with delivered := l.delivered ++ d.1, kept := d.2 }

def read (l : Link) (chunk : Bytes) : Link :=
  if l.isOpen then l.handle chunk else { l with kept := [] }

def readAll (l : Link) (chunks : List Bytes) : Link := chunks.foldl read l

theorem readAll_append (l : Link) (chunks chunks' : List Bytes) :
    l.readAll (chunks ++ chunks') = (l.readAll chunks).readAll chunks' :=
  List.foldl_append

end Link

/-! ## The network manager implements one link per connection -/

namespace NetworkManager

/-- The link of connection `p`. -/
def link (nm : NetworkManager) (p : Socket) : Link :=
  ⟨nm.delivered p, nm.kept p, nm.isOpen p, nm.overflowed p⟩

/-- The messages passed to `processMessage` one after another. -/
def logMessages (nm : NetworkManager) (p : Socket) (messages : List Bytes) : NetworkManager :=
  messages.foldl (fun nm message => nm.log p (.processMessage message)) nm

@[simp] theorem kept_logMessages (nm : NetworkManager) (p q : Socket) (messages : List Bytes) :
    (nm.logMessages p messages).kept q = nm.kept q := by
  induction messages generalizing nm with
  | nil => rfl
  | cons message messages ih => exact ih (nm.log p (.processMessage message))

@[simp] theorem isOpen_logMessages (nm : NetworkManager) (p q : Socket)
    (messages : List Bytes) : (nm.logMessages p messages).isOpen q = nm.isOpen q := by
  induction messages generalizing nm with
  | nil => rfl
  | cons message messages ih => exact ih (nm.log p (.processMessage message))

@[simp] theorem delivered_logMessages (nm : NetworkManager) (p q : Socket)
    (messages : List Bytes) :
    (nm.logMessages p messages).delivered q =
      nm.delivered q ++ if p = q then messages else [] := by
  induction messages generalizing nm with
  | nil => simp [logMessages]
  | cons message messages ih =>
    refine (ih (nm.log p (.processMessage message))).trans ?_
    by_cases h : p = q <;> simp [h, messageOf]

@[simp] theorem overflowed_logMessages (nm : NetworkManager) (p q : Socket)
    (messages : List Bytes) : (nm.logMessages p messages).overflowed q = nm.overflowed q := by
  induction messages generalizing nm with
  | nil => rfl
  | cons message messages ih =>
    refine (ih (nm.log p (.processMessage message))).trans ?_
    simp [isOverCap]

/-- One turn of the extraction loop, by what it finds at the head of the buffer. -/
theorem extractLoop_succ (p : Socket) (k : Nat) (nm : NetworkManager) (data : Bytes) :
    extractLoop p (k + 1) nm data =
      match scanFrame data with
      | .more => (nm, some data)
      | .reject =>
        ((nm.log p (.sendResponse (str "error") oversizeError)).reapSocket p, none)
      | .frame message rest => extractLoop p k (nm.log p (.processMessage message)) rest := by
  match data with
  | [] => rfl
  | [_] => rfl
  | [_, _] => rfl
  | [_, _, _] => rfl
  | b0 :: b1 :: b2 :: b3 :: tail =>
    simp only [extractLoop, scanFrame]
    by_cases hcap : (frameLength b0 b1 b2 b3).toNat > kMaxFrameBytes
    · simp only [hcap, if_true]
    · have hsum := four_add_toNat (Nat.not_lt.mp hcap)
      by_cases hlen : tail.length < (frameLength b0 b1 b2 b3).toNat
      · have hpart : (b0 :: b1 :: b2 :: b3 :: tail).length <
            4 + (frameLength b0 b1 b2 b3).toNat := by
          simp only [List.length_cons]
          omega
        simp only [hcap, hlen, hsum, hpart, if_true, if_false]
      · have hfull : ¬ (b0 :: b1 :: b2 :: b3 :: tail).length <
            (frameLength b0 b1 b2 b3).toNat + 4 := by
          simp only [List.length_cons]
          omega
        simp only [hcap, hlen, hsum, Nat.add_comm 4, hfull, if_false, List.drop_succ_cons,
          List.drop_zero]

/-- The extraction loop drains the buffer through the codec. -/
theorem extractLoop_eq (p : Socket) (k : Nat) (nm : NetworkManager) (data : Bytes) :
    extractLoop p k nm data =
      if (wireCodec.drain k data).1.length < k ∧
          (scanFrame (wireCodec.drain k data).2).isReject then
        (((nm.logMessages p (wireCodec.drain k data).1).log p
          (.sendResponse (str "error") oversizeError)).reapSocket p, none)
      else (nm.logMessages p (wireCodec.drain k data).1, some (wireCodec.drain k data).2) := by
  induction k generalizing nm data with
  | zero => simp [extractLoop, logMessages]
  | succ k ih =>
    rw [extractLoop_succ]
    cases hs : scanFrame data with
    | more =>
      have hstop : ∀ m rest, wireCodec.scan data ≠ .frame m rest := by simp [hs]
      have hd := wireCodec.drain_stop hstop (k + 1)
      simp [hd, hs, Scan.isReject, logMessages]
    | reject =>
      have hstop : ∀ m rest, wireCodec.scan data ≠ .frame m rest := by simp [hs]
      have hd := wireCodec.drain_stop hstop (k + 1)
      simp [hd, hs, Scan.isReject, logMessages]
    | frame message rest =>
      have hframe : wireCodec.scan data = .frame message rest := hs
      have hd := wireCodec.drain_frame hframe k
      dsimp only
      rw [ih, hd]
      simp only [List.length_cons, Nat.add_lt_add_iff_right]
      rfl

/-- The buffer that is left never exceeds the cap, so the late overflow branch of
`extractV2Messages` is not taken. -/
theorem extractV2Messages_eq (nm : NetworkManager) (p : Socket) {data : Bytes}
    (hcap : data.length ≤ kMaxAccumulatedBytesV2) {d : List Bytes × Bytes}
    (hd : wireCodec.drain MAX_MESSAGES_PER_READ data = d) :
    nm.extractV2Messages p data =
      if d.1.length < MAX_MESSAGES_PER_READ ∧ (scanFrame d.2).isReject then
        ((nm.logMessages p d.1).log p (.sendResponse (str "error") oversizeError)).reapSocket p
      else if d.2.isEmpty then nm.logMessages p d.1
      else (nm.logMessages p d.1).setBuffer p (some d.2) := by
  have hle := wireCodec.length_drain_snd_le MAX_MESSAGES_PER_READ data
  rw [hd] at hle
  have hlate : ¬ d.2.length > kMaxAccumulatedBytesV2 := by omega
  unfold extractV2Messages
  rw [extractLoop_eq, hd]
  by_cases hrej : d.1.length < MAX_MESSAGES_PER_READ ∧ (scanFrame d.2).isReject
  · simp only [if_pos hrej]
  · simp only [if_neg hrej, if_neg hlate]

/-- A completed read changes the link of its connection as `Link.read` says. -/
theorem link_readCompleted (nm : NetworkManager) (p : Socket) (chunk : Bytes) :
    (nm.readCompleted p chunk).link p = (nm.link p).read chunk := by
  unfold readCompleted Link.read
  cases hopen : nm.isOpen p with
  | false => simp [link, hopen]
  | true =>
    have hl : (nm.link p).isOpen = true := hopen
    simp only [hl, if_true]
    unfold handleClientData Link.handle
    have hk : (nm.link p).kept = (nm.socketBuffers p).getD [] := rfl
    dsimp only
    rw [hk]
    split
    · simp [link, messageOf, isOverCap]
    · rename_i hcap
      have hdata : ((nm.socketBuffers p).getD [] ++ chunk).length ≤ kMaxAccumulatedBytesV2 := by
        rw [List.length_append]
        omega
      have hclear : ((nm.socketBuffers p).map fun _ => ([] : Bytes)).getD [] = [] := by
        cases nm.socketBuffers p <;> rfl
      rw [extractV2Messages_eq _ p hdata rfl]
      split
      · simp [link, messageOf, isOverCap]
      · split
        · rename_i hnil
          simp [link, hopen, hclear, List.isEmpty_iff.mp hnil]
        · simp [link, hopen]

theorem link_readCompleted_other (nm : NetworkManager) {p q : Socket} (h : p ≠ q)
    (chunk : Bytes) : (nm.readCompleted p chunk).link q = nm.link q := by
  unfold readCompleted handleClientData
  dsimp only
  split
  · split
    · simp [link, h]
    · rename_i hcap
      have hdata : ((nm.socketBuffers p).getD [] ++ chunk).length ≤ kMaxAccumulatedBytesV2 := by
        rw [List.length_append]
        omega
      rw [extractV2Messages_eq _ p hdata rfl]
      split_ifs <;> simp [link, h]
  · simp [link, h]

/-- The chunks read on connection `p`, in order. -/
def chunksOf (p : Socket) (reads : List (Socket × Bytes)) : List Bytes :=
  reads.filterMap fun r => if r.1 = p then some r.2 else none

/-- Connections are independent: after any interleaving of reads, the link of a
connection is the one its own chunks lead to. -/
theorem link_readAll (nm : NetworkManager) (p : Socket) (reads : List (Socket × Bytes)) :
    (nm.readAll reads).link p = (nm.link p).readAll (chunksOf p reads) := by
  induction reads generalizing nm with
  | nil => rfl
  | cons r reads ih =>
    change ((nm.readCompleted r.1 r.2).readAll reads).link p = _
    rw [ih]
    by_cases h : r.1 = p
    · subst h
      simp [chunksOf, link_readCompleted, Link.readAll]
    · rw [link_readCompleted_other nm h]
      simp [chunksOf, h]

theorem link_fresh (p : Socket) : fresh.link p = Link.start := rfl

/-- The network manager after the chunks were read one after another on connection `p`. -/
def afterChunks (p : Socket) (chunks : List Bytes) : NetworkManager :=
  fresh.readAll (chunks.map fun chunk => (p, chunk))

theorem link_afterChunks (p : Socket) (chunks : List Bytes) :
    (afterChunks p chunks).link p = Link.start.readAll chunks := by
  have h : chunksOf p (chunks.map fun chunk => (p, chunk)) = chunks := by
    induction chunks with
    | nil => rfl
    | cons chunk chunks ih => simp [chunksOf]
  rw [afterChunks, link_readAll, link_fresh, h]

end NetworkManager

/-! ## Every byte is accounted for -/

namespace Link

/-- A link that has read the bytes `received`. -/
structure Faithful (l : Link) (received : Bytes) : Prop where
  prefix_decoding : l.delivered <+: referenceDecoding received
  accounts : l.isOpen = true → wireCodec.Accounts received (l.delivered, l.kept)

theorem faithful_start : start.Faithful [] :=
  ⟨List.prefix_refl _, fun _ => wireCodec.accounts_nil⟩

theorem Faithful.read {l : Link} {received : Bytes} (h : l.Faithful received) (chunk : Bytes) :
    (l.read chunk).Faithful (received ++ chunk) := by
  have hlonger : l.delivered <+: referenceDecoding (received ++ chunk) :=
    h.prefix_decoding.trans (wireCodec.decode_prefix_append received chunk)
  unfold Link.read
  cases hopen : l.isOpen with
  | false =>
    refine ⟨hlonger, fun ho => ?_⟩
    rw [if_neg (by simp)] at ho
    cases ho
  | true =>
    have hfeed := (h.accounts hopen).feed NetworkManager.MAX_MESSAGES_PER_READ chunk
    rw [if_pos rfl]
    unfold handle
    split
    · exact ⟨hlonger, fun ho => by cases ho⟩
    · dsimp only
      split
      · exact ⟨hfeed.prefix_decode, fun ho => by cases ho⟩
      · exact ⟨hfeed.prefix_decode, fun _ => hfeed⟩

theorem Faithful.readAll {l : Link} {received : Bytes} (h : l.Faithful received)
    (chunks : List Bytes) : (l.readAll chunks).Faithful (received ++ chunks.flatten) := by
  induction chunks generalizing l received with
  | nil => simpa [Link.readAll] using h
  | cons chunk chunks ih =>
    rw [List.flatten_cons, ← List.append_assoc]
    exact ih (h.read chunk)

theorem faithful_readAll (chunks : List Bytes) :
    (start.readAll chunks).Faithful chunks.flatten := by
  simpa using faithful_start.readAll chunks

end Link

/-- Reassembly loses, duplicates, reorders and corrupts nothing: at any point of any
interleaving of reads, what connection `p` delivered is a prefix of the reference
decoding of the stream sent on it, and while `p` is open the frames delivered and the
bytes kept are together exactly the bytes received. -/
theorem reassembly_faithful (reads : List (Socket × Bytes)) (p : Socket) (s : Bytes)
    (hs : (NetworkManager.chunksOf p reads).flatten <+: s) :
    (NetworkManager.fresh.readAll reads).delivered p <+: referenceDecoding s ∧
    ((NetworkManager.fresh.readAll reads).isOpen p = true →
      packAll ((NetworkManager.fresh.readAll reads).delivered p) ++
          (NetworkManager.fresh.readAll reads).kept p =
        (NetworkManager.chunksOf p reads).flatten) ∧
    ∀ ms : List Bytes, (∀ m ∈ ms, m.length ≤ kMaxFrameBytes) → s = packAll ms →
      (NetworkManager.fresh.readAll reads).delivered p <+: ms := by
  have hlink := NetworkManager.link_readAll NetworkManager.fresh p reads
  rw [NetworkManager.link_fresh] at hlink
  have hf := Link.faithful_readAll (NetworkManager.chunksOf p reads)
  rw [← hlink] at hf
  have hpre : (NetworkManager.fresh.readAll reads).delivered p <+: referenceDecoding s :=
    hf.prefix_decoding.trans (wireCodec.decode_mono hs)
  refine ⟨hpre, fun hopen => (hf.accounts hopen).bytes, ?_⟩
  rintro ms hms rfl
  have hdec : referenceDecoding (packAll ms) = ms := wireCodec.decode_encodeAll hms
  rwa [hdec] at hpre

/-- The stream of the messages `a` and `b`, cut inside the second length prefix and
interleaved with a read on another connection. -/
theorem reassembly_faithful_split_length :
    let nm := NetworkManager.fresh.readAll
      [(1, [1, 0, 0, 0, 97, 1]), (2, [7]), (1, [0, 0, 0, 98])]
    nm.delivered 1 <+: referenceDecoding (packAll [[97], [98]]) ∧
    (nm.isOpen 1 = true →
      packAll (nm.delivered 1) ++ nm.kept 1 =
        (NetworkManager.chunksOf 1
          [(1, [1, 0, 0, 0, 97, 1]), (2, [7]), (1, [0, 0, 0, 98])]).flatten) ∧
    ∀ ms : List Bytes, (∀ m ∈ ms, m.length ≤ kMaxFrameBytes) → packAll [[97], [98]] = packAll ms →
      nm.delivered 1 <+: ms :=
  reassembly_faithful [(1, [1, 0, 0, 0, 97, 1]), (2, [7]), (1, [0, 0, 0, 98])] 1
    (packAll [[97], [98]]) (by decide)

end LoginServer
