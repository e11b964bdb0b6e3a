import LoginServer.Network.Reassembly
import LoginServer.Streams.Throttle

/-!
# The backlog of a conforming stream

A conforming client sends packed frames within the cap. On such a stream the number of
messages delivered after `i` reads is the number `Streams.served` of those that have
arrived, as long as the overflow guard has not closed the connection
(`Conforming.progress`). So the limit per read leaves a complete frame waiting exactly
after a read that completes more than `MAX_MESSAGES_PER_READ` frames
(`Conforming.caughtUp_iff`), and the guard fires exactly when the bytes left waiting
exceed the headroom (`Conforming.overflowed_iff`).
-/

namespace LoginServer

open protocol Streams

/-- The chunks are read from a stream of the messages `ms`, each within the cap. -/
structure Conforming (ms chunks : List Bytes) : Prop where
  valid : ∀ m ∈ ms, m.length ≤ kMaxFrameBytes
  sent : chunks.flatten <+: packAll ms

/-- The number of messages that are complete in the first `i` chunks. -/
def arrived (chunks : List Bytes) (i : Nat) : Nat :=
  (referenceDecoding (chunks.take i).flatten).length

/-- The number of messages delivered after `i` reads. -/
def taken (chunks : List Bytes) : Nat → Nat :=
  served NetworkManager.MAX_MESSAGES_PER_READ (arrived chunks)

namespace Link

/-- The link after the first `i` chunks. -/
def after (chunks : List Bytes) (i : Nat) : Link := start.readAll (chunks.take i)

theorem after_succ (chunks : List Bytes) {i : Nat} (hi : i < chunks.length) :
    after chunks (i + 1) = (after chunks i).read chunks[i] := by
  rw [after, List.take_succ_eq_append_getElem hi, readAll_append]
  rfl

/-- A complete frame is waiting in the buffer. -/
def waiting (l : Link) : Bool :=
  match scanFrame l.kept with
  | .frame _ _ => true
  | _ => false

theorem waiting_eq_false_iff {l : Link} :
    l.waiting = false ↔ wireCodec.decode l.kept = [] := by
  rw [FrameCodec.decode_eq_nil_iff, waiting]
  cases hs : scanFrame l.kept <;> simp [hs]

end Link

theorem arrived_zero (chunks : List Bytes) : arrived chunks 0 = 0 := rfl

theorem flatten_take_succ (chunks : List Bytes) {i : Nat} (hi : i < chunks.length) :
    (chunks.take (i + 1)).flatten = (chunks.take i).flatten ++ chunks[i] := by
  rw [List.take_succ_eq_append_getElem hi, List.flatten_append, List.flatten_singleton]

theorem prefix_flatten_take (chunks : List Bytes) (i : Nat) :
    (chunks.take i).flatten <+: chunks.flatten := by
  refine ⟨(chunks.drop i).flatten, ?_⟩
  rw [← List.flatten_append, List.take_append_drop]

/-! ## One read of a conforming stream -/

/-- Below the cap a read feeds the codec and the link stays open. -/
theorem Link.read_eq_feed {l : Link} {received chunk : Bytes} {ms : List Bytes}
    (hopen : l.isOpen = true) (hacc : wireCodec.Accounts received (l.delivered, l.kept))
    (hms : ∀ m ∈ ms, m.length ≤ kMaxFrameBytes) (hsent : received ++ chunk <+: packAll ms)
    (hcap : l.kept.length + chunk.length ≤ kMaxAccumulatedBytesV2) :
    l.read chunk =
      let d := wireCodec.feed NetworkManager.MAX_MESSAGES_PER_READ (l.delivered, l.kept) chunk
      { l with delivered := d.1, kept := d.2 } := by
  have hfeed := hacc.feed NetworkManager.MAX_MESSAGES_PER_READ chunk
  have hvalid : ¬ (scanFrame (wireCodec.feed NetworkManager.MAX_MESSAGES_PER_READ
      (l.delivered, l.kept) chunk).2).isReject = true := by
    by_cases hnil : (wireCodec.feed NetworkManager.MAX_MESSAGES_PER_READ
        (l.delivered, l.kept) chunk).2 = []
    · rw [hnil]
      decide
    · have := hfeed.scan_ne_reject hms hsent hnil
      intro hrej
      rw [wireCodec_scan] at this
      revert this hrej
      cases scanFrame (wireCodec.feed NetworkManager.MAX_MESSAGES_PER_READ
        (l.delivered, l.kept) chunk).2 <;> simp [Scan.isReject]
  unfold Link.read handle
  rw [if_pos hopen, if_neg (Nat.not_lt.mpr hcap)]
  exact if_neg fun h => hvalid h.2

theorem Link.overflowed_read {l : Link} (hopen : l.isOpen = true) (chunk : Bytes) :
    (l.read chunk).overflowed = false ↔
      l.overflowed = false ∧ l.kept.length + chunk.length ≤ kMaxAccumulatedBytesV2 := by
  unfold Link.read handle
  rw [if_pos hopen]
  split
  · simp only [Bool.true_eq_false, false_iff]
    omega
  · dsimp only
    split <;> simp only [iff_self_and] <;> omega

theorem Link.overflowed_read_of_overflowed {l : Link} (h : l.overflowed = true) (chunk : Bytes) :
    (l.read chunk).overflowed = true := by
  unfold Link.read handle
  dsimp only
  split_ifs <;> first | exact h | rfl

/-! ## Runs on a conforming stream -/

namespace Conforming

variable {ms chunks : List Bytes}

theorem sent_take (h : Conforming ms chunks) (i : Nat) :
    (chunks.take i).flatten <+: packAll ms :=
  (prefix_flatten_take chunks i).trans h.sent

/-- What holds after `i` reads as long as the guard has not fired. -/
structure Progress (ms chunks : List Bytes) (i : Nat) : Prop where
  isOpen : (Link.after chunks i).isOpen = true
  accounts : wireCodec.Accounts (chunks.take i).flatten
    ((Link.after chunks i).delivered, (Link.after chunks i).kept)
  count : (Link.after chunks i).delivered.length = taken chunks i

theorem Progress.delivered_eq {i : Nat} (hp : Progress ms chunks i) (h : Conforming ms chunks) :
    (Link.after chunks i).delivered = ms.take (taken chunks i) := by
  have hpre : (Link.after chunks i).delivered <+: ms := by
    rw [← wireCodec.decode_encodeAll h.valid]
    exact hp.accounts.prefix_decode.trans (wireCodec.decode_mono (h.sent_take i))
  rw [List.prefix_iff_eq_take.mp hpre, hp.count]

/-- The bytes waiting are those received and not delivered. -/
theorem Progress.length_received {i : Nat} (hp : Progress ms chunks i)
    (h : Conforming ms chunks) :
    (chunks.take i).flatten.length =
      (packAll (ms.take (taken chunks i))).length + (Link.after chunks i).kept.length := by
  rw [← hp.delivered_eq h, ← hp.accounts.bytes, List.length_append]
  rfl

theorem Progress.arrived_eq {i : Nat} (hp : Progress ms chunks i) :
    arrived chunks i =
      taken chunks i + (wireCodec.decode (Link.after chunks i).kept).length := by
  have hdec := congrArg List.length (hp.accounts.decode [])
  rw [List.append_nil, List.append_nil, List.length_append, hp.count] at hdec
  exact hdec.symm

/-- Nothing is waiting iff everything that has arrived has been delivered. -/
theorem Progress.waiting_iff {i : Nat} (hp : Progress ms chunks i) :
    (Link.after chunks i).waiting = false ↔ taken chunks i = arrived chunks i := by
  rw [Link.waiting_eq_false_iff, hp.arrived_eq, ← List.length_eq_zero_iff]
  omega

theorem Progress.succ {i : Nat} (hp : Progress ms chunks i) (h : Conforming ms chunks)
    (hi : i < chunks.length)
    (hcap : (Link.after chunks i).kept.length + chunks[i].length ≤ kMaxAccumulatedBytesV2) :
    Progress ms chunks (i + 1) := by
  have hsent : (chunks.take i).flatten ++ chunks[i] <+: packAll ms := by
    rw [← flatten_take_succ chunks hi]
    exact h.sent_take (i + 1)
  have hread := Link.read_eq_feed hp.isOpen hp.accounts h.valid hsent hcap
  have hfeed := hp.accounts.feed NetworkManager.MAX_MESSAGES_PER_READ chunks[i]
  have hlen := hp.accounts.feed_length NetworkManager.MAX_MESSAGES_PER_READ chunks[i]
  rw [← flatten_take_succ chunks hi] at hfeed hlen
  refine ⟨?_, ?_, ?_⟩
  · rw [Link.after_succ chunks hi, hread]
    exact hp.isOpen
  · rw [Link.after_succ chunks hi, hread]
    exact hfeed
  · rw [Link.after_succ chunks hi, hread, taken, served_succ]
    rw [hp.count] at hlen
    exact hlen

theorem progress (h : Conforming ms chunks) {i : Nat} (hi : i ≤ chunks.length)
    (ho : (Link.after chunks i).overflowed = false) : Progress ms chunks i := by
  induction i with
  | zero => exact ⟨rfl, wireCodec.accounts_nil, rfl⟩
  | succ i ih =>
    have hi' : i < chunks.length := hi
    rw [Link.after_succ chunks hi'] at ho
    cases hprev : (Link.after chunks i).overflowed with
    | true =>
      rw [Link.overflowed_read_of_overflowed hprev] at ho
      cases ho
    | false =>
      have hp := ih (Nat.le_of_lt hi') hprev
      exact hp.succ h hi' ((Link.overflowed_read hp.isOpen chunks[i]).mp ho).2

/-- The guard does not fire in the first `m` reads iff no read takes the bytes received
past the cap, counted from the frames already delivered. -/
theorem overflowed_after_iff (h : Conforming ms chunks) {m : Nat} (hm : m ≤ chunks.length) :
    (Link.after chunks m).overflowed = false ↔
      ∀ i < m, (chunks.take (i + 1)).flatten.length ≤
        kMaxAccumulatedBytesV2 + (packAll (ms.take (taken chunks i))).length := by
  induction m with
  | zero => simp [Link.after, Link.readAll, Link.start]
  | succ m ih =>
    have hm' : m < chunks.length := hm
    rw [Nat.forall_lt_succ_right, ← ih (Nat.le_of_lt hm'), Link.after_succ chunks hm']
    cases hprev : (Link.after chunks m).overflowed with
    | true => simp [Link.overflowed_read_of_overflowed hprev]
    | false =>
      have hp := h.progress (Nat.le_of_lt hm') hprev
      have hlen := hp.length_received h
      rw [Link.overflowed_read hp.isOpen, flatten_take_succ chunks hm', List.length_append]
      simp only [hprev, true_and]
      omega

/-- The condition of `overflowed_after_iff` in terms of what has arrived: at every read
the cap holds against the frames that had arrived by each earlier read and those that the
limit per read has let through since. -/
theorem headroom_iff (ms chunks : List Bytes) (i n : Nat) :
    n ≤ kMaxAccumulatedBytesV2 + (packAll (ms.take (taken chunks i))).length ↔
      ∀ j ≤ i, n ≤ kMaxAccumulatedBytesV2 + (packAll (ms.take
        (arrived chunks j + NetworkManager.MAX_MESSAGES_PER_READ * (i - j)))).length := by
  constructor
  · intro hn j hj
    have := wireCodec.encodeAll_take_length_mono ms
      (served_le (k := NetworkManager.MAX_MESSAGES_PER_READ) (arrived_zero chunks) hj)
    exact hn.trans (Nat.add_le_add_left this _)
  · intro hn
    obtain ⟨j, hj, heq⟩ := exists_served_eq (k := NetworkManager.MAX_MESSAGES_PER_READ)
      (arrived_zero chunks) i
    rw [taken, heq]
    exact hn j hj

theorem overflowed_iff (h : Conforming ms chunks) {m : Nat} (hm : m ≤ chunks.length) :
    (Link.after chunks m).overflowed = false ↔
      ∀ i < m, ∀ j ≤ i, (chunks.take (i + 1)).flatten.length ≤
        kMaxAccumulatedBytesV2 + (packAll (ms.take
          (arrived chunks j + NetworkManager.MAX_MESSAGES_PER_READ * (i - j)))).length := by
  rw [h.overflowed_after_iff hm]
  exact forall₂_congr fun i _ => headroom_iff ms chunks i _

/-- What is kept beside no complete frame is shorter than the longest frame. -/
theorem Progress.length_kept_lt {i : Nat} (hp : Progress ms chunks i) (h : Conforming ms chunks)
    (hw : (Link.after chunks i).waiting = false) :
    (Link.after chunks i).kept.length < 4 + kMaxFrameBytes := by
  by_cases hnil : (Link.after chunks i).kept = []
  · rw [hnil, List.length_nil]
    exact Nat.lt_of_lt_of_le (by decide : 0 < 4) (Nat.le_add_right _ _)
  · have hrej := hp.accounts.scan_ne_reject h.valid (h.sent_take i) hnil
    rw [Link.waiting] at hw
    refine length_of_scanFrame_more ?_
    cases hs : scanFrame (Link.after chunks i).kept with
    | more => rfl
    | reject => exact absurd hs hrej
    | frame m rest => simp [hs] at hw

/-- A read finds room under the cap when no complete frame is waiting. -/
theorem not_overflowed_of_not_waiting (h : Conforming ms chunks)
    (hsize : ∀ chunk ∈ chunks, chunk.length ≤ kMaxMessageBytes)
    (hwait : ∀ i < chunks.length, (Link.after chunks i).overflowed = false →
      (Link.after chunks i).waiting = false) {i : Nat} (hi : i ≤ chunks.length) :
    (Link.after chunks i).overflowed = false := by
  induction i with
  | zero => rfl
  | succ i ih =>
    have hi' : i < chunks.length := hi
    have ho := ih (Nat.le_of_lt hi')
    have hp := h.progress (Nat.le_of_lt hi') ho
    have hkept := hp.length_kept_lt h (hwait i hi' ho)
    have hchunk := hsize _ (List.getElem_mem hi')
    have hroom : 4 + kMaxFrameBytes + kMaxMessageBytes ≤ kMaxAccumulatedBytesV2 := by
      decide
    rw [Link.after_succ chunks hi', Link.overflowed_read hp.isOpen]
    exact ⟨ho, by omega⟩

/-- No complete frame is left waiting after any read iff no read completes more frames
than the limit. -/
theorem caughtUp_iff (h : Conforming ms chunks)
    (hsize : ∀ chunk ∈ chunks, chunk.length ≤ kMaxMessageBytes) :
    (∀ i ≤ chunks.length, (Link.after chunks i).waiting = false) ↔
      ∀ i < chunks.length, arrived chunks (i + 1) ≤
        arrived chunks i + NetworkManager.MAX_MESSAGES_PER_READ := by
  rw [← served_eq_arrived_iff (arrived_zero chunks)]
  constructor
  · intro hwait i hi
    have ho := h.not_overflowed_of_not_waiting hsize (fun i hi _ => hwait i (Nat.le_of_lt hi)) hi
    exact (h.progress hi ho).waiting_iff.mp (hwait i hi)
  · intro hserved i hi
    have ho := h.not_overflowed_of_not_waiting hsize (fun i hi ho =>
      (h.progress (Nat.le_of_lt hi) ho).waiting_iff.mpr (hserved i (Nat.le_of_lt hi))) hi
    exact (h.progress hi ho).waiting_iff.mpr (hserved i hi)

/-- A link that has read the whole stream and keeps no complete frame has delivered it. -/
theorem delivered_of_caughtUp (h : Conforming ms chunks) (hall : chunks.flatten = packAll ms)
    (hsize : ∀ chunk ∈ chunks, chunk.length ≤ kMaxMessageBytes)
    (hwait : ∀ i ≤ chunks.length, (Link.after chunks i).waiting = false) :
    (Link.after chunks chunks.length).delivered = ms := by
  have ho := h.not_overflowed_of_not_waiting hsize
    (fun i hi _ => hwait i (Nat.le_of_lt hi)) (Nat.le_refl _)
  have hp := h.progress (Nat.le_refl _) ho
  have hms : arrived chunks chunks.length = ms.length := by
    rw [arrived, List.take_length, hall]
    exact congrArg List.length (wireCodec.decode_encodeAll h.valid)
  rw [hp.delivered_eq h, hp.waiting_iff.mp (hwait _ (Nat.le_refl _)), hms, List.take_length]

end Conforming

/-- `n` empty messages are `4 * n` zero bytes. -/
theorem packAll_replicate_nil (n : Nat) :
    packAll (List.replicate n []) = List.replicate (n * 4) 0 := by
  have hpack : wireCodec.encode [] = List.replicate 4 0 := by decide
  rw [packAll, FrameCodec.encodeAll, List.map_replicate, hpack, List.flatten_replicate_replicate]

/-! ## What a conforming client sees -/

namespace NetworkManager

/-- The whole of `ms` was delivered and no complete frame was left in `socketBuffers`
when the handler returned from any of the reads. -/
def CaughtUp (p : Socket) (ms chunks : List Bytes) : Prop :=
  (afterChunks p chunks).delivered p = ms ∧
  ∀ i ≤ chunks.length, ∀ m rest,
    scanFrame ((afterChunks p (chunks.take i)).kept p) ≠ .frame m rest

/-- Every read of a chunk of the stream is of at most one read buffer. -/
def ReadChunks (chunks : List Bytes) (s : Bytes) : Prop :=
  chunks.flatten = s ∧ ∀ chunk ∈ chunks, chunk.length ≤ kMaxMessageBytes

theorem caughtUp_iff {p : Socket} {ms chunks : List Bytes}
    (hms : ∀ m ∈ ms, m.length ≤ kMaxFrameBytes) (hread : ReadChunks chunks (packAll ms)) :
    CaughtUp p ms chunks ↔ ∀ i < chunks.length,
      arrived chunks (i + 1) ≤ arrived chunks i + MAX_MESSAGES_PER_READ := by
  have hc : Conforming ms chunks := ⟨hms, hread.1 ▸ List.prefix_refl _⟩
  have hkept : ∀ i, (afterChunks p (chunks.take i)).kept p = (Link.after chunks i).kept :=
    fun i => congrArg Link.kept (link_afterChunks p (chunks.take i))
  have hwait : (∀ i ≤ chunks.length, ∀ m rest,
      scanFrame ((afterChunks p (chunks.take i)).kept p) ≠ .frame m rest) ↔
      ∀ i ≤ chunks.length, (Link.after chunks i).waiting = false := by
    refine forall₂_congr fun i _ => ?_
    rw [hkept, Link.waiting_eq_false_iff, FrameCodec.decode_eq_nil_iff]
    rfl
  rw [CaughtUp, hwait, ← hc.caughtUp_iff hread.2]
  refine ⟨And.right, fun h => ⟨?_, h⟩⟩
  have hend := hc.delivered_of_caughtUp hread.1 hread.2 h
  rw [Link.after, List.take_length] at hend
  rw [← hend]
  exact congrArg Link.delivered (link_afterChunks p chunks)

end NetworkManager

/-- Two ways of cutting a stream both deliver all of it, with no complete frame left
behind by any read, exactly when in neither a single read completes more than
`MAX_MESSAGES_PER_READ` frames. -/
theorem delivery_chunking_independent_iff (p : Socket) (ms chunks chunks' : List Bytes)
    (hms : ∀ m ∈ ms, m.length ≤ kMaxFrameBytes)
    (hread : NetworkManager.ReadChunks chunks (packAll ms))
    (hread' : NetworkManager.ReadChunks chunks' (packAll ms)) :
    (NetworkManager.CaughtUp p ms chunks ∧ NetworkManager.CaughtUp p ms chunks') ↔
      (∀ i < chunks.length, arrived chunks (i + 1) ≤
        arrived chunks i + NetworkManager.MAX_MESSAGES_PER_READ) ∧
      (∀ i < chunks'.length, arrived chunks' (i + 1) ≤
        arrived chunks' i + NetworkManager.MAX_MESSAGES_PER_READ) := by
  rw [NetworkManager.caughtUp_iff hms hread, NetworkManager.caughtUp_iff hms hread']

/-- Two messages in one read, and byte by byte. -/
theorem delivery_chunking_independent_iff_two :
    (NetworkManager.CaughtUp 0 [[], [7]] [[0, 0, 0, 0, 1, 0, 0, 0, 7]] ∧
      NetworkManager.CaughtUp 0 [[], [7]] [[0], [0, 0, 0, 1], [0], [0, 0], [7]]) ↔
      (∀ i < 1, arrived [[0, 0, 0, 0, 1, 0, 0, 0, 7]] (i + 1) ≤
        arrived [[0, 0, 0, 0, 1, 0, 0, 0, 7]] i + NetworkManager.MAX_MESSAGES_PER_READ) ∧
      (∀ i < 5, arrived [[0], [0, 0, 0, 1], [0], [0, 0], [7]] (i + 1) ≤
        arrived [[0], [0, 0, 0, 1], [0], [0, 0], [7]] i +
          NetworkManager.MAX_MESSAGES_PER_READ) :=
  delivery_chunking_independent_iff 0 [[], [7]] [[0, 0, 0, 0, 1, 0, 0, 0, 7]]
    [[0], [0, 0, 0, 1], [0], [0, 0], [7]] (by decide) ⟨by decide, by decide⟩
    ⟨by decide, by decide⟩

/-- Eleven empty messages in one read: the eleventh is left in the buffer, while the same
stream read one frame at a time is delivered in full. -/
theorem eleventh_message_waits :
    let ms : List Bytes := List.replicate 11 []
    let chunks : List Bytes := [List.replicate 44 0]
    let chunks' : List Bytes := List.replicate 11 (List.replicate 4 0)
    (∀ m ∈ ms, m.length ≤ kMaxFrameBytes) ∧
      NetworkManager.ReadChunks chunks (packAll ms) ∧
      NetworkManager.ReadChunks chunks' (packAll ms) ∧
      (NetworkManager.afterChunks 0 chunks).delivered 0 = List.replicate 10 [] ∧
      (NetworkManager.afterChunks 0 chunks).kept 0 = packFramedMessage [] ∧
      (NetworkManager.afterChunks 0 chunks').delivered 0 = ms :=
  ⟨by decide, ⟨by decide, by decide⟩, ⟨by decide, by decide⟩, by decide, by decide, by decide⟩

namespace NetworkManager

theorem overflowed_afterChunks_iff (p : Socket) {ms chunks : List Bytes}
    (hc : Conforming ms chunks) :
    (afterChunks p chunks).overflowed p = false ↔
      ∀ i < chunks.length, ∀ j ≤ i, (chunks.take (i + 1)).flatten.length ≤
        kMaxAccumulatedBytesV2 + (packAll (ms.take
          (arrived chunks j + MAX_MESSAGES_PER_READ * (i - j)))).length := by
  have hlink := congrArg Link.overflowed (link_afterChunks p chunks)
  rw [← hc.overflowed_iff (Nat.le_refl _), Link.after, List.take_length, ← hlink]
  rfl

/-- A client that sends `k` empty messages in each of `n` reads. -/
theorem emptyMessages_conforming (n k : Nat) :
    (∀ m ∈ List.replicate (n * k) ([] : Bytes), m.length ≤ kMaxFrameBytes) ∧
    (List.replicate n (List.replicate (k * 4) (0 : UInt8))).flatten =
      packAll (List.replicate (n * k) []) := by
  refine ⟨fun m hm => ?_, ?_⟩
  · rw [List.eq_of_mem_replicate hm]
    exact Nat.zero_le _
  · rw [packAll_replicate_nil, List.flatten_replicate_replicate, Nat.mul_assoc]

theorem emptyMessages_bound {n k : Nat}
    (hno : (afterChunks 0 (List.replicate n (List.replicate (k * 4) 0))).overflowed 0 = false)
    {i : Nat} (hi : i < n) :
    (i + 1) * (k * 4) ≤ kMaxAccumulatedBytesV2 + MAX_MESSAGES_PER_READ * i * 4 := by
  obtain ⟨hms, hstream⟩ := emptyMessages_conforming n k
  have hc : Conforming (List.replicate (n * k) [])
      (List.replicate n (List.replicate (k * 4) 0)) := ⟨hms, hstream ▸ List.prefix_refl _⟩
  have hbound := (overflowed_afterChunks_iff 0 hc).mp hno i
    (by rwa [List.length_replicate]) 0 (Nat.zero_le _)
  rw [arrived_zero, List.take_replicate, List.take_replicate, packAll_replicate_nil,
    List.flatten_replicate_replicate, List.length_replicate, List.length_replicate,
    Nat.zero_add, Nat.sub_zero, Nat.min_eq_left (by omega : i + 1 ≤ n)] at hbound
  have := Nat.mul_le_mul_right 4 (Nat.min_le_left (MAX_MESSAGES_PER_READ * i) (n * k))
  omega

end NetworkManager

/-- The overflow guard spares a conforming client exactly when at no read the bytes
received exceed the cap by more than the frames the limit per read has let through: for
every earlier read, those complete by then and `MAX_MESSAGES_PER_READ` for each read
since. -/
theorem conforming_not_overflowed_iff (p : Socket) (ms chunks : List Bytes)
    (hms : ∀ m ∈ ms, m.length ≤ kMaxFrameBytes) (hsent : chunks.flatten <+: packAll ms) :
    (NetworkManager.afterChunks p chunks).overflowed p = false ↔
      ∀ i < chunks.length, ∀ j ≤ i, (chunks.take (i + 1)).flatten.length ≤
        kMaxAccumulatedBytesV2 + (packAll (ms.take
          (arrived chunks j + NetworkManager.MAX_MESSAGES_PER_READ * (i - j)))).length :=
  NetworkManager.overflowed_afterChunks_iff p ⟨hms, hsent⟩

/-- One message, cut inside its prefix. -/
theorem conforming_not_overflowed_iff_one :
    (NetworkManager.afterChunks 0 [[1, 0], [0, 0, 7]]).overflowed 0 = false ↔
      ∀ i < 2, ∀ j ≤ i, (([[1, 0], [0, 0, 7]] : List Bytes).take (i + 1)).flatten.length ≤
        kMaxAccumulatedBytesV2 + (packAll (([[7]] : List Bytes).take
          (arrived [[1, 0], [0, 0, 7]] j +
            NetworkManager.MAX_MESSAGES_PER_READ * (i - j)))).length :=
  conforming_not_overflowed_iff 0 [[7]] [[1, 0], [0, 0, 7]] (by decide) (by decide)

/-- 523 full reads of empty messages: 2048 frames arrive with each read and 10 are taken,
and the last read closes the connection of a client within every documented limit. -/
theorem empty_messages_overflow :
    (∀ m ∈ List.replicate (523 * 2048) ([] : Bytes), m.length ≤ kMaxFrameBytes) ∧
    (List.replicate 523 (List.replicate (2048 * 4) (0 : UInt8))).flatten =
      packAll (List.replicate (523 * 2048) []) ∧
    (∀ chunk ∈ List.replicate 523 (List.replicate (2048 * 4) (0 : UInt8)),
      chunk.length ≤ kMaxMessageBytes) ∧
    (NetworkManager.afterChunks 0
      (List.replicate 523 (List.replicate (2048 * 4) 0))).overflowed 0 = true := by
  obtain ⟨hms, hstream⟩ := NetworkManager.emptyMessages_conforming 523 2048
  refine ⟨hms, hstream, fun chunk hchunk => ?_, ?_⟩
  · rw [List.eq_of_mem_replicate hchunk, List.length_replicate]
    exact Nat.le_refl _
  · -- the last read brings the 4284416th byte, and 20880 have been taken
    have hbytes : ¬ (522 + 1) * (2048 * 4) ≤
        kMaxAccumulatedBytesV2 + NetworkManager.MAX_MESSAGES_PER_READ * 522 * 4 := by
      decide
    refine Bool.eq_true_of_not_eq_false fun hno => hbytes ?_
    exact NetworkManager.emptyMessages_bound (n := 523) hno (by omega)

end LoginServer
