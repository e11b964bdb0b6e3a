import Mathlib.Data.List.Basic
import Mathlib.Data.List.Flatten

/-!
# Codecs that split a stream into frames

A `FrameCodec` reads the head of a stream with `scan` and writes one frame with
`encode`. Its four laws say that the two agree, that no valid frame is empty and
that a rejected head stays rejected whatever follows it. From them this file
derives what any receiver of such a stream needs:

* `drain n xs` takes at most `n` frames from the front of `xs`; nothing is lost
  (`encodeAll_drain`) and the frames are the first `n` of `decode xs` (`drain_fst`).
* `decode` is the reference decoding. It is monotone in the stream
  (`decode_prefix_append`) and inverts `encodeAll` on valid frames
  (`decode_encodeAll`); no prefix of an encoding is rejected
  (`scan_ne_reject_of_sent`), nor what its decoding leaves (`exists_rest_of_sent`).
* `feed k` is a receiver that keeps the bytes it has not decoded yet and takes at
  most `k` frames each time a chunk arrives. It accounts for every byte
  (`Accounts.feed`) and delivers the first frames of the stream (`Accounts.feed_fst`).
-/

namespace Streams

variable {α β : Type}

/-- What a scan of the head of a stream finds. -/
inductive Scan (α β : Type) where
  /-- The head is not complete yet. -/
  | more
  /-- The head cannot be completed to a frame. -/
  | reject
  /-- A frame, and the stream after it. -/
  | frame (b : β) (rest : List α)

def Scan.isReject {α β : Type} : Scan α β → Bool
  | .reject => true
  | _ => false

structure FrameCodec (α β : Type) where
  scan : List α → Scan α β
  encode : β → List α
  Valid : β → Prop
  encode_ne_nil : ∀ {b}, Valid b → encode b ≠ []
  scan_encode : ∀ {b} (rest), Valid b → scan (encode b ++ rest) = .frame b rest
  scan_frame : ∀ {xs b rest}, scan xs = .frame b rest → Valid b ∧ xs = encode b ++ rest
  scan_reject : ∀ {xs} (ys), scan xs = .reject → scan (xs ++ ys) = .reject

namespace FrameCodec

variable (c : FrameCodec α β)

def encodeAll (bs : List β) : List α := (bs.map c.encode).flatten

/-- At most `n` frames from the front of the stream, and what is left of it. -/
def drain : Nat → List α → List β × List α
  | 0, xs => ([], xs)
  | n + 1, xs =>
    match c.scan xs with
    | .frame b rest => (b :: (drain n rest).1, (drain n rest).2)
    | _ => ([], xs)

/-- The reference decoding: every frame up to the first incomplete or rejected
head. A frame is not empty, so the length of the stream bounds their number. -/
def decode (xs : List α) : List β := (c.drain xs.length xs).1

@[simp] theorem encodeAll_nil : c.encodeAll [] = [] := rfl

@[simp] theorem encodeAll_cons (b : β) (bs : List β) :
    c.encodeAll (b :: bs) = c.encode b ++ c.encodeAll bs := rfl

@[simp] theorem encodeAll_append (bs bs' : List β) :
    c.encodeAll (bs ++ bs') = c.encodeAll bs ++ c.encodeAll bs' := by
  simp [encodeAll]

@[simp] theorem drain_zero (xs : List α) : c.drain 0 xs = ([], xs) := rfl

theorem drain_frame {xs rest : List α} {b : β} (h : c.scan xs = .frame b rest) (n : Nat) :
    c.drain (n + 1) xs = (b :: (c.drain n rest).1, (c.drain n rest).2) := by
  simp only [drain, h]

theorem drain_stop {xs : List α} (h : ∀ b rest, c.scan xs ≠ .frame b rest) (n : Nat) :
    c.drain n xs = ([], xs) := by
  cases n with
  | zero => rfl
  | succ n =>
    cases hs : c.scan xs with
    | frame b rest => exact absurd hs (h b rest)
    | more => simp only [drain, hs]
    | reject => simp only [drain, hs]

theorem scan_frame_length {xs rest : List α} {b : β} (h : c.scan xs = .frame b rest) :
    rest.length < xs.length := by
  obtain ⟨hv, rfl⟩ := c.scan_frame h
  have := List.length_pos_iff.mpr (c.encode_ne_nil hv)
  rw [List.length_append]
  omega

/-- The frames taken and the bytes left make up the stream. -/
theorem encodeAll_drain (n : Nat) (xs : List α) :
    c.encodeAll (c.drain n xs).1 ++ (c.drain n xs).2 = xs := by
  induction n generalizing xs with
  | zero => rfl
  | succ n ih =>
    by_cases h : ∃ b rest, c.scan xs = .frame b rest
    · obtain ⟨b, rest, h⟩ := h
      rw [c.drain_frame h, encodeAll_cons, List.append_assoc, ih]
      exact (c.scan_frame h).2.symm
    · push Not at h
      rw [c.drain_stop h]
      rfl

theorem length_drain_snd_le (n : Nat) (xs : List α) : (c.drain n xs).2.length ≤ xs.length := by
  have h := congrArg List.length (c.encodeAll_drain n xs)
  rw [List.length_append] at h
  omega

theorem drain_valid (n : Nat) (xs : List α) : ∀ b ∈ (c.drain n xs).1, c.Valid b := by
  induction n generalizing xs with
  | zero => simp
  | succ n ih =>
    by_cases h : ∃ b rest, c.scan xs = .frame b rest
    · obtain ⟨b, rest, h⟩ := h
      rw [c.drain_frame h]
      intro b' hb
      rcases List.mem_cons.mp hb with rfl | hb
      · exact (c.scan_frame h).1
      · exact ih rest b' hb
    · push Not at h
      rw [c.drain_stop h]
      simp

/-- The number of frames allowed does not matter once it reaches the length. -/
theorem drain_eq_of_length_le {xs : List α} {n m : Nat} (hn : xs.length ≤ n)
    (hm : xs.length ≤ m) : c.drain n xs = c.drain m xs := by
  induction n generalizing xs m with
  | zero =>
    have hnil : xs = [] := List.length_eq_zero_iff.mp (by omega)
    subst hnil
    refine (c.drain_stop ?_ m).symm
    intro b rest h
    have := c.scan_frame_length h
    simp at this
  | succ n ih =>
    by_cases h : ∃ b rest, c.scan xs = .frame b rest
    · obtain ⟨b, rest, h⟩ := h
      have hlt := c.scan_frame_length h
      obtain ⟨m, rfl⟩ : ∃ m', m = m' + 1 := ⟨m - 1, by omega⟩
      rw [c.drain_frame h, c.drain_frame h, ih (by omega) (by omega : rest.length ≤ m)]
    · push Not at h
      rw [c.drain_stop h, c.drain_stop h]

/-! ## The reference decoding -/

theorem decode_frame {xs rest : List α} {b : β} (h : c.scan xs = .frame b rest) :
    c.decode xs = b :: c.decode rest := by
  have hlt := c.scan_frame_length h
  obtain ⟨n, hn⟩ : ∃ n, xs.length = n + 1 := ⟨xs.length - 1, by omega⟩
  unfold decode
  rw [hn, c.drain_frame h, c.drain_eq_of_length_le (by omega : rest.length ≤ n) (Nat.le_refl _)]

theorem decode_stop {xs : List α} (h : ∀ b rest, c.scan xs ≠ .frame b rest) :
    c.decode xs = [] := by
  unfold decode
  rw [c.drain_stop h]

theorem decode_eq_nil_iff {xs : List α} :
    c.decode xs = [] ↔ ∀ b rest, c.scan xs ≠ .frame b rest := by
  refine ⟨fun h b rest hs => ?_, c.decode_stop⟩
  rw [c.decode_frame hs] at h
  cases h

@[simp] theorem decode_nil : c.decode [] = [] := rfl

theorem decode_encode {b : β} (hb : c.Valid b) (rest : List α) :
    c.decode (c.encode b ++ rest) = b :: c.decode rest :=
  c.decode_frame (c.scan_encode rest hb)

theorem decode_encodeAll_append {bs : List β} (hbs : ∀ b ∈ bs, c.Valid b) (rest : List α) :
    c.decode (c.encodeAll bs ++ rest) = bs ++ c.decode rest := by
  induction bs with
  | nil => rfl
  | cons b bs ih =>
    rw [encodeAll_cons, List.append_assoc, c.decode_encode (hbs b List.mem_cons_self),
      ih (fun b' hb' => hbs b' (List.mem_cons_of_mem b hb')), List.cons_append]

theorem decode_encodeAll {bs : List β} (hbs : ∀ b ∈ bs, c.Valid b) :
    c.decode (c.encodeAll bs) = bs := by
  simpa using c.decode_encodeAll_append hbs []

/-- Draining splits the decoding of any extension of the stream. -/
theorem drain_decode_append (n : Nat) (xs ys : List α) :
    (c.drain n xs).1 ++ c.decode ((c.drain n xs).2 ++ ys) = c.decode (xs ++ ys) := by
  conv_rhs => rw [← c.encodeAll_drain n xs, List.append_assoc]
  rw [c.decode_encodeAll_append (c.drain_valid n xs)]

theorem drain_fst (n : Nat) (xs : List α) : (c.drain n xs).1 = (c.decode xs).take n := by
  induction n generalizing xs with
  | zero => simp
  | succ n ih =>
    by_cases h : ∃ b rest, c.scan xs = .frame b rest
    · obtain ⟨b, rest, h⟩ := h
      rw [c.drain_frame h, c.decode_frame h, List.take_succ_cons, ih]
    · push Not at h
      rw [c.drain_stop h, c.decode_stop h, List.take_nil]

theorem decode_prefix_append (xs ys : List α) : c.decode xs <+: c.decode (xs ++ ys) := by
  have h := c.drain_decode_append xs.length xs ys
  exact ⟨_, h⟩

theorem decode_mono {xs ys : List α} (h : xs <+: ys) : c.decode xs <+: c.decode ys := by
  obtain ⟨zs, rfl⟩ := h
  exact c.decode_prefix_append xs zs

/-- A proper prefix of the encoding of a valid frame is an incomplete head. -/
theorem scan_more_of_proper {b : β} (hb : c.Valid b) {xs : List α}
    (h : xs <+: c.encode b) (hne : xs ≠ c.encode b) : c.scan xs = .more := by
  obtain ⟨ys, hys⟩ := h
  have hfull : c.scan (xs ++ ys) = .frame b [] := by
    rw [hys]
    simpa using c.scan_encode [] hb
  cases hs : c.scan xs with
  | more => rfl
  | reject =>
    rw [c.scan_reject ys hs] at hfull
    cases hfull
  | frame b' rest =>
    exfalso
    obtain ⟨hv, rfl⟩ := c.scan_frame hs
    rw [List.append_assoc, c.scan_encode _ hv] at hfull
    injection hfull with hb' hrest
    subst hb'
    apply hne
    rw [List.append_eq_nil_iff] at hrest
    rw [hrest.1, List.append_nil]

/-- No prefix of an encoding of valid frames is rejected. -/
theorem scan_ne_reject_of_sent {bs : List β} (hbs : ∀ b ∈ bs, c.Valid b) {xs : List α}
    (h : xs <+: c.encodeAll bs) (hne : xs ≠ []) : c.scan xs ≠ .reject := by
  cases bs with
  | nil => exact absurd (List.prefix_nil.mp h) hne
  | cons b bs =>
    have hb := hbs b List.mem_cons_self
    intro hrej
    rw [encodeAll_cons] at h
    rcases List.prefix_or_prefix_of_prefix h (List.prefix_append _ _) with hp | hp
    · by_cases heq : xs = c.encode b
      · have := c.scan_encode [] hb
        rw [List.append_nil, ← heq, hrej] at this
        cases this
      · rw [c.scan_more_of_proper hb hp heq] at hrej
        cases hrej
    · obtain ⟨rest, rfl⟩ := hp
      rw [c.scan_encode rest hb] at hrej
      cases hrej

theorem encodeAll_take_length_mono (bs : List β) {m n : Nat} (h : m ≤ n) :
    (c.encodeAll (bs.take m)).length ≤ (c.encodeAll (bs.take n)).length := by
  obtain ⟨k, rfl⟩ := Nat.exists_eq_add_of_le h
  rw [List.take_add, encodeAll_append, List.length_append]
  exact Nat.le_add_right _ _

/-! ## A receiver that takes at most `k` frames per chunk -/

/-- The frames delivered so far and the bytes kept, after one more chunk. -/
def feed (k : Nat) (s : List β × List α) (chunk : List α) : List β × List α :=
  (s.1 ++ (c.drain k (s.2 ++ chunk)).1, (c.drain k (s.2 ++ chunk)).2)

/-- What a receiver has delivered and kept accounts for everything received. -/
structure Accounts (received : List α) (s : List β × List α) : Prop where
  bytes : c.encodeAll s.1 ++ s.2 = received
  valid : ∀ b ∈ s.1, c.Valid b

theorem accounts_nil : c.Accounts [] ([], []) := ⟨rfl, by simp⟩

theorem Accounts.decode {c : FrameCodec α β} {received : List α} {s : List β × List α}
    (h : c.Accounts received s) (ys : List α) :
    s.1 ++ c.decode (s.2 ++ ys) = c.decode (received ++ ys) := by
  rw [← h.bytes, List.append_assoc, c.decode_encodeAll_append h.valid]

theorem Accounts.prefix_decode {c : FrameCodec α β} {received : List α} {s : List β × List α}
    (h : c.Accounts received s) : s.1 <+: c.decode received :=
  ⟨_, by simpa using h.decode []⟩

/-- A receiver of valid frames never keeps a rejected head. -/
theorem Accounts.scan_ne_reject {c : FrameCodec α β} {received : List α}
    {s : List β × List α} (h : c.Accounts received s) {bs : List β}
    (hbs : ∀ b ∈ bs, c.Valid b) (hsent : received <+: c.encodeAll bs) (hne : s.2 ≠ []) :
    c.scan s.2 ≠ .reject := by
  have hfirst : s.1 <+: bs := by
    rw [← c.decode_encodeAll hbs]
    exact h.prefix_decode.trans (c.decode_mono hsent)
  obtain ⟨bs', rfl⟩ := hfirst
  rw [← h.bytes, encodeAll_append, List.prefix_append_right_inj] at hsent
  exact c.scan_ne_reject_of_sent (fun b hb => hbs b (List.mem_append_right _ hb)) hsent hne

/-- Of an encoding of valid frames that has arrived in part, the decoding leaves an
incomplete head. -/
theorem exists_rest_of_sent {bs : List β} (hbs : ∀ b ∈ bs, c.Valid b) {xs : List α}
    (h : xs <+: c.encodeAll bs) :
    ∃ rest, xs = c.encodeAll (c.decode xs) ++ rest ∧ (rest ≠ [] → c.scan rest = .more) := by
  have haccounts : c.Accounts xs (c.drain xs.length xs) :=
    ⟨c.encodeAll_drain xs.length xs, c.drain_valid xs.length xs⟩
  refine ⟨(c.drain xs.length xs).2, haccounts.bytes.symm, fun hne => ?_⟩
  cases hs : c.scan (c.drain xs.length xs).2 with
  | more => rfl
  | reject => exact absurd hs (haccounts.scan_ne_reject hbs h hne)
  | frame b rest =>
    have hdecode := haccounts.decode []
    rw [List.append_nil, List.append_nil, c.decode_frame hs] at hdecode
    exact absurd (List.append_right_eq_self.mp hdecode) (List.cons_ne_nil _ _)

theorem Accounts.feed {c : FrameCodec α β} {received : List α} {s : List β × List α}
    (h : c.Accounts received s) (k : Nat) (chunk : List α) :
    c.Accounts (received ++ chunk) (c.feed k s chunk) := by
  refine ⟨?_, ?_⟩
  · simp only [FrameCodec.feed, encodeAll_append, List.append_assoc, c.encodeAll_drain]
    rw [← List.append_assoc, h.bytes]
  · intro b hb
    rcases List.mem_append.mp hb with hb | hb
    · exact h.valid b hb
    · exact c.drain_valid k _ b hb

/-- After a chunk the receiver has delivered the first frames of the stream: all
of them, or `k` more than before. -/
theorem Accounts.feed_fst {c : FrameCodec α β} {received : List α} {s : List β × List α}
    (h : c.Accounts received s) (k : Nat) (chunk : List α) :
    (c.feed k s chunk).1 = (c.decode (received ++ chunk)).take (s.1.length + k) := by
  have hle : s.1.length ≤ s.1.length + k := Nat.le_add_right _ _
  simp only [FrameCodec.feed]
  rw [c.drain_fst, ← h.decode chunk, List.take_append, List.take_of_length_le hle,
    Nat.add_sub_cancel_left]

theorem Accounts.feed_length {c : FrameCodec α β} {received : List α} {s : List β × List α}
    (h : c.Accounts received s) (k : Nat) (chunk : List α) :
    (c.feed k s chunk).1.length =
      min (s.1.length + k) (c.decode (received ++ chunk)).length := by
  rw [h.feed_fst, List.length_take]

end FrameCodec

end Streams
