import LoginServer.Nlohmann.Serializer
import LoginServer.Nlohmann.Strings

/-!
# The serializer writes the texts that are UTF-8

The table of `decode` is the automaton of the ranges that the lexer compares with: a state
stands for the ranges of the bytes that are still to come (`stateRanges`). So `dump_escaped`
ends with a text exactly if its argument is UTF-8 (`dump_escaped_eq_some_iff`), and it never
writes past its buffer (`dump_escaped_in_bounds`).
-/

namespace LoginServer.Nlohmann

open Unicode

/-! ## The automaton -/

def stateRanges : Nat → List (UInt8 × UInt8)
  | 2 => [(0x80, 0xBF)]
  | 3 => [(0x80, 0xBF), (0x80, 0xBF)]
  | 4 => [(0xA0, 0xBF), (0x80, 0xBF)]
  | 5 => [(0x80, 0x9F), (0x80, 0xBF)]
  | 6 => [(0x90, 0xBF), (0x80, 0xBF), (0x80, 0xBF)]
  | 7 => [(0x80, 0xBF), (0x80, 0xBF), (0x80, 0xBF)]
  | 8 => [(0x80, 0x8F), (0x80, 0xBF), (0x80, 0xBF)]
  | _ => []

/-- The states within a character. -/
def partialStates : List Nat := [2, 3, 4, 5, 6, 7, 8]

def nextState (state byte : Nat) : Nat := utf8d.getD (256 + state * 16 + utf8d.getD byte 0) 0

/-- The code point after the first byte of a character. -/
def firstCode (byte : Nat) : Nat := 0xFF >>> utf8d.getD byte 0 &&& byte

/-- The ranges of the bytes after a first byte, control characters included. -/
def firstRanges (byte : UInt8) : Option (List (UInt8 × UInt8)) :=
  if byte.toNat < 0x20 then some [] else followingRanges byte

/-- What keeps a code point of several bytes from being one of a single byte. -/
def CodeLow (state codepoint : Nat) : Prop :=
  (state = 2 → 2 ≤ codepoint) ∧ (state ≠ 4 ∧ state ≠ 6 → 1 ≤ codepoint)

instance (state codepoint : Nat) : Decidable (CodeLow state codepoint) :=
  inferInstanceAs (Decidable (_ ∧ _))

theorem firstRanges_iff {byte : UInt8} {added : Bytes} :
    (∃ ranges, firstRanges byte = some ranges ∧ List.Forall₂ InRange added ranges) ↔
      IsChar (byte :: added) := by
  unfold firstRanges
  split_ifs with hlow
  · constructor
    · rintro ⟨_, ⟨⟩, hadded⟩
      cases hadded
      exact isChar_one.mpr (by omega)
    · rintro ⟨c, hc⟩
      rcases toNat_of_utf8EncodeChar_eq_cons hc with ⟨-, rfl, -⟩ | ⟨hle, -⟩
      · exact ⟨[], rfl, .nil⟩
      · omega
  · rw [followingRanges_iff]
    exact and_iff_right (by omega)

theorem nextState_accept : ∀ b < 256,
    if (firstRanges (.ofNat b)).isSome then
      firstRanges (.ofNat b) = some (stateRanges (nextState 0 b)) ∧
      (nextState 0 b = 0 ∧ firstCode b = b ∨
        nextState 0 b ∈ partialStates ∧ CodeLow (nextState 0 b) (firstCode b))
    else nextState 0 b = 1 := by
  decide +kernel

theorem nextState_partial : ∀ state ∈ partialStates, ∀ b < 256,
    if ∃ r ∈ (stateRanges state).head?, r.1.toNat ≤ b ∧ b ≤ r.2.toNat then
      (state = 2 ∧ nextState state b = 0 ∨
        nextState state b ∈ partialStates ∧ nextState state b ≠ 4 ∧ nextState state b ≠ 6) ∧
      stateRanges (nextState state b) = (stateRanges state).tail ∧
      (state = 4 ∨ state = 6 → 2 ≤ b &&& 0x3F)
    else nextState state b = 1 := by
  decide +kernel

theorem le_of_mem_partialStates {state : Nat} (h : state ∈ partialStates) :
    2 ≤ state ∧ stateRanges state ≠ [] ∧ (stateRanges state).length ≤ 3 := by
  revert state
  decide

/-! ## One turn -/

def Escaper.output (e : Escaper) : Bytes := e.o ++ e.string_buffer

theorem decode_eq (state codepoint : Nat) (byte : UInt8) :
    decode state codepoint byte = (nextState state byte.toNat,
      if state = UTF8_ACCEPT then firstCode byte.toNat
      else byte.toNat &&& 0x3F ||| codepoint <<< 6) := by
  unfold decode nextState firstCode
  by_cases h : state = UTF8_ACCEPT
  · simp [h]
  · simp [h]

/-- The code point grows with every byte. -/
theorem le_shift_or (a b : Nat) : a ≤ a ||| b <<< 6 ∧ b * 64 ≤ a ||| b <<< 6 := by
  constructor
  · exact Nat.left_le_or
  · refine Nat.le_trans (Nat.le_of_eq ?_) Nat.right_le_or
    rw [Nat.shiftLeft_eq]

theorem escape_of_le {codepoint : Nat} (h : 128 ≤ codepoint) (byte : UInt8) :
    escape codepoint byte = [byte] := by
  unfold escape
  split <;> first | omega | exact if_neg (by omega)

theorem length_escape (codepoint : Nat) (byte : UInt8) : (escape codepoint byte).length ≤ 6 := by
  unfold escape
  split <;> first | decide | (split_ifs <;> simp [unicodeEscape])

namespace Escaper

variable {e e' : Escaper} {byte : UInt8}

theorem step_accept (h : nextState e.state byte.toNat = 0) :
    ∃ e', e.step byte = some e' ∧ e'.state = 0 ∧
      e'.output = e.output ++ escape (decode e.state e.codepoint byte).2 byte ∧
      e'.string_buffer.length ≤ 499 := by
  have hstate : (decode e.state e.codepoint byte).1 = 0 := by rw [decode_eq, h]
  unfold step
  generalize decode e.state e.codepoint byte = decoded at hstate
  obtain ⟨state, codepoint⟩ := decoded
  obtain rfl : state = 0 := hstate
  dsimp only
  rw [if_pos (show 0 = UTF8_ACCEPT from rfl)]
  split_ifs with hflush
  · exact ⟨_, rfl, rfl, by simp [output], Nat.zero_le _⟩
  · refine ⟨_, rfl, rfl, by simp [output], ?_⟩
    dsimp only
    omega

theorem step_reject (h : nextState e.state byte.toNat = 1) : e.step byte = none := by
  unfold step
  rw [decode_eq, h]
  rfl

theorem step_inside (h : 2 ≤ nextState e.state byte.toNat) :
    e.step byte = some ⟨nextState e.state byte.toNat, (decode e.state e.codepoint byte).2, e.o,
      e.string_buffer ++ [byte]⟩ := by
  unfold step
  rw [decode_eq]
  dsimp only
  rw [if_neg (by unfold UTF8_ACCEPT; omega), if_neg (by unfold UTF8_REJECT; omega)]

/-- Between two bytes of a text that may still be UTF-8. -/
def Live (e : Escaper) : Prop :=
  e.state = UTF8_ACCEPT ∨ e.state ∈ partialStates ∧ CodeLow e.state e.codepoint

/-- The first byte of a character. -/
theorem step_first (he : e.state = UTF8_ACCEPT) :
    (firstRanges byte = none ∧ e.step byte = none) ∨
      ∃ e', e.step byte = some e' ∧ firstRanges byte = some (stateRanges e'.state) ∧
        (e'.state = UTF8_ACCEPT ∧ e'.output = e.output ++ escape byte.toNat byte ∨
          (e'.state ∈ partialStates ∧ CodeLow e'.state e'.codepoint) ∧
            e'.output = e.output ++ [byte]) := by
  have htable := nextState_accept byte.toNat byte.toNat_lt
  rw [UInt8.ofNat_toNat] at htable
  have hcode : (decode e.state e.codepoint byte).2 = firstCode byte.toNat := by
    rw [decode_eq, if_pos he]
  split_ifs at htable with hsome
  · obtain ⟨hranges, ⟨hzero, hfirst⟩ | ⟨hwithin, hlow⟩⟩ := htable
    · obtain ⟨e', hstep, hstate, houtput, -⟩ := @step_accept e byte (by rw [he]; exact hzero)
      rw [hzero] at hranges
      rw [hcode, hfirst] at houtput
      exact Or.inr ⟨e', hstep, by rw [hstate]; exact hranges, Or.inl ⟨hstate, houtput⟩⟩
    · have hle := (le_of_mem_partialStates hwithin).1
      refine Or.inr ⟨_, @step_inside e byte (by rw [he]; exact hle), ?_, Or.inr ⟨?_, ?_⟩⟩
      · rw [he]
        exact hranges
      · rw [hcode, he]
        exact ⟨hwithin, hlow⟩
      · simp [output]
  · rw [Bool.not_eq_true, Option.isSome_eq_false_iff, Option.isNone_iff_eq_none] at hsome
    exact Or.inl ⟨hsome, step_reject (by rw [he]; exact htable)⟩

/-- A byte within a character. -/
theorem step_within (he : e.state ∈ partialStates) (hlow : CodeLow e.state e.codepoint) :
    ∃ r ranges, stateRanges e.state = r :: ranges ∧
      ((¬ InRange byte r ∧ e.step byte = none) ∨ (InRange byte r ∧
        ∃ e', e.step byte = some e' ∧ e'.Live ∧ stateRanges e'.state = ranges ∧
          e'.output = e.output ++ [byte])) := by
  obtain ⟨hle, hne, -⟩ := le_of_mem_partialStates he
  obtain ⟨r, ranges, hranges⟩ := List.exists_cons_of_ne_nil hne
  refine ⟨r, ranges, hranges, ?_⟩
  have htable := nextState_partial e.state he byte.toNat byte.toNat_lt
  have hrange : (∃ r' ∈ (stateRanges e.state).head?,
      r'.1.toNat ≤ byte.toNat ∧ byte.toNat ≤ r'.2.toNat) ↔ InRange byte r := by
    simp [hranges, InRange, UInt8.le_iff_toNat_le]
  have hcode : (decode e.state e.codepoint byte).2 =
      byte.toNat &&& 0x3F ||| e.codepoint <<< 6 := by
    rw [decode_eq, if_neg (by unfold UTF8_ACCEPT; omega)]
  obtain ⟨hbyte, hshift⟩ := le_shift_or (byte.toNat &&& 0x3F) e.codepoint
  rw [← hcode] at hbyte hshift
  obtain ⟨hlow2, hlow1⟩ := hlow
  split_ifs at htable with hin
  · refine Or.inr ⟨hrange.mp hin, ?_⟩
    obtain ⟨hnext, htail, hlead⟩ := htable
    rw [hranges, List.tail_cons] at htail
    rcases hnext with ⟨htwo, hzero⟩ | ⟨hwithin, hne4, hne6⟩
    · obtain ⟨e', hstep, hstate, houtput, -⟩ := @step_accept e byte hzero
      refine ⟨e', hstep, Or.inl hstate, ?_, ?_⟩
      · rw [hstate, ← hzero]
        exact htail
      · rw [houtput, escape_of_le]
        have := hlow2 htwo
        omega
    · refine ⟨_, step_inside (le_of_mem_partialStates hwithin).1, Or.inr ⟨hwithin, ?_⟩, htail,
        by simp [output]⟩
      have hcodepoint : 2 ≤ (decode e.state e.codepoint byte).2 := by
        by_cases hfour : e.state = 4 ∨ e.state = 6
        · exact Nat.le_trans (hlead hfour) hbyte
        · have := hlow1 (not_or.mp hfour)
          omega
      exact ⟨fun _ => hcodepoint, fun _ => Nat.le_trans (by decide) hcodepoint⟩
  · exact Or.inl ⟨fun h => hin (hrange.mpr h), step_reject htable⟩

/-! ## Whole characters -/

/-- The bytes that complete a character are copied. -/
theorem run_within {added : Bytes} (he : e.state ∈ partialStates)
    (hlow : CodeLow e.state e.codepoint)
    (hadded : List.Forall₂ InRange added (stateRanges e.state)) :
    ∃ e', added.foldlM step e = some e' ∧ e'.state = UTF8_ACCEPT ∧
      e'.output = e.output ++ added := by
  induction added generalizing e with
  | nil => exact absurd (List.forall₂_nil_left_iff.mp hadded) (le_of_mem_partialStates he).2.1
  | cons b added ih =>
    obtain ⟨r, ranges, hranges, ⟨hnot, -⟩ | ⟨-, e', hstep, hlive, htail, houtput⟩⟩ :=
      @step_within e b he hlow
    · rw [hranges] at hadded
      exact absurd (List.forall₂_cons.mp hadded).1 hnot
    · rw [hranges, List.forall₂_cons, ← htail] at hadded
      rw [List.foldlM_cons, hstep]
      rcases hlive with hstate | ⟨hwithin, hlow'⟩
      · have hnil : stateRanges e'.state = [] := by rw [hstate]; rfl
        rw [hnil, List.forall₂_nil_right_iff] at hadded
        rw [hadded.2]
        exact ⟨e', rfl, hstate, houtput⟩
      · obtain ⟨e'', hrun, hstate, houtput'⟩ := ih hwithin hlow' hadded.2
        exact ⟨e'', hrun, hstate, by rw [houtput', houtput, List.append_assoc]; rfl⟩

/-- A text that is accepted begins with the bytes that complete the character. -/
theorem exists_completion {input : Bytes} (he : e.state ∈ partialStates)
    (hlow : CodeLow e.state e.codepoint) (hrun : input.foldlM step e = some e')
    (haccept : e'.state = UTF8_ACCEPT) :
    ∃ added rest, input = added ++ rest ∧ List.Forall₂ InRange added (stateRanges e.state) := by
  induction input generalizing e with
  | nil =>
    cases hrun
    rw [haccept] at he
    exact absurd he (by decide)
  | cons b input ih =>
    obtain ⟨r, ranges, hranges, ⟨-, hreject⟩ | ⟨hin, e₁, hstep, hlive, htail, -⟩⟩ :=
      @step_within e b he hlow
    · rw [List.foldlM_cons, hreject] at hrun
      cases hrun
    · rw [List.foldlM_cons, hstep] at hrun
      rw [hranges, ← htail]
      rcases hlive with hstate | ⟨hwithin, hlow'⟩
      · refine ⟨[b], input, rfl, .cons hin ?_⟩
        rw [hstate]
        exact .nil
      · obtain ⟨added, rest, rfl, hadded⟩ := ih hwithin hlow' hrun
        exact ⟨b :: added, rest, rfl, .cons hin hadded⟩

end Escaper

/-- How a character is written. -/
def escapeChar (c : Char) : Bytes :=
  if c.toNat < 0x80 then escape c.toNat (.ofNat c.toNat) else String.utf8EncodeChar c

namespace Escaper

variable {e e' : Escaper}

theorem run_char (he : e.state = UTF8_ACCEPT) (c : Char) :
    ∃ e', (String.utf8EncodeChar c).foldlM step e = some e' ∧ e'.state = UTF8_ACCEPT ∧
      e'.output = e.output ++ escapeChar c := by
  cases hbytes : String.utf8EncodeChar c with
  | nil => exact absurd ⟨c, hbytes⟩ isChar_nil
  | cons b added =>
    obtain ⟨ranges, hranges, hadded⟩ := firstRanges_iff.mpr ⟨c, hbytes⟩
    rcases @step_first e b he with ⟨hnone, -⟩ | ⟨e₁, hstep, hsome, hnext⟩
    · rw [hnone] at hranges
      cases hranges
    · rw [hsome] at hranges
      cases hranges
      rw [List.foldlM_cons, hstep]
      rcases hnext with ⟨hstate, houtput⟩ | ⟨⟨hwithin, hlow⟩, houtput⟩
      · rw [hstate] at hadded
        obtain rfl := List.forall₂_nil_right_iff.mp hadded
        have hb : b.toNat ≤ 0x7F := isChar_one.mp ⟨c, hbytes⟩
        rcases toNat_of_utf8EncodeChar_eq_cons hbytes with ⟨hlt, -, hc⟩ | ⟨hle, -⟩
        · refine ⟨e₁, rfl, hstate, ?_⟩
          rw [houtput, escapeChar, hc, if_pos hlt, UInt8.ofNat_toNat]
        · omega
      · obtain ⟨e₂, hrun, hstate, houtput'⟩ := run_within hwithin hlow hadded
        refine ⟨e₂, hrun, hstate, ?_⟩
        have hne : added ≠ [] := by
          rintro rfl
          exact (le_of_mem_partialStates hwithin).2.1 (List.forall₂_nil_left_iff.mp hadded)
        rcases toNat_of_utf8EncodeChar_eq_cons hbytes with ⟨-, hnil, -⟩ | ⟨-, hle⟩
        · exact absurd hnil hne
        · rw [houtput', houtput, escapeChar, if_neg (by omega), hbytes, List.append_assoc]
          rfl

theorem run_text (he : e.state = UTF8_ACCEPT) (cs : List Char) :
    ∃ e', (cs.flatMap String.utf8EncodeChar).foldlM step e = some e' ∧ e'.state = UTF8_ACCEPT ∧
      e'.output = e.output ++ cs.flatMap escapeChar := by
  induction cs generalizing e with
  | nil => exact ⟨e, rfl, he, (List.append_nil _).symm⟩
  | cons c cs ih =>
    obtain ⟨e₁, hchar, hstate, houtput⟩ := run_char he c
    obtain ⟨e₂, hrun, hstate', houtput'⟩ := ih hstate
    refine ⟨e₂, ?_, hstate', ?_⟩
    · rw [List.flatMap_cons, List.foldlM_append, hchar]
      exact hrun
    · rw [houtput', houtput, List.flatMap_cons, List.append_assoc]

/-- A text that is accepted from the end of a character on is UTF-8. -/
theorem isUtf8_of_run {input : Bytes} (he : e.state = UTF8_ACCEPT)
    (hrun : input.foldlM step e = some e') (haccept : e'.state = UTF8_ACCEPT) :
    IsUtf8 input := by
  induction hlength : input.length using Nat.strong_induction_on generalizing e input with
  | _ n ih =>
    cases input with
    | nil => exact isUtf8_nil
    | cons b input =>
      have hcons := hrun
      rw [List.foldlM_cons] at hcons
      -- The character that begins with `b`.
      have hchar : ∃ added rest, input = added ++ rest ∧ IsChar (b :: added) := by
        rcases @step_first e b he with ⟨-, hnone⟩ | ⟨e₁, hstep, hsome, hnext⟩
        · rw [hnone] at hcons
          cases hcons
        · rw [hstep] at hcons
          rcases hnext with ⟨hstate, -⟩ | ⟨⟨hwithin, hlow⟩, -⟩
          · refine ⟨[], input, rfl, firstRanges_iff.mp ⟨_, hsome, ?_⟩⟩
            rw [hstate]
            exact .nil
          · obtain ⟨added, rest, rfl, hadded⟩ := exists_completion hwithin hlow hcons haccept
            exact ⟨added, rest, rfl, firstRanges_iff.mp ⟨_, hsome, hadded⟩⟩
      obtain ⟨added, rest, rfl, c, hc⟩ := hchar
      obtain ⟨e₁, hchar, hstate, -⟩ := run_char he c
      rw [← List.cons_append, ← hc, List.foldlM_append, hchar] at hrun
      have hshorter : rest.length < n := by
        rw [← hlength, List.length_cons, List.length_append]
        omega
      have hrest := ih rest.length hshorter hstate hrun rfl
      exact IsUtf8.append (IsChar.isUtf8 ⟨c, hc⟩) hrest

end Escaper

/-- `dump_escaped` writes what is UTF-8, one character after the other, and nothing else. -/
theorem dump_escaped_eq_some_iff {s out : Bytes} :
    dump_escaped s = some out ↔
      ∃ cs : List Char, cs.flatMap String.utf8EncodeChar = s ∧ cs.flatMap escapeChar = out := by
  constructor
  · intro h
    obtain ⟨e, hrun, hout⟩ := Option.bind_eq_some_iff.mp h
    split_ifs at hout with haccept
    obtain ⟨cs, rfl⟩ := Escaper.isUtf8_of_run rfl hrun haccept
    obtain ⟨e', hrun', -, houtput⟩ := Escaper.run_text (e := {}) rfl cs
    rw [hrun] at hrun'
    cases hrun'
    exact ⟨cs, rfl, (houtput.symm.trans (Option.some.inj hout) : _)⟩
  · rintro ⟨cs, rfl, rfl⟩
    obtain ⟨e, hrun, haccept, houtput⟩ := Escaper.run_text (e := {}) rfl cs
    rw [dump_escaped, hrun]
    exact (if_pos haccept).trans (congrArg some houtput)

theorem dump_escaped_isSome_iff {s : Bytes} : (dump_escaped s).isSome ↔ IsUtf8 s := by
  rw [Option.isSome_iff_exists]
  constructor
  · rintro ⟨out, h⟩
    obtain ⟨cs, hcs, -⟩ := dump_escaped_eq_some_iff.mp h
    exact ⟨cs, hcs⟩
  · rintro ⟨cs, hcs⟩
    exact ⟨_, dump_escaped_eq_some_iff.mpr ⟨cs, hcs, rfl⟩⟩

/-! ## Texts with nothing to escape -/

/-- A printable character of one byte that is neither a quote nor a backslash. -/
def isPlain (b : UInt8) : Bool := 0x20 ≤ b && b < 0x7F && b ≠ 0x22 && b ≠ 0x5C

theorem plain_char : ∀ n < 256, isPlain (.ofNat n) = true →
    String.utf8EncodeChar (Char.ofNat n) = [.ofNat n] ∧
      escapeChar (Char.ofNat n) = [.ofNat n] := by
  decide +kernel

theorem dump_escaped_plain {s : Bytes} (h : ∀ b ∈ s, isPlain b = true) :
    dump_escaped s = some s := by
  have hchar : ∀ b ∈ s, String.utf8EncodeChar (Char.ofNat b.toNat) = [b] ∧
      escapeChar (Char.ofNat b.toNat) = [b] := by
    intro b hb
    have hb' := plain_char b.toNat b.toNat_lt (by rw [UInt8.ofNat_toNat]; exact h b hb)
    rwa [UInt8.ofNat_toNat] at hb'
  have hflat : ∀ f : Char → Bytes, (∀ b ∈ s, f (Char.ofNat b.toNat) = [b]) →
      (s.map fun b => Char.ofNat b.toNat).flatMap f = s := by
    intro f hf
    rw [List.flatMap_map]
    exact (List.flatMap_congr hf).trans (List.flatMap_singleton' s)
  exact dump_escaped_eq_some_iff.mpr ⟨_, hflat _ fun b hb => (hchar b hb).1,
    hflat _ fun b hb => (hchar b hb).2⟩

/-- What `dump` writes for a member with a text. -/
def plainEntry (m : Bytes × Bytes) : Bytes × Bytes :=
  (m.1, 0x22 :: (m.1 ++ 0x22 :: 0x3A :: 0x22 :: (m.2 ++ [0x22])))

theorem dumpMembers_plain (to_chars : UInt64 → Bytes) {members : List (Bytes × Bytes)}
    (h : ∀ m ∈ members, ∀ b ∈ m.1 ++ m.2, isPlain b = true) :
    dumpMembers to_chars (members.map fun m => (m.1, .string m.2)) =
      some (members.map plainEntry) := by
  induction members with
  | nil => rfl
  | cons m members ih =>
    obtain ⟨hm, hmembers⟩ := List.forall_mem_cons.mp h
    obtain ⟨hkey, hvalue⟩ := List.forall_mem_append.mp hm
    rw [List.map_cons, dumpMembers, dump_escaped_plain hkey, dump, dump_escaped_plain hvalue,
      ih hmembers]
    rfl

theorem length_joined (texts : List Bytes) :
    (joined texts).length ≤ (texts.flatMap (0x2C :: ·)).length := by
  induction texts using joined.induct with
  | case1 => exact Nat.le_refl _
  | case2 text => simp [joined]
  | case3 text texts hne ih =>
    rw [joined, List.flatMap_cons, List.length_append, List.length_append, List.length_cons,
      List.length_cons]
    · omega
    · exact hne

theorem exists_dump_object {to_chars : UInt64 → Bytes} {members : List (Bytes × Json)}
    {entries : List (Bytes × Bytes)} (h : dumpMembers to_chars members = some entries) :
    ∃ text, dump to_chars (.object members) = some text ∧
      text.length ≤ (entries.flatMap fun e => 0x2C :: e.2).length + 2 := by
  refine ⟨_, by rw [dump, h]; rfl, ?_⟩
  have hperm := (Relations.sortByKey_perm entries).flatMap_right fun e => 0x2C :: e.2
  have hjoined := length_joined ((Relations.sortByKey entries).map Prod.snd)
  rw [List.flatMap_map] at hjoined
  rw [List.length_cons, List.length_append, List.length_singleton, ← hperm.length_eq]
  exact Nat.succ_le_succ (Nat.succ_le_succ hjoined)

/-- The text of a record of such texts, with a bound on its length. -/
theorem exists_dump_plain (to_chars : UInt64 → Bytes) {members : List (Bytes × Bytes)} {n : Nat}
    (h : ∀ m ∈ members, ∀ b ∈ m.1 ++ m.2, isPlain b = true)
    (hn : ∀ m ∈ members, m.1.length ≤ n ∧ m.2.length ≤ n) :
    ∃ text, dump to_chars (.object (members.map fun m => (m.1, .string m.2))) = some text ∧
      text.length ≤ members.length * (2 * n + 6) + 2 := by
  obtain ⟨text, hdump, hlength⟩ := exists_dump_object (dumpMembers_plain to_chars h)
  refine ⟨text, hdump, hlength.trans (Nat.add_le_add_right ?_ 2)⟩
  clear h hdump hlength
  induction members with
  | nil => exact Nat.zero_le _
  | cons m members ih =>
    obtain ⟨⟨hkey, hvalue⟩, hmembers⟩ := List.forall_mem_cons.mp hn
    have hrest := ih hmembers
    simp only [List.map_cons, List.flatMap_cons, List.length_cons, plainEntry, List.length_append,
      List.length_nil, Nat.add_mul] at hrest ⊢
    omega

/-! ## The buffer -/

/-- What holds between two turns. -/
structure Escaper.Inv (e : Escaper) : Prop where
  live : e.Live
  room : e.string_buffer.length + (stateRanges e.state).length ≤
    if e.state = UTF8_ACCEPT then 499 else 503

theorem Escaper.step_length {e e' : Escaper} {byte : UInt8} (h : e.step byte = some e') :
    if e'.state = UTF8_ACCEPT then e'.string_buffer.length ≤ 499
    else e'.string_buffer.length = e.string_buffer.length + 1 := by
  unfold Escaper.step at h
  generalize decode e.state e.codepoint byte = decoded at h
  obtain ⟨state, codepoint⟩ := decoded
  dsimp only at h
  split_ifs at h with haccept hflush
  · cases h
    rw [if_pos haccept]
    exact Nat.zero_le _
  · cases h
    rw [if_pos haccept]
    dsimp only
    omega
  · cases h
    rw [if_neg haccept, List.length_append, List.length_singleton]

theorem Escaper.Inv.step {e e' : Escaper} {byte : UInt8} (h : e.Inv)
    (hstep : e.step byte = some e') : e'.Inv := by
  have hlength := Escaper.step_length hstep
  have hroom := h.room
  rcases h.live with hstate | ⟨hwithin, hlow⟩
  · rw [hstate, if_pos rfl] at hroom
    rcases @Escaper.step_first e byte hstate with ⟨-, hnone⟩ | ⟨e₁, hsome, -, hnext⟩
    · rw [hnone] at hstep
      cases hstep
    · rw [hstep] at hsome
      cases hsome
      rcases hnext with ⟨hstate', -⟩ | ⟨hnext, -⟩
      · rw [if_pos hstate'] at hlength
        refine ⟨Or.inl hstate', ?_⟩
        rw [if_pos hstate', hstate']
        exact hlength
      · obtain ⟨hle, -, hranges⟩ := le_of_mem_partialStates hnext.1
        have hne : e'.state ≠ UTF8_ACCEPT := by unfold UTF8_ACCEPT; omega
        rw [if_neg hne] at hlength
        refine ⟨Or.inr hnext, ?_⟩
        rw [if_neg hne]
        omega
  · obtain ⟨r, ranges, hranges, ⟨-, hnone⟩ | ⟨-, e₁, hsome, hlive, htail, -⟩⟩ :=
      @Escaper.step_within e byte hwithin hlow
    · rw [hnone] at hstep
      cases hstep
    · rw [hstep] at hsome
      cases hsome
      have hne : e.state ≠ UTF8_ACCEPT := by
        have := (le_of_mem_partialStates hwithin).1
        unfold UTF8_ACCEPT
        omega
      rw [if_neg hne, hranges, List.length_cons, ← htail] at hroom
      refine ⟨hlive, ?_⟩
      split_ifs at hlength ⊢ with hstate'
      · rw [hstate']
        exact hlength
      · omega

theorem Escaper.Inv.run {before : Bytes} {e e' : Escaper} (h : e.Inv)
    (hrun : before.foldlM Escaper.step e = some e') : e'.Inv := by
  induction before generalizing e with
  | nil =>
    cases hrun
    exact h
  | cons b before ih =>
    rw [List.foldlM_cons] at hrun
    obtain ⟨e₁, hstep, hrest⟩ := Option.bind_eq_some_iff.mp hrun
    exact ih (h.step hstep) hrest

theorem Escaper.Inv.length_le {e : Escaper} (h : e.Inv) : e.string_buffer.length ≤ 502 := by
  have hroom := h.room
  rcases h.live with hstate | ⟨hwithin, -⟩
  · rw [if_pos hstate] at hroom
    omega
  · obtain ⟨hle, hne, -⟩ := le_of_mem_partialStates hwithin
    have hpos := List.length_pos_of_ne_nil hne
    split_ifs at hroom <;> omega

/-- No turn writes past the 512 bytes of the string buffer, the zero byte that `snprintf`
adds included. -/
theorem dump_escaped_in_bounds {before : Bytes} {e : Escaper}
    (h : before.foldlM Escaper.step {} = some e) (byte : UInt8) :
    e.string_buffer.length + (escape (decode e.state e.codepoint byte).2 byte).length + 1 ≤
      512 := by
  have hinv : Escaper.Inv {} := ⟨Or.inl rfl, by decide⟩
  have hlength := (hinv.run h).length_le
  have hescape := length_escape (decode e.state e.codepoint byte).2 byte
  omega

/-- Within a character of two bytes. -/
theorem dump_escaped_in_bounds_within :
    (Escaper.mk 2 3 [] [0x41, 0xC3]).string_buffer.length +
      (escape (decode 2 3 0xA9).2 0xA9).length + 1 ≤ 512 :=
  dump_escaped_in_bounds
    (show [0x41, 0xC3].foldlM Escaper.step {} = some (Escaper.mk 2 3 [] [0x41, 0xC3]) from rfl) 0xA9

end LoginServer.Nlohmann
