import LoginServer.Nlohmann.Grammar

/-!
# The lexer reads the numbers of the grammar

`NumberState.Completes` says what completes a number from a state of `scan_number`. A byte
leads from one state to the next as it shortens what completes the number
(`completes_cons_iff`), so the scan takes the longest completion (`scan_number_states_sound`,
`scan_number_states_complete`). A number goes on as long as digits, a point or an exponent
mark follow; the scan is complete where none of them does (`Follows`).
-/

namespace LoginServer.Nlohmann

open NumberState NumberStep

/-! ## What completes a number -/

def ExponentMark (b : UInt8) : Prop := b = 0x65 ∨ b = 0x45

/-- A fraction and an exponent. -/
def Ending (s : Bytes) : Prop :=
  ∃ fraction exponent, Fraction fraction ∧ Exponent exponent ∧ s = fraction ++ exponent

/-- Any number of digits and then a text with `P`. -/
def AfterDigits (P : Bytes → Prop) (s : Bytes) : Prop :=
  ∃ digits tail, (∀ d ∈ digits, isDigit d) ∧ P tail ∧ s = digits ++ tail

def NumberState.Completes : NumberState → Bytes → Prop
  | minus, s => ∃ digits tail, Integer digits ∧ Ending tail ∧ s = digits ++ tail
  | zero, s => Ending s
  | any1, s => AfterDigits Ending s
  | decimal1, s => ∃ digits tail, Digits digits ∧ Exponent tail ∧ s = digits ++ tail
  | decimal2, s => AfterDigits Exponent s
  | exponent, s =>
    ∃ sign digits, (sign = [] ∨ sign = [0x2B] ∨ sign = [0x2D]) ∧ Digits digits ∧
      s = sign ++ digits
  | sign, s => Digits s
  | any2, s => ∀ d ∈ s, isDigit d

theorem digits_cons_iff {c : UInt8} {s : Bytes} :
    Digits (c :: s) ↔ isDigit c ∧ ∀ d ∈ s, isDigit d := by
  rw [Digits, List.forall_mem_cons]
  exact and_iff_right (List.cons_ne_nil c s)

theorem afterDigits_nil_iff {P : Bytes → Prop} : AfterDigits P [] ↔ P [] := by
  constructor
  · rintro ⟨digits, tail, -, htail, hs⟩
    obtain ⟨rfl, rfl⟩ := List.nil_eq_append_iff.mp hs
    exact htail
  · intro h
    exact ⟨[], [], by simp, h, rfl⟩

theorem afterDigits_cons_iff {P : Bytes → Prop} {c : UInt8} {s : Bytes} :
    AfterDigits P (c :: s) ↔ isDigit c ∧ AfterDigits P s ∨ P (c :: s) := by
  constructor
  · rintro ⟨digits, tail, hdigits, htail, hs⟩
    cases digits with
    | nil =>
      rw [List.nil_append] at hs
      subst hs
      exact Or.inr htail
    | cons d digits =>
      obtain ⟨rfl, rfl⟩ := List.cons.inj hs
      obtain ⟨hd, hdigits⟩ := List.forall_mem_cons.mp hdigits
      exact Or.inl ⟨hd, digits, tail, hdigits, htail, rfl⟩
  · rintro (⟨hc, digits, tail, hdigits, htail, rfl⟩ | h)
    · exact ⟨c :: digits, tail, List.forall_mem_cons.mpr ⟨hc, hdigits⟩, htail, rfl⟩
    · exact ⟨[], c :: s, by simp, h, rfl⟩

theorem exponent_cons_iff {c : UInt8} {s : Bytes} :
    Exponent (c :: s) ↔ ExponentMark c ∧ exponent.Completes s := by
  constructor
  · rintro ⟨⟩
    rename_i sign digits hsign hdigits hmark
    exact ⟨hmark, sign, digits, hsign, hdigits, rfl⟩
  · rintro ⟨hmark, sign, digits, hsign, hdigits, rfl⟩
    exact .present hmark hsign hdigits

theorem ending_nil : Ending [] := ⟨[], [], .absent, .absent, rfl⟩

theorem ending_cons_iff {c : UInt8} {s : Bytes} :
    Ending (c :: s) ↔ c = 0x2E ∧ decimal1.Completes s ∨ ExponentMark c ∧ exponent.Completes s := by
  constructor
  · rintro ⟨fraction, tail, hfraction, htail, hs⟩
    cases hfraction with
    | absent =>
      rw [List.nil_append] at hs
      subst hs
      exact Or.inr (exponent_cons_iff.mp htail)
    | @present digits hdigits =>
      obtain ⟨rfl, rfl⟩ := List.cons.inj hs
      exact Or.inl ⟨rfl, digits, tail, hdigits, htail, rfl⟩
  · rintro (⟨rfl, digits, tail, hdigits, htail, rfl⟩ | h)
    · exact ⟨0x2E :: digits, tail, .present hdigits, htail, rfl⟩
    · exact ⟨[], c :: s, .absent, exponent_cons_iff.mpr h, rfl⟩

theorem decimal1_cons_iff {c : UInt8} {s : Bytes} :
    decimal1.Completes (c :: s) ↔ isDigit c ∧ decimal2.Completes s := by
  constructor
  · rintro ⟨digits, tail, hdigits, htail, hs⟩
    cases digits with
    | nil => exact absurd rfl hdigits.1
    | cons d digits =>
      obtain ⟨rfl, rfl⟩ := List.cons.inj hs
      obtain ⟨hd, hdigits⟩ := digits_cons_iff.mp hdigits
      exact ⟨hd, digits, tail, hdigits, htail, rfl⟩
  · rintro ⟨hc, digits, tail, hdigits, htail, rfl⟩
    exact ⟨c :: digits, tail, digits_cons_iff.mpr ⟨hc, hdigits⟩, htail, rfl⟩

theorem completes_exponent_cons_iff {c : UInt8} {s : Bytes} :
    exponent.Completes (c :: s) ↔
      (c = 0x2B ∨ c = 0x2D) ∧ sign.Completes s ∨ isDigit c ∧ any2.Completes s := by
  constructor
  · rintro ⟨_, digits, rfl | rfl | rfl, hdigits, hs⟩
    · rw [List.nil_append] at hs
      subst hs
      exact Or.inr (digits_cons_iff.mp hdigits)
    · obtain ⟨rfl, rfl⟩ := List.cons.inj hs
      exact Or.inl ⟨Or.inl rfl, hdigits⟩
    · obtain ⟨rfl, rfl⟩ := List.cons.inj hs
      exact Or.inl ⟨Or.inr rfl, hdigits⟩
  · rintro (⟨rfl | rfl, h⟩ | h)
    · exact ⟨[0x2B], s, Or.inr (Or.inl rfl), h, rfl⟩
    · exact ⟨[0x2D], s, Or.inr (Or.inr rfl), h, rfl⟩
    · exact ⟨[], c :: s, Or.inl rfl, digits_cons_iff.mpr h, rfl⟩

theorem minus_cons_iff {c : UInt8} {s : Bytes} :
    minus.Completes (c :: s) ↔
      c = 0x30 ∧ zero.Completes s ∨ (isDigit c ∧ c ≠ 0x30) ∧ any1.Completes s := by
  constructor
  · rintro ⟨digits, tail, ⟨hdigits, hzero⟩, htail, hs⟩
    cases digits with
    | nil => exact absurd rfl hdigits.1
    | cons d digits =>
      obtain ⟨rfl, rfl⟩ := List.cons.inj hs
      obtain ⟨hc, hrest⟩ := digits_cons_iff.mp hdigits
      by_cases heq : c = 0x30
      · subst heq
        obtain rfl := (List.cons.inj (hzero rfl)).2
        exact Or.inl ⟨rfl, htail⟩
      · exact Or.inr ⟨⟨hc, heq⟩, digits, tail, hrest, htail, rfl⟩
  · rintro (⟨rfl, h⟩ | ⟨⟨hc, hne⟩, digits, tail, hdigits, htail, rfl⟩)
    · exact ⟨[0x30], s, ⟨digits_cons_iff.mpr ⟨by decide, by simp⟩, fun _ => rfl⟩, h, rfl⟩
    · refine ⟨c :: digits, tail, ⟨digits_cons_iff.mpr ⟨hc, hdigits⟩, fun hhead => ?_⟩, htail, rfl⟩
      exact absurd (Option.some.inj hhead) hne

/-- A byte leads to a state that completes the rest. -/
theorem completes_cons_iff {state : NumberState} {c : UInt8} {s : Bytes} :
    state.Completes (c :: s) ↔
      ∃ state', state.next (some c) = goto state' ∧ state'.Completes s := by
  cases state with
  | minus =>
    rw [minus_cons_iff]
    simp only [NumberState.next, Option.any_some, Option.some.injEq]
    split_ifs with h1 h2
    · simp [h1]
    · simp [h1, h2]
    · simp [h1, h2]
  | zero =>
    rw [NumberState.Completes, ending_cons_iff, ExponentMark]
    simp only [NumberState.next, Option.some.injEq]
    split_ifs with h1 h2
    · subst h1
      simp
    · simp [h1, h2]
    · simp [h1, h2]
  | any1 =>
    rw [NumberState.Completes, afterDigits_cons_iff, ending_cons_iff, ExponentMark]
    simp only [NumberState.next, Option.any_some, Option.some.injEq]
    split_ifs with h1 h2 h3
    · have hpoint : c ≠ 0x2E := by rintro rfl; cases h1
      have hmark : ¬ (c = 0x65 ∨ c = 0x45) := by rintro (rfl | rfl) <;> cases h1
      simp [h1, hpoint, hmark, NumberState.Completes]
    · subst h2
      simp [h1]
    · simp [h1, h2, h3]
    · simp [h1, h2, h3]
  | decimal1 =>
    rw [decimal1_cons_iff]
    simp only [NumberState.next, Option.any_some]
    split_ifs with h1 <;> simp [h1]
  | decimal2 =>
    rw [NumberState.Completes, afterDigits_cons_iff, exponent_cons_iff, ExponentMark]
    simp only [NumberState.next, Option.any_some, Option.some.injEq]
    split_ifs with h1 h2
    · have hmark : ¬ (c = 0x65 ∨ c = 0x45) := by rintro (rfl | rfl) <;> cases h1
      simp [h1, hmark, NumberState.Completes]
    · simp [h1, h2]
    · simp [h1, h2]
  | exponent =>
    rw [completes_exponent_cons_iff]
    simp only [NumberState.next, Option.any_some, Option.some.injEq]
    split_ifs with h1 h2
    · have hdigit : isDigit c = false := by rcases h1 with rfl | rfl <;> rfl
      simp [h1, hdigit]
    · simp [h1, h2]
    · simp [h1, h2]
  | sign =>
    rw [NumberState.Completes, digits_cons_iff]
    simp only [NumberState.next, Option.any_some]
    split_ifs with h1 <;> simp [h1, NumberState.Completes]
  | any2 =>
    rw [NumberState.Completes, List.forall_mem_cons]
    simp only [NumberState.next, Option.any_some]
    split_ifs with h1 <;> simp [h1, NumberState.Completes]

theorem completes_nil_iff {state : NumberState} :
    state.Completes [] ↔ state.next none = done := by
  cases state with
  | minus =>
    constructor
    · rintro ⟨digits, tail, hdigits, -, hs⟩
      exact absurd (List.nil_eq_append_iff.mp hs).1 hdigits.1.1
    · rintro ⟨⟩
  | zero => exact iff_of_true ending_nil rfl
  | any1 => exact iff_of_true (afterDigits_nil_iff.mpr ending_nil) rfl
  | decimal1 =>
    constructor
    · rintro ⟨digits, tail, hdigits, -, hs⟩
      exact absurd (List.nil_eq_append_iff.mp hs).1 hdigits.1
    · rintro ⟨⟩
  | decimal2 => exact iff_of_true (afterDigits_nil_iff.mpr .absent) rfl
  | exponent =>
    constructor
    · rintro ⟨_, digits, -, hdigits, hs⟩
      exact absurd (List.nil_eq_append_iff.mp hs).2 hdigits.1
    · rintro ⟨⟩
  | sign =>
    constructor
    · intro h
      exact absurd rfl h.1
    · rintro ⟨⟩
  | any2 => exact iff_of_true (by simp [NumberState.Completes]) rfl

/-! ## The scan -/

/-- A number does not go on with what follows. -/
def Follows (rest : Bytes) : Prop :=
  ∀ c ∈ rest.head?, ¬ isDigit c ∧ c ≠ 0x2E ∧ ¬ ExponentMark c

/-- A state that ends at a byte ends at the end of the input. -/
theorem next_none_of_done {state : NumberState} {c : UInt8} (h : state.next (some c) = done) :
    state.next none = done := by
  cases state <;> simp only [NumberState.next] at h ⊢ <;> split_ifs at h <;> simp

theorem next_of_follows {state : NumberState} {c : UInt8} {rest : Bytes}
    (h : state.next none = done) (hfollows : Follows (c :: rest)) :
    state.next (some c) = done := by
  obtain ⟨hdigit, hpoint, hmark⟩ := hfollows c rfl
  rw [ExponentMark] at hmark
  cases state <;> simp_all [NumberState.next]

def isFloatMark (b : UInt8) : Bool := b = 0x2E || b = 0x65 || b = 0x45

/-- The type of the number that `s` completes. -/
def NumberState.finalType (state : NumberState) (number_type : NumberType) (s : Bytes) :
    NumberType :=
  if s.any isFloatMark then .value_float else state.numberType number_type

theorem isFloatMark_of_isDigit {c : UInt8} (h : isDigit c) : isFloatMark c = false := by
  by_contra hmark
  simp only [isFloatMark, Bool.not_eq_false, Bool.or_eq_true, decide_eq_true_eq] at hmark
  rcases hmark with (rfl | rfl) | rfl <;> cases h

theorem next_cases {state state' : NumberState} {c : UInt8}
    (h : state.next (some c) = goto state') :
    isDigit c ∧ (state' = zero ∨ state' = any1 ∨ state' = decimal2 ∨ state' = any2) ∨
      c = 0x2E ∧ state' = decimal1 ∨ ExponentMark c ∧ state' = exponent ∨
      (c = 0x2B ∨ c = 0x2D) ∧ state' = sign := by
  cases state <;> simp only [NumberState.next, Option.any_some, Option.some.injEq] at h <;>
    split_ifs at h <;> cases h <;> simp_all [ExponentMark, isDigit]

/-- A point or an exponent mark leads to a state of floats, and nothing else does. -/
theorem next_numberType {state state' : NumberState} {c : UInt8}
    (h : state.next (some c) = goto state') :
    (isFloatMark c ∧ ∀ t, state'.numberType t = .value_float) ∨
      (isFloatMark c = false ∧ ∀ t, state'.numberType t = t) := by
  rcases next_cases h with ⟨hdigit, hstate⟩ | ⟨rfl, rfl⟩ | ⟨rfl | rfl, rfl⟩ | ⟨rfl | rfl, rfl⟩
  · refine Or.inr ⟨isFloatMark_of_isDigit hdigit, fun t => ?_⟩
    rcases hstate with rfl | rfl | rfl | rfl <;> rfl
  · exact Or.inl ⟨rfl, fun _ => rfl⟩
  · exact Or.inl ⟨rfl, fun _ => rfl⟩
  · exact Or.inl ⟨rfl, fun _ => rfl⟩
  · exact Or.inr ⟨rfl, fun _ => rfl⟩
  · exact Or.inr ⟨rfl, fun _ => rfl⟩

theorem finalType_cons {state state' : NumberState} {c : UInt8} {number_type : NumberType}
    {s : Bytes} (h : state.next (some c) = goto state') :
    state'.finalType (state.numberType number_type) s = state.finalType number_type (c :: s) := by
  unfold NumberState.finalType
  rw [List.any_cons]
  rcases next_numberType h with ⟨hmark, htype⟩ | ⟨hmark, htype⟩
  · rw [hmark, htype, Bool.true_or, if_pos rfl, ite_self]
  · rw [hmark, htype, Bool.false_or]

theorem scan_number_states_sound {state : NumberState} {number_type type' : NumberType}
    {token_buffer input buffer' rest : Bytes}
    (h : scan_number_states state number_type token_buffer input = some (type', buffer', rest)) :
    ∃ s, state.Completes s ∧ input = s ++ rest ∧ buffer' = token_buffer ++ s ∧
      type' = state.finalType number_type s := by
  induction input generalizing state number_type token_buffer with
  | nil =>
    rw [scan_number_states] at h
    split at h
    · rename_i hdone
      cases h
      exact ⟨[], completes_nil_iff.mpr hdone, rfl, by simp, rfl⟩
    · cases h
  | cons current input ih =>
    rw [scan_number_states] at h
    split at h
    · rename_i state' hgoto
      obtain ⟨s, hs, rfl, rfl, rfl⟩ := ih h
      refine ⟨current :: s, completes_cons_iff.mpr ⟨state', hgoto, hs⟩, rfl, by simp, ?_⟩
      exact finalType_cons hgoto
    · rename_i hdone
      cases h
      exact ⟨[], completes_nil_iff.mpr (next_none_of_done hdone), rfl, by simp, rfl⟩
    · cases h

theorem scan_number_states_complete {s : Bytes} {state : NumberState} {number_type : NumberType}
    {token_buffer rest : Bytes} (h : state.Completes s) (hrest : Follows rest) :
    scan_number_states state number_type token_buffer (s ++ rest) =
      some (state.finalType number_type s, token_buffer ++ s, rest) := by
  induction s generalizing state number_type token_buffer with
  | nil =>
    rw [List.nil_append, List.append_nil]
    have hdone := completes_nil_iff.mp h
    cases rest with
    | nil =>
      rw [scan_number_states, hdone]
      rfl
    | cons c rest =>
      rw [scan_number_states, next_of_follows hdone hrest]
      rfl
  | cons c s ih =>
    obtain ⟨state', hgoto, hs⟩ := completes_cons_iff.mp h
    rw [List.cons_append, scan_number_states, hgoto]
    dsimp only
    rw [ih hs, finalType_cons hgoto, List.append_assoc, List.singleton_append]

/-! ## Lexemes -/

theorem fraction_isFloatMark {s : Bytes} (h : Fraction s) : s.any isFloatMark ↔ s ≠ [] := by
  cases h with
  | absent => simp
  | present => exact iff_of_true rfl (List.cons_ne_nil _ _)

theorem exponent_isFloatMark {s : Bytes} (h : Exponent s) : s.any isFloatMark ↔ s ≠ [] := by
  cases h with
  | absent => simp
  | present hmark =>
    rcases hmark with rfl | rfl <;> exact iff_of_true rfl (List.cons_ne_nil _ _)

theorem digits_isFloatMark {s : Bytes} (h : ∀ d ∈ s, isDigit d) : s.any isFloatMark = false := by
  rw [List.any_eq_false]
  intro d hd
  rw [isFloatMark_of_isDigit (h d hd)]
  exact Bool.false_ne_true

/-- A number without a fraction or an exponent is an integer. -/
theorem number_isFloatMark {digits fraction exponent : Bytes} (hdigits : Integer digits)
    (hfraction : Fraction fraction) (hexponent : Exponent exponent) :
    (digits ++ (fraction ++ exponent)).any isFloatMark ↔ fraction ≠ [] ∨ exponent ≠ [] := by
  rw [List.any_append, List.any_append, digits_isFloatMark hdigits.1.2, Bool.false_or,
    Bool.or_eq_true, fraction_isFloatMark hfraction, exponent_isFloatMark hexponent]

/-- The tokens of a number's text without and with a minus. -/
def NumberLexeme (strtod : Bytes → UInt64) (token : Token) (bytes : Bytes) : Prop :=
  ∃ s, minus.Completes s ∧
    (bytes = s ∧ token = convertNumber strtod s (any1.finalType .value_unsigned s) ∨
      bytes = 0x2D :: s ∧
        token = convertNumber strtod (0x2D :: s) (minus.finalType .value_unsigned s))

theorem lexeme_convertNumber {strtod : Bytes → UInt64} {s : Bytes} (h : minus.Completes s) :
    Lexeme strtod (convertNumber strtod s (any1.finalType .value_unsigned s)) s ∧
      Lexeme strtod (convertNumber strtod (0x2D :: s) (minus.finalType .value_unsigned s))
        (0x2D :: s) := by
  obtain ⟨digits, _, hdigits, ⟨fraction, exponent, hfraction, hexponent, rfl⟩, rfl⟩ := h
  unfold NumberState.finalType
  by_cases hmark : (digits ++ (fraction ++ exponent)).any isFloatMark
  · rw [if_pos hmark, if_pos hmark]
    rw [number_isFloatMark hdigits hfraction hexponent] at hmark
    constructor
    · exact .value_float (Or.inl rfl) hdigits hfraction hexponent (by tauto)
    · exact .value_float (Or.inr rfl) hdigits hfraction hexponent (by tauto)
  · rw [if_neg hmark, if_neg hmark]
    rw [number_isFloatMark hdigits hfraction hexponent, not_or, not_not, not_not] at hmark
    obtain ⟨rfl, rfl⟩ := hmark
    rw [List.append_nil, List.append_nil]
    constructor
    · show Lexeme strtod (convertNumber strtod digits .value_unsigned) digits
      rw [convertNumber]
      split_ifs with hfits
      · exact .value_unsigned hdigits hfits
      · have hfloat := @Lexeme.value_float strtod _ _ _ _ (Or.inl rfl) hdigits .absent
          .absent (Or.inr (Or.inr (Or.inl ⟨rfl, by omega⟩)))
        simpa using hfloat
    · show Lexeme strtod (convertNumber strtod (0x2D :: digits) .value_integer) (0x2D :: digits)
      rw [convertNumber, List.tail_cons]
      split_ifs with hfits
      · exact .value_integer hdigits (by omega)
      · have hfloat := @Lexeme.value_float strtod _ _ _ _ (Or.inr rfl) hdigits .absent
          .absent (Or.inr (Or.inr (Or.inr ⟨rfl, by omega⟩)))
        simpa using hfloat

theorem NumberLexeme.lexeme {strtod : Bytes → UInt64} {token : Token} {bytes : Bytes}
    (h : NumberLexeme strtod token bytes) : Lexeme strtod token bytes := by
  obtain ⟨s, hs, ⟨rfl, rfl⟩ | ⟨rfl, rfl⟩⟩ := h
  · exact (lexeme_convertNumber hs).1
  · exact (lexeme_convertNumber hs).2

theorem finalType_of_digits {state : NumberState} {digits : Bytes} (h : Integer digits) :
    state.finalType .value_unsigned digits = state.numberType .value_unsigned := by
  rw [NumberState.finalType, digits_isFloatMark h.1.2, if_neg Bool.false_ne_true]

theorem completes_of_integer {digits : Bytes} (h : Integer digits) : minus.Completes digits :=
  ⟨digits, [], h, ending_nil, by rw [List.append_nil]⟩

theorem numberLexeme_unsigned {strtod : Bytes → UInt64} {digits : Bytes} (h : Integer digits)
    (hfits : digitsValue digits < 2 ^ 64) :
    NumberLexeme strtod (.value_unsigned (digitsValue digits)) digits := by
  refine ⟨digits, completes_of_integer h, Or.inl ⟨rfl, ?_⟩⟩
  rw [finalType_of_digits h]
  exact (if_pos hfits).symm

theorem numberLexeme_integer {strtod : Bytes → UInt64} {digits : Bytes} (h : Integer digits)
    (hfits : digitsValue digits ≤ 2 ^ 63) :
    NumberLexeme strtod (.value_integer (-digitsValue digits)) (0x2D :: digits) := by
  refine ⟨digits, completes_of_integer h, Or.inr ⟨rfl, ?_⟩⟩
  rw [finalType_of_digits h]
  exact (if_pos (show (-2 ^ 63 : Int) ≤ -digitsValue digits by omega)).symm

theorem numberLexeme_float {strtod : Bytes → UInt64} {before digits fraction exponent : Bytes}
    (hminus : before = [] ∨ before = [0x2D]) (h : Integer digits) (hfraction : Fraction fraction)
    (hexponent : Exponent exponent)
    (hfloat : fraction ≠ [] ∨ exponent ≠ [] ∨ before = [] ∧ 2 ^ 64 ≤ digitsValue digits ∨
      before = [0x2D] ∧ 2 ^ 63 < digitsValue digits) :
    NumberLexeme strtod (.value_float (strtod (before ++ (digits ++ (fraction ++ exponent)))))
      (before ++ (digits ++ (fraction ++ exponent))) := by
  have hs : minus.Completes (digits ++ (fraction ++ exponent)) :=
    ⟨digits, _, h, ⟨fraction, exponent, hfraction, hexponent, rfl⟩, rfl⟩
  by_cases hmark : (digits ++ (fraction ++ exponent)).any isFloatMark
  · rcases hminus with rfl | rfl
    · refine ⟨_, hs, Or.inl ⟨rfl, ?_⟩⟩
      rw [NumberState.finalType, if_pos hmark]
      rfl
    · refine ⟨_, hs, Or.inr ⟨rfl, ?_⟩⟩
      rw [NumberState.finalType, if_pos hmark]
      rfl
  · rw [number_isFloatMark h hfraction hexponent, not_or, not_not, not_not] at hmark
    obtain ⟨rfl, rfl⟩ := hmark
    simp only [List.append_nil] at hs ⊢
    rcases hfloat with hne | hne | ⟨rfl, hbig⟩ | ⟨rfl, hbig⟩
    · exact absurd rfl hne
    · exact absurd rfl hne
    · refine ⟨digits, hs, Or.inl ⟨rfl, ?_⟩⟩
      rw [finalType_of_digits h]
      exact (if_neg (show ¬ digitsValue digits < 2 ^ 64 by omega)).symm
    · refine ⟨digits, hs, Or.inr ⟨rfl, ?_⟩⟩
      rw [finalType_of_digits h]
      exact (if_neg (show ¬ (-2 ^ 63 : Int) ≤ -digitsValue digits by omega)).symm

/-! ## `scan_number` -/

/-- The state after the first byte. -/
theorem completes_digit_iff {c : UInt8} {s : Bytes} (h : isDigit c) :
    minus.Completes (c :: s) ↔ (if c = 0x30 then zero else any1).Completes s := by
  rw [completes_cons_iff]
  simp only [NumberState.next, Option.any_some, Option.some.injEq, h, if_true]
  split_ifs <;> simp

theorem finalType_digit {c : UInt8} {s : Bytes} (h : isDigit c) :
    (if c = 0x30 then zero else any1).finalType .value_unsigned s =
      any1.finalType .value_unsigned (c :: s) := by
  rw [NumberState.finalType, NumberState.finalType, List.any_cons, isFloatMark_of_isDigit h,
    Bool.false_or]
  split_ifs <;> rfl

theorem ne_minus_of_isDigit {c : UInt8} (h : isDigit c) : c ≠ 0x2D := by
  rintro rfl
  cases h

/-- A number that is scanned is a lexeme of the input. -/
theorem scan_number_sound {strtod : Bytes → UInt64} {current : UInt8} {input rest : Bytes}
    {token : Token} (hcurrent : current = 0x2D ∨ isDigit current)
    (h : scan_number strtod current input = (token, rest)) (htoken : token ≠ .parse_error) :
    ∃ s, NumberLexeme strtod token (current :: s) ∧ input = s ++ rest := by
  unfold scan_number at h
  dsimp only at h
  split at h
  · rename_i number_type token_buffer input' hscan
    cases h
    obtain ⟨s, hs, rfl, rfl, rfl⟩ := scan_number_states_sound hscan
    refine ⟨s, ?_, rfl⟩
    rcases hcurrent with rfl | hdigit
    · exact ⟨s, hs, Or.inr ⟨rfl, rfl⟩⟩
    · rw [if_neg (ne_minus_of_isDigit hdigit)] at hs ⊢
      refine ⟨current :: s, (completes_digit_iff hdigit).mpr hs, Or.inl ⟨rfl, ?_⟩⟩
      rw [finalType_digit hdigit]
      rfl
  · cases h
    exact absurd rfl htoken

/-- The lexeme of a number is scanned where the number cannot go on. -/
theorem scan_number_complete {strtod : Bytes → UInt64} {token : Token} {bytes : Bytes}
    (h : NumberLexeme strtod token bytes) :
    ∃ current s, bytes = current :: s ∧ (current = 0x2D ∨ isDigit current) ∧
      ∀ rest, Follows rest → scan_number strtod current (s ++ rest) = (token, rest) := by
  obtain ⟨s, hs, ⟨rfl, rfl⟩ | ⟨rfl, rfl⟩⟩ := h
  · cases bytes with
    | nil => exact absurd (completes_nil_iff.mp hs) (by simp [NumberState.next])
    | cons current s =>
      have hdigit : isDigit current := by
        rcases minus_cons_iff.mp hs with ⟨rfl, -⟩ | ⟨⟨hdigit, -⟩, -⟩
        · rfl
        · exact hdigit
      refine ⟨current, s, rfl, Or.inr hdigit, fun rest hrest => ?_⟩
      have hcompletes := (completes_digit_iff hdigit).mp hs
      unfold scan_number
      rw [if_neg (ne_minus_of_isDigit hdigit)]
      dsimp only
      rw [scan_number_states_complete hcompletes hrest, finalType_digit hdigit]
      rfl
  · refine ⟨0x2D, s, rfl, Or.inl rfl, fun rest hrest => ?_⟩
    unfold scan_number
    rw [if_pos rfl]
    dsimp only
    rw [scan_number_states_complete hs hrest]
    rfl

end LoginServer.Nlohmann
