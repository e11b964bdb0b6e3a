import Mathlib.Data.List.TakeWhile
import Mathlib.Tactic.SplitIfs
import LoginServer.Utils.Stoi

/-!
# Numerals

The language of `std::stoi`: blanks, a sign, a run of digits whose value is an `int`, and
any text that does not go on with a digit. The parts are determined by the text
(`Numeral.text_injective`), so that a statement about accepted texts can speak of them.
-/

namespace LoginServer


theorem not_isSpace_of_isDigit {c : UInt8} (h : isDigit c) : ¬ isSpace c := by
  simp only [isDigit, isSpace, Bool.and_eq_true, decide_eq_true_eq, Bool.or_eq_true,
    UInt8.le_iff_toNat_le] at h ⊢
  rintro (rfl | ⟨-, hle⟩)
  · exact absurd h.1 (by decide)
  · exact absurd (Nat.le_trans h.1 hle) (by decide)

/-- A text that begins with an integer: blanks, a sign, digits, and the rest. -/
@[ext]
structure Numeral where
  blanks : Bytes
  sign : Bytes
  digits : Bytes
  trailing : Bytes
  blanks_space : ∀ c ∈ blanks, isSpace c
  sign_mem : sign = [] ∨ sign = [43] ∨ sign = [45]
  digits_ne_nil : digits ≠ []
  digits_digit : ∀ c ∈ digits, isDigit c
  trailing_head : ∀ c ∈ trailing.head?, ¬ isDigit c

namespace Numeral

def text (m : Numeral) : Bytes := m.blanks ++ (m.sign ++ (m.digits ++ m.trailing))

def value (m : Numeral) : Int :=
  if m.sign = [45] then -(digitsValue m.digits : Int) else digitsValue m.digits

/-- Nothing but digits. -/
def Bare (m : Numeral) : Prop := m.blanks = [] ∧ m.sign = [] ∧ m.trailing = []

theorem head_digits (m : Numeral) : ∃ c ds, m.digits = c :: ds ∧ isDigit c := by
  obtain ⟨c, ds, h⟩ := List.exists_cons_of_ne_nil m.digits_ne_nil
  exact ⟨c, ds, h, m.digits_digit c (by simp [h])⟩

theorem text_ne_nil (m : Numeral) : m.text ≠ [] := by
  simp [text, m.digits_ne_nil]

theorem takeWhile_digits (m : Numeral) :
    (m.digits ++ m.trailing).takeWhile isDigit = m.digits := by
  rw [List.takeWhile_append_of_pos m.digits_digit]
  cases h : m.trailing with
  | nil => simp
  | cons c cs => simp [m.trailing_head c (by simp [h])]

theorem dropWhile_digits (m : Numeral) :
    (m.digits ++ m.trailing).dropWhile isDigit = m.trailing := by
  rw [List.dropWhile_append_of_pos m.digits_digit]
  cases h : m.trailing with
  | nil => simp
  | cons c cs => simp [m.trailing_head c (by simp [h])]

/-- The text goes on with a sign or a digit after the blanks. -/
theorem head_after_blanks (m : Numeral) :
    ∃ c cs, m.sign ++ (m.digits ++ m.trailing) = c :: cs ∧ ¬ isSpace c := by
  obtain ⟨c, ds, hdigits, hc⟩ := m.head_digits
  rcases m.sign_mem with h | h | h <;> rw [h, hdigits]
  · exact ⟨c, ds ++ m.trailing, rfl, not_isSpace_of_isDigit hc⟩
  · exact ⟨43, c :: ds ++ m.trailing, rfl, by decide⟩
  · exact ⟨45, c :: ds ++ m.trailing, rfl, by decide⟩

theorem dropWhile_text (m : Numeral) :
    m.text.dropWhile isSpace = m.sign ++ (m.digits ++ m.trailing) := by
  obtain ⟨c, cs, h, hc⟩ := m.head_after_blanks
  rw [text, List.dropWhile_append_of_pos m.blanks_space, h]
  simp [hc]

theorem takeWhile_text (m : Numeral) : m.text.takeWhile isSpace = m.blanks := by
  obtain ⟨c, cs, h, hc⟩ := m.head_after_blanks
  rw [text, List.takeWhile_append_of_pos m.blanks_space, h]
  simp [hc]

/-- The step over the sign. -/
def dropSign (s : Bytes) : Bytes :=
  if s.head? = some 45 ∨ s.head? = some 43 then s.tail else s

theorem head?_digits_ne (m : Numeral) :
    (m.digits ++ m.trailing).head? ≠ some 45 ∧ (m.digits ++ m.trailing).head? ≠ some 43 := by
  obtain ⟨c, ds, h, hc⟩ := m.head_digits
  rw [h]
  constructor <;> intro hhead <;> cases hhead <;> exact absurd hc (by decide)

theorem dropSign_text (m : Numeral) :
    dropSign (m.sign ++ (m.digits ++ m.trailing)) = m.digits ++ m.trailing := by
  unfold dropSign
  rcases m.sign_mem with h | h | h <;> rw [h]
  · exact if_neg (not_or.mpr m.head?_digits_ne)
  · rfl
  · rfl

theorem negative_iff (m : Numeral) :
    (m.sign ++ (m.digits ++ m.trailing)).head? = some 45 ↔ m.sign = [45] := by
  rcases m.sign_mem with h | h | h <;> rw [h]
  · simpa using m.head?_digits_ne.1
  · simp
  · simp

/-- The parts of a numeral can be read off its text. -/
theorem text_injective {m m' : Numeral} (h : m.text = m'.text) : m = m' := by
  have hblanks : m.blanks = m'.blanks := by rw [← takeWhile_text, h, takeWhile_text]
  have hrest := m.dropWhile_text
  rw [h, m'.dropWhile_text] at hrest
  have hdigits := m.dropSign_text
  rw [← hrest, m'.dropSign_text] at hdigits
  have hsign : m'.sign = m.sign := List.append_cancel_right (hdigits ▸ hrest)
  ext1
  · exact hblanks
  · exact hsign.symm
  · rw [← m.takeWhile_digits, ← hdigits, m'.takeWhile_digits]
  · rw [← m.dropWhile_digits, ← hdigits, m'.dropWhile_digits]

/-- Every text in which `stoi` finds a digit is the text of a numeral. -/
theorem exists_text {s : Bytes}
    (h : (dropSign (s.dropWhile isSpace)).takeWhile isDigit ≠ []) :
    ∃ m : Numeral, m.text = s := by
  obtain ⟨sign, hmem, hsign⟩ : ∃ sign : Bytes, (sign = [] ∨ sign = [43] ∨ sign = [45]) ∧
      sign ++ dropSign (s.dropWhile isSpace) = s.dropWhile isSpace := by
    unfold dropSign
    cases hs : s.dropWhile isSpace with
    | nil => exact ⟨[], Or.inl rfl, by simp⟩
    | cons c cs =>
        by_cases hminus : c = 45
        · exact ⟨[45], Or.inr (Or.inr rfl), by simp [hminus]⟩
        by_cases hplus : c = 43
        · exact ⟨[43], Or.inr (Or.inl rfl), by simp [hplus]⟩
        exact ⟨[], Or.inl rfl, by simp [hminus, hplus]⟩
  refine ⟨⟨s.takeWhile isSpace, sign, _, (dropSign (s.dropWhile isSpace)).dropWhile isDigit,
    fun c hc => List.mem_takeWhile_imp hc, hmem, h, fun c hc => List.mem_takeWhile_imp hc,
    fun c hc => ?_⟩, ?_⟩
  · have := List.head?_dropWhile_not isDigit (dropSign (s.dropWhile isSpace))
    rw [Option.mem_def.mp hc] at this
    simpa using this
  · rw [text, List.takeWhile_append_dropWhile, hsign, List.takeWhile_append_dropWhile]

theorem stoi_text (m : Numeral) :
    stoi m.text = if IsInt32 m.value then some m.value else none := by
  have hvalue : (if (m.sign ++ (m.digits ++ m.trailing)).head? = some 45
      then -(digitsValue m.digits : Int) else digitsValue m.digits) = m.value := by
    rw [value]
    exact if_congr m.negative_iff rfl rfl
  have hdrop := m.dropSign_text
  unfold dropSign at hdrop
  unfold stoi
  simp only [m.dropWhile_text, hdrop, m.takeWhile_digits, List.isEmpty_iff, m.digits_ne_nil,
    if_false]
  rw [hvalue]
  by_cases hfits : IsInt32 m.value
  · rw [if_pos hfits, if_neg (by unfold IsInt32 at hfits; omega)]
  · rw [if_neg hfits, if_pos (by unfold IsInt32 at hfits; omega)]

end Numeral

theorem stoi_eq_some_iff {s : Bytes} {n : Int} :
    stoi s = some n ↔ ∃ m : Numeral, m.text = s ∧ m.value = n ∧ IsInt32 n := by
  constructor
  · intro h
    obtain ⟨m, rfl⟩ : ∃ m : Numeral, m.text = s := by
      apply Numeral.exists_text
      intro hnil
      unfold Numeral.dropSign at hnil
      simp [stoi, hnil] at h
    rw [Numeral.stoi_text] at h
    obtain ⟨hfits, rfl⟩ := Option.ite_none_right_eq_some.mp h |>.imp id Option.some.inj
    exact ⟨m, rfl, rfl, hfits⟩
  · rintro ⟨m, rfl, rfl, hfits⟩
    rw [Numeral.stoi_text, if_pos hfits]

/-! ## `std::to_string` -/

def decimal (n : Nat) : Bytes :=
  if n < 10 then [.ofNat (48 + n)] else decimal (n / 10) ++ [.ofNat (48 + n % 10)]

/-- `std::to_string` of an integer. -/
def to_string (n : Int) : Bytes := (if n < 0 then [45] else []) ++ decimal n.natAbs

theorem toNat_digit {d : Nat} (h : d < 10) : (UInt8.ofNat (48 + d)).toNat = 48 + d := by
  rw [UInt8.toNat_ofNat']
  omega

theorem isDigit_digit {d : Nat} (h : d < 10) : isDigit (.ofNat (48 + d)) := by
  simp only [isDigit, Bool.and_eq_true, decide_eq_true_eq, UInt8.le_iff_toNat_le, toNat_digit h]
  exact ⟨Nat.le_add_right 48 d, Nat.add_le_add_left (Nat.le_of_lt_succ h) 48⟩

theorem isDigit_of_mem_decimal {n : Nat} : ∀ c ∈ decimal n, isDigit c := by
  induction n using Nat.strong_induction_on with
  | _ n ih =>
    intro c hc
    rw [decimal] at hc
    split at hc
    · rename_i hlt
      obtain rfl := List.mem_singleton.mp hc
      exact isDigit_digit hlt
    · rcases List.mem_append.mp hc with hmore | hlast
      · exact ih (n / 10) (by omega) c hmore
      · obtain rfl := List.mem_singleton.mp hlast
        exact isDigit_digit (Nat.mod_lt n (by omega))

theorem decimal_ne_nil (n : Nat) : decimal n ≠ [] := by
  rw [decimal]
  split <;> simp

theorem digitsValue_decimal (n : Nat) : digitsValue (decimal n) = n := by
  induction n using Nat.strong_induction_on with
  | _ n ih =>
    rw [decimal]
    split
    · rename_i hlt
      rw [digitsValue, List.foldl_cons, List.foldl_nil, toNat_digit hlt]
      omega
    · have hrest : digitsValue (decimal (n / 10)) = n / 10 := ih (n / 10) (by omega)
      unfold digitsValue at hrest ⊢
      rw [List.foldl_append, hrest, List.foldl_cons, List.foldl_nil,
        toNat_digit (Nat.mod_lt n (by omega))]
      omega

/-- What is written is read back. -/
theorem stoi_to_string {n : Int} (h : IsInt32 n) : stoi (to_string n) = some n := by
  refine stoi_eq_some_iff.mpr ⟨⟨[], if n < 0 then [45] else [], decimal n.natAbs, [], by simp, ?_,
    decimal_ne_nil _, isDigit_of_mem_decimal, by simp⟩, ?_, ?_, h⟩
  · split <;> simp
  · simp [Numeral.text, to_string]
  · simp only [Numeral.value, digitsValue_decimal]
    by_cases hn : n < 0
    · simp only [if_pos hn, ↓reduceIte]
      omega
    · have hne : ([] : Bytes) ≠ [45] := by simp
      simp only [if_neg hn, if_neg hne]
      omega

end LoginServer
