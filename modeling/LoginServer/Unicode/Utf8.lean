import Mathlib.Data.List.Flatten
import Mathlib.Tactic.Common

/-!
# The bytes of UTF-8

Lean encodes a character by arithmetic on its code point. Here the encodings are told
apart by their bytes: which sequences of one, two, three and four bytes are the encoding
of a character (`isChar_one` to `isChar_four`), and what the code point is. A program that
checks UTF-8 by ranges, by a table or by decoding is compared with these four.
-/

namespace Unicode

/-- The encoding of a character. -/
def IsChar (bs : List UInt8) : Prop := ∃ c, String.utf8EncodeChar c = bs

/-- The encoding of a text. -/
def IsUtf8 (bs : List UInt8) : Prop := ∃ cs : List Char, cs.flatMap String.utf8EncodeChar = bs

theorem isUtf8_nil : IsUtf8 [] := ⟨[], rfl⟩

theorem IsUtf8.append {xs ys : List UInt8} (hx : IsUtf8 xs) (hy : IsUtf8 ys) :
    IsUtf8 (xs ++ ys) := by
  obtain ⟨cs, rfl⟩ := hx
  obtain ⟨ds, rfl⟩ := hy
  exact ⟨cs ++ ds, List.flatMap_append⟩

theorem IsChar.isUtf8 {bs : List UInt8} (h : IsChar bs) : IsUtf8 bs := by
  obtain ⟨c, rfl⟩ := h
  exact ⟨[c], by rw [List.flatMap_singleton]⟩

/-! ## Code points -/

theorem toNat_ofNat_of_lt {n : Nat} (h : n < 256) : (UInt8.ofNat n).toNat = n := by
  rw [UInt8.toNat_ofNat']
  exact Nat.mod_eq_of_lt h

theorem isValidChar_toNat (c : Char) : c.toNat.isValidChar := c.valid

theorem toNat_ofNat_char {n : Nat} (h : n.isValidChar) : (Char.ofNat n).toNat = n := by
  rw [Char.ofNat, dif_pos h]
  rfl

/-- The bytes of a code point, as numbers. -/
def codeBytes (n : Nat) : List Nat :=
  if n ≤ 0x7F then [n]
  else if n ≤ 0x7FF then [n / 64 + 0xC0, n % 64 + 0x80]
  else if n ≤ 0xFFFF then [n / 4096 + 0xE0, n / 64 % 64 + 0x80, n % 64 + 0x80]
  else [n / 262144 + 0xF0, n / 4096 % 64 + 0x80, n / 64 % 64 + 0x80, n % 64 + 0x80]

theorem lt_of_isValidChar {n : Nat} (h : n.isValidChar) : n < 0x110000 := by
  rcases h with h | h <;> omega

theorem map_toNat_utf8EncodeChar (c : Char) :
    (String.utf8EncodeChar c).map UInt8.toNat = codeBytes c.toNat := by
  have hlt := lt_of_isValidChar (isValidChar_toNat c)
  have hval : c.val.toNat = c.toNat := rfl
  unfold String.utf8EncodeChar codeBytes
  simp only [hval]
  split_ifs
  · simp only [List.map_cons, List.map_nil]
    rw [toNat_ofNat_of_lt (by omega)]
  · simp only [List.map_cons, List.map_nil]
    rw [toNat_ofNat_of_lt (by omega), toNat_ofNat_of_lt (by omega)]
    congr 1
    omega
  · simp only [List.map_cons, List.map_nil]
    rw [toNat_ofNat_of_lt (by omega), toNat_ofNat_of_lt (by omega), toNat_ofNat_of_lt (by omega)]
    congr 1
    omega
  · simp only [List.map_cons, List.map_nil]
    rw [toNat_ofNat_of_lt (by omega), toNat_ofNat_of_lt (by omega), toNat_ofNat_of_lt (by omega),
      toNat_ofNat_of_lt (by omega)]
    congr 1
    omega

theorem utf8EncodeChar_eq_iff {c : Char} {bs : List UInt8} :
    String.utf8EncodeChar c = bs ↔ codeBytes c.toNat = bs.map UInt8.toNat := by
  rw [← map_toNat_utf8EncodeChar]
  exact (List.map_inj_right fun _ _ => UInt8.toNat_inj.mp).symm

theorem isChar_iff {bs : List UInt8} :
    IsChar bs ↔ ∃ n : Nat, n.isValidChar ∧ codeBytes n = bs.map UInt8.toNat := by
  constructor
  · rintro ⟨c, hc⟩
    exact ⟨c.toNat, isValidChar_toNat c, utf8EncodeChar_eq_iff.mp hc⟩
  · rintro ⟨n, hvalid, hn⟩
    refine ⟨Char.ofNat n, utf8EncodeChar_eq_iff.mpr ?_⟩
    rw [toNat_ofNat_char hvalid]
    exact hn

/-! ## The four lengths -/

theorem isChar_nil : ¬ IsChar [] := by
  rw [isChar_iff]
  rintro ⟨n, -, hn⟩
  unfold codeBytes at hn
  split_ifs at hn <;> simp at hn

theorem isChar_one {a : UInt8} : IsChar [a] ↔ a.toNat ≤ 0x7F := by
  rw [isChar_iff]
  constructor
  · rintro ⟨n, -, hn⟩
    unfold codeBytes at hn
    split_ifs at hn <;> simp at hn
    omega
  · intro ha
    refine ⟨a.toNat, Or.inl (by omega), ?_⟩
    rw [codeBytes, if_pos ha]
    rfl

theorem isChar_two {a b : UInt8} :
    IsChar [a, b] ↔ (0xC2 ≤ a.toNat ∧ a.toNat ≤ 0xDF) ∧ 0x80 ≤ b.toNat ∧ b.toNat ≤ 0xBF := by
  rw [isChar_iff]
  constructor
  · rintro ⟨n, -, hn⟩
    unfold codeBytes at hn
    split_ifs at hn <;> simp at hn
    omega
  · rintro ⟨ha, hb⟩
    refine ⟨(a.toNat - 0xC0) * 64 + (b.toNat - 0x80), Or.inl (by omega), ?_⟩
    rw [codeBytes, if_neg (by omega), if_pos (by omega)]
    simp only [List.map_cons, List.map_nil, List.cons.injEq, and_true]
    omega

theorem isChar_three {a b c : UInt8} :
    IsChar [a, b, c] ↔ (0xE0 ≤ a.toNat ∧ a.toNat ≤ 0xEF) ∧
      (0x80 ≤ b.toNat ∧ b.toNat ≤ 0xBF) ∧ (a.toNat = 0xE0 → 0xA0 ≤ b.toNat) ∧
      (a.toNat = 0xED → b.toNat ≤ 0x9F) ∧ 0x80 ≤ c.toNat ∧ c.toNat ≤ 0xBF := by
  rw [isChar_iff]
  constructor
  · rintro ⟨n, hvalid, hn⟩
    unfold codeBytes at hn
    split_ifs at hn <;> simp at hn
    rcases hvalid with hvalid | hvalid <;> omega
  · rintro ⟨ha, hb, hlow, hhigh, hc⟩
    have hvalid :
        ((a.toNat - 0xE0) * 4096 + (b.toNat - 0x80) * 64 + (c.toNat - 0x80)).isValidChar := by
      by_cases hbig : 0xED < a.toNat
      · exact Or.inr (by omega)
      · exact Or.inl (by omega)
    refine ⟨_, hvalid, ?_⟩
    rw [codeBytes, if_neg (by omega), if_neg (by omega), if_pos (by omega)]
    simp only [List.map_cons, List.map_nil, List.cons.injEq, and_true]
    omega

theorem isChar_four {a b c d : UInt8} :
    IsChar [a, b, c, d] ↔ (0xF0 ≤ a.toNat ∧ a.toNat ≤ 0xF4) ∧
      (0x80 ≤ b.toNat ∧ b.toNat ≤ 0xBF) ∧ (a.toNat = 0xF0 → 0x90 ≤ b.toNat) ∧
      (a.toNat = 0xF4 → b.toNat ≤ 0x8F) ∧ (0x80 ≤ c.toNat ∧ c.toNat ≤ 0xBF) ∧
      0x80 ≤ d.toNat ∧ d.toNat ≤ 0xBF := by
  rw [isChar_iff]
  constructor
  · rintro ⟨n, hvalid, hn⟩
    have hlt := lt_of_isValidChar hvalid
    unfold codeBytes at hn
    split_ifs at hn <;> simp at hn
    omega
  · rintro ⟨ha, hb, hlow, hhigh, hc, hd⟩
    refine ⟨(a.toNat - 0xF0) * 262144 + (b.toNat - 0x80) * 4096 + (c.toNat - 0x80) * 64 +
      (d.toNat - 0x80), Or.inr (by omega), ?_⟩
    rw [codeBytes, if_neg (by omega), if_neg (by omega), if_neg (by omega)]
    simp only [List.map_cons, List.map_nil, List.cons.injEq, and_true]
    omega

/-- The encoding of a character has one to four bytes. -/
theorem IsChar.cases {bs : List UInt8} (h : IsChar bs) :
    (∃ a, bs = [a]) ∨ (∃ a b, bs = [a, b]) ∨ (∃ a b c, bs = [a, b, c]) ∨
      ∃ a b c d, bs = [a, b, c, d] := by
  obtain ⟨n, -, hn⟩ := isChar_iff.mp h
  unfold codeBytes at hn
  match bs with
  | [] => split_ifs at hn <;> simp at hn
  | [a] => exact Or.inl ⟨a, rfl⟩
  | [a, b] => exact Or.inr (Or.inl ⟨a, b, rfl⟩)
  | [a, b, c] => exact Or.inr (Or.inr (Or.inl ⟨a, b, c, rfl⟩))
  | [a, b, c, d] => exact Or.inr (Or.inr (Or.inr ⟨a, b, c, d, rfl⟩))
  | a :: b :: c :: d :: e :: rest => split_ifs at hn <;> simp at hn

/-- A byte below 128 is a character of its own, and no other character has one. -/
theorem toNat_of_utf8EncodeChar_eq_cons {c : Char} {a : UInt8} {rest : List UInt8}
    (h : String.utf8EncodeChar c = a :: rest) :
    (a.toNat < 0x80 ∧ rest = [] ∧ c.toNat = a.toNat) ∨ (0x80 ≤ a.toNat ∧ 0x80 ≤ c.toNat) := by
  rw [utf8EncodeChar_eq_iff, codeBytes] at h
  split_ifs at h <;> simp only [List.map_cons, List.cons.injEq] at h
  · refine Or.inl ⟨by omega, ?_, h.1⟩
    simpa using h.2.symm
  all_goals exact Or.inr ⟨by omega, by omega⟩

end Unicode
