import LoginServer.Utils.Bytes

/-!
# Text and its bytes

`str` encodes a text in UTF-8. An ASCII character is its own single byte; every byte of
any other character is at least 128. A condition on bytes that only ASCII bytes meet is
therefore a condition on characters, while the number of bytes is an upper bound for the
number of characters and nothing more.
-/

namespace LoginServer

theorem str_eq_flatMap (s : String) : str s = s.toList.flatMap String.utf8EncodeChar := by
  change s.toByteArray.data.toList = _
  rw [← String.utf8Encode_toList, List.utf8Encode]
  simp

theorem utf8EncodeChar_of_ascii {c : Char} (h : c.val ≤ 127) :
    String.utf8EncodeChar c = [c.val.toUInt8] :=
  String.utf8EncodeChar_eq_singleton (Char.utf8Size_eq_one_iff.mpr h)

theorem le_of_mem_utf8EncodeChar {c : Char} (h : 127 < c.val) {b : UInt8}
    (hb : b ∈ String.utf8EncodeChar c) : 128 ≤ b := by
  have hor : ∀ x y : UInt8, 128 ≤ y → 128 ≤ x ||| y := by
    intro x y hy
    rw [UInt8.le_iff_toNat_le] at hy ⊢
    rw [UInt8.toNat_or]
    exact Nat.le_trans hy Nat.right_le_or
  rcases c.utf8Size_eq with hsize | hsize | hsize | hsize
  · exact absurd (Char.utf8Size_eq_one_iff.mp hsize) (by simpa using h)
  · rw [String.utf8EncodeChar_eq_cons_cons hsize] at hb
    simp only [List.mem_cons, List.not_mem_nil, or_false] at hb
    rcases hb with rfl | rfl <;> exact hor _ _ (by decide)
  · rw [String.utf8EncodeChar_eq_cons_cons_cons hsize] at hb
    simp only [List.mem_cons, List.not_mem_nil, or_false] at hb
    rcases hb with rfl | rfl | rfl <;> exact hor _ _ (by decide)
  · rw [String.utf8EncodeChar_eq_cons_cons_cons_cons hsize] at hb
    simp only [List.mem_cons, List.not_mem_nil, or_false] at hb
    rcases hb with rfl | rfl | rfl | rfl <;> exact hor _ _ (by decide)

theorem length_le_length_str (s : String) : s.length ≤ (str s).length := by
  rw [str_eq_flatMap, ← String.length_toList]
  induction s.toList with
  | nil => simp
  | cons c cs ih =>
      have hpos := c.utf8Size_pos
      rw [List.flatMap_cons, List.length_append, String.length_utf8EncodeChar, List.length_cons]
      omega

theorem length_str_of_ascii {s : String} (h : ∀ c ∈ s.toList, c.val ≤ 127) :
    (str s).length = s.length := by
  rw [str_eq_flatMap, ← String.length_toList]
  generalize s.toList = cs at h
  induction cs with
  | nil => rfl
  | cons c cs ih =>
      rw [List.flatMap_cons, List.length_append, utf8EncodeChar_of_ascii (h c List.mem_cons_self),
        ih fun d hd => h d (List.mem_cons_of_mem c hd), List.length_singleton, List.length_cons,
        Nat.add_comm]

/-- A condition that only ASCII bytes meet, on all bytes of a character. -/
theorem forall_mem_utf8EncodeChar_iff {p : UInt8 → Prop} (hp : ∀ b, p b → b < 128) {c : Char} :
    (∀ b ∈ String.utf8EncodeChar c, p b) ↔ c.val ≤ 127 ∧ p c.val.toUInt8 := by
  by_cases h : c.val ≤ 127
  · rw [utf8EncodeChar_of_ascii h]
    simp [h]
  · refine iff_of_false (fun hall => ?_) fun hascii => h hascii.1
    obtain ⟨b, bs, hbytes⟩ := List.exists_cons_of_ne_nil (String.utf8EncodeChar_ne_nil (c := c))
    have hmem : b ∈ String.utf8EncodeChar c := hbytes ▸ List.mem_cons_self
    have hle := le_of_mem_utf8EncodeChar (UInt32.not_le.mp h) hmem
    exact absurd (hp b (hall b hmem)) (UInt8.not_lt.mpr hle)

theorem forall_mem_str_iff {p : UInt8 → Prop} (hp : ∀ b, p b → b < 128) {s : String} :
    (∀ b ∈ str s, p b) ↔ ∀ c ∈ s.toList, c.val ≤ 127 ∧ p c.val.toUInt8 := by
  rw [str_eq_flatMap]
  simp only [List.mem_flatMap, forall_exists_index, and_imp]
  rw [forall_comm]
  refine forall_congr' fun c => ?_
  rw [forall_comm]
  exact forall_congr' fun _ => forall_mem_utf8EncodeChar_iff hp

/-- An ASCII byte occurs in the bytes of a text just where it is a character of the text. -/
theorem mem_str_iff {b : UInt8} (hb : b < 128) {s : String} :
    b ∈ str s ↔ ∃ c ∈ s.toList, c.val ≤ 127 ∧ c.val.toUInt8 = b := by
  rw [str_eq_flatMap, List.mem_flatMap]
  refine exists_congr fun c => and_congr_right fun _ => ?_
  by_cases h : c.val ≤ 127
  · rw [utf8EncodeChar_of_ascii h, List.mem_singleton, eq_comm]
    exact (and_iff_right h).symm
  · refine iff_of_false (fun hmem => ?_) fun hascii => h hascii.1
    exact UInt8.not_le.mpr hb (le_of_mem_utf8EncodeChar (UInt32.not_le.mp h) hmem)

end LoginServer
