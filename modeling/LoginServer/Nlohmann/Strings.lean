import Mathlib.Data.List.Forall2
import LoginServer.Nlohmann.Grammar
import LoginServer.Unicode.Utf8

/-!
# The lexer reads the strings of the grammar

The byte ranges that the lexer checks are those of the UTF-8 encodings, and its shifts and
masks encode the code point of an escape. So a turn of `scan_string` takes one `Character`
(`scan_char_iff`), and the scan ends at the first quote that none of them contains
(`scan_string_iff`).
-/

namespace LoginServer.Nlohmann

open Unicode

/-! ## Unescaped characters -/

def InRange (b : UInt8) (range : UInt8 × UInt8) : Prop := range.1 ≤ b ∧ b ≤ range.2

theorem next_byte_in_range_iff {ranges : List (UInt8 × UInt8)} {input added rest : Bytes} :
    next_byte_in_range ranges input = some (added, rest) ↔
      List.Forall₂ InRange added ranges ∧ input = added ++ rest := by
  induction ranges generalizing input added with
  | nil =>
    rw [next_byte_in_range, List.forall₂_nil_right_iff]
    constructor
    · rintro ⟨⟩
      exact ⟨rfl, rfl⟩
    · rintro ⟨rfl, rfl⟩
      rfl
  | cons range ranges ih =>
    cases input with
    | nil =>
      rw [next_byte_in_range]
      constructor
      · rintro ⟨⟩
      · rintro ⟨hranges, hinput⟩
        cases hranges
        cases hinput
    | cons current input =>
      rw [next_byte_in_range, List.forall₂_cons_right_iff]
      constructor
      · intro h
        split_ifs at h with hrange
        obtain ⟨⟨more, rest⟩, hmore, heq⟩ := Option.map_eq_some_iff.mp h
        cases heq
        obtain ⟨hranges, rfl⟩ := ih.mp hmore
        exact ⟨⟨current, more, hrange, hranges, rfl⟩, rfl⟩
      · rintro ⟨⟨b, more, hrange, hranges, rfl⟩, hinput⟩
        rw [List.cons_append] at hinput
        obtain ⟨rfl, rfl⟩ := List.cons.inj hinput
        rw [if_pos (show _ ∧ _ from hrange), ih.mpr ⟨hranges, rfl⟩]
        rfl

/-- The first byte as the lexer compares it. -/
theorem followingRanges_eq (current : UInt8) :
    followingRanges current =
      if current.toNat < 0x20 then none
      else if current.toNat ≤ 0x7F then some []
      else if current.toNat < 0xC2 then none
      else if current.toNat ≤ 0xDF then some [(0x80, 0xBF)]
      else if current.toNat = 0xE0 then some [(0xA0, 0xBF), (0x80, 0xBF)]
      else if current.toNat = 0xED then some [(0x80, 0x9F), (0x80, 0xBF)]
      else if current.toNat ≤ 0xEF then some [(0x80, 0xBF), (0x80, 0xBF)]
      else if current.toNat = 0xF0 then some [(0x90, 0xBF), (0x80, 0xBF), (0x80, 0xBF)]
      else if current.toNat ≤ 0xF3 then some [(0x80, 0xBF), (0x80, 0xBF), (0x80, 0xBF)]
      else if current.toNat = 0xF4 then some [(0x80, 0x8F), (0x80, 0xBF), (0x80, 0xBF)]
      else none := by
  simp only [followingRanges, UInt8.lt_iff_toNat_lt, UInt8.le_iff_toNat_le, ← UInt8.toNat_inj]
  rfl

theorem inRange_iff {b low high : UInt8} :
    InRange b (low, high) ↔ low.toNat ≤ b.toNat ∧ b.toNat ≤ high.toNat := by
  simp only [InRange, UInt8.le_iff_toNat_le]

/-- The bytes that may follow are those that complete a character. -/
theorem followingRanges_iff {current : UInt8} {added : Bytes} :
    (∃ ranges, followingRanges current = some ranges ∧ List.Forall₂ InRange added ranges) ↔
      0x20 ≤ current.toNat ∧ IsChar (current :: added) := by
  have hbyte := current.toNat_lt
  constructor
  · rintro ⟨ranges, hranges, hadded⟩
    rw [followingRanges_eq] at hranges
    split_ifs at hranges <;> cases hranges <;>
      simp only [List.forall₂_cons_right_iff, List.forall₂_nil_right_iff, inRange_iff] at hadded
    · subst hadded
      exact ⟨by omega, isChar_one.mpr (by omega)⟩
    · obtain ⟨b, _, hb, rfl, rfl⟩ := hadded
      exact ⟨by omega, isChar_two.mpr (by simp at hb; omega)⟩
    iterate 3
      obtain ⟨b, _, hb, ⟨c, _, hc, rfl, rfl⟩, rfl⟩ := hadded
      exact ⟨by omega, isChar_three.mpr (by simp at hb hc; omega)⟩
    iterate 3
      obtain ⟨b, _, hb, ⟨c, _, hc, ⟨d, _, hd, rfl, rfl⟩, rfl⟩, rfl⟩ := hadded
      exact ⟨by omega, isChar_four.mpr (by simp at hb hc hd; omega)⟩
  · rintro ⟨hlow, hchar⟩
    rw [followingRanges_eq]
    rcases hchar.cases with ⟨a, h⟩ | ⟨a, b, h⟩ | ⟨a, b, c, h⟩ | ⟨a, b, c, d, h⟩ <;> cases h
    · have h := isChar_one.mp hchar
      rw [if_neg (by omega), if_pos (by omega)]
      exact ⟨[], rfl, .nil⟩
    · have h := isChar_two.mp hchar
      rw [if_neg (by omega), if_neg (by omega), if_neg (by omega), if_pos (by omega)]
      exact ⟨_, rfl, .cons (inRange_iff.mpr h.2) .nil⟩
    · obtain ⟨ha, hb, hlow', hhigh', hc⟩ := isChar_three.mp hchar
      rw [if_neg (by omega), if_neg (by omega), if_neg (by omega), if_neg (by omega)]
      split_ifs with h1 h2 h3
      · exact ⟨_, rfl, .cons (inRange_iff.mpr ⟨hlow' h1, hb.2⟩)
          (.cons (inRange_iff.mpr hc) .nil)⟩
      · exact ⟨_, rfl, .cons (inRange_iff.mpr ⟨hb.1, hhigh' h2⟩)
          (.cons (inRange_iff.mpr hc) .nil)⟩
      · exact ⟨_, rfl, .cons (inRange_iff.mpr hb) (.cons (inRange_iff.mpr hc) .nil)⟩
      all_goals omega
    · obtain ⟨ha, hb, hlow', hhigh', hc, hd⟩ := isChar_four.mp hchar
      rw [if_neg (by omega), if_neg (by omega), if_neg (by omega), if_neg (by omega),
        if_neg (by omega), if_neg (by omega), if_neg (by omega)]
      split_ifs with h1 h2 h3
      · exact ⟨_, rfl, .cons (inRange_iff.mpr ⟨hlow' h1, hb.2⟩)
          (.cons (inRange_iff.mpr hc) (.cons (inRange_iff.mpr hd) .nil))⟩
      · exact ⟨_, rfl, .cons (inRange_iff.mpr hb)
          (.cons (inRange_iff.mpr hc) (.cons (inRange_iff.mpr hd) .nil))⟩
      · exact ⟨_, rfl, .cons (inRange_iff.mpr ⟨hb.1, hhigh' h3⟩)
          (.cons (inRange_iff.mpr hc) (.cons (inRange_iff.mpr hd) .nil))⟩
      · omega

/-! ## Code points -/

theorem lt_of_hexDigit {b : UInt8} {n : Nat} (h : hexDigit b = some n) : n < 16 := by
  have hbyte := b.toNat_lt
  simp only [hexDigit, UInt8.le_iff_toNat_le] at h
  split_ifs at h <;> cases h <;> simp_all <;> omega

theorem get_codepoint_iff {input rest : Bytes} {n : Nat} :
    get_codepoint input = some (n, rest) ↔
      ∃ digits, CodeUnit digits n ∧ input = digits ++ rest := by
  constructor
  · intro h
    match input with
    | a :: b :: c :: d :: input =>
      simp only [get_codepoint, Option.bind_eq_bind, Option.bind_eq_some_iff, Option.pure_def] at h
      obtain ⟨w, hw, x, hx, y, hy, z, hz, h⟩ := h
      cases h
      refine ⟨[a, b, c, d], ⟨a, b, c, d, w, x, y, z, rfl, hw, hx, hy, hz, ?_⟩, rfl⟩
      simp only [Nat.shiftLeft_eq]
      omega
  · rintro ⟨_, ⟨a, b, c, d, w, x, y, z, rfl, hw, hx, hy, hz, rfl⟩, rfl⟩
    simp [get_codepoint, hw, hx, hy, hz, Nat.shiftLeft_eq]

theorem CodeUnit.lt {digits : Bytes} {n : Nat} (h : CodeUnit digits n) : n < 0x10000 := by
  obtain ⟨a, b, c, d, w, x, y, z, -, hw, hx, hy, hz, rfl⟩ := h
  have h1 := lt_of_hexDigit hw
  have h2 := lt_of_hexDigit hx
  have h3 := lt_of_hexDigit hy
  have h4 := lt_of_hexDigit hz
  omega

theorem or_C0 : ∀ k < 32, 0xC0 ||| k = k + 0xC0 := by decide
theorem or_E0 : ∀ k < 16, 0xE0 ||| k = k + 0xE0 := by decide
theorem or_F0 : ∀ k < 8, 0xF0 ||| k = k + 0xF0 := by decide
theorem or_80 : ∀ k < 64, 0x80 ||| k = k + 0x80 := by decide

/-- The last six bits of a number behind the mark of a following byte. -/
theorem following_byte (n : Nat) : 0x80 ||| n &&& 0x3F = n % 64 + 0x80 := by
  rw [show (0x3F : Nat) = 2 ^ 6 - 1 from rfl, Nat.and_two_pow_sub_one_eq_mod]
  exact or_80 _ (Nat.mod_lt _ (by decide))

/-- The shifts and masks encode a character. -/
theorem translate_toNat (c : Char) : translate c.toNat = String.utf8EncodeChar c := by
  have hlt := lt_of_isValidChar (isValidChar_toNat c)
  refine (utf8EncodeChar_eq_iff.mpr ?_).symm
  unfold translate codeBytes
  simp only [following_byte, Nat.shiftRight_eq_div_pow]
  split_ifs <;> try omega
  · simp only [List.map_cons, List.map_nil]
    rw [toNat_ofNat_of_lt (by omega)]
  · rw [or_C0 _ (by omega)]
    simp only [List.map_cons, List.map_nil]
    rw [toNat_ofNat_of_lt (by omega), toNat_ofNat_of_lt (by omega)]
  · rw [or_E0 _ (by omega)]
    simp only [List.map_cons, List.map_nil]
    rw [toNat_ofNat_of_lt (by omega), toNat_ofNat_of_lt (by omega), toNat_ofNat_of_lt (by omega)]
  · rw [or_F0 _ (by omega)]
    simp only [List.map_cons, List.map_nil]
    rw [toNat_ofNat_of_lt (by omega), toNat_ofNat_of_lt (by omega), toNat_ofNat_of_lt (by omega),
      toNat_ofNat_of_lt (by omega)]

theorem translate_of_isValidChar {n : Nat} (h : n.isValidChar) :
    translate n = String.utf8EncodeChar (Char.ofNat n) := by
  rw [← translate_toNat, toNat_ofNat_char h]

theorem scan_codepoint_sound {input added rest : Bytes}
    (h : scan_codepoint input = some (added, rest)) :
    ∃ raw, Character (0x5C :: 0x75 :: raw) added ∧ input = raw ++ rest := by
  simp only [scan_codepoint, Option.bind_eq_bind, Option.bind_eq_some_iff] at h
  obtain ⟨⟨n, input⟩, hn, h⟩ := h
  obtain ⟨high, hhigh, rfl⟩ := get_codepoint_iff.mp hn
  have hlt := hhigh.lt
  dsimp only at h
  split_ifs at h with hsurrogate hlow
  · split at h
    · simp only [Option.bind_eq_some_iff] at h
      obtain ⟨⟨m, input⟩, hm, h⟩ := h
      obtain ⟨low, hlow, rfl⟩ := get_codepoint_iff.mp hm
      dsimp only at h
      split_ifs at h with hpair
      obtain ⟨rfl, rfl⟩ := Prod.mk.inj (Option.some.inj h)
      have heq : n <<< 10 + m - 0x35FDC00 = 0x10000 + (n - 0xD800) * 0x400 + (m - 0xDC00) := by
        rw [Nat.shiftLeft_eq]
        omega
      have hvalid : (n <<< 10 + m - 0x35FDC00).isValidChar := by
        rw [heq]
        exact Or.inr (by omega)
      refine ⟨high ++ 0x5C :: 0x75 :: low, ?_, by simp⟩
      rw [translate_of_isValidChar hvalid]
      apply Character.surrogates hhigh hlow hsurrogate hpair
      rw [toNat_ofNat_char hvalid, heq]
    · cases h
  · cases h
    have hvalid : n.isValidChar := by
      by_cases hsmall : n < 0xD800
      · exact Or.inl hsmall
      · exact Or.inr (by omega)
    refine ⟨high, ?_, rfl⟩
    rw [translate_of_isValidChar hvalid]
    apply Character.codepoint
    rwa [toNat_ofNat_char hvalid]

theorem scan_codepoint_of_codeUnit {c : Char} {digits : Bytes} (h : CodeUnit digits c.toNat)
    (rest : Bytes) : scan_codepoint (digits ++ rest) = some (String.utf8EncodeChar c, rest) := by
  have hvalid := isValidChar_toNat c
  have hnot : ¬ (0xD800 ≤ c.toNat ∧ c.toNat ≤ 0xDFFF) := by
    rcases hvalid with hvalid | hvalid <;> omega
  simp only [scan_codepoint, Option.bind_eq_bind, get_codepoint_iff.mpr ⟨digits, h, rfl⟩,
    Option.bind_some]
  rw [if_neg (by omega), if_neg (by omega), translate_toNat]
  rfl

theorem scan_codepoint_of_surrogates {c : Char} {high low : Bytes} {n m : Nat}
    (hhigh : CodeUnit high n) (hlow : CodeUnit low m) (hn : 0xD800 ≤ n ∧ n ≤ 0xDBFF)
    (hm : 0xDC00 ≤ m ∧ m ≤ 0xDFFF)
    (hc : c.toNat = 0x10000 + (n - 0xD800) * 0x400 + (m - 0xDC00)) (rest : Bytes) :
    scan_codepoint (high ++ 0x5C :: 0x75 :: (low ++ rest)) =
      some (String.utf8EncodeChar c, rest) := by
  have heq : n <<< 10 + m - 0x35FDC00 = c.toNat := by
    rw [Nat.shiftLeft_eq, hc]
    omega
  simp only [scan_codepoint, Option.bind_eq_bind, get_codepoint_iff.mpr ⟨high, hhigh, rfl⟩,
    get_codepoint_iff.mpr ⟨low, hlow, rfl⟩, Option.bind_some]
  rw [if_pos hn, if_pos hm, heq, translate_toNat]
  rfl

/-! ## Characters -/

theorem scan_escape_sound {input added rest : Bytes}
    (h : scan_escape input = some (added, rest)) :
    ∃ raw, Character (0x5C :: raw) added ∧ input = raw ++ rest := by
  unfold scan_escape at h
  split at h
  case h_9 input =>
    obtain ⟨raw, hraw, rfl⟩ := scan_codepoint_sound h
    exact ⟨0x75 :: raw, hraw, rfl⟩
  case h_10 => cases h
  all_goals
    cases h
    exact ⟨[_], .escaped (by decide), rfl⟩

/-- An unescaped character does not begin with a quote or a backslash. -/
theorem Character.unescaped_head {c : Char} {a : UInt8} {rest : Bytes}
    (hc : 0x20 ≤ c.toNat ∧ c.toNat ≠ 0x22 ∧ c.toNat ≠ 0x5C)
    (h : String.utf8EncodeChar c = a :: rest) : 0x20 ≤ a.toNat ∧ a ≠ 0x22 ∧ a ≠ 0x5C := by
  simp only [ne_eq, ← UInt8.toNat_inj]
  show 0x20 ≤ a.toNat ∧ a.toNat ≠ 0x22 ∧ a.toNat ≠ 0x5C
  rcases toNat_of_utf8EncodeChar_eq_cons h with ⟨-, -, heq⟩ | ⟨hle, -⟩ <;> omega

theorem Character.exists_cons {raw text : Bytes} (h : Character raw text) :
    ∃ a rest, raw = a :: rest ∧ a ≠ 0x22 := by
  cases h with
  | @unescaped c hc =>
    cases hraw : String.utf8EncodeChar c with
    | nil => exact absurd ⟨c, hraw⟩ isChar_nil
    | cons a rest => exact ⟨a, rest, rfl, (unescaped_head hc hraw).2.1⟩
  | escaped | codepoint | surrogates => exact ⟨_, _, rfl, by decide⟩

theorem scan_char_of_ne {current : UInt8} {input : Bytes} (h : current ≠ 0x5C) :
    scan_char (current :: input) = (followingRanges current).bind fun ranges =>
      (next_byte_in_range ranges input).bind fun r => some (current :: r.1, r.2) := by
  unfold scan_char
  split
  · contradiction
  · rename_i heq
    exact absurd (List.cons.inj heq).1 h
  · rename_i heq
    obtain ⟨rfl, rfl⟩ := List.cons.inj heq
    rfl

/-- A turn of `scan_string` takes one character. -/
theorem scan_char_iff {input added rest : Bytes} (hquote : input.head? ≠ some 0x22) :
    scan_char input = some (added, rest) ↔ ∃ raw, Character raw added ∧ input = raw ++ rest := by
  constructor
  · intro h
    match input with
    | current :: input =>
      by_cases hescape : current = 0x5C
      · subst hescape
        obtain ⟨raw, hraw, rfl⟩ := scan_escape_sound (by simpa only [scan_char] using h)
        exact ⟨0x5C :: raw, hraw, rfl⟩
      · simp only [scan_char_of_ne hescape, Option.bind_eq_some_iff] at h
        obtain ⟨ranges, hranges, ⟨more, input⟩, hmore, h⟩ := h
        cases h
        obtain ⟨hin, rfl⟩ := next_byte_in_range_iff.mp hmore
        obtain ⟨hlow, c, hc⟩ := followingRanges_iff.mp ⟨ranges, hranges, hin⟩
        refine ⟨current :: more, ?_, rfl⟩
        rw [← hc]
        apply Character.unescaped
        have hne : current.toNat ≠ 0x22 := fun heq =>
          hquote (congrArg some (UInt8.toNat_inj.mp heq))
        have hne' : current.toNat ≠ 0x5C := fun heq => hescape (UInt8.toNat_inj.mp heq)
        rcases toNat_of_utf8EncodeChar_eq_cons hc with ⟨-, -, heq⟩ | ⟨-, hle⟩ <;> omega
  · rintro ⟨raw, hraw, rfl⟩
    cases hraw with
    | @unescaped c hc =>
      cases hbytes : String.utf8EncodeChar c with
      | nil => exact absurd ⟨c, hbytes⟩ isChar_nil
      | cons a more =>
        obtain ⟨hlow, -, hne⟩ := Character.unescaped_head hc hbytes
        obtain ⟨ranges, hranges, hin⟩ := followingRanges_iff.mpr ⟨hlow, c, hbytes⟩
        rw [List.cons_append, scan_char_of_ne hne, hranges, Option.bind_some,
          next_byte_in_range_iff.mpr ⟨hin, rfl⟩]
        rfl
    | @escaped letter b hletter =>
      simp only [escapes, List.mem_cons, Prod.mk.injEq, List.not_mem_nil, or_false] at hletter
      rcases hletter with ⟨rfl, rfl⟩ | ⟨rfl, rfl⟩ | ⟨rfl, rfl⟩ | ⟨rfl, rfl⟩ | ⟨rfl, rfl⟩ |
        ⟨rfl, rfl⟩ | ⟨rfl, rfl⟩ | ⟨rfl, rfl⟩ <;> rfl
    | codepoint h => exact scan_codepoint_of_codeUnit h rest
    | surrogates hhigh hlow hn hm hc =>
      rw [List.cons_append, List.cons_append, List.append_assoc]
      exact scan_codepoint_of_surrogates hhigh hlow hn hm hc rest

/-! ## Strings -/

theorem scan_string_of_ne {turns : Nat} {token_buffer input : Bytes}
    (h : input.head? ≠ some 0x22) :
    scan_string (turns + 1) token_buffer input =
      (scan_char input).bind fun r => scan_string turns (token_buffer ++ r.1) r.2 := by
  rw [scan_string]
  · rfl
  · rintro rest rfl
    exact h rfl

theorem scan_string_sound {turns : Nat} {token_buffer input text rest : Bytes}
    (h : scan_string turns token_buffer input = some (text, rest)) :
    ∃ raw more, Characters raw more ∧ input = raw ++ 0x22 :: rest ∧
      text = token_buffer ++ more := by
  induction turns generalizing token_buffer input with
  | zero => cases h
  | succ turns ih =>
    by_cases hquote : input.head? = some 0x22
    · obtain ⟨input, rfl⟩ := List.head?_eq_some_iff.mp hquote
      cases h
      exact ⟨[], [], .nil, rfl, by simp⟩
    · rw [scan_string_of_ne hquote, Option.bind_eq_some_iff] at h
      obtain ⟨⟨added, input⟩, hchar, h⟩ := h
      obtain ⟨raw, hraw, rfl⟩ := (scan_char_iff hquote).mp hchar
      obtain ⟨raw', more, hmore, rfl, rfl⟩ := ih h
      exact ⟨raw ++ raw', added ++ more, .cons hraw hmore, by simp, by simp⟩

theorem scan_string_complete {raw text : Bytes} (h : Characters raw text) :
    ∀ turns token_buffer rest, raw.length < turns →
      scan_string turns token_buffer (raw ++ 0x22 :: rest) = some (token_buffer ++ text, rest) := by
  induction h with
  | nil =>
    intro turns token_buffer rest hturns
    obtain ⟨turns, rfl⟩ := Nat.exists_eq_add_one_of_ne_zero (Nat.ne_of_gt hturns)
    rw [List.nil_append, scan_string, List.append_nil]
  | @cons raw text raw' text' hchar _ ih =>
    intro turns token_buffer rest hturns
    have hpositive := Nat.zero_lt_of_lt hturns
    obtain ⟨turns, rfl⟩ := Nat.exists_eq_add_one_of_ne_zero (Nat.ne_of_gt hpositive)
    obtain ⟨a, tail, hraw, hne⟩ := hchar.exists_cons
    have hquote : (raw ++ (raw' ++ 0x22 :: rest)).head? ≠ some 0x22 := by
      rw [hraw]
      exact fun heq => hne (Option.some.inj heq)
    rw [List.append_assoc, scan_string_of_ne hquote,
      (scan_char_iff hquote).mpr ⟨raw, hchar, rfl⟩, Option.bind_some]
    have hlength : raw'.length < turns := by
      rw [hraw, List.length_append, List.length_cons] at hturns
      omega
    rw [ih turns (token_buffer ++ text) rest hlength, List.append_assoc]

/-- A string token is read exactly up to the quote after its characters. -/
theorem scan_string_iff {input text rest : Bytes} :
    scan_string (input.length + 1) [] input = some (text, rest) ↔
      ∃ raw, Characters raw text ∧ input = raw ++ 0x22 :: rest := by
  constructor
  · intro h
    obtain ⟨raw, more, hraw, hinput, rfl⟩ := scan_string_sound h
    exact ⟨raw, hraw, hinput⟩
  · rintro ⟨raw, hraw, rfl⟩
    apply scan_string_complete hraw
    rw [List.length_append]
    omega

end LoginServer.Nlohmann
