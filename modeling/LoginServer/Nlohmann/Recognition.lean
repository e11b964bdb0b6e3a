import Mathlib.Data.List.Chain
import Mathlib.Data.List.TakeWhile
import LoginServer.Nlohmann.Numbers
import LoginServer.Nlohmann.Parsing
import LoginServer.Nlohmann.Strings

/-!
# The accepted texts

`parse` accepts exactly the texts of the grammar, after an optional byte order mark, and up
to the end of the input or a byte zero: the lexer takes both for the end
(`parse_eq_some_iff`).
-/

namespace LoginServer.Nlohmann

variable {strtod : Bytes → UInt64}

/-! ## One token -/

def Token.IsNumber : Token → Prop
  | .value_unsigned _ | .value_integer _ | .value_float _ => True
  | _ => False

theorem Lexeme.number {token : Token} {bytes : Bytes} (h : Lexeme strtod token bytes)
    (htoken : token.IsNumber) : NumberLexeme strtod token bytes := by
  cases h with
  | value_unsigned h hfits => exact numberLexeme_unsigned h hfits
  | value_integer h hfits => exact numberLexeme_integer h hfits
  | value_float hminus h hfraction hexponent hfloat =>
    exact numberLexeme_float hminus h hfraction hexponent hfloat
  | _ => exact htoken.elim

/-- The bytes that other lexemes than numbers begin with. -/
def initials : Bytes := [0x5B, 0x5D, 0x7B, 0x7D, 0x3A, 0x2C, 0x74, 0x66, 0x6E, 0x22]

theorem Lexeme.exists_cons {token : Token} {bytes : Bytes} (h : Lexeme strtod token bytes) :
    ∃ c s, bytes = c :: s ∧
      (¬ token.IsNumber ∧ c ∈ initials ∨ token.IsNumber ∧ (c = 0x2D ∨ isDigit c)) := by
  cases h with
  | value_unsigned h hfits =>
    have hnumber : NumberLexeme strtod _ _ := numberLexeme_unsigned h hfits
    obtain ⟨c, s, rfl, hc, -⟩ := scan_number_complete hnumber
    exact ⟨c, s, rfl, Or.inr ⟨trivial, hc⟩⟩
  | value_integer h hfits => exact ⟨_, _, rfl, Or.inr ⟨trivial, Or.inl rfl⟩⟩
  | value_float hminus h hfraction hexponent hfloat =>
    have hnumber : NumberLexeme strtod _ _ :=
      numberLexeme_float hminus h hfraction hexponent hfloat
    obtain ⟨c, s, heq, hc, -⟩ := scan_number_complete hnumber
    exact ⟨c, s, heq, Or.inr ⟨trivial, hc⟩⟩
  | _ => exact ⟨_, _, rfl, Or.inl ⟨id, by decide⟩⟩

theorem scan_literal_sound {literal_text input rest : Bytes} {return_type token : Token}
    (h : scan_literal literal_text return_type input = (token, rest))
    (htoken : token ≠ .parse_error) : token = return_type ∧ input = literal_text ++ rest := by
  induction literal_text generalizing input with
  | nil =>
    cases h
    exact ⟨rfl, rfl⟩
  | cons c literal_text ih =>
    cases input with
    | nil =>
      cases h
      exact absurd rfl htoken
    | cons current input =>
      rw [scan_literal] at h
      split_ifs at h with heq
      · subst heq
        obtain ⟨rfl, rfl⟩ := ih h
        exact ⟨rfl, rfl⟩
      · cases h
        exact absurd rfl htoken

theorem scan_literal_append (literal_text rest : Bytes) (return_type : Token) :
    scan_literal literal_text return_type (literal_text ++ rest) = (return_type, rest) := by
  induction literal_text with
  | nil => rfl
  | cons c literal_text ih => rw [List.cons_append, scan_literal, if_pos rfl, ih]

theorem scan_current_sound {current : UInt8} {input rest : Bytes} {token : Token}
    (h : scan_current strtod current input = (token, rest)) (htoken : token ≠ .parse_error) :
    token = .end_of_input ∧ current = 0x00 ∨
      ∃ s, Lexeme strtod token (current :: s) ∧ input = s ++ rest := by
  unfold scan_current at h
  split at h
  case h_7 =>
    obtain ⟨rfl, rfl⟩ := scan_literal_sound h htoken
    exact Or.inr ⟨_, .literal_true, rfl⟩
  case h_8 =>
    obtain ⟨rfl, rfl⟩ := scan_literal_sound h htoken
    exact Or.inr ⟨_, .literal_false, rfl⟩
  case h_9 =>
    obtain ⟨rfl, rfl⟩ := scan_literal_sound h htoken
    exact Or.inr ⟨_, .literal_null, rfl⟩
  case h_10 =>
    split at h
    · rename_i hscan
      cases h
      obtain ⟨raw, hraw, rfl⟩ := scan_string_iff.mp hscan
      exact Or.inr ⟨raw ++ [0x22], .value_string hraw, by simp⟩
    · cases h
      exact absurd rfl htoken
  case h_11 =>
    cases h
    exact Or.inl ⟨rfl, rfl⟩
  case h_12 =>
    split_ifs at h with hcurrent
    · obtain ⟨s, hs, rfl⟩ := scan_number_sound hcurrent h htoken
      exact Or.inr ⟨s, hs.lexeme, rfl⟩
    · cases h
      exact absurd rfl htoken
  all_goals
    cases h
    refine Or.inr ⟨[], ?_, rfl⟩
    constructor

theorem scan_current_of_isNumber {c : UInt8} (h : c = 0x2D ∨ isDigit c) (input : Bytes) :
    scan_current strtod c input = scan_number strtod c input := by
  unfold scan_current
  split
  case h_12 => exact if_pos h
  all_goals exact absurd h (by decide)

theorem scan_current_of_string {input text rest : Bytes}
    (h : scan_string (input.length + 1) [] input = some (text, rest)) :
    scan_current strtod 0x22 input = (.value_string text, rest) := by
  simp only [scan_current, h]

/-- A lexeme is read as its token, a number only where it cannot go on. -/
theorem scan_current_complete {token : Token} {c : UInt8} {s rest : Bytes}
    (h : Lexeme strtod token (c :: s)) (hrest : token.IsNumber → Follows rest) :
    scan_current strtod c (s ++ rest) = (token, rest) := by
  by_cases hnumber : token.IsNumber
  · obtain ⟨c', s', heq, hc, hscan⟩ := scan_number_complete (h.number hnumber)
    obtain ⟨rfl, rfl⟩ := List.cons.inj heq
    rw [scan_current_of_isNumber hc]
    exact hscan rest (hrest hnumber)
  · generalize hbytes : c :: s = bytes at h
    cases h with
    | literal_true =>
      obtain ⟨rfl, rfl⟩ := List.cons.inj (hbytes.trans (show _ = 0x74 :: str "rue" from rfl))
      exact scan_literal_append _ _ _
    | literal_false =>
      obtain ⟨rfl, rfl⟩ := List.cons.inj (hbytes.trans (show _ = 0x66 :: str "alse" from rfl))
      exact scan_literal_append _ _ _
    | literal_null =>
      obtain ⟨rfl, rfl⟩ := List.cons.inj (hbytes.trans (show _ = 0x6E :: str "ull" from rfl))
      exact scan_literal_append _ _ _
    | @value_string raw text hraw =>
      obtain ⟨rfl, rfl⟩ := List.cons.inj hbytes
      have hscan : scan_string ((raw ++ 0x22 :: rest).length + 1) [] (raw ++ 0x22 :: rest) =
          some (text, rest) := scan_string_iff.mpr ⟨raw, hraw, rfl⟩
      rw [List.append_assoc, List.singleton_append]
      exact scan_current_of_string hscan
    | value_unsigned | value_integer | value_float => exact absurd trivial hnumber
    | _ =>
      obtain ⟨rfl, rfl⟩ := List.cons.inj hbytes
      rfl

/-- Where the lexer sees the end of the input. -/
def Ends (tail : Bytes) : Prop := tail = [] ∨ tail.head? = some 0x00

theorem scan_of_blanks {blanks : Bytes} (h : ∀ b ∈ blanks, isWhitespace b) {c : UInt8}
    (hc : ¬ isWhitespace c) (input : Bytes) :
    scan strtod (blanks ++ c :: input) = scan_current strtod c input := by
  rw [scan, List.dropWhile_append_of_pos h, List.dropWhile_cons_of_neg hc]

theorem scan_of_ends {blanks tail : Bytes} (h : ∀ b ∈ blanks, isWhitespace b) (htail : Ends tail) :
    scan strtod (blanks ++ tail) = (.end_of_input, []) := by
  rcases htail with rfl | hzero
  · rw [List.append_nil, scan, List.dropWhile_eq_nil_iff.mpr h]
  · obtain ⟨rest, rfl⟩ := List.head?_eq_some_iff.mp hzero
    rw [scan_of_blanks h (by decide)]
    rfl

theorem scan_sound {input rest : Bytes} {token : Token} (h : scan strtod input = (token, rest))
    (htoken : token ≠ .parse_error) :
    ∃ blanks, (∀ b ∈ blanks, isWhitespace b) ∧
      ((token = .end_of_input ∧ ∃ tail, Ends tail ∧ input = blanks ++ tail) ∨
        ∃ lexeme, Lexeme strtod token lexeme ∧ input = blanks ++ (lexeme ++ rest)) := by
  have hinput := (List.takeWhile_append_dropWhile (p := isWhitespace) (l := input)).symm
  refine ⟨input.takeWhile isWhitespace, fun b hb => List.mem_takeWhile_imp hb, ?_⟩
  rw [scan] at h
  split at h
  · rename_i heq
    cases h
    rw [heq] at hinput
    exact Or.inl ⟨rfl, [], Or.inl rfl, hinput⟩
  · rename_i current more heq
    rw [heq] at hinput
    rcases scan_current_sound h htoken with ⟨rfl, rfl⟩ | ⟨s, hs, rfl⟩
    · exact Or.inl ⟨rfl, _, Or.inr rfl, hinput⟩
    · exact Or.inr ⟨current :: s, hs, hinput⟩

/-! ## All tokens -/

theorem tokens_sound {turns : Nat} {input : Bytes} {before more : List Token}
    (h : tokens strtod turns input = before ++ .end_of_input :: more) :
    ∃ body tail, input = body ++ tail ∧ Ends tail ∧ Lexes strtod body before := by
  induction turns generalizing input before with
  | zero => exact absurd h.symm (by simp [tokens])
  | succ turns ih =>
    rw [tokens] at h
    split at h
    · cases before with
      | nil => cases h
      | cons token before => exact absurd (List.cons.inj h).2.symm (by simp)
    · rename_i rest hscan
      obtain ⟨blanks, hblanks, ⟨-, tail, htail, rfl⟩ | ⟨lexeme, hlexeme, -⟩⟩ :=
        scan_sound hscan (by simp)
      · cases before with
        | nil => exact ⟨blanks, tail, rfl, htail, .nil hblanks⟩
        | cons token before => exact absurd (List.cons.inj h).2.symm (by simp)
      · cases hlexeme
    · rename_i token rest herror hend hscan
      cases before with
      | nil => exact (hend (List.cons.inj h).1).elim
      | cons token' before =>
        obtain ⟨rfl, hmore⟩ := List.cons.inj h
        obtain ⟨body, tail, rfl, htail, hbody⟩ := ih hmore
        obtain ⟨blanks, hblanks, ⟨rfl, -⟩ | ⟨lexeme, hlexeme, rfl⟩⟩ := scan_sound hscan herror
        · exact (hend rfl).elim
        · exact ⟨_, tail, by simp, htail, .cons hblanks hlexeme hbody⟩

/-- No number follows another number. -/
def Apart (tokens : List Token) : Prop := tokens.IsChain fun a b => a.IsNumber → ¬ b.IsNumber

theorem follows_cons {c : UInt8} {s : Bytes}
    (h : isDigit c = false ∧ c ≠ 0x2E ∧ ¬ (c = 0x65 ∨ c = 0x45)) : Follows (c :: s) := by
  rintro c' ⟨⟩
  exact ⟨Bool.eq_false_iff.mp h.1, h.2⟩

theorem follows_of_isWhitespace {c : UInt8} {s : Bytes} (h : isWhitespace c) :
    Follows (c :: s) := by
  simp only [isWhitespace, Bool.or_eq_true, decide_eq_true_eq] at h
  apply follows_cons
  rcases h with ((rfl | rfl) | rfl) | rfl <;> decide

theorem follows_of_ends {tail : Bytes} (h : Ends tail) : Follows tail := by
  rcases h with rfl | hzero
  · rintro c ⟨⟩
  · obtain ⟨rest, rfl⟩ := List.head?_eq_some_iff.mp hzero
    exact follows_cons (by decide)

theorem follows_of_initial {c : UInt8} {s : Bytes} (h : c ∈ initials) : Follows (c :: s) := by
  apply follows_cons
  simp only [initials, List.mem_cons, List.not_mem_nil, or_false] at h
  rcases h with rfl | rfl | rfl | rfl | rfl | rfl | rfl | rfl | rfl | rfl <;> decide

theorem Lexes.follows {text tail : Bytes} {tokens : List Token} (h : Lexes strtod text tokens)
    (htail : Ends tail) (hhead : ∀ token ∈ tokens.head?, ¬ token.IsNumber) :
    Follows (text ++ tail) := by
  cases h with
  | nil hblanks =>
    cases text with
    | nil => exact follows_of_ends htail
    | cons c blanks => exact follows_of_isWhitespace (hblanks c List.mem_cons_self)
  | @cons blanks lexeme text token tokens hblanks hlexeme _ =>
    cases blanks with
    | nil =>
      obtain ⟨c, s, rfl, ⟨-, hc⟩ | ⟨hnumber, -⟩⟩ := hlexeme.exists_cons
      · exact follows_of_initial hc
      · exact absurd hnumber (hhead token rfl)
    | cons c blanks => exact follows_of_isWhitespace (hblanks c List.mem_cons_self)

theorem not_isWhitespace_initial {c : UInt8} (h : c ∈ initials ∨ c = 0x2D ∨ isDigit c) :
    ¬ isWhitespace c := by
  intro hwhite
  simp only [isWhitespace, Bool.or_eq_true, decide_eq_true_eq] at hwhite
  rcases hwhite with ((rfl | rfl) | rfl) | rfl <;> exact absurd h (by decide)

theorem Lexeme.initial {token : Token} {bytes : Bytes} (h : Lexeme strtod token bytes) :
    ∃ c s, bytes = c :: s ∧ (c ∈ initials ∨ c = 0x2D ∨ isDigit c) := by
  obtain ⟨c, s, heq, ⟨-, hc⟩ | ⟨-, hc⟩⟩ := h.exists_cons
  · exact ⟨c, s, heq, Or.inl hc⟩
  · exact ⟨c, s, heq, Or.inr hc⟩

theorem Lexeme.token_ne {token : Token} {bytes : Bytes} (h : Lexeme strtod token bytes) :
    token ≠ .parse_error ∧ token ≠ .end_of_input := by
  cases h <;> exact ⟨Token.noConfusion, Token.noConfusion⟩

theorem tokens_of_scan {turns : Nat} {input rest : Bytes} {token : Token}
    (h : scan strtod input = (token, rest))
    (htoken : token ≠ .parse_error ∧ token ≠ .end_of_input) :
    tokens strtod (turns + 1) input = token :: tokens strtod turns rest := by
  rw [tokens, h]
  split
  · rename_i heq
    exact absurd (Prod.mk.inj heq).1 htoken.1
  · rename_i heq
    exact absurd (Prod.mk.inj heq).1 htoken.2
  · rename_i heq
    obtain ⟨rfl, rfl⟩ := Prod.mk.inj heq
    rfl

theorem tokens_complete {body : Bytes} {before : List Token} (h : Lexes strtod body before)
    {tail : Bytes} (htail : Ends tail) :
    Apart before → ∀ turns, body.length < turns →
      tokens strtod turns (body ++ tail) = before ++ [.end_of_input] := by
  induction h with
  | nil hblanks =>
    intro _ turns hturns
    obtain ⟨turns, rfl⟩ := Nat.exists_eq_add_one_of_ne_zero (Nat.ne_zero_of_lt hturns)
    rw [tokens, scan_of_ends hblanks htail]
    rfl
  | @cons blanks lexeme text token before hblanks hlexeme hlexes ih =>
    intro hapart turns hturns
    obtain ⟨hhead, hapart⟩ := List.isChain_cons.mp hapart
    obtain ⟨turns, rfl⟩ := Nat.exists_eq_add_one_of_ne_zero (Nat.ne_zero_of_lt hturns)
    obtain ⟨c, s, rfl, hc⟩ := hlexeme.initial
    have hscan : scan strtod (blanks ++ (c :: s ++ text) ++ tail) = (token, text ++ tail) := by
      rw [List.append_assoc, List.append_assoc, List.cons_append,
        scan_of_blanks hblanks (not_isWhitespace_initial hc)]
      apply scan_current_complete hlexeme
      intro hnumber
      exact hlexes.follows htail fun token' htoken' => hhead token' htoken' hnumber
    have hlength : text.length < turns := by
      simp only [List.length_append, List.length_cons] at hturns
      omega
    rw [tokens_of_scan hscan hlexeme.token_ne, ih hapart turns hlength]
    rfl

/-! ## Texts -/

theorem apart_of_punctuation (before : List Token) {after : List Token} {token : Token}
    (htoken : ¬ token.IsNumber) (hbefore : Apart before) (hafter : Apart after) :
    Apart (before ++ token :: after) := by
  apply List.isChain_append.mpr
  refine ⟨hbefore, List.isChain_cons.mpr ⟨fun _ _ h => absurd h htoken, hafter⟩, ?_⟩
  rintro a - _ ⟨⟩ -
  exact htoken

theorem apart_one (token : Token) : Apart [token] := List.isChain_singleton token

mutual

theorem Value.apart {tokens : List Token} {value : Json} : Value tokens value → Apart tokens
  | .literal_true | .literal_false | .literal_null | .value_string _ | .value_unsigned _
  | .value_integer _ | .value_float _ => apart_one _
  | .emptyArray => apart_of_punctuation [] id List.isChain_nil (apart_one _)
  | .emptyObject => apart_of_punctuation [] id List.isChain_nil (apart_one _)
  | .array h =>
    apart_of_punctuation [] id List.isChain_nil
      (apart_of_punctuation _ id h.apart List.isChain_nil)
  | .object h =>
    apart_of_punctuation [] id List.isChain_nil
      (apart_of_punctuation _ id h.apart List.isChain_nil)

theorem Elements.apart {tokens : List Token} {items : List Json} :
    Elements tokens items → Apart tokens
  | .one h => h.apart
  | .more h hvalue => apart_of_punctuation _ id h.apart hvalue.apart

theorem Members.apart {tokens : List Token} {members : List (Bytes × Json)} :
    Members tokens members → Apart tokens
  | .one key h => apart_of_punctuation [.value_string key] id (apart_one _) h.apart
  | .more key h hvalue =>
    apart_of_punctuation _ id h.apart
      (apart_of_punctuation [.value_string key] id (apart_one _) hvalue.apart)

end

/-- The byte order mark of UTF-8. -/
def byteOrderMark : Bytes := [0xEF, 0xBB, 0xBF]

theorem skip_bom_sound {text input : Bytes} (h : skip_bom text = some input) :
    ∃ mark, (mark = [] ∨ mark = byteOrderMark) ∧ text = mark ++ input := by
  unfold skip_bom at h
  split at h
  · cases h
    exact ⟨byteOrderMark, Or.inr rfl, rfl⟩
  · cases h
  · cases h
    exact ⟨[], Or.inl rfl, rfl⟩

theorem skip_bom_of_ne {text : Bytes} (h : text.head? ≠ some 0xEF) : skip_bom text = some text := by
  unfold skip_bom
  split
  · exact absurd rfl h
  · exact absurd rfl h
  · rfl

/-- A text with a lexeme does not begin with a byte order mark. -/
theorem Lexes.head_ne {text : Bytes} {token : Token} {tokens : List Token}
    (h : Lexes strtod text (token :: tokens)) (tail : Bytes) :
    (text ++ tail).head? ≠ some 0xEF := by
  rcases h with _ | @⟨blanks, lexeme, text, _, _, hblanks, hlexeme, _⟩
  cases blanks with
  | nil =>
    obtain ⟨c, s, rfl, hc⟩ := hlexeme.initial
    intro heq
    obtain rfl : c = 0xEF := Option.some.inj heq
    exact absurd hc (by decide)
  | cons c blanks =>
    intro heq
    obtain rfl : c = 0xEF := Option.some.inj heq
    exact absurd (hblanks 0xEF List.mem_cons_self) (by decide)

theorem parse_sound {text : Bytes} {j : Json} (h : parse strtod text = some j) :
    ∃ mark body tail, text = mark ++ (body ++ tail) ∧ (mark = [] ∨ mark = byteOrderMark) ∧
      Ends tail ∧ Denotes strtod body j := by
  obtain ⟨input, hskip, hinput⟩ := Option.bind_eq_some_iff.mp h
  obtain ⟨mark, hmark, rfl⟩ := skip_bom_sound hskip
  split at hinput
  · rename_i result rest hparsed
    cases hinput
    obtain ⟨before, htokens, hvalue⟩ := sax_parse_internal_iff.mp hparsed
    obtain ⟨body, tail, rfl, htail, hbody⟩ := tokens_sound htokens
    exact ⟨mark, body, tail, rfl, hmark, htail, before, hbody, hvalue⟩
  · cases hinput

theorem parse_complete {mark body tail : Bytes} {j : Json}
    (hmark : mark = [] ∨ mark = byteOrderMark) (htail : Ends tail) (h : Denotes strtod body j) :
    parse strtod (mark ++ (body ++ tail)) = some j := by
  obtain ⟨before, hbody, hvalue⟩ := h
  have hskip : skip_bom (mark ++ (body ++ tail)) = some (body ++ tail) := by
    rcases hmark with rfl | rfl
    · obtain ⟨token, more, rfl, -⟩ := hvalue.head_ne
      exact skip_bom_of_ne (hbody.head_ne tail)
    · rfl
  have htokens := tokens_complete hbody htail hvalue.apart ((body ++ tail).length + 1)
    (by rw [List.length_append]; omega)
  rw [parse, hskip]
  simp only [Option.bind_eq_bind, Option.bind_some]
  rw [htokens, sax_parse_internal_iff.mpr ⟨before, rfl, hvalue⟩]

/-- `parse` answers with a document exactly on the texts that denote it, a byte order mark
before them and anything after a byte zero. -/
theorem parse_eq_some_iff (strtod : Bytes → UInt64) (text : Bytes) (j : Json) :
    parse strtod text = some j ↔
      ∃ mark body tail, text = mark ++ (body ++ tail) ∧ (mark = [] ∨ mark = byteOrderMark) ∧
        Ends tail ∧ Denotes strtod body j := by
  constructor
  · exact parse_sound
  · rintro ⟨mark, body, tail, rfl, hmark, htail, h⟩
    exact parse_complete hmark htail h

end LoginServer.Nlohmann
