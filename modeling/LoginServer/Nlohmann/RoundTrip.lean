import LoginServer.Nlohmann.Canonical
import LoginServer.Nlohmann.Integers
import LoginServer.Nlohmann.Recognition

/-!
# What is dumped is read back

`dump` writes a text of the grammar, so that `parse` reads it. What it reads is the document
in its canonical form: the members in the order of their keys and `null` for what is not
finite. A canonical form is dumped as the document itself, so that nothing more is lost by
doing it again.
-/

namespace LoginServer.Nlohmann

variable {strtod : Bytes → UInt64} {to_chars : UInt64 → Bytes}

/-! ## Texts that follow each other -/

theorem Lexes.blanks {blanks text : Bytes} {tokens : List Token}
    (hblanks : ∀ b ∈ blanks, isWhitespace b) (h : Lexes strtod text tokens) :
    Lexes strtod (blanks ++ text) tokens := by
  cases h with
  | nil h => exact .nil fun b hb => (List.mem_append.mp hb).elim (hblanks b) (h b)
  | cons h hlexeme hrest =>
    rw [← List.append_assoc]
    exact .cons (fun b hb => (List.mem_append.mp hb).elim (hblanks b) (h b)) hlexeme hrest

theorem Lexes.append {text text' : Bytes} {tokens tokens' : List Token}
    (h : Lexes strtod text tokens) (h' : Lexes strtod text' tokens') :
    Lexes strtod (text ++ text') (tokens ++ tokens') := by
  induction h with
  | nil hblanks => exact h'.blanks hblanks
  | cons hblanks hlexeme _ ih =>
    rw [List.append_assoc, List.append_assoc]
    exact .cons hblanks hlexeme ih

theorem Lexes.one {lexeme : Bytes} {token : Token} (h : Lexeme strtod token lexeme) :
    Lexes strtod lexeme [token] := by
  have hnil : Lexes strtod [] [] := .nil (by simp)
  have hcons := @Lexes.cons strtod [] _ _ _ _ (by simp) h hnil
  rwa [List.nil_append, List.append_nil] at hcons

theorem Lexes.push {lexeme text : Bytes} {token : Token} {tokens : List Token}
    (h : Lexeme strtod token lexeme) (h' : Lexes strtod text tokens) :
    Lexes strtod (lexeme ++ text) (token :: tokens) :=
  (Lexes.one h).append h'

/-! ## Strings -/

theorem hexDigit_hexChar : ∀ n < 16, hexDigit (hexChar n) = some n := by decide

theorem codeUnit_unicodeEscape {n : Nat} (h : n < 0x10000) :
    ∃ digits, unicodeEscape n = 0x5C :: 0x75 :: digits ∧ CodeUnit digits n := by
  refine ⟨_, rfl, _, _, _, _, _, _, _, _, rfl, hexDigit_hexChar _ (Nat.mod_lt _ (by decide)),
    hexDigit_hexChar _ (Nat.mod_lt _ (by decide)), hexDigit_hexChar _ (Nat.mod_lt _ (by decide)),
    hexDigit_hexChar _ (Nat.mod_lt _ (by decide)), ?_⟩
  omega

theorem character_escapeChar (c : Char) : Character (escapeChar c) (String.utf8EncodeChar c) := by
  unfold escapeChar
  split_ifs with hascii
  · have hencode : String.utf8EncodeChar c = [.ofNat c.toNat] := by
      rw [Unicode.utf8EncodeChar_eq_iff, Unicode.codeBytes, if_pos (by omega)]
      simp only [List.map_cons, List.map_nil]
      rw [Unicode.toNat_ofNat_of_lt (by omega)]
    unfold escape
    split
    case h_8 h1 h2 h3 h4 h5 h6 h7 =>
      split_ifs with hcontrol
      · obtain ⟨digits, hdigits, hunit⟩ := codeUnit_unicodeEscape (n := c.toNat) (by omega)
        rw [hdigits]
        exact .codepoint hunit
      · rw [← hencode]
        exact .unescaped ⟨by omega, h6, h7⟩
    all_goals
      rename_i heq
      rw [hencode, heq]
      exact .escaped (by decide)
  · exact .unescaped ⟨by omega, by omega, by omega⟩

theorem characters_of_dump_escaped {s out : Bytes} (h : dump_escaped s = some out) :
    Characters out s := by
  obtain ⟨cs, rfl, rfl⟩ := dump_escaped_eq_some_iff.mp h
  induction cs with
  | nil => exact .nil
  | cons c cs ih =>
    rw [List.flatMap_cons, List.flatMap_cons]
    exact .cons (character_escapeChar c) (ih (dump_escaped_eq_some_iff.mpr ⟨cs, rfl, rfl⟩))

/-! ## Containers -/

theorem joined_cons (text : Bytes) (texts : List Bytes) :
    joined (text :: texts) = text ++ texts.flatMap (0x2C :: ·) := by
  induction texts generalizing text with
  | nil => rw [joined, List.flatMap_nil, List.append_nil]
  | cons next texts ih =>
    rw [joined, ih, List.flatMap_cons, List.cons_append]
    rintro ⟨⟩

theorem Lexes.elements {text : Bytes} {tokens : List Token} {items : List Json}
    (htext : Lexes strtod text tokens) (hitems : Elements tokens items) {texts : List Bytes}
    {more : List Json} (hmore : List.Forall₂ (Denotes strtod) texts more) :
    ∃ tokens', Lexes strtod (text ++ texts.flatMap (0x2C :: ·)) tokens' ∧
      Elements tokens' (items ++ more) := by
  induction hmore generalizing text tokens items with
  | nil => exact ⟨tokens, by simpa using htext, by simpa using hitems⟩
  | @cons next value texts more hnext _ ih =>
    obtain ⟨valueTokens, hlexes, hvalue⟩ := hnext
    obtain ⟨tokens', htext', hitems'⟩ :=
      ih (htext.append (.push .value_separator hlexes)) (.more hitems hvalue)
    refine ⟨tokens', ?_, ?_⟩
    · rwa [List.append_assoc] at htext'
    · rwa [List.append_assoc] at hitems'

theorem denotes_array {texts : List Bytes} {items : List Json}
    (h : List.Forall₂ (Denotes strtod) texts items) :
    Denotes strtod (0x5B :: (joined texts ++ [0x5D])) (.array items) := by
  cases h with
  | nil => exact ⟨_, .push .begin_array (.one .end_array), .emptyArray⟩
  | @cons text value texts items hfirst hmore =>
    obtain ⟨valueTokens, hlexes, hvalue⟩ := hfirst
    obtain ⟨tokens, htext, hitems⟩ := hlexes.elements (.one hvalue) hmore
    rw [joined_cons]
    exact ⟨_, .push .begin_array (htext.append (.one .end_array)), .array hitems⟩

/-- The text of a member denotes it. -/
def DenotesMember (strtod : Bytes → UInt64) (text : Bytes) (m : Bytes × Json) : Prop :=
  ∃ escaped value, text = 0x22 :: (escaped ++ 0x22 :: 0x3A :: value) ∧ Characters escaped m.1 ∧
    Denotes strtod value m.2

theorem DenotesMember.lexes {text : Bytes} {m : Bytes × Json} (h : DenotesMember strtod text m) :
    ∃ tokens, Lexes strtod text (.value_string m.1 :: .name_separator :: tokens) ∧
      Value tokens m.2 := by
  obtain ⟨escaped, value, rfl, hkey, tokens, hlexes, hvalue⟩ := h
  refine ⟨tokens, ?_, hvalue⟩
  have hmember := Lexes.push (.value_string hkey) (Lexes.push .name_separator hlexes)
  simpa using hmember

theorem setMember_of_not_mem {members : List (Bytes × Json)} {key : Bytes} (value : Json)
    (h : key ∉ members.map Prod.fst) :
    Json.setMember members key value = members ++ [(key, value)] := by
  induction members with
  | nil => rfl
  | cons m members ih =>
    rw [List.map_cons, List.mem_cons, not_or] at h
    rw [Json.setMember, if_neg (Ne.symm h.1), ih h.2, List.cons_append]

theorem Lexes.members {text : Bytes} {tokens : List Token} {members : List (Bytes × Json)}
    (htext : Lexes strtod text tokens) (hmembers : Members tokens members) {texts : List Bytes}
    {more : List (Bytes × Json)} (hmore : List.Forall₂ (DenotesMember strtod) texts more)
    (hkeys : ((members ++ more).map Prod.fst).Nodup) :
    ∃ tokens', Lexes strtod (text ++ texts.flatMap (0x2C :: ·)) tokens' ∧
      Members tokens' (members ++ more) := by
  induction hmore generalizing text tokens members with
  | nil => exact ⟨tokens, by simpa using htext, by simpa using hmembers⟩
  | @cons next m texts more hnext _ ih =>
    obtain ⟨valueTokens, hlexes, hvalue⟩ := hnext.lexes
    have hnext := Members.more m.1 hmembers hvalue
    have hnew : m.1 ∉ members.map Prod.fst := by
      rw [List.map_append, List.map_cons, List.nodup_append] at hkeys
      intro hmem
      exact hkeys.2.2 m.1 hmem m.1 List.mem_cons_self rfl
    rw [setMember_of_not_mem _ hnew] at hnext
    have hkeys' : ((members ++ [(m.1, m.2)] ++ more).map Prod.fst).Nodup := by
      simpa using hkeys
    obtain ⟨tokens', htext', hmembers'⟩ :=
      ih (htext.append (.push .value_separator hlexes)) hnext hkeys'
    refine ⟨tokens', ?_, ?_⟩
    · rwa [List.append_assoc] at htext'
    · rwa [List.append_assoc] at hmembers'

theorem denotes_object {texts : List Bytes} {members : List (Bytes × Json)}
    (h : List.Forall₂ (DenotesMember strtod) texts members)
    (hkeys : (members.map Prod.fst).Nodup) :
    Denotes strtod (0x7B :: (joined texts ++ [0x7D])) (.object members) := by
  cases h with
  | nil => exact ⟨_, .push .begin_object (.one .end_object), .emptyObject⟩
  | @cons text m texts members hfirst hmore =>
    obtain ⟨valueTokens, hlexes, hvalue⟩ := hfirst.lexes
    obtain ⟨tokens, htext, hmembers⟩ := hlexes.members (.one m.1 hvalue) hmore hkeys
    rw [joined_cons]
    exact ⟨_, .push .begin_object (htext.append (.one .end_object)), .object hmembers⟩

/-! ## What is read is well formed -/

/-- What a token has to be for a document to hold its value. -/
def Token.Fits : Token → Prop
  | .value_string s => IsText s
  | .value_unsigned n => n < 2 ^ 64
  | .value_integer n => -2 ^ 63 ≤ n ∧ n < 2 ^ 64
  | _ => True

theorem Character.isUtf8 {raw text : Bytes} (h : Character raw text) : Unicode.IsUtf8 text := by
  cases h with
  | unescaped | codepoint | surrogates => exact Unicode.IsChar.isUtf8 ⟨_, rfl⟩
  | @escaped letter b h =>
    apply Unicode.IsChar.isUtf8
    apply Unicode.isChar_one.mpr
    simp only [escapes, List.mem_cons, List.not_mem_nil, or_false, Prod.mk.injEq] at h
    rcases h with ⟨-, rfl⟩ | ⟨-, rfl⟩ | ⟨-, rfl⟩ | ⟨-, rfl⟩ | ⟨-, rfl⟩ | ⟨-, rfl⟩ | ⟨-, rfl⟩ |
      ⟨-, rfl⟩ <;> decide

theorem Characters.isUtf8 {raw text : Bytes} (h : Characters raw text) : Unicode.IsUtf8 text := by
  induction h with
  | nil => exact Unicode.isUtf8_nil
  | cons h _ ih => exact h.isUtf8.append ih

theorem Lexeme.fits {token : Token} {bytes : Bytes} (h : Lexeme strtod token bytes) :
    token.Fits := by
  cases h with
  | value_string h => exact isText_iff.mpr h.isUtf8
  | value_unsigned h hfits => exact hfits
  | value_integer h hfits =>
    constructor <;> omega
  | _ => trivial

theorem Lexes.fits {text : Bytes} {tokens : List Token} (h : Lexes strtod text tokens) :
    ∀ token ∈ tokens, token.Fits := by
  induction h with
  | nil => simp
  | cons _ hlexeme _ ih =>
    intro token htoken
    rcases List.mem_cons.mp htoken with rfl | htoken
    · exact hlexeme.fits
    · exact ih token htoken

/-- A document that a text can denote. -/
def WellFormed (j : Json) : Prop := j.IsUtf8 ∧ Representable (fun bits => isfinite bits) j

theorem wellFormed_array {items : List Json} (h : ∀ j ∈ items, WellFormed j) :
    WellFormed (.array items) :=
  ⟨.array fun j hj => (h j hj).1, .array fun j hj => (h j hj).2⟩

/-- Members with distinct keys, as a map has them. -/
def WellFormedMembers (members : List (Bytes × Json)) : Prop :=
  (members.map Prod.fst).Nodup ∧ ∀ m ∈ members, IsText m.1 ∧ WellFormed m.2

theorem WellFormedMembers.object {members : List (Bytes × Json)} (h : WellFormedMembers members) :
    WellFormed (.object members) :=
  ⟨.object (fun m hm => (h.2 m hm).1) fun m hm => (h.2 m hm).2.1,
    .object h.1 fun m hm => (h.2 m hm).2.2⟩

theorem keys_setMember (members : List (Bytes × Json)) (key : Bytes) (value : Json) :
    (Json.setMember members key value).map Prod.fst =
      if key ∈ members.map Prod.fst then members.map Prod.fst
      else members.map Prod.fst ++ [key] := by
  induction members with
  | nil => rfl
  | cons m members ih =>
    obtain ⟨k, v⟩ := m
    rw [Json.setMember, List.map_cons]
    by_cases hk : k = key
    · rw [if_pos hk, if_pos (by rw [hk]; exact List.mem_cons_self)]
      rfl
    · rw [if_neg hk, List.map_cons, ih]
      simp only [List.mem_cons, Ne.symm hk, false_or]
      split_ifs <;> rfl

theorem WellFormedMembers.setMember {members : List (Bytes × Json)} {key : Bytes} {value : Json}
    (h : WellFormedMembers members) (hkey : IsText key) (hvalue : WellFormed value) :
    WellFormedMembers (Json.setMember members key value) := by
  refine ⟨?_, fun m hm => ?_⟩
  · rw [keys_setMember]
    split_ifs with hmem
    · exact h.1
    · exact List.nodup_append.mpr ⟨h.1, List.nodup_singleton key, fun k hk k' hk' heq =>
        hmem (List.mem_singleton.mp hk' ▸ heq ▸ hk)⟩
  · rcases mem_setMember hm with rfl | hm
    · exact ⟨hkey, hvalue⟩
    · exact h.2 m hm

theorem forall_mem_of_append {P : Token → Prop} {before after : List Token}
    (h : ∀ t ∈ before ++ after, P t) : (∀ t ∈ before, P t) ∧ ∀ t ∈ after, P t :=
  ⟨fun t ht => h t (List.mem_append_left _ ht), fun t ht => h t (List.mem_append_right _ ht)⟩

mutual

theorem Value.wellFormed {tokens : List Token} {value : Json} :
    Value tokens value → (∀ token ∈ tokens, token.Fits) → WellFormed value
  | .literal_true, _ => ⟨.boolean true, .boolean true⟩
  | .literal_false, _ => ⟨.boolean false, .boolean false⟩
  | .literal_null, _ => ⟨.null, .null⟩
  | .value_string s, h => ⟨.string (h (.value_string s) List.mem_cons_self), .string s⟩
  | .value_unsigned n, h => by
    have hfits : n < 2 ^ 64 := h (.value_unsigned n) List.mem_cons_self
    exact ⟨.number n, .number ⟨by omega, by omega⟩⟩
  | .value_integer n, h => ⟨.number n, .number (h (.value_integer n) List.mem_cons_self)⟩
  | .value_float hfinite, _ => ⟨.number_float _, .number_float hfinite⟩
  | .emptyArray, _ => wellFormed_array (by simp)
  | .array hitems, h =>
    wellFormed_array (hitems.wellFormed (forall_mem_of_append (List.forall_mem_cons.mp h).2).1)
  | .emptyObject, _ => WellFormedMembers.object ⟨List.nodup_nil, by simp⟩
  | .object hmembers, h =>
    (hmembers.wellFormed (forall_mem_of_append (List.forall_mem_cons.mp h).2).1).object

theorem Elements.wellFormed {tokens : List Token} {items : List Json} :
    Elements tokens items → (∀ token ∈ tokens, token.Fits) → ∀ j ∈ items, WellFormed j
  | .one hvalue, h => List.forall_mem_singleton.mpr (hvalue.wellFormed h)
  | .more hitems hvalue, h => by
    obtain ⟨hbefore, hafter⟩ := forall_mem_of_append h
    have hlast := hvalue.wellFormed (List.forall_mem_cons.mp hafter).2
    exact List.forall_mem_append.mpr
      ⟨hitems.wellFormed hbefore, List.forall_mem_singleton.mpr hlast⟩

theorem Members.wellFormed {tokens : List Token} {members : List (Bytes × Json)} :
    Members tokens members → (∀ token ∈ tokens, token.Fits) → WellFormedMembers members
  | .one key hvalue, h => by
    obtain ⟨hkey, hmore⟩ := List.forall_mem_cons.mp h
    have hmember := hvalue.wellFormed (List.forall_mem_cons.mp hmore).2
    refine ⟨List.nodup_singleton key, fun m hm => ?_⟩
    obtain rfl := List.mem_singleton.mp hm
    exact ⟨hkey, hmember⟩
  | .more key hmembers hvalue, h => by
    obtain ⟨hbefore, hafter⟩ := forall_mem_of_append h
    obtain ⟨hkey, hmore⟩ := List.forall_mem_cons.mp (List.forall_mem_cons.mp hafter).2
    exact (hmembers.wellFormed hbefore).setMember hkey
      (hvalue.wellFormed (List.forall_mem_cons.mp hmore).2)

end

theorem Denotes.wellFormed {text : Bytes} {j : Json} (h : Denotes strtod text j) :
    WellFormed j := by
  obtain ⟨tokens, hlexes, hvalue⟩ := h
  exact hvalue.wellFormed hlexes.fits

theorem wellFormed_of_parse {text : Bytes} {j : Json} (h : parse strtod text = some j) :
    WellFormed j := by
  obtain ⟨mark, body, tail, -, -, -, hdenotes⟩ := parse_sound h
  exact hdenotes.wellFormed

/-- Whatever `parse` accepts is UTF-8 throughout, has distinct keys, 64-bit integers and
finite numbers, and `dump` does not throw on it. -/
theorem parse_wellFormed (strtod to_chars) {text : Bytes} {j : Json}
    (h : parse strtod text = some j) :
    j.IsUtf8 ∧ Representable (fun bits => isfinite bits) j ∧ (dump to_chars j).isSome := by
  obtain ⟨hutf8, hrepresentable⟩ := wellFormed_of_parse h
  exact ⟨hutf8, hrepresentable, Option.isSome_iff_exists.mpr (exists_dump hutf8)⟩

theorem parse_wellFormed_members :
    (Json.object [(str "a", .array [.number (-1), .boolean true])]).IsUtf8 ∧
      Representable (fun bits => isfinite bits)
        (.object [(str "a", .array [.number (-1), .boolean true])]) ∧
      (dump (fun _ => []) (.object [(str "a", .array [.number (-1), .boolean true])])).isSome :=
  parse_wellFormed (fun _ => 0) (fun _ => [])
    (show parse _ (str "\x7b\"a\":[-1,true]\x7d") = _ from rfl)

/-! ## The round trip -/

/-- A finite number is written as a lexeme of itself. -/
def WritesFloat (strtod : Bytes → UInt64) (to_chars : UInt64 → Bytes) (bits : UInt64) : Prop :=
  isfinite bits → Lexeme strtod (.value_float bits) (to_chars bits)

/-- What is dumped denotes the canonical form. -/
theorem denotes_dump {j : Json} (h : Representable (WritesFloat strtod to_chars) j) {text : Bytes}
    (hdump : dump to_chars j = some text) : Denotes strtod text (canonical j) := by
  induction h generalizing text with
  | null =>
    rw [dump] at hdump
    cases hdump
    rw [canonical]
    exact ⟨_, .one .literal_null, .literal_null⟩
  | boolean b =>
    rw [dump] at hdump
    cases hdump
    rw [canonical]
    cases b with
    | false => exact ⟨_, .one .literal_false, .literal_false⟩
    | true => exact ⟨_, .one .literal_true, .literal_true⟩
  | number hn =>
    rw [dump, dump_integer_eq (List.length_replicate) hn] at hdump
    cases hdump
    rw [canonical]
    obtain ⟨token, hlexeme, hvalue⟩ := lexeme_to_string strtod hn
    exact ⟨_, .one hlexeme, hvalue⟩
  | number_float hwrites =>
    rw [dump, dump_float] at hdump
    rw [canonical]
    split_ifs at hdump ⊢ with hfinite
    · cases hdump
      exact ⟨_, .one (hwrites hfinite), .value_float hfinite⟩
    · cases hdump
      exact ⟨_, .one .literal_null, .literal_null⟩
  | string s =>
    rw [dump] at hdump
    obtain ⟨out, hout, heq⟩ := Option.bind_eq_some_iff.mp hdump
    cases heq
    rw [canonical]
    exact ⟨_, .one (.value_string (characters_of_dump_escaped hout)), .value_string s⟩
  | @array items _ ih =>
    rw [dump] at hdump
    obtain ⟨texts, htexts, heq⟩ := Option.bind_eq_some_iff.mp hdump
    cases heq
    rw [canonical, canonicalItems_eq]
    apply denotes_array
    rw [List.forall₂_map_right_iff]
    apply List.Forall₂.flip
    have hdenotes := (List.forall₂_and_left _ _).mpr ⟨ih, dumpItems_eq_some_iff.mp htexts⟩
    exact hdenotes.imp fun j text hj => hj.1 hj.2
  | @object members hkeys _ ih =>
    rw [dump] at hdump
    obtain ⟨entries, hentries, heq⟩ := Option.bind_eq_some_iff.mp hdump
    cases heq
    rw [canonical]
    refine denotes_object ?_ (keys_sortByKey_nodup hkeys)
    have hmembers := (List.forall₂_and_left _ _).mpr ⟨ih, dumpMembers_eq_some_iff.mp hentries⟩
    have hdenotes : List.Forall₂ (fun (entry : Bytes × Bytes) (m : Bytes × Json) =>
        entry.1 = m.1 ∧ DenotesMember strtod entry.2 m) entries (canonicalMembers members) := by
      rw [canonicalMembers_eq, List.forall₂_map_right_iff]
      apply List.Forall₂.flip
      refine hmembers.imp ?_
      rintro m _ ⟨hm, escaped, text, hescaped, htext, rfl⟩
      exact ⟨rfl, escaped, text, rfl, characters_of_dump_escaped hescaped, hm htext⟩
    rw [List.forall₂_map_left_iff]
    exact (Relations.forall₂_sortByKey (fun _ _ h => h.1) hdenotes).imp fun _ _ h => h.2

theorem parse_dump {j : Json} (h : Representable (WritesFloat strtod to_chars) j) {text : Bytes}
    (hdump : dump to_chars j = some text) : parse strtod text = some (canonical j) := by
  have hparse := parse_complete (Or.inl rfl) (Or.inl rfl) (denotes_dump h hdump)
  rwa [List.nil_append, List.append_nil] at hparse

/-- What is dumped is read back as the same document, up to the order of its members and with
`null` for what is not finite, and that document is dumped as the same bytes. -/
theorem dump_round_trip (strtod to_chars) {j : Json}
    (h : Representable (WritesFloat strtod to_chars) j) {text : Bytes}
    (hdump : dump to_chars j = some text) :
    ∃ j', parse strtod text = some j' ∧ j.Same j' ∧ dump to_chars j' = some text := by
  have hsame := same_canonical h
  refine ⟨canonical j, parse_dump h hdump, hsame, ?_⟩
  rw [← dump_same hsame h h.canonical, hdump]

theorem dump_round_trip_members :
    ∃ j', parse (fun _ => 0) (str "\x7b\"a\":\"\\n\",\"b\":[0]\x7d") = some j' ∧
      (Json.object [(str "b", .array [.number 0]), (str "a", .string [0x0A])]).Same j' ∧
      dump (fun _ => []) j' = some (str "\x7b\"a\":\"\\n\",\"b\":[0]\x7d") := by
  refine dump_round_trip _ _ (.object (by decide) fun m hm => ?_) rfl
  simp only [List.mem_cons, List.not_mem_nil, or_false] at hm
  rcases hm with rfl | rfl
  · refine .array fun j hj => ?_
    obtain rfl := List.mem_singleton.mp hj
    exact .number (by decide)
  · exact .string _

end LoginServer.Nlohmann
