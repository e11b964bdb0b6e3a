import LoginServer.Nlohmann.Grammar

/-!
# The parser recognizes the grammar

The parser keeps a stack of open containers, the grammar has none. `Opens tokens states` says
which tokens have led to a stack: every open container with its elements so far. With it each
turn of the parser is a step of a derivation (`sax_parse_internal_sound`). Conversely the
tokens of a value take the parser from a stack to the evaluation of the same stack
(`Value.parsed`).
-/

namespace LoginServer.Nlohmann

/-! ## Soundness -/

/-- The tokens after which the parser expects a value within the containers `states`. -/
inductive Opens : List Token → List Frame → Prop where
  | nil : Opens [] []
  | firstElement {tokens : List Token} {states : List Frame} (h : Opens tokens states) :
    Opens (tokens ++ [.begin_array]) (.array [] :: states)
  | nextElement {tokens elements : List Token} {states : List Frame} {items : List Json}
    (h : Opens tokens states) (hitems : Elements elements items) :
    Opens (tokens ++ .begin_array :: (elements ++ [.value_separator])) (.array items :: states)
  | firstMember {tokens : List Token} {states : List Frame} (key : Bytes)
    (h : Opens tokens states) :
    Opens (tokens ++ [.begin_object, .value_string key, .name_separator])
      (.object [] key :: states)
  | nextMember {tokens memberTokens : List Token} {states : List Frame}
    {members : List (Bytes × Json)} (key : Bytes) (h : Opens tokens states)
    (hmembers : Members memberTokens members) :
    Opens (tokens ++ .begin_object ::
        (memberTokens ++ [.value_separator, .value_string key, .name_separator]))
      (.object members key :: states)

/-- The elements of the innermost array, together with one more. -/
theorem Opens.array {tokens valueTokens : List Token} {states : List Frame} {items : List Json}
    {value : Json} (h : Opens tokens (.array items :: states))
    (hvalue : Value valueTokens value) :
    ∃ before elements, tokens ++ valueTokens = before ++ .begin_array :: elements ∧
      Opens before states ∧ Elements elements (items ++ [value]) := by
  cases h with
  | @firstElement tokens _ h =>
    exact ⟨tokens, valueTokens, by simp, h, .one hvalue⟩
  | @nextElement tokens elements _ _ h hitems =>
    exact ⟨tokens, _, by simp, h, .more hitems hvalue⟩

/-- The members of the innermost object, together with one more. -/
theorem Opens.object {tokens valueTokens : List Token} {states : List Frame}
    {members : List (Bytes × Json)} {key : Bytes} {value : Json}
    (h : Opens tokens (.object members key :: states)) (hvalue : Value valueTokens value) :
    ∃ before memberTokens, tokens ++ valueTokens = before ++ .begin_object :: memberTokens ∧
      Opens before states ∧ Members memberTokens (Json.setMember members key value) := by
  cases h with
  | @firstMember tokens _ _ h =>
    exact ⟨tokens, _, by simp, h, .one key hvalue⟩
  | @nextMember tokens memberTokens _ _ _ h hmembers =>
    exact ⟨tokens, _, by simp, h, .more key hmembers hvalue⟩

/-- What the parser has answered when it ends, given the tokens before. -/
def Recognized (before input : List Token) (answer : Option (Json × List Token)) : Prop :=
  ∀ value rest, answer = some (value, rest) →
    ∃ tokens, input = tokens ++ rest ∧ Value (before ++ tokens) value

theorem Recognized.none {before input : List Token} : Recognized before input none := by
  intro value rest h
  cases h

/-- Tokens of the input that have been read. -/
theorem Recognized.read {before input : List Token} {answer : Option (Json × List Token)}
    (tokens : List Token) (h : Recognized (before ++ tokens) input answer) :
    Recognized before (tokens ++ input) answer := by
  intro value rest hanswer
  obtain ⟨more, rfl, hvalue⟩ := h value rest hanswer
  exact ⟨tokens ++ more, by rw [List.append_assoc], by rwa [← List.append_assoc]⟩

theorem sax_parse_internal_sound (states : List Frame) (input : List Token) :
    ∀ before, Opens before states →
      Recognized before input (sax_parse_internal states input) := by
  induction states, input using sax_parse_internal.induct (motive_2 := fun states value input =>
    ∀ before valueTokens, Opens before states → Value valueTokens value →
      Recognized (before ++ valueTokens) input (evaluateState states value input)) with
  | case1 states tokens ih =>
    intro before h
    rw [sax_parse_internal]
    exact (ih before _ h .emptyObject).read [.begin_object, .end_object]
  | case2 states key tokens ih =>
    intro before h
    rw [sax_parse_internal]
    exact (ih _ (.firstMember key h)).read [.begin_object, .value_string key, .name_separator]
  | case3 states tokens ih =>
    intro before h
    rw [sax_parse_internal]
    exact (ih before _ h .emptyArray).read [.begin_array, .end_array]
  | case4 states tokens hne ih =>
    intro before h
    rw [sax_parse_internal.eq_4 states tokens hne]
    exact (ih _ (.firstElement h)).read [.begin_array]
  | case5 states bits tokens hfinite ih =>
    intro before h
    rw [sax_parse_internal, if_pos hfinite]
    exact (ih before _ h (.value_float hfinite)).read [.value_float bits]
  | case6 states bits tokens hfinite =>
    intro before h
    rw [sax_parse_internal, if_neg hfinite]
    exact .none
  | case7 states tokens ih =>
    intro before h
    rw [sax_parse_internal]
    exact (ih before _ h .literal_false).read [.literal_false]
  | case8 states tokens ih =>
    intro before h
    rw [sax_parse_internal]
    exact (ih before _ h .literal_null).read [.literal_null]
  | case9 states tokens ih =>
    intro before h
    rw [sax_parse_internal]
    exact (ih before _ h .literal_true).read [.literal_true]
  | case10 states n tokens ih =>
    intro before h
    rw [sax_parse_internal]
    exact (ih before _ h (.value_integer n)).read [.value_integer n]
  | case11 states s tokens ih =>
    intro before h
    rw [sax_parse_internal]
    exact (ih before _ h (.value_string s)).read [.value_string s]
  | case12 states n tokens ih =>
    intro before h
    rw [sax_parse_internal]
    exact (ih before _ h (.value_unsigned n)).read [.value_unsigned n]
  | case13 tokens states =>
    intro before h
    rw [sax_parse_internal] <;> first | exact .none | assumption
  | case14 value tokens before valueTokens h hvalue =>
    intro value' rest hanswer
    cases h
    rw [evaluateState] at hanswer
    cases hanswer
    exact ⟨[], rfl, by rwa [List.nil_append, List.append_nil]⟩
  | case15 items states value tokens ih before valueTokens h hvalue =>
    rw [evaluateState]
    obtain ⟨opened, elements, heq, hopens, helements⟩ := h.array hvalue
    refine Recognized.read [.value_separator] ?_
    have hnext := ih _ (.nextElement hopens helements)
    rwa [heq, List.append_assoc, List.cons_append]
  | case16 items states value tokens ih before valueTokens h hvalue =>
    rw [evaluateState]
    obtain ⟨opened, elements, heq, hopens, helements⟩ := h.array hvalue
    refine Recognized.read [.end_array] ?_
    have hclosed := ih opened _ hopens (.array helements)
    rwa [heq, List.append_assoc, List.cons_append]
  | case17 members key states value key' tokens ih before valueTokens h hvalue =>
    rw [evaluateState]
    obtain ⟨opened, memberTokens, heq, hopens, hmembers⟩ := h.object hvalue
    refine Recognized.read [.value_separator, .value_string key', .name_separator] ?_
    have hnext := ih _ (.nextMember key' hopens hmembers)
    rwa [heq, List.append_assoc, List.cons_append]
  | case18 members key states value tokens ih before valueTokens h hvalue =>
    rw [evaluateState]
    obtain ⟨opened, memberTokens, heq, hopens, hmembers⟩ := h.object hvalue
    refine Recognized.read [.end_object] ?_
    have hclosed := ih opened _ hopens (.object hmembers)
    rwa [heq, List.append_assoc, List.cons_append]
  | case19 tokens states value _ _ _ _ _ before valueTokens h hvalue =>
    rw [evaluateState] <;> first | exact .none | assumption

/-- What the parser accepts is a value and what follows it. -/
theorem value_of_sax_parse_internal {input rest : List Token} {value : Json}
    (h : sax_parse_internal [] input = some (value, rest)) :
    ∃ tokens, input = tokens ++ rest ∧ Value tokens value :=
  sax_parse_internal_sound [] input [] .nil value rest h

/-! ## Completeness -/

/-- What begins an element does not close an array. -/
theorem Value.head_ne {tokens : List Token} {value : Json} (h : Value tokens value) :
    ∃ token rest, tokens = token :: rest ∧ token ≠ .end_array := by
  cases h <;> exact ⟨_, _, rfl, by simp⟩

theorem Elements.head_ne {tokens : List Token} {items : List Json} :
    Elements tokens items → ∃ token rest, tokens = token :: rest ∧ token ≠ .end_array
  | .one h => h.head_ne
  | .more h _ => by
    obtain ⟨token, rest, rfl, hne⟩ := h.head_ne
    exact ⟨token, _, rfl, hne⟩

theorem sax_parse_internal_array {states : List Frame} {tokens rest : List Token}
    {items : List Json} (h : Elements tokens items) :
    sax_parse_internal states (.begin_array :: (tokens ++ rest)) =
      sax_parse_internal (.array [] :: states) (tokens ++ rest) := by
  obtain ⟨token, more, rfl, hne⟩ := h.head_ne
  exact sax_parse_internal.eq_4 _ _ fun tokens heq => hne (List.cons.inj heq).1

mutual

/-- The tokens of a value bring the parser to the evaluation of its state. -/
theorem Value.parsed {tokens : List Token} {value : Json} :
    Value tokens value → ∀ states rest,
      sax_parse_internal states (tokens ++ rest) = evaluateState states value rest
  | .literal_true, states, rest => by rw [List.singleton_append, sax_parse_internal]
  | .literal_false, states, rest => by rw [List.singleton_append, sax_parse_internal]
  | .literal_null, states, rest => by rw [List.singleton_append, sax_parse_internal]
  | .value_string s, states, rest => by rw [List.singleton_append, sax_parse_internal]
  | .value_unsigned n, states, rest => by rw [List.singleton_append, sax_parse_internal]
  | .value_integer n, states, rest => by rw [List.singleton_append, sax_parse_internal]
  | .value_float h, states, rest => by rw [List.singleton_append, sax_parse_internal, if_pos h]
  | .emptyArray, states, rest => by
    rw [List.cons_append, List.singleton_append, sax_parse_internal]
  | .emptyObject, states, rest => by
    rw [List.cons_append, List.singleton_append, sax_parse_internal]
  | .array h, states, rest => by
    obtain ⟨items, value, rfl, hparsed⟩ := h.parsed
    rw [List.cons_append, List.append_assoc, sax_parse_internal_array h, hparsed,
      List.singleton_append, evaluateState]
  | .object h, states, rest => by
    obtain ⟨key, more, members, key', value, rfl, rfl, hparsed⟩ := h.parsed
    rw [List.cons_append, List.append_assoc]
    change sax_parse_internal states
      (.begin_object :: .value_string key :: .name_separator :: (more ++ _)) = _
    rw [sax_parse_internal, hparsed, List.singleton_append, evaluateState]

/-- All but the last element are in the open array, the last is evaluated. -/
theorem Elements.parsed {tokens : List Token} {items : List Json} :
    Elements tokens items → ∃ earlier value, items = earlier ++ [value] ∧ ∀ states rest,
      sax_parse_internal (.array [] :: states) (tokens ++ rest) =
        evaluateState (.array earlier :: states) value rest
  | .one h => ⟨[], _, rfl, fun states rest => h.parsed (.array [] :: states) rest⟩
  | .more h hvalue => by
    obtain ⟨earlier, value, rfl, hparsed⟩ := h.parsed
    refine ⟨_, _, rfl, fun states rest => ?_⟩
    rw [List.append_assoc, hparsed, List.cons_append, evaluateState, hvalue.parsed]

/-- The same for the members of an object, after the key of the first. -/
theorem Members.parsed {tokens : List Token} {members : List (Bytes × Json)} :
    Members tokens members → ∃ key more earlier key' value,
      tokens = .value_string key :: .name_separator :: more ∧
      members = Json.setMember earlier key' value ∧ ∀ states rest,
        sax_parse_internal (.object [] key :: states) (more ++ rest) =
          evaluateState (.object earlier key' :: states) value rest
  | .one key h => ⟨key, _, [], key, _, rfl, rfl, fun states rest => h.parsed _ rest⟩
  | @Members.more _ tokens' _ key _ h hvalue => by
    obtain ⟨first, more, earlier, key', value, rfl, rfl, hparsed⟩ := h.parsed
    refine ⟨first, more ++ .value_separator :: .value_string key :: .name_separator :: tokens', _,
      key, _, rfl, rfl, fun states rest => ?_⟩
    rw [List.append_assoc, hparsed, List.cons_append, List.cons_append, List.cons_append,
      evaluateState, hvalue.parsed]

end

/-- The parser stops after a value with the value. -/
theorem sax_parse_internal_iff {input rest : List Token} {value : Json} :
    sax_parse_internal [] input = some (value, rest) ↔
      ∃ tokens, input = tokens ++ rest ∧ Value tokens value := by
  constructor
  · exact value_of_sax_parse_internal
  · rintro ⟨tokens, rfl, h⟩
    rw [h.parsed, evaluateState]

end LoginServer.Nlohmann
