import LoginServer.Utils.Json

/-!
# Documents

Two notions for what the library does with a document: what it keeps of a document that it
writes and reads again is the document up to the order of members (`Json.Same`), and what it
can write are the documents whose texts are UTF-8 (`Json.IsUtf8`).
-/

namespace LoginServer

/-! ## Up to the order of members -/

/-- The same document, with its members in any order. `dump` writes a number that is not
finite as `null`. -/
inductive Json.Same : Json → Json → Prop where
  | refl (j : Json) : Same j j
  | nonFinite (bits : UInt64) (h : (bits.toNat >>> 52) % 2 ^ 11 = 2047) :
    Same (.number_float bits) .null
  | array {items items' : List Json} (hlength : items.length = items'.length)
    (hitems : ∀ (i : Nat) (j j' : Json), items[i]? = some j → items'[i]? = some j' → Same j j') :
    Same (.array items) (.array items')
  | object {members members' : List (Bytes × Json)}
    (hkeys : ∀ key, members.lookup key = none ↔ members'.lookup key = none)
    (hvalues : ∀ key j j', members.lookup key = some j → members'.lookup key = some j' →
      Same j j') :
    Same (.object members) (.object members')

theorem Json.Same.find? {j j' v : Json} (h : j.Same j') (hobject : j.is_object) {key : Bytes}
    (hv : j.find? key = some v) : j'.is_object ∧ ∃ v', j'.find? key = some v' ∧ v.Same v' := by
  cases h with
  | refl => exact ⟨hobject, v, hv, .refl v⟩
  | nonFinite => cases hobject
  | array => cases hobject
  | @object members members' hkeys hvalues =>
    refine ⟨rfl, ?_⟩
    change members.lookup key = some v at hv
    cases hv' : members'.lookup key with
    | none =>
      rw [← hkeys, hv] at hv'
      cases hv'
    | some v' => exact ⟨v', hv', hvalues key v v' hv hv'⟩

theorem Json.Same.is_object {j j' : Json} (h : j.Same j') (hobject : j.is_object) :
    j'.is_object := by
  cases h <;> exact hobject

theorem Json.Same.string {s : Bytes} {j' : Json} (h : (Json.string s).Same j') :
    j' = .string s := by
  cases h
  rfl

/-! ## UTF-8 throughout -/

/-- UTF-8. -/
def IsText (s : Bytes) : Prop := ∃ text : String, str text = s

/-- All texts of the document, those of its keys included, are UTF-8. -/
inductive Json.IsUtf8 : Json → Prop where
  | null : IsUtf8 .null
  | boolean (b : Bool) : IsUtf8 (.boolean b)
  | number (n : Int) : IsUtf8 (.number n)
  | number_float (bits : UInt64) : IsUtf8 (.number_float bits)
  | string {s : Bytes} (h : IsText s) : IsUtf8 (.string s)
  | array {items : List Json} (h : ∀ j ∈ items, IsUtf8 j) : IsUtf8 (.array items)
  | object {members : List (Bytes × Json)} (hkeys : ∀ m ∈ members, IsText m.1)
    (hvalues : ∀ m ∈ members, IsUtf8 m.2) : IsUtf8 (.object members)

theorem isText_str (s : String) : IsText (str s) := ⟨s, rfl⟩

theorem mem_setMember {members : List (Bytes × Json)} {key : Bytes} {value : Json}
    {m : Bytes × Json} (h : m ∈ Json.setMember members key value) :
    m = (key, value) ∨ m ∈ members := by
  induction members with
  | nil => exact Or.inl (List.mem_singleton.mp h)
  | cons m' rest ih =>
    obtain ⟨k, w⟩ := m'
    rw [Json.setMember] at h
    split at h
    · rename_i hk
      rcases List.mem_cons.mp h with rfl | hrest
      · exact Or.inl (by rw [hk])
      · exact Or.inr (List.mem_cons_of_mem _ hrest)
    · rcases List.mem_cons.mp h with rfl | hrest
      · exact Or.inr List.mem_cons_self
      · exact (ih hrest).imp_right (List.mem_cons_of_mem _)

namespace Json.IsUtf8

theorem find? {j v : Json} {key : Bytes} (hj : j.IsUtf8) (h : j.find? key = some v) :
    v.IsUtf8 := by
  cases hj with
  | @object members hkeys hvalues =>
    obtain ⟨before, after, hmembers, -⟩ := List.lookup_eq_some_iff.mp h
    exact hvalues (key, v) (hmembers ▸ List.mem_append_right _ List.mem_cons_self)
  | _ => cases h

theorem member {j : Json} (hj : j.IsUtf8) (key : Bytes) : (j.member key).IsUtf8 := by
  rw [Json.member]
  cases h : j.find? key with
  | none => exact .null
  | some v => exact hj.find? h

theorem set {j value : Json} (hj : j.IsUtf8) (key : String) (hvalue : value.IsUtf8) :
    (j.set (str key) value).IsUtf8 := by
  have hsingle : (Json.object [(str key, value)]).IsUtf8 := by
    refine .object (fun m hm => ?_) fun m hm => ?_ <;> obtain rfl := List.mem_singleton.mp hm
    · exact isText_str key
    · exact hvalue
  cases hj with
  | object hkeys hvalues =>
    refine .object (fun m hm => ?_) fun m hm => ?_
    · rcases mem_setMember hm with rfl | hold
      · exact isText_str key
      · exact hkeys m hold
    · rcases mem_setMember hm with rfl | hold
      · exact hvalue
      · exact hvalues m hold
  | _ => exact hsingle

theorem text {s : Bytes} (h : (Json.string s).IsUtf8) : IsText s := by
  cases h with
  | string h => exact h

end Json.IsUtf8

end LoginServer
