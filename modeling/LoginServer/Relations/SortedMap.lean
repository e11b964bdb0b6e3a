import Mathlib.Data.List.Forall2
import Mathlib.Data.List.Nodup
import Mathlib.Data.List.Sort

/-!
# Maps as lists of pairs

A list of pairs with distinct keys is a finite map, whatever its order: `lookup` does not
depend on it (`lookup_of_perm`). Sorting by the keys gives each map one list
(`sortByKey_eq_of_perm`), and commutes with what changes the values only
(`forall₂_sortByKey`).
-/

namespace Relations

variable {κ β γ : Type}

/-! ## Lookup -/

section Lookup

variable [BEq κ] [LawfulBEq κ] {members members' : List (κ × β)}

theorem lookup_eq_some_iff_mem (h : (members.map Prod.fst).Nodup) {key : κ} {value : β} :
    members.lookup key = some value ↔ (key, value) ∈ members := by
  rw [List.lookup_eq_some_iff]
  constructor
  · rintro ⟨before, after, rfl, -⟩
    exact List.mem_append_right _ List.mem_cons_self
  · intro hmem
    obtain ⟨before, after, rfl⟩ := List.append_of_mem hmem
    refine ⟨before, after, rfl, fun p hp => bne_iff_ne.mpr ?_⟩
    rintro rfl
    rw [List.map_append, List.map_cons, List.nodup_append] at h
    exact h.2.2 p.1 (List.mem_map_of_mem hp) p.1 List.mem_cons_self rfl

theorem lookup_of_perm (h : (members.map Prod.fst).Nodup) (hperm : members.Perm members')
    (key : κ) : members.lookup key = members'.lookup key := by
  have h' : (members'.map Prod.fst).Nodup := (hperm.map _).nodup_iff.mp h
  apply Option.ext
  intro value
  rw [lookup_eq_some_iff_mem h, lookup_eq_some_iff_mem h', hperm.mem_iff]

end Lookup

/-! ## The order of the keys -/

section Sorting

variable [LE κ] [DecidableLE κ]

def sortByKey (members : List (κ × β)) : List (κ × β) :=
  members.insertionSort fun a b => a.1 ≤ b.1

theorem sortByKey_perm (members : List (κ × β)) : (sortByKey members).Perm members :=
  List.perm_insertionSort _ members

theorem forall₂_orderedInsert {R : κ × β → κ × γ → Prop} (hR : ∀ a b, R a b → a.1 = b.1)
    {a : κ × β} {b : κ × γ} (hab : R a b) {xs : List (κ × β)} {ys : List (κ × γ)}
    (h : List.Forall₂ R xs ys) :
    List.Forall₂ R (xs.orderedInsert (fun a b => a.1 ≤ b.1) a)
      (ys.orderedInsert (fun a b => a.1 ≤ b.1) b) := by
  induction h with
  | nil => exact .cons hab .nil
  | @cons x y xs ys hxy hrest ih =>
    rw [List.orderedInsert_cons, List.orderedInsert_cons, ← hR a b hab, ← hR x y hxy]
    split_ifs
    · exact .cons hab (.cons hxy hrest)
    · exact .cons hxy ih

theorem forall₂_sortByKey {R : κ × β → κ × γ → Prop} (hR : ∀ a b, R a b → a.1 = b.1)
    {xs : List (κ × β)} {ys : List (κ × γ)} (h : List.Forall₂ R xs ys) :
    List.Forall₂ R (sortByKey xs) (sortByKey ys) := by
  induction h with
  | nil => exact .nil
  | cons hxy _ ih => exact forall₂_orderedInsert hR hxy ih

variable [Std.IsLinearOrder κ]

theorem pairwise_sortByKey (members : List (κ × β)) :
    (sortByKey members).Pairwise fun a b => a.1 ≤ b.1 := by
  have : Std.Total fun a b : κ × β => a.1 ≤ b.1 := ⟨fun a b => Std.le_total⟩
  have : IsTrans (κ × β) fun a b => a.1 ≤ b.1 := ⟨fun a b c => Std.le_trans⟩
  exact List.pairwise_insertionSort _ members

/-- A map has one sorted list. -/
theorem sortByKey_eq_of_perm {members members' : List (κ × β)}
    (h : (members.map Prod.fst).Nodup) (hperm : members.Perm members') :
    sortByKey members = sortByKey members' := by
  have hperm' : (sortByKey members).Perm (sortByKey members') :=
    (sortByKey_perm members).trans (hperm.trans (sortByKey_perm members').symm)
  refine List.Perm.eq_of_pairwise ?_ (pairwise_sortByKey members) (pairwise_sortByKey members')
    hperm'
  intro a b ha hb hle hge
  have hkey : a.1 = b.1 := Std.le_antisymm hle hge
  have ha' : a ∈ members := (sortByKey_perm members).mem_iff.mp ha
  have hb' : b ∈ members := hperm.mem_iff.mpr ((sortByKey_perm members').mem_iff.mp hb)
  exact List.inj_on_of_nodup_map h ha' hb' hkey

end Sorting

end Relations
