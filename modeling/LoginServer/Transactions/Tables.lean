import Mathlib.Data.List.Perm.Basic
import Mathlib.Data.List.Sort

/-!
# Joins along keys

A table is a list of rows. If the rows that a join refers to are there and their keys
are unique, the join yields one row for each row on its left (`forall₂_flatMap` with
`filter_key`), and sorting the result is sorting the left (`exists_perm_of_sort`).
-/

namespace Transactions

variable {α β γ κ : Type}

theorem forall₂_trans {P : α → β → Prop} {Q : β → γ → Prop} {R : α → γ → Prop}
    (hR : ∀ a b c, P a b → Q b c → R a c) {as : List α} {bs : List β} {cs : List γ}
    (hP : List.Forall₂ P as bs) (hQ : List.Forall₂ Q bs cs) : List.Forall₂ R as cs := by
  induction hP generalizing cs with
  | nil =>
    cases hQ
    exact .nil
  | cons hab _ ih =>
    cases hQ with
    | cons hbc hrest => exact .cons (hR _ _ _ hab hbc) (ih hrest)

theorem forall₂_exists {P : α → β → Prop} {as : List α} {bs : List β}
    (h : List.Forall₂ P as bs) {a : α} (ha : a ∈ as) : ∃ b ∈ bs, P a b := by
  obtain ⟨i, hi, rfl⟩ := List.mem_iff_getElem.mp ha
  have hi' : i < bs.length := h.length_eq ▸ hi
  exact ⟨bs[i], List.getElem_mem hi', h.get hi hi'⟩

/-- The results of a partial function on all rows. -/
theorem forall₂_of_mapM {g : α → Option β} {as : List α} {bs : List β}
    (h : as.mapM g = some bs) : List.Forall₂ (fun a b => g a = some b) as bs := by
  induction as generalizing bs with
  | nil =>
    cases h
    exact .nil
  | cons a as ih =>
    simp only [List.mapM_cons, Option.bind_eq_bind, Option.bind_eq_some_iff, Option.pure_def,
      Option.some.injEq] at h
    obtain ⟨b, hb, bs, hbs, rfl⟩ := h
    exact .cons hb (ih hbs)

/-- With unique keys a key selects its row. -/
theorem filter_key [DecidableEq κ] {key : α → κ} {table : List α} (hkey : (table.map key).Nodup)
    {x : α} (hx : x ∈ table) : (table.filter fun y => key y = key x) = [x] := by
  induction table with
  | nil => cases hx
  | cons y table ih =>
    obtain ⟨hnew, hkey⟩ := List.nodup_cons.mp hkey
    rcases List.mem_cons.mp hx with rfl | hx
    · rw [List.filter_cons_of_pos (by simp)]
      congr 1
      refine List.filter_eq_nil_iff.mpr fun z hz heq => hnew ?_
      exact List.mem_map.mpr ⟨z, hz, of_decide_eq_true heq⟩
    · have hne : key y ≠ key x := fun heq => hnew (heq ▸ List.mem_map_of_mem hx)
      rw [List.filter_cons_of_neg (by simpa using hne)]
      exact ih hkey hx

theorem forall₂_flatMap {P : α → γ → Prop} {g : α → List γ} {rows : List α}
    (hg : ∀ a ∈ rows, ∃ c, g a = [c] ∧ P a c) : List.Forall₂ P rows (rows.flatMap g) := by
  induction rows with
  | nil => exact .nil
  | cons a rows ih =>
    obtain ⟨⟨c, hc, hP⟩, hg⟩ := List.forall_mem_cons.mp hg
    rw [List.flatMap_cons, hc]
    exact .cons hP (ih hg)

/-- The rows of a sorted result correspond to those of a sorted left table. -/
theorem exists_perm_of_sort {P : α → γ → Prop} {rows : List α} {result : List γ}
    (h : List.Forall₂ P rows result) (le : γ → γ → Prop) [DecidableRel le] :
    ∃ rows' : List α, rows'.Perm rows ∧ List.Forall₂ P rows' (result.insertionSort le) := by
  have hcomp : Relation.Comp (List.Forall₂ P) List.Perm rows (result.insertionSort le) :=
    ⟨result, h, (List.perm_insertionSort le result).symm⟩
  rw [List.forall₂_comp_perm_eq_perm_comp_forall₂] at hcomp
  obtain ⟨rows', hperm, hrows'⟩ := hcomp
  exact ⟨rows', hperm.symm, hrows'⟩

/-- An order of the results is one of the left rows. -/
theorem pairwise_of_forall₂ {P : α → γ → Prop} {R : α → α → Prop} {S : γ → γ → Prop}
    (hR : ∀ a a' c c', P a c → P a' c' → S c c' → R a a') {rows : List α} {result : List γ}
    (h : List.Forall₂ P rows result) (hS : result.Pairwise S) : rows.Pairwise R := by
  induction h with
  | nil => exact .nil
  | @cons a c rows result hP hrest ih =>
    obtain ⟨hfirst, hS⟩ := List.pairwise_cons.mp hS
    refine List.pairwise_cons.mpr ⟨fun a' ha' => ?_, ih hS⟩
    obtain ⟨i, hi, rfl⟩ := List.mem_iff_getElem.mp ha'
    have hi' : i < result.length := hrest.length_eq ▸ hi
    exact hR a _ c _ hP (hrest.get hi hi') (hfirst _ (List.getElem_mem hi'))

end Transactions
