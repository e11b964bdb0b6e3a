import Mathlib.Data.List.Forall2
import LoginServer.Transactions.Store

/-!
# Data that only grows

`Kept R old new` says that the rows of a table are still there, in their order, each one
changed only as `R` permits, and that whatever is new comes after them. When every write
takes the data to greater ones, in a preorder of the user's choice, then so does whatever
transactions do: each transaction sees more than what was committed when it looks
(`Growing.view`), and what it sees is what its commit leaves.
-/

namespace Transactions

/-! ## Tables -/

section Tables

variable {α : Type} {R : α → α → Prop} {old new newer : List α}

def Kept (R : α → α → Prop) (old new : List α) : Prop :=
  ∃ kept added, new = kept ++ added ∧ List.Forall₂ R old kept

theorem Kept.refl (hR : ∀ a, R a a) (rows : List α) : Kept R rows rows :=
  ⟨rows, [], (List.append_nil rows).symm, List.forall₂_same.mpr fun a _ => hR a⟩

theorem Kept.trans (hR : ∀ a b c, R a b → R b c → R a c) (h : Kept R old new)
    (h' : Kept R new newer) : Kept R old newer := by
  obtain ⟨kept, added, rfl, hkept⟩ := h
  obtain ⟨kept', added', rfl, hkept'⟩ := h'
  refine ⟨kept'.take kept.length, kept'.drop kept.length ++ added', ?_, ?_⟩
  · rw [← List.append_assoc, List.take_append_drop]
  · have hfirst : List.Forall₂ R kept (kept'.take kept.length) := by
      have htake := List.forall₂_take kept.length hkept'
      rwa [List.take_left] at htake
    rw [List.forall₂_iff_get] at hkept hfirst ⊢
    refine ⟨hkept.1.trans hfirst.1, fun i hi hi' => ?_⟩
    exact hR _ _ _ (hkept.2 i hi (hkept.1 ▸ hi)) (hfirst.2 i (hkept.1 ▸ hi) hi')

/-- Rows are added. -/
theorem Kept.append (hR : ∀ a, R a a) (rows added : List α) : Kept R rows (rows ++ added) :=
  ⟨rows, added, rfl, List.forall₂_same.mpr fun a _ => hR a⟩

/-- Rows are changed in place. -/
theorem Kept.map {g : α → α} (hg : ∀ a, R a (g a)) (rows : List α) : Kept R rows (rows.map g) := by
  refine ⟨rows.map g, [], (List.append_nil _).symm, ?_⟩
  rw [List.forall₂_map_right_iff]
  exact List.forall₂_same.mpr fun a _ => hg a

/-- What has become of a row. -/
theorem Kept.exists_mem (h : Kept R old new) {a : α} (ha : a ∈ old) : ∃ b ∈ new, R a b := by
  obtain ⟨kept, added, rfl, hkept⟩ := h
  obtain ⟨i, hi, rfl⟩ := List.mem_iff_getElem.mp ha
  have hi' : i < kept.length := hkept.length_eq ▸ hi
  exact ⟨kept[i], List.mem_append_left _ (List.getElem_mem hi'), hkept.get hi hi'⟩

end Tables

/-! ## Stores -/

/-- Every write takes the data to greater ones. -/
structure Growing {D W K : Type} (m : WriteModel D W K) (le : D → D → Prop) : Prop where
  refl : ∀ d, le d d
  trans : ∀ d d' d'', le d d' → le d' d'' → le d d''
  apply : ∀ d w, le d (m.apply d w)

namespace Growing

variable {D W K : Type} {m : WriteModel D W K} {le : D → D → Prop}

theorem foldl (hm : Growing m le) (ws : List W) (d : D) : le d (ws.foldl m.apply d) := by
  induction ws generalizing d with
  | nil => exact hm.refl d
  | cons w ws ih => exact hm.trans _ _ _ (hm.apply d w) (ih (m.apply d w))

/-- What a write has done, on data that have grown, is still there after the writes that
follow. -/
theorem exists_apply (hm : Growing m le) {ws : List W} {w : W} (hw : w ∈ ws) (d : D) :
    ∃ d', le d d' ∧ le (m.apply d' w) (ws.foldl m.apply d) := by
  obtain ⟨before, after, rfl⟩ := List.append_of_mem hw
  refine ⟨before.foldl m.apply d, hm.foldl before d, ?_⟩
  rw [List.foldl_append, List.foldl_cons]
  exact hm.foldl after _

theorem view (hm : Growing m le) (s : Store D W K) (t : Nat) : le s.committed (s.view m t) :=
  hm.foldl (s.log t) s.committed

end Growing

end Transactions
