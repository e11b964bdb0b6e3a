import Mathlib.Order.WellFounded
import LoginServer.Transactions.Store

/-!
# Waiting for row locks

A transaction that is about to make the writes `ws` waits for every other one that has
locked a row of theirs (`WaitsFor`); it is `blocked` as long as there is one. `LocksOwned` is
the other half of `LocksHeld`: who holds the lock of a row has written it.

Where every chain of waiting has an end, nobody waits in a circle, and whoever waits does
so for somebody who does not (`exists_not_waiting`).
-/

namespace Transactions

/-! ## Chains of waiting -/

section Chains

variable {α : Type} {r : α → α → Prop}

theorem not_waiting_in_circle (h : WellFounded (Function.swap r)) (a : α) :
    ¬ Relation.TransGen r a a := by
  intro hcircle
  have hirrefl := h.transGen.irrefl.irrefl a
  rw [Relation.transGen_swap] at hirrefl
  exact hirrefl hcircle

theorem exists_not_waiting (h : WellFounded (Function.swap r)) {a b : α} (hab : r a b) :
    ∃ z, Relation.TransGen r a z ∧ ∀ z', ¬ r z z' := by
  obtain ⟨z, hz, hleast⟩ := h.has_min {z | Relation.TransGen r a z} ⟨b, .single hab⟩
  refine ⟨z, hz, fun z' hnext => ?_⟩
  exact hleast z' (hz.tail hnext) hnext

end Chains

namespace Store

variable {D W K : Type} {m : WriteModel D W K} {s : Store D W K} {t : Nat}

/-! ## Who holds a lock -/

variable (m) in
/-- Whoever holds the lock of a row has written the row. -/
def LocksOwned (s : Store D W K) : Prop :=
  ∀ k t, s.locks k = some t → ∃ w ∈ s.log t, m.lock w = some k

theorem locksOwned_idle (d : D) : LocksOwned m (idle d : Store D W K) := by
  intro k t hk
  cases hk

theorem LocksOwned.begin (h : LocksOwned m s) (hidle : s.active t = none) (now : Int) :
    LocksOwned m (s.begin t now) := by
  intro k t' hk
  obtain ⟨w, hw, hlock⟩ := h k t' hk
  have hne : t' ≠ t := by
    rintro rfl
    rw [log_of_not_active hidle] at hw
    cases hw
  refine ⟨w, ?_, hlock⟩
  rw [log_begin_of_ne hne]
  exact hw

theorem LocksOwned.close (h : LocksOwned m s) (t : Nat) : LocksOwned m (s.close t) := by
  intro k t' hk
  have hlocks : (s.close t).locks k = if s.locks k = some t then none else s.locks k := rfl
  rw [hlocks] at hk
  split_ifs at hk with hself
  have hne : t' ≠ t := by
    rintro rfl
    exact hself hk
  obtain ⟨w, hw, hlock⟩ := h k t' hk
  refine ⟨w, ?_, hlock⟩
  rw [log_close_of_ne hne]
  exact hw

theorem LocksOwned.commit (h : LocksOwned m s) (t : Nat) : LocksOwned m (s.commit m t) :=
  h.close t

theorem LocksOwned.record [DecidableEq K] {x : Txn W} (h : LocksOwned m s)
    (hactive : s.active t = some x) (ws : List W) : LocksOwned m (s.record m t ws) := by
  intro k t' hk
  have hlocks : (s.record m t ws).locks k =
      if ws.any (fun w => m.lock w = some k) then some t else s.locks k := rfl
  rw [hlocks] at hk
  split_ifs at hk with hany
  · cases hk
    obtain ⟨w, hw, hlock⟩ := List.any_eq_true.mp hany
    refine ⟨w, ?_, of_decide_eq_true hlock⟩
    rw [log_record_self m hactive]
    exact List.mem_append_right _ hw
  · obtain ⟨w, hw, hlock⟩ := h k t' hk
    refine ⟨w, ?_, hlock⟩
    by_cases ht : t' = t
    · subst ht
      rw [log_record_self m hactive]
      exact List.mem_append_left _ hw
    · rw [log_record_of_ne m ht]
      exact hw

/-- A lock is held by an open transaction. -/
theorem LocksOwned.exists_active (h : LocksOwned m s) {k : K} (hk : s.locks k = some t) :
    ∃ x, s.active t = some x := by
  obtain ⟨w, hw, -⟩ := h k t hk
  cases hactive : s.active t with
  | none =>
    rw [log_of_not_active hactive] at hw
    cases hw
  | some x => exact ⟨x, rfl⟩

/-! ## Who waits for whom -/

variable (m s) in
/-- One of the writes `ws` of `t` is to a row that `t'` has locked. -/
def WaitsFor (ws : List W) (t t' : Nat) : Prop :=
  t' ≠ t ∧ ∃ w ∈ ws, ∃ k, m.lock w = some k ∧ s.locks k = some t'

theorem blocked_iff {ws : List W} : s.blocked m t ws = true ↔ ∃ t', s.WaitsFor m ws t t' := by
  unfold blocked WaitsFor
  rw [List.any_eq_true]
  constructor
  · rintro ⟨w, hw, hother⟩
    split at hother
    · rename_i t' hbind
      obtain ⟨k, hlock, hk⟩ := Option.bind_eq_some_iff.mp hbind
      exact ⟨t', of_decide_eq_true hother, w, hw, k, hlock, hk⟩
    · cases hother
  · rintro ⟨t', hne, w, hw, k, hlock, hk⟩
    refine ⟨w, hw, ?_⟩
    rw [hlock, Option.bind_some, hk]
    exact decide_eq_true hne

end Store

end Transactions
