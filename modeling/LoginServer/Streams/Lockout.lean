import Mathlib.Data.List.Basic
import Mathlib.Tactic.Linarith

/-!
# A lockout after repeated failures

Failures are counted; from the `burst`th on, each locks for `gap`. A lock that runs out
does not reset the counter, so after the first `burst` failures every further one comes
more than `gap` after the one before. A half-open window of length `gap` therefore holds
at most `burst` failures (`Failures.window`).
-/

namespace Streams

structure Lockout where
  count : Nat := 0
  lockedUntil : Option Int := none

namespace Lockout

def locked (l : Lockout) (now : Int) : Prop :=
  ∃ lockedUntil, l.lockedUntil = some lockedUntil ∧ now ≤ lockedUntil

def fail (burst : Nat) (gap now : Int) (l : Lockout) : Lockout where
  count := l.count + 1
  lockedUntil := if burst ≤ l.count + 1 then some (now + gap) else l.lockedUntil

/-- The failures since the counter was at zero, the latest first, and the lockout that
they have led to. None of them came while it was locked. -/
inductive Failures (burst : Nat) (gap : Int) : List Int → Lockout → Prop where
  | nil : Failures burst gap [] {}
  | cons {times : List Int} {l : Lockout} {now : Int} (h : Failures burst gap times l)
    (hopen : ¬ l.locked now) (hlatest : ∀ time ∈ times, time ≤ now) :
    Failures burst gap (now :: times) (l.fail burst gap now)

variable {burst : Nat} {gap : Int} {times : List Int} {l : Lockout}

theorem Failures.count (h : Failures burst gap times l) : l.count = times.length := by
  induction h with
  | nil => rfl
  | cons _ _ _ ih => rw [fail, ih, List.length_cons]

/-- From the `burst`th failure on, the account is locked for `gap` after the last one. -/
theorem Failures.locked (h : Failures burst gap times l) (hburst : burst ≤ times.length)
    {time now : Int} (htime : time ∈ times) (hnow : now ≤ time + gap) :
    l.locked now := by
  cases h with
  | nil => cases htime
  | @cons times l last h _ hlatest =>
    rw [List.length_cons, ← h.count] at hburst
    refine ⟨last + gap, if_pos hburst, ?_⟩
    rcases List.mem_cons.mp htime with rfl | htime
    · exact hnow
    · have := hlatest time htime
      linarith

theorem Failures.window (h : Failures burst gap times l) (hpos : 0 < burst) (start : Int) :
    times.countP (fun time => start ≤ time ∧ time < start + gap) ≤ burst := by
  induction h with
  | nil => exact Nat.zero_le _
  | @cons times l now h hopen hlatest ih =>
    by_cases hburst : burst ≤ times.length
    · -- the last failures are over by more than `gap`
      have hold : ∀ time ∈ times, time + gap < now := by
        intro time htime
        by_contra hnow
        exact hopen (h.locked hburst htime (not_lt.mp hnow))
      by_cases hnow : start ≤ now ∧ now < start + gap
      · have hnone : times.countP (fun time => start ≤ time ∧ time < start + gap) = 0 := by
          refine List.countP_eq_zero.mpr fun time htime hin => ?_
          have hin := of_decide_eq_true hin
          have := hold time htime
          linarith [hin.1, hnow.2]
        rw [List.countP_cons, hnone]
        split <;> omega
      · rw [List.countP_cons_of_neg (by simpa using hnow)]
        exact ih
    · have hlength := List.countP_le_length
        (p := fun time => decide (start ≤ time ∧ time < start + gap)) (l := now :: times)
      rw [List.length_cons] at hlength
      omega

end Lockout

end Streams
