import Mathlib.Order.MinMax
import Mathlib.Tactic.Linarith

/-!
# Serving at most `k` jobs a round

`a i` jobs have arrived by the end of round `i`, and each round serves at most `k`
of those that are waiting. The number served is the least of the bounds
`a j + k * (i - j)`: all arrivals up to round `j`, and `k` for each round since
(`le_served_iff`). Nothing ever waits exactly when no round brings more than `k`
jobs (`served_eq_arrived_iff`).
-/

namespace Streams

def served (k : Nat) (a : Nat → Nat) : Nat → Nat
  | 0 => 0
  | i + 1 => min (served k a i + k) (a (i + 1))

variable {k : Nat} {a : Nat → Nat}

@[simp] theorem served_zero : served k a 0 = 0 := rfl

theorem served_succ (i : Nat) : served k a (i + 1) = min (served k a i + k) (a (i + 1)) := rfl

theorem le_served_iff (h0 : a 0 = 0) {i n : Nat} :
    n ≤ served k a i ↔ ∀ j ≤ i, n ≤ a j + k * (i - j) := by
  induction i generalizing n with
  | zero =>
    constructor
    · intro h j hj
      rw [served_zero] at h
      omega
    · intro h
      have := h 0 (Nat.le_refl 0)
      rw [served_zero]
      omega
  | succ i ih =>
    have hround : ∀ j ≤ i, k * (i + 1 - j) = k * (i - j) + k := by
      intro j hj
      rw [Nat.succ_sub hj, Nat.mul_succ]
    rw [served_succ, le_min_iff]
    constructor
    · rintro ⟨hs, ha⟩ j hj
      rcases Nat.lt_or_ge i j with hlt | hle
      · obtain rfl : j = i + 1 := by omega
        omega
      · have := (ih (n := n - k)).mp (by omega) j hle
        rw [hround j hle]
        omega
    · intro h
      refine ⟨?_, by simpa using h (i + 1) (Nat.le_refl _)⟩
      have : n - k ≤ served k a i := ih.mpr fun j hj => by
        have := h j (by omega)
        rw [hround j hj] at this
        omega
      omega

theorem served_le (h0 : a 0 = 0) {i j : Nat} (hj : j ≤ i) :
    served k a i ≤ a j + k * (i - j) :=
  (le_served_iff h0).mp (Nat.le_refl _) j hj

/-- One of the bounds is attained. -/
theorem exists_served_eq (h0 : a 0 = 0) (i : Nat) :
    ∃ j ≤ i, served k a i = a j + k * (i - j) := by
  by_contra hne
  push Not at hne
  have hlt : served k a i + 1 ≤ served k a i := (le_served_iff h0).mpr fun j hj => by
    have h1 := served_le (k := k) h0 hj
    have h2 := hne j hj
    omega
  omega

/-- Nothing is waiting after any of the first `m` rounds iff none of them brings more
than `k` jobs. -/
theorem served_eq_arrived_iff (h0 : a 0 = 0) {m : Nat} :
    (∀ i ≤ m, served k a i = a i) ↔ ∀ i < m, a (i + 1) ≤ a i + k := by
  constructor
  · intro h i hi
    have h1 := h i (by omega)
    have h2 := h (i + 1) (by omega)
    rw [served_succ] at h2
    omega
  · intro h i hi
    induction i with
    | zero => simp [h0]
    | succ i ih =>
      have h1 := h i (by omega)
      rw [served_succ, ih (by omega)]
      omega

end Streams
