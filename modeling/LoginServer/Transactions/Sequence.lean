import Mathlib.Data.List.Nodup
import Mathlib.Logic.Function.Basic
import LoginServer.Transactions.Store

/-!
# Numbers drawn from a sequence

Several parties draw numbers from one sequence and keep lists of them. `Drawn ids next`
says that no number is in two places and that all are below the next one. It is kept
when a party draws, when one party's numbers pass to another, and when numbers are
dropped.

The parties of a `Store` are the committed data and the transactions: `Store.numbers` are
the numbers that each holds.
-/

namespace Transactions

variable {ι : Type}

structure Drawn (ids : ι → List Int) (next : Int) : Prop where
  nodup : ∀ i, (ids i).Nodup
  apart : ∀ i j, i ≠ j → List.Disjoint (ids i) (ids j)
  below : ∀ i, ∀ n ∈ ids i, n < next

namespace Drawn

variable {ids ids' : ι → List Int} {next next' : Int}

/-- Numbers may be dropped, and the sequence may skip some. -/
theorem of_sublist (h : Drawn ids next) (hids : ∀ i, (ids' i).Sublist (ids i))
    (hnext : next ≤ next') : Drawn ids' next' where
  nodup i := (h.nodup i).sublist (hids i)
  apart i j hij _ hi hj := h.apart i j hij ((hids i).subset hi) ((hids j).subset hj)
  below i n hn := Int.lt_of_lt_of_le (h.below i n ((hids i).subset hn)) hnext

variable [DecidableEq ι]

/-- Party `i` draws the next number. -/
theorem draw (h : Drawn ids next) (i : ι) :
    Drawn (Function.update ids i (ids i ++ [next])) (next + 1) := by
  have hmem : ∀ j n, n ∈ Function.update ids i (ids i ++ [next]) j →
      n ∈ ids j ∨ j = i ∧ n = next := by
    intro j n hn
    by_cases hj : j = i
    · subst hj
      rw [Function.update_self] at hn
      rcases List.mem_append.mp hn with hold | hnew
      · exact Or.inl hold
      · exact Or.inr ⟨rfl, List.mem_singleton.mp hnew⟩
    · rw [Function.update_of_ne hj] at hn
      exact Or.inl hn
  have hnew : ∀ j, next ∉ ids j := fun j hn => Int.lt_irrefl _ (h.below j next hn)
  refine ⟨fun j => ?_, fun j k hjk n hj hk => ?_, fun j n hn => ?_⟩
  · by_cases hj : j = i
    · subst hj
      rw [Function.update_self]
      refine List.nodup_append.mpr ⟨h.nodup j, List.nodup_singleton next, fun n hn m hm heq => ?_⟩
      rw [heq, List.mem_singleton.mp hm] at hn
      exact hnew j hn
    · rw [Function.update_of_ne hj]
      exact h.nodup j
  · rcases hmem j n hj with holdj | ⟨rfl, rfl⟩
    · rcases hmem k n hk with holdk | ⟨-, rfl⟩
      · exact h.apart j k hjk holdj holdk
      · exact hnew j holdj
    · rcases hmem k n hk with holdk | ⟨rfl, -⟩
      · exact hnew k holdk
      · exact hjk rfl
  · rcases hmem j n hn with hold | ⟨-, rfl⟩
    · have := h.below j n hold
      omega
    · omega

/-- The numbers of party `j` pass to party `i`. -/
theorem pass (h : Drawn ids next) {i j : ι} (hij : i ≠ j) :
    Drawn (Function.update (Function.update ids i (ids i ++ ids j)) j []) next := by
  have hmem : ∀ k n, n ∈ Function.update (Function.update ids i (ids i ++ ids j)) j [] k →
      k ≠ j ∧ (n ∈ ids k ∨ k = i ∧ n ∈ ids j) := by
    intro k n hn
    by_cases hj : k = j
    · subst hj
      rw [Function.update_self] at hn
      cases hn
    · rw [Function.update_of_ne hj] at hn
      refine ⟨hj, ?_⟩
      by_cases hi : k = i
      · subst hi
        rw [Function.update_self] at hn
        exact (List.mem_append.mp hn).imp_right fun hn => ⟨rfl, hn⟩
      · rw [Function.update_of_ne hi] at hn
        exact Or.inl hn
  refine ⟨fun k => ?_, fun k l hkl n hk hl => ?_, fun k n hn => ?_⟩
  · by_cases hj : k = j
    · subst hj
      rw [Function.update_self]
      exact List.nodup_nil
    · rw [Function.update_of_ne hj]
      by_cases hi : k = i
      · subst hi
        rw [Function.update_self]
        refine List.nodup_append.mpr ⟨h.nodup k, h.nodup j, fun n hn m hm heq => ?_⟩
        rw [heq] at hn
        exact h.apart k j hij hn hm
      · rw [Function.update_of_ne hi]
        exact h.nodup k
  · obtain ⟨hkj, hk⟩ := hmem k n hk
    obtain ⟨hlj, hl⟩ := hmem l n hl
    rcases hk with holdk | ⟨rfl, hpassedk⟩
    · rcases hl with holdl | ⟨rfl, hpassedl⟩
      · exact h.apart k l hkl holdk holdl
      · exact h.apart k j hkj holdk hpassedl
    · rcases hl with holdl | ⟨rfl, -⟩
      · exact h.apart j l (Ne.symm hlj) hpassedk holdl
      · exact hkl rfl
  · rcases (hmem k n hn).2 with hold | ⟨-, hpassed⟩
    · exact h.below k n hold
    · exact h.below j n hpassed

end Drawn

/-! ## The numbers in a store -/

section Numbers

variable {D W K : Type} (m : WriteModel D W K) {committed : D → List Int}
  {written : List W → List Int}
  {s : Store D W K} {t : Nat}

/-- The numbers in the committed data, and those in the writes of each transaction. -/
def Store.numbers (committed : D → List Int) (written : List W → List Int) (s : Store D W K) :
    Option Nat → List Int
  | none => committed s.committed
  | some t => written (s.log t)

/-- Transaction `t` makes some writes. -/
theorem Store.numbers_record [DecidableEq K] {x : Txn W} (hactive : s.active t = some x)
    (happend : ∀ ws ws', written (ws ++ ws') = written ws ++ written ws') (ws : List W) :
    (s.record m t ws).numbers committed written = Function.update (s.numbers committed written)
      (some t) (s.numbers committed written (some t) ++ written ws) := by
  funext i
  cases i with
  | none =>
    rw [Function.update_of_ne (by simp)]
    rfl
  | some t' =>
    by_cases ht' : t' = t
    · subst ht'
      rw [Function.update_self, numbers, numbers, log_record_self m hactive, happend]
    · rw [Function.update_of_ne (by simpa using ht'), numbers, numbers, log_record_of_ne m ht']

/-- The numbers of transaction `t` pass to the committed data, if they are not dropped. -/
theorem Store.numbers_commit (hnil : written [] = [])
    (hview : (committed (s.view m t)).Sublist (committed s.committed ++ written (s.log t)))
    (i : Option Nat) :
    ((s.commit m t).numbers committed written i).Sublist
      (Function.update (Function.update (s.numbers committed written) none
        (s.numbers committed written none ++ s.numbers committed written (some t)))
        (some t) [] i) := by
  cases i with
  | none =>
    rw [Function.update_of_ne (by simp), Function.update_self]
    exact hview
  | some t' =>
    by_cases ht' : t' = t
    · subst ht'
      rw [Function.update_self, numbers, log_commit_self, hnil]
    · rw [Function.update_of_ne (by simpa using ht'), Function.update_of_ne (by simp), numbers,
        log_commit_of_ne m ht']
      exact List.Sublist.refl _

/-- Transactions may begin, and end without a commit. -/
theorem Store.numbers_shrink {s' : Store D W K} (hnil : written [] = [])
    (hcommitted : s'.committed = s.committed) (hlog : ∀ t, s'.log t = [] ∨ s'.log t = s.log t)
    (i : Option Nat) :
    (s'.numbers committed written i).Sublist (s.numbers committed written i) := by
  cases i with
  | none =>
    rw [numbers, hcommitted]
    exact List.Sublist.refl _
  | some t =>
    rw [numbers, numbers]
    rcases hlog t with hempty | hsame
    · rw [hempty, hnil]
      exact List.nil_sublist _
    · rw [hsame]

/-- Before the first transaction. -/
theorem Drawn.idle {d : D} {next : Int} (hnil : written [] = []) (hnodup : (committed d).Nodup)
    (hbelow : ∀ n ∈ committed d, n < next) :
    Drawn ((Store.idle d : Store D W K).numbers committed written) next := by
  have hlog : ∀ t, (Store.idle d : Store D W K).numbers committed written (some t) = [] :=
    fun _ => hnil
  refine ⟨fun i => ?_, fun i j hij n hi hj => ?_, fun i n hi => ?_⟩
  · cases i with
    | none => exact hnodup
    | some t => exact hlog t ▸ List.nodup_nil
  · cases i with
    | none =>
      cases j with
      | none => exact hij rfl
      | some t =>
        rw [hlog t] at hj
        cases hj
    | some t =>
      rw [hlog t] at hi
      cases hi
  · cases i with
    | none => exact hbelow n hi
    | some t =>
      rw [hlog t] at hi
      cases hi

end Numbers

end Transactions
