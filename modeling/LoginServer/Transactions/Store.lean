import Mathlib.Logic.Function.Basic
import Mathlib.Tactic.SplitIfs

/-!
# READ COMMITTED transactions with row locks

A `Store` holds the committed data and, for each open transaction, the writes it has
made. A statement of transaction `t` sees `view t`: the committed data of that moment
with the writes of `t` on top. A write locks its row until the transaction ends, so a
statement that would write a row locked by another transaction is `blocked`, and while it is
it holds no lock of its own; committing replays the log onto the committed data.

The data, the writes and the names of the rows are parameters.
-/

namespace Transactions

/-- What a write does, and the row that it locks. -/
structure WriteModel (D W K : Type) where
  apply : D → W → D
  lock : W → Option K

structure Txn (W : Type) where
  /-- The time that `now()` gives in every statement of the transaction. -/
  start : Int
  log : List W

structure Store (D W K : Type) where
  committed : D
  active : Nat → Option (Txn W)
  locks : K → Option Nat

namespace Store

variable {D W K : Type} (m : WriteModel D W K) (s : Store D W K) (t : Nat)

def idle (d : D) : Store D W K := ⟨d, fun _ => none, fun _ => none⟩

/-- The writes of transaction `t` so far. -/
def log : List W := ((s.active t).map Txn.log).getD []

def view : D := (s.log t).foldl m.apply s.committed

/-- A row that is to be written is locked by another transaction. -/
def blocked (ws : List W) : Bool :=
  ws.any fun w =>
    match (m.lock w).bind s.locks with
    | some t' => t' ≠ t
    | none => false

def begin (now : Int) : Store D W K :=
  { s with active := Function.update s.active t (some ⟨now, []⟩) }

/-- Transaction `t` ends and releases its locks. -/
def close : Store D W K :=
  { s with
    active := Function.update s.active t none
    locks := fun k => if s.locks k = some t then none else s.locks k }

def commit : Store D W K := { s.close t with committed := s.view m t }

/-! ## What each operation changes -/

@[simp] theorem committed_begin (now : Int) : (s.begin t now).committed = s.committed := rfl

@[simp] theorem committed_close : (s.close t).committed = s.committed := rfl

@[simp] theorem committed_commit : (s.commit m t).committed = s.view m t := rfl

variable {s t}

@[simp] theorem log_of_not_active (h : s.active t = none) : s.log t = [] := by
  simp [log, h]

theorem view_of_log_nil (h : s.log t = []) : s.view m t = s.committed := by
  rw [view, h]
  rfl

@[simp] theorem active_begin_self (now : Int) : (s.begin t now).active t = some ⟨now, []⟩ :=
  Function.update_self ..

theorem active_begin_of_ne {t' : Nat} (h : t' ≠ t) (now : Int) :
    (s.begin t now).active t' = s.active t' :=
  Function.update_of_ne h ..

@[simp] theorem active_close_self : (s.close t).active t = none :=
  Function.update_self ..

theorem active_close_of_ne {t' : Nat} (h : t' ≠ t) : (s.close t).active t' = s.active t' :=
  Function.update_of_ne h ..

theorem active_commit : (s.commit m t).active = (s.close t).active := rfl

@[simp] theorem log_begin_self (now : Int) : (s.begin t now).log t = [] := by
  simp [log]

theorem log_begin_of_ne {t' : Nat} (h : t' ≠ t) (now : Int) :
    (s.begin t now).log t' = s.log t' := by
  simp [log, active_begin_of_ne h]

@[simp] theorem log_close_self : (s.close t).log t = [] := by
  simp [log]

theorem log_close_of_ne {t' : Nat} (h : t' ≠ t) : (s.close t).log t' = s.log t' := by
  simp [log, active_close_of_ne h]

@[simp] theorem log_commit_self : (s.commit m t).log t = [] :=
  log_close_self

theorem log_commit_of_ne {t' : Nat} (h : t' ≠ t) : (s.commit m t).log t' = s.log t' :=
  log_close_of_ne h

/-- After a commit the other transactions are still open. -/
theorem ne_of_active_commit {t' : Nat} {x : Txn W} (h : (s.commit m t).active t' = some x) :
    t' ≠ t ∧ s.active t' = some x := by
  by_cases ht' : t' = t
  · rw [ht', active_commit, active_close_self] at h
    cases h
  · rw [active_commit, active_close_of_ne ht'] at h
    exact ⟨ht', h⟩

theorem ne_of_mem_log_commit {t' : Nat} {w : W} (h : w ∈ (s.commit m t).log t') :
    t' ≠ t ∧ w ∈ s.log t' := by
  by_cases ht' : t' = t
  · rw [ht', log_commit_self] at h
    cases h
  · rw [log_commit_of_ne m ht'] at h
    exact ⟨ht', h⟩

/-! ## Row locks -/

/-- Each transaction holds the lock of every row that it has written. -/
def LocksHeld (s : Store D W K) : Prop :=
  ∀ t, ∀ w ∈ s.log t, ∀ k, m.lock w = some k → s.locks k = some t

theorem locksHeld_idle (d : D) : LocksHeld m (idle d : Store D W K) :=
  fun _ _ hw => by cases hw

variable {m}

theorem LocksHeld.begin (h : LocksHeld m s) (t : Nat) (now : Int) :
    LocksHeld m (s.begin t now) := by
  intro t' w hw k hk
  by_cases ht : t' = t
  · rw [ht, log_begin_self] at hw
    cases hw
  · rw [log_begin_of_ne ht] at hw
    exact h t' w hw k hk

theorem LocksHeld.close (h : LocksHeld m s) (t : Nat) : LocksHeld m (s.close t) := by
  intro t' w hw k hk
  by_cases ht : t' = t
  · rw [ht, log_close_self] at hw
    cases hw
  · rw [log_close_of_ne ht] at hw
    have hheld := h t' w hw k hk
    have hother : s.locks k ≠ some t := by
      rw [hheld]
      exact fun heq => ht (Option.some.inj heq)
    exact (if_neg hother).trans hheld

theorem LocksHeld.commit (h : LocksHeld m s) (t : Nat) : LocksHeld m (s.commit m t) :=
  h.close t

/-- Two transactions never write the same row. -/
theorem LocksHeld.ne_lock (h : LocksHeld m s) {t t' : Nat} (ht : t ≠ t') {w w' : W}
    (hw : w ∈ s.log t) (hw' : w' ∈ s.log t') {k : K} (hk : m.lock w = some k) :
    m.lock w' ≠ some k := by
  intro hk'
  have hheld := h t w hw k hk
  rw [h t' w' hw' k hk'] at hheld
  exact ht (Option.some.inj hheld).symm

variable (m)

/-! ## Writing -/

/-- Transaction `t` makes the writes `ws`. -/
def record [DecidableEq K] (s : Store D W K) (t : Nat) (ws : List W) : Store D W K :=
  { s with
    active := Function.update s.active t ((s.active t).map fun x => { x with log := x.log ++ ws })
    locks := fun k => if ws.any (fun w => m.lock w = some k) then some t else s.locks k }

variable [DecidableEq K]

@[simp] theorem committed_record (ws : List W) :
    (s.record m t ws).committed = s.committed := rfl

theorem active_record_self {x : Txn W} (h : s.active t = some x) (ws : List W) :
    (s.record m t ws).active t = some { x with log := x.log ++ ws } := by
  simp [record, h]

theorem active_record_of_ne {t' : Nat} (h : t' ≠ t) (ws : List W) :
    (s.record m t ws).active t' = s.active t' :=
  Function.update_of_ne h ..

theorem log_record_self {x : Txn W} (h : s.active t = some x) (ws : List W) :
    (s.record m t ws).log t = s.log t ++ ws := by
  simp [log, active_record_self m h, h]

theorem log_record_of_ne {t' : Nat} (h : t' ≠ t) (ws : List W) :
    (s.record m t ws).log t' = s.log t' := by
  simp [log, active_record_of_ne m h]

/-- A transaction that is open after a statement of `t`. -/
theorem active_record_cases {x x' : Txn W} (h : s.active t = some x) {ws : List W} {t' : Nat}
    (hopen : (s.record m t ws).active t' = some x') :
    s.active t' = some x' ∨ t' = t ∧ x' = { x with log := x.log ++ ws } := by
  by_cases ht' : t' = t
  · rw [ht', active_record_self m h] at hopen
    exact Or.inr ⟨ht', (Option.some.inj hopen).symm⟩
  · rw [active_record_of_ne m ht'] at hopen
    exact Or.inl hopen

theorem mem_log_record {x : Txn W} (h : s.active t = some x) {ws : List W} {t' : Nat} {w : W}
    (hw : w ∈ (s.record m t ws).log t') : w ∈ s.log t' ∨ t' = t ∧ w ∈ ws := by
  by_cases ht' : t' = t
  · rw [ht', log_record_self m h] at hw
    rw [ht']
    exact (List.mem_append.mp hw).imp_right fun hnew => ⟨rfl, hnew⟩
  · rw [log_record_of_ne m ht'] at hw
    exact Or.inl hw

/-- A statement that is not blocked writes no row that another transaction has locked. -/
theorem LocksHeld.record {m : WriteModel D W K} {x : Txn W} (h : LocksHeld m s)
    (hactive : s.active t = some x) {ws : List W} (hfree : s.blocked m t ws = false) :
    LocksHeld m (s.record m t ws) := by
  have hws : ∀ w ∈ ws, ∀ k, m.lock w = some k → ∀ t', s.locks k = some t' → t' = t := by
    intro w hw k hk t' ht'
    have hw := List.any_eq_false.mp hfree w hw
    simpa [hk, ht'] using hw
  have hlocks : ∀ k, (s.record m t ws).locks k =
      if ws.any (fun w => m.lock w = some k) then some t else s.locks k := fun _ => rfl
  intro t' w hw k hk
  rw [hlocks]
  by_cases ht : t' = t
  · subst ht
    rw [log_record_self m hactive] at hw
    rcases List.mem_append.mp hw with hold | hnew
    · split_ifs
      · rfl
      · exact h t' w hold k hk
    · exact if_pos (List.any_eq_true.mpr ⟨w, hnew, decide_eq_true hk⟩)
  · rw [log_record_of_ne m ht] at hw
    have hheld := h t' w hw k hk
    rw [if_neg, hheld]
    intro hany
    obtain ⟨w', hw', hk'⟩ := List.any_eq_true.mp hany
    exact ht (hws w' hw' k (of_decide_eq_true hk') t' hheld)

/-! ## One transaction at a time -/

/-- The store while transaction `t`, begun at `now`, is the only one. -/
def alone (d : D) (t : Nat) (now : Int) (log : List W) : Store D W K where
  committed := d
  active := Function.update (fun _ => none) t (some ⟨now, log⟩)
  locks := fun k => if log.any fun w => m.lock w = some k then some t else none

theorem begin_idle (d : D) (t : Nat) (now : Int) :
    (idle d).begin t now = alone m d t now [] := by
  simp [begin, idle, alone]

omit [DecidableEq K] in
theorem close_idle (d : D) (t : Nat) : (idle d : Store D W K).close t = idle d := by
  unfold close idle
  congr 1
  exact Function.update_eq_self_iff.mpr rfl

@[simp] theorem active_alone (d : D) (t : Nat) (now : Int) (log : List W) :
    (alone m d t now log).active t = some ⟨now, log⟩ := by
  simp [alone]

theorem locks_alone (d : D) (t : Nat) (now : Int) (log : List W) (k : K) :
    (alone m d t now log).locks k = some t ∨ (alone m d t now log).locks k = none := by
  cases hk : log.any fun w => m.lock w = some k with
  | true => exact Or.inl (if_pos hk)
  | false => exact Or.inr (if_neg (by simp [hk]))

@[simp] theorem view_alone (d : D) (t : Nat) (now : Int) (log : List W) :
    (alone m d t now log).view m t = log.foldl m.apply d := by
  rw [view, Store.log, active_alone]
  rfl

/-- The only transaction waits for nobody. -/
theorem blocked_alone (d : D) (t : Nat) (now : Int) (log ws : List W) :
    (alone m d t now log).blocked m t ws = false := by
  refine List.any_eq_false.mpr fun w _ => ?_
  cases hlock : m.lock w with
  | none => simp
  | some k =>
    rcases locks_alone m d t now log k with hk | hk
    · simp [hk]
    · simp [hk]

theorem record_alone (d : D) (t : Nat) (now : Int) (log ws : List W) :
    (alone m d t now log).record m t ws = alone m d t now (log ++ ws) := by
  unfold record
  simp only [active_alone, Option.map_some]
  unfold alone
  congr 1
  · exact Function.update_idem ..
  · funext k
    rw [List.any_append]
    by_cases hw : (ws.any fun w => m.lock w = some k) = true
    · simp [hw]
    · simp [hw]

theorem close_alone (d : D) (t : Nat) (now : Int) (log : List W) :
    (alone m d t now log).close t = idle d := by
  unfold close alone idle
  congr 1
  · rw [Function.update_idem]
    exact Function.update_eq_self_iff.mpr rfl
  · funext k
    by_cases hk : (log.any fun w => m.lock w = some k) = true
    · simp [hk]
    · simp [hk]

theorem commit_alone (d : D) (t : Nat) (now : Int) (log : List W) :
    (alone m d t now log).commit m t = idle (log.foldl m.apply d) := by
  rw [commit, close_alone, view_alone]
  rfl

end Store

end Transactions
