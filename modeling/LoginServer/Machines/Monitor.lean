import Mathlib.Logic.Basic
import Mathlib.Tactic.SplitIfs
import LoginServer.Machines.Machine

/-!
# A mutex with a condition variable

Threads that call `cv.wait(lock, predicate)` and then use the data, and threads that
update the data and notify. A waiting thread takes the mutex, tests the predicate, and
where it is false releases the mutex and sleeps in one step; a notification reaches those
asleep at that moment. An update may be made with or without the mutex.

`Closing` data satisfies the predicate for good. The question of this file is whether a
thread can sleep on after the update that closed the data has notified everybody:
`asleep_of_closing` needs that no notification finds a thread between its test and its
sleep, and `asleep_of_locked` shows that an update made under the mutex never does.
-/

namespace Machines

/-- `D` is the data under the mutex, `C` the calls that wait and `U` the updates. -/
structure Monitor (D C U : Type) where
  /-- The predicate of the wait. -/
  ready : D → Bool
  /-- What a call does once its wait is over and the predicate holds. -/
  take : C → D → D
  update : U → D → D
  /-- The update takes the mutex. -/
  locks : U → Bool
  /-- The update notifies before it releases the mutex. -/
  notifiesLocked : U → Bool
  notifiesAll : U → Bool
  /-- The call waits with a timeout. -/
  timed : C → Bool

inductive Phase (C U : Type) where
  | outside
  /-- Awake, about to take the mutex. -/
  | entering (c : C) (timedOut : Bool)
  /-- Has the mutex, about to test the predicate. -/
  | testing (c : C) (timedOut : Bool)
  /-- Has the mutex and found the predicate false. -/
  | committed (c : C)
  | asleep (c : C)
  | updating (u : U)
  /-- Has made the update, about to notify. -/
  | updated (u : U)
deriving DecidableEq

namespace Phase

variable {C U : Type}

def isAsleep : Phase C U → Bool
  | .asleep _ => true
  | _ => false

def isCommitted : Phase C U → Bool
  | .committed _ => true
  | _ => false

def inUpdate : Phase C U → Bool
  | .updating _ => true
  | .updated _ => true
  | _ => false

/-- What a notification does to a thread. -/
def wake : Phase C U → Phase C U
  | .asleep c => .entering c false
  | p => p

theorem isAsleep_wake (p : Phase C U) : p.wake.isAsleep = false := by
  cases p <;> rfl

theorem isCommitted_wake (p : Phase C U) : p.wake.isCommitted = p.isCommitted := by
  cases p <;> rfl

end Phase

structure MonitorState (D C U : Type) where
  data : D
  mutex : Option Nat := none
  threads : List (Phase C U)

inductive MonitorLabel (C U : Type) where
  | call (t : Nat) (c : C)
  | lock (t : Nat)
  | test (t : Nat)
  /-- Releases the mutex and goes to sleep. -/
  | sleep (t : Nat)
  /-- A time out, or a wake-up out of nothing. -/
  | wake (t : Nat) (timedOut : Bool)
  | begin (t : Nat) (u : U)
  | write (t : Nat)
  /-- `chosen` is the thread that a `notify_one` wakes. -/
  | notify (t : Nat) (chosen : Option Nat)

namespace MonitorState

variable {D C U : Type} (st : MonitorState D C U)

def setPhase (t : Nat) (p : Phase C U) : MonitorState D C U :=
  { st with threads := st.threads.set t p }

/-- Some thread is asleep. -/
def sleeping : Bool := st.threads.any Phase.isAsleep

/-- The threads after a `notify_one` that wakes `chosen`; it wakes nobody only when nobody
is asleep. -/
def notifyOne : Option Nat → Option (List (Phase C U))
  | none => if st.sleeping then none else some st.threads
  | some i =>
    match st.threads[i]? with
    | some (.asleep c) => some (st.threads.set i (.entering c false))
    | _ => none

def notifyAll : List (Phase C U) := st.threads.map Phase.wake

end MonitorState

namespace Monitor

variable {D C U : Type} (P : Monitor D C U)

/-- The mutex after thread `t` has made the update under it. -/
def mutexWritten (t : Nat) (u : U) : Option Nat := if P.notifiesLocked u then some t else none

/-- The mutex after the notification of the update. -/
def mutexNotified (mutex : Option Nat) (u : U) : Option Nat :=
  if P.locks u && P.notifiesLocked u then none else mutex

def step (st : MonitorState D C U) : MonitorLabel C U → Option (MonitorState D C U)
  | .call t c =>
    match st.threads[t]? with
    | some .outside => some (st.setPhase t (.entering c false))
    | _ => none
  | .lock t =>
    match st.mutex, st.threads[t]? with
    | none, some (.entering c timedOut) =>
      some { st.setPhase t (.testing c timedOut) with mutex := some t }
    | _, _ => none
  | .test t =>
    match st.threads[t]? with
    | some (.testing c timedOut) =>
      if P.ready st.data then
        some { st.setPhase t .outside with data := P.take c st.data, mutex := none }
      else if timedOut then some { st.setPhase t .outside with mutex := none }
      else some (st.setPhase t (.committed c))
    | _ => none
  | .sleep t =>
    match st.threads[t]? with
    | some (.committed c) => some { st.setPhase t (.asleep c) with mutex := none }
    | _ => none
  | .wake t timedOut =>
    match st.threads[t]? with
    | some (.asleep c) =>
      if timedOut && !P.timed c then none else some (st.setPhase t (.entering c timedOut))
    | _ => none
  | .begin t u =>
    match st.threads[t]? with
    | some .outside => some (st.setPhase t (.updating u))
    | _ => none
  | .write t =>
    match st.threads[t]? with
    | some (.updating u) =>
      if P.locks u then
        match st.mutex with
        | none =>
          some { st.setPhase t (.updated u) with
            data := P.update u st.data
            mutex := P.mutexWritten t u }
        | some _ => none
      else some { st.setPhase t (.updated u) with data := P.update u st.data }
    | _ => none
  | .notify t chosen =>
    match st.threads[t]? with
    | some (.updated u) =>
      if P.notifiesAll u then
        some { st with
          threads := st.notifyAll.set t .outside
          mutex := P.mutexNotified st.mutex u }
      else
        match st.notifyOne chosen with
        | some threads =>
          some { st with threads := threads.set t .outside, mutex := P.mutexNotified st.mutex u }
        | none => none
    | _ => none

/-- `n` threads, none of them in a call. -/
def machine (d : D) (n : Nat) : Machine (MonitorState D C U) (MonitorLabel C U) where
  init := { data := d, threads := List.replicate n .outside }
  step := P.step

/-! ## What a step does -/

/-- The steps, one constructor for each way to take one. -/
inductive Step (st : MonitorState D C U) : MonitorLabel C U → MonitorState D C U → Prop where
  | call {t : Nat} {c : C} (ht : st.threads[t]? = some .outside) :
    Step st (.call t c) (st.setPhase t (.entering c false))
  | lock {t : Nat} {c : C} {timedOut : Bool} (hfree : st.mutex = none)
      (ht : st.threads[t]? = some (.entering c timedOut)) :
    Step st (.lock t) { st.setPhase t (.testing c timedOut) with mutex := some t }
  | testTrue {t : Nat} {c : C} {timedOut : Bool}
      (ht : st.threads[t]? = some (.testing c timedOut)) (hready : P.ready st.data = true) :
    Step st (.test t) { st.setPhase t .outside with data := P.take c st.data, mutex := none }
  | testTimedOut {t : Nat} {c : C} (ht : st.threads[t]? = some (.testing c true))
      (hready : P.ready st.data = false) :
    Step st (.test t) { st.setPhase t .outside with mutex := none }
  | testFalse {t : Nat} {c : C} (ht : st.threads[t]? = some (.testing c false))
      (hready : P.ready st.data = false) :
    Step st (.test t) (st.setPhase t (.committed c))
  | sleep {t : Nat} {c : C} (ht : st.threads[t]? = some (.committed c)) :
    Step st (.sleep t) { st.setPhase t (.asleep c) with mutex := none }
  | wake {t : Nat} {c : C} {timedOut : Bool} (ht : st.threads[t]? = some (.asleep c)) :
    Step st (.wake t timedOut) (st.setPhase t (.entering c timedOut))
  | begin {t : Nat} {u : U} (ht : st.threads[t]? = some .outside) :
    Step st (.begin t u) (st.setPhase t (.updating u))
  | writeLocked {t : Nat} {u : U} (ht : st.threads[t]? = some (.updating u))
      (hlocks : P.locks u = true) (hfree : st.mutex = none) :
    Step st (.write t)
      { st.setPhase t (.updated u) with
        data := P.update u st.data
        mutex := P.mutexWritten t u }
  | writeUnlocked {t : Nat} {u : U} (ht : st.threads[t]? = some (.updating u))
      (hlocks : P.locks u = false) :
    Step st (.write t) { st.setPhase t (.updated u) with data := P.update u st.data }
  | notifyAll {t : Nat} {u : U} {chosen : Option Nat} (ht : st.threads[t]? = some (.updated u))
      (hall : P.notifiesAll u = true) :
    Step st (.notify t chosen)
      { st with
        threads := st.notifyAll.set t .outside
        mutex := P.mutexNotified st.mutex u }
  | notifyOne {t : Nat} {u : U} {chosen : Option Nat} {threads : List (Phase C U)}
      (ht : st.threads[t]? = some (.updated u)) (hall : P.notifiesAll u = false)
      (hone : st.notifyOne chosen = some threads) :
    Step st (.notify t chosen)
      { st with
        threads := threads.set t .outside
        mutex := P.mutexNotified st.mutex u }

variable {P} {st st' : MonitorState D C U} {l : MonitorLabel C U}

theorem step_cases (h : P.step st l = some st') : P.Step st l st' := by
  cases l with
  | call t c =>
    simp only [step] at h
    split at h
    · rename_i ht
      cases h
      exact .call ht
    · cases h
  | lock t =>
    simp only [step] at h
    split at h
    · rename_i hfree ht
      cases h
      exact .lock hfree ht
    · cases h
  | test t =>
    simp only [step] at h
    split at h
    · rename_i c timedOut ht
      split_ifs at h with hready htimed
      · cases h
        exact .testTrue ht hready
      · cases h
        subst htimed
        exact .testTimedOut ht (eq_false_of_ne_true hready)
      · cases h
        cases timedOut with
        | false => exact .testFalse ht (eq_false_of_ne_true hready)
        | true => exact absurd rfl htimed
    · cases h
  | sleep t =>
    simp only [step] at h
    split at h
    · rename_i c ht
      cases h
      exact .sleep ht
    · cases h
  | wake t timedOut =>
    simp only [step] at h
    split at h
    · rename_i c ht
      split_ifs at h
      cases h
      exact .wake ht
    · cases h
  | begin t u =>
    simp only [step] at h
    split at h
    · rename_i ht
      cases h
      exact .begin ht
    · cases h
  | write t =>
    simp only [step] at h
    split at h
    · rename_i u ht
      split_ifs at h with hlocks
      · split at h
        · rename_i hfree
          cases h
          exact .writeLocked ht hlocks hfree
        · cases h
      · cases h
        exact .writeUnlocked ht (eq_false_of_ne_true hlocks)
    · cases h
  | notify t chosen =>
    simp only [step] at h
    split at h
    · rename_i u ht
      split_ifs at h with hall
      · cases h
        exact .notifyAll ht hall
      · split at h
        · rename_i threads hone
          cases h
          exact .notifyOne ht (eq_false_of_ne_true hall) hone
        · cases h
    · cases h

/-! ## Properties of all threads -/

/-- The thread that moves had another phase than `p`, so `p` is still there. -/
theorem mem_set_of_ne {α : Type} {xs : List α} {t : Nat} {x y p : α} (hp : p ∈ xs)
    (ht : xs[t]? = some x) (hne : p ≠ x) : p ∈ xs.set t y := by
  obtain ⟨i, hi⟩ := List.mem_iff_getElem?.mp hp
  have hit : t ≠ i := by
    intro heq
    subst heq
    exact hne (Option.some.inj (hi.symm.trans ht))
  exact List.mem_iff_getElem?.mpr ⟨i, by rw [List.getElem?_set_ne hit]; exact hi⟩

theorem forall_mem_set {α : Type} {xs : List α} {Q : α → Prop} {t : Nat} {y : α}
    (h : ∀ x ∈ xs, Q x) (hy : Q y) : ∀ x ∈ xs.set t y, Q x := by
  intro x hx
  rcases List.mem_or_eq_of_mem_set hx with hx | rfl
  · exact h x hx
  · exact hy

/-- A `notify_one` finds nobody asleep, or makes one sleeper enter again. -/
theorem notifyOne_cases {chosen : Option Nat} {threads : List (Phase C U)}
    (hone : st.notifyOne chosen = some threads) : threads = st.threads ∨
      ∃ i c, st.threads[i]? = some (.asleep c) ∧
        threads = st.threads.set i (.entering c false) := by
  cases chosen with
  | none =>
    simp only [MonitorState.notifyOne] at hone
    split_ifs at hone
    cases hone
    exact Or.inl rfl
  | some i =>
    simp only [MonitorState.notifyOne] at hone
    split at hone
    · rename_i c hi
      cases hone
      exact Or.inr ⟨i, c, hi, rfl⟩
    · cases hone

theorem forall_notifyOne {Q : Phase C U → Prop} {chosen : Option Nat}
    {threads : List (Phase C U)} (hone : st.notifyOne chosen = some threads)
    (h : ∀ p ∈ st.threads, Q p) (hentering : ∀ c, Q (.entering c false)) :
    ∀ p ∈ threads, Q p := by
  rcases notifyOne_cases hone with rfl | ⟨i, c, -, rfl⟩
  · exact h
  · exact forall_mem_set h (hentering c)

/-- A thread that is awake is left alone. -/
theorem getElem?_notifyOne {p : Phase C U} {chosen : Option Nat} {threads : List (Phase C U)}
    (hone : st.notifyOne chosen = some threads) {t : Nat} (ht : st.threads[t]? = some p)
    (hawake : p.isAsleep = false) : threads[t]? = some p := by
  rcases notifyOne_cases hone with rfl | ⟨i, c, hi, rfl⟩
  · exact ht
  · have hit : i ≠ t := by
      rintro rfl
      rw [ht] at hi
      cases hi
      cases hawake
    rw [List.getElem?_set_ne hit]
    exact ht

/-! ## No sleeper after the last notification -/

/-- Data that satisfy the predicate for good, and the updates that make them so. -/
structure Closing (P : Monitor D C U) (closed : D → Prop) (closes : U → Prop) : Prop where
  ready : ∀ d, closed d → P.ready d = true
  take : ∀ c d, closed (P.take c d) → closed d
  update : ∀ u d, closed (P.update u d) → closed d ∨ closes u
  notifiesAll : ∀ u, closes u → P.notifiesAll u = true

/-- Nobody sleeps or is about to. -/
def Awake (st : MonitorState D C U) : Prop :=
  ∀ p ∈ st.threads, p.isAsleep = false ∧ p.isCommitted = false

/-- A closing update is still to notify. -/
def Pending (closes : U → Prop) (st : MonitorState D C U) : Prop :=
  ∃ u, closes u ∧ .updated u ∈ st.threads

/-- The notification of a closing update finds no thread between its test and its sleep. -/
def FindsNoneCommitted (closes : U → Prop) (st : MonitorState D C U) :
    MonitorLabel C U → Prop
  | .notify t _ => (∃ u, closes u ∧ st.threads[t]? = some (.updated u)) →
      ∀ p ∈ st.threads, p.isCommitted = false
  | _ => True

/-- No notification at all finds such a thread. -/
def findsNoneCommitted (st : MonitorState D C U) : MonitorLabel C U → Bool
  | .notify _ _ => st.threads.all fun p => !p.isCommitted
  | _ => true

variable {closed : D → Prop} {closes : U → Prop}

theorem FindsNoneCommitted.of_check (h : findsNoneCommitted st l = true) :
    FindsNoneCommitted closes st l := by
  cases l with
  | notify t chosen => exact fun _ p hp => Bool.not_eq_true' _ |>.mp (List.all_eq_true.mp h p hp)
  | _ => trivial

theorem Pending.set {t : Nat} {p q : Phase C U} (h : Pending closes st)
    (ht : st.threads[t]? = some p) (hp : ∀ u, p ≠ .updated u) (mutex : Option Nat) (d : D) :
    Pending closes ⟨d, mutex, st.threads.set t q⟩ := by
  obtain ⟨u, hu, hmem⟩ := h
  exact ⟨u, hu, mem_set_of_ne hmem ht fun heq => hp u heq.symm⟩

theorem Awake.set {t : Nat} {q : Phase C U} (h : Awake st) (hq : q.isAsleep = false)
    (hq' : q.isCommitted = false) (mutex : Option Nat) (d : D) :
    Awake ⟨d, mutex, st.threads.set t q⟩ :=
  forall_mem_set h ⟨hq, hq'⟩

/-- A thread that is not between an update and its notification moves to a phase in which
it is awake. -/
theorem pending_or_awake_set {t : Nat} {p q : Phase C U} (h : Pending closes st ∨ Awake st)
    (ht : st.threads[t]? = some p) (hp : ∀ u, p ≠ .updated u) (hq : q.isAsleep = false)
    (hq' : q.isCommitted = false) (mutex : Option Nat) (d : D) :
    Pending closes ⟨d, mutex, st.threads.set t q⟩ ∨ Awake ⟨d, mutex, st.threads.set t q⟩ := by
  rcases h with hpending | hawake
  · exact Or.inl (hpending.set ht hp mutex d)
  · exact Or.inr (hawake.set hq hq' mutex d)

/-- A notification to all leaves nobody asleep. -/
theorem awake_notifyAll (hcommitted : ∀ p ∈ st.threads, p.isCommitted = false) (t : Nat)
    (mutex : Option Nat) :
    Awake { st with threads := st.notifyAll.set t .outside, mutex := mutex } := by
  refine forall_mem_set (fun p hp => ?_) ⟨rfl, rfl⟩
  obtain ⟨q, hq, rfl⟩ := List.mem_map.mp hp
  exact ⟨q.isAsleep_wake, q.isCommitted_wake.trans (hcommitted q hq)⟩

/-- While the data are closed, somebody is still to notify everybody or all are awake. -/
theorem step_awake (hc : Closing P closed closes) (hmeets : FindsNoneCommitted closes st l)
    (h : P.step st l = some st') (hi : closed st.data → Pending closes st ∨ Awake st) :
    closed st'.data → Pending closes st' ∨ Awake st' := by
  intro hclosed
  cases step_cases h with
  | call ht =>
    exact pending_or_awake_set (hi hclosed) ht (fun u => by simp) rfl rfl _ _
  | lock hfree ht =>
    exact pending_or_awake_set (hi hclosed) ht (fun u => by simp) rfl rfl _ _
  | testTrue ht hready =>
    exact pending_or_awake_set (hi (hc.take _ _ hclosed)) ht (fun u => by simp) rfl rfl _ _
  | testTimedOut ht hready =>
    have hready' := hc.ready st.data hclosed
    rw [hready] at hready'
    cases hready'
  | testFalse ht hready =>
    have hready' := hc.ready st.data hclosed
    rw [hready] at hready'
    cases hready'
  | sleep ht =>
    refine (hi hclosed).imp (fun hp => ?_) (fun ha => ?_)
    · exact hp.set ht (fun u => by simp) _ _
    · -- somebody is committed, so not all are awake
      have hfalse := (ha _ (List.mem_of_getElem? ht)).2
      cases hfalse
  | wake ht =>
    exact pending_or_awake_set (hi hclosed) ht (fun u => by simp) rfl rfl _ _
  | begin ht =>
    exact pending_or_awake_set (hi hclosed) ht (fun u => by simp) rfl rfl _ _
  | @writeLocked t u ht hlocks hfree =>
    rcases hc.update _ _ hclosed with hclosed | hu
    · exact pending_or_awake_set (hi hclosed) ht (fun u => by simp) rfl rfl _ _
    · exact Or.inl ⟨u, hu, List.mem_set (List.getElem?_eq_some_iff.mp ht).1 _⟩
  | @writeUnlocked t u ht hlocks =>
    rcases hc.update _ _ hclosed with hclosed | hu
    · exact pending_or_awake_set (hi hclosed) ht (fun u => by simp) rfl rfl _ _
    · exact Or.inl ⟨u, hu, List.mem_set (List.getElem?_eq_some_iff.mp ht).1 _⟩
  | @notifyAll t u chosen ht hall =>
    rcases hi hclosed with ⟨u', hu', hmem⟩ | ha
    · by_cases hu : closes u
      · exact Or.inr (awake_notifyAll (hmeets ⟨u, hu, ht⟩) _ _)
      · -- another update is still to notify
        have ht' : st.notifyAll[t]? = some (.updated u) := by
          rw [MonitorState.notifyAll, List.getElem?_map, ht]
          rfl
        refine Or.inl ⟨u', hu', mem_set_of_ne (List.mem_map.mpr ⟨_, hmem, rfl⟩) ht' ?_⟩
        rintro heq
        cases heq
        exact hu hu'
    · exact Or.inr (awake_notifyAll (fun p hp => (ha p hp).2) _ _)
  | @notifyOne t u chosen threads ht hall hone =>
    have hu : ¬ closes u := fun hu => by
      rw [hc.notifiesAll u hu] at hall
      cases hall
    rcases hi hclosed with ⟨u', hu', hmem⟩ | ha
    · obtain ⟨i, hi⟩ := List.mem_iff_getElem?.mp hmem
      have hmem' := List.mem_iff_getElem?.mpr ⟨i, getElem?_notifyOne hone hi rfl⟩
      refine Or.inl ⟨u', hu', mem_set_of_ne hmem' (getElem?_notifyOne hone ht rfl) ?_⟩
      rintro heq
      cases heq
      exact hu hu'
    · exact Or.inr (forall_mem_set (forall_notifyOne hone ha fun c => ⟨rfl, rfl⟩) ⟨rfl, rfl⟩)

/-- Once the data are closed and every closing update has notified, nobody sleeps, if no
such notification found a thread between its test and its sleep. -/
theorem awake_of_run (hc : Closing P closed closes) {d : D} {n : Nat}
    {steps : List (MonitorState D C U × MonitorLabel C U)} (hrun : (P.machine d n).Run steps st)
    (hmeets : ∀ x ∈ steps, FindsNoneCommitted closes x.1 x.2) (hclosed : closed st.data)
    (hdone : ¬ Pending closes st) : Awake st := by
  have hinv : closed st.data → Pending closes st ∨ Awake st := by
    refine hrun.invariantOf (C := FindsNoneCommitted closes)
      (I := fun st => closed st.data → Pending closes st ∨ Awake st) (fun _ => ?_)
      (fun _ _ _ hi hm hs => step_awake hc hm hs hi) hmeets
    refine Or.inr fun p hp => ?_
    rw [List.eq_of_mem_replicate hp]
    exact ⟨rfl, rfl⟩
  exact (hinv hclosed).resolve_left hdone

/-- Where the notification does find such a thread, and nobody else is in an update, the
thread sleeps on after two steps. -/
theorem sleeper_of_committed {t t' : Nat} {u : U} {c : C}
    (ht : st.threads[t]? = some (.updated u)) (hall : P.notifiesAll u = true)
    (ht' : st.threads[t']? = some (.committed c))
    (honly : ∀ i p, st.threads[i]? = some p → p.inUpdate = true → i = t) :
    ∃ st₁ st₂, P.step st (.notify t none) = some st₁ ∧ P.step st₁ (.sleep t') = some st₂ ∧
      st₂.data = st.data ∧ .asleep c ∈ st₂.threads ∧ ∀ p ∈ st₂.threads, p.inUpdate = false := by
  have hne : t ≠ t' := by
    rintro rfl
    rw [ht] at ht'
    cases ht'
  have hwoken : (st.notifyAll.set t .outside)[t']? = some (.committed c) := by
    rw [List.getElem?_set_ne hne, MonitorState.notifyAll, List.getElem?_map, ht']
    rfl
  have hnotify : P.step st (.notify t none) =
      some { st with
        threads := st.notifyAll.set t .outside
        mutex := P.mutexNotified st.mutex u } := by
    simp only [step, ht, hall, if_true]
  have hsleep : P.step { st with
        threads := st.notifyAll.set t .outside
        mutex := P.mutexNotified st.mutex u } (.sleep t') =
      some ⟨st.data, none, (st.notifyAll.set t .outside).set t' (.asleep c)⟩ := by
    simp only [step, hwoken]
    rfl
  refine ⟨_, _, hnotify, hsleep, rfl, ?_, ?_⟩
  · exact List.mem_set (List.getElem?_eq_some_iff.mp hwoken).1 _
  · refine forall_mem_set (fun p hp => ?_) rfl
    obtain ⟨i, hi⟩ := List.mem_iff_getElem?.mp hp
    by_cases hit : t = i
    · subst hit
      rw [List.getElem?_set_self (List.getElem?_eq_some_iff.mp
        (by rw [MonitorState.notifyAll, List.getElem?_map, ht]; rfl)).1] at hi
      cases hi
      rfl
    · rw [List.getElem?_set_ne hit, MonitorState.notifyAll, List.getElem?_map] at hi
      obtain ⟨q, hq, rfl⟩ := Option.map_eq_some_iff.mp hi
      have hq' : q.inUpdate = false := by
        refine eq_false_of_ne_true fun hin => hit (honly i q hq hin).symm
      cases q <;> first | rfl | cases hq'

/-! ## Updates under the mutex -/

/-- The thread has the mutex. -/
def holdsMutex (P : Monitor D C U) : Phase C U → Bool
  | .testing _ _ => true
  | .committed _ => true
  | .updated u => P.locks u && P.notifiesLocked u
  | _ => false

/-- The threads that have the mutex are the one that it names, and the predicate stays
false while a thread goes to sleep on it. -/
structure MutexInv (P : Monitor D C U) (st : MonitorState D C U) : Prop where
  holder : ∀ t p, st.threads[t]? = some p → P.holdsMutex p = true → st.mutex = some t
  committed : ∀ p ∈ st.threads, p.isCommitted = true → P.ready st.data = false

theorem MutexInv.machine (P : Monitor D C U) (d : D) (n : Nat) :
    MutexInv P (P.machine d n).init where
  holder t p hp hholds := by
    have hmem := List.eq_of_mem_replicate (List.mem_of_getElem? hp)
    subst hmem
    cases hholds
  committed p hp hc := by
    have hmem := List.eq_of_mem_replicate hp
    subst hmem
    cases hc

/-- A thread that does not have the mutex moves to a phase that has it only by taking it. -/
theorem MutexInv.set {t : Nat} {q : Phase C U} {mutex : Option Nat} {d : D}
    (hq : P.holdsMutex q = true → mutex = some t)
    (hothers : ∀ i p, i ≠ t → st.threads[i]? = some p → P.holdsMutex p = true → mutex = some i)
    (hq' : q.isCommitted = true → P.ready d = false)
    (hothers' : ∀ i p, i ≠ t → st.threads[i]? = some p → p.isCommitted = true →
      P.ready d = false) :
    MutexInv P ⟨d, mutex, st.threads.set t q⟩ := by
  have hget : ∀ i p, (st.threads.set t q)[i]? = some p →
      (i = t ∧ p = q) ∨ (i ≠ t ∧ st.threads[i]? = some p) := by
    intro i p hp
    by_cases hit : t = i
    · subst hit
      rw [List.getElem?_set_self' ] at hp
      obtain ⟨_, _, rfl⟩ := Option.map_eq_some_iff.mp hp
      exact Or.inl ⟨rfl, rfl⟩
    · rw [List.getElem?_set_ne hit] at hp
      exact Or.inr ⟨fun h => hit h.symm, hp⟩
  constructor
  · intro i p hp hholds
    rcases hget i p hp with ⟨rfl, rfl⟩ | ⟨hne, hp⟩
    · exact hq hholds
    · exact hothers i p hne hp hholds
  · intro p hp hc
    obtain ⟨i, hi⟩ := List.mem_iff_getElem?.mp hp
    rcases hget i p hi with ⟨rfl, rfl⟩ | ⟨hne, hp⟩
    · exact hq' hc
    · exact hothers' i p hne hp hc

/-- Nobody has the mutex beside its holder. -/
theorem MutexInv.only (hi : MutexInv P st) {t : Nat} {q : Phase C U}
    (ht : st.threads[t]? = some q) (hq : P.holdsMutex q = true) {i : Nat} {p : Phase C U}
    (hne : i ≠ t) (hp : st.threads[i]? = some p) : P.holdsMutex p = false := by
  refine eq_false_of_ne_true fun hholds => hne ?_
  exact Option.some.inj ((hi.holder i p hp hholds).symm.trans (hi.holder t q ht hq))

theorem holdsMutex_of_committed {p : Phase C U} (h : p.isCommitted = true) :
    P.holdsMutex p = true := by
  cases p <;> first | rfl | cases h

/-- The holder of the mutex moves, and releases it. -/
theorem MutexInv.release (hi : MutexInv P st) {t : Nat} {p q : Phase C U} {d : D}
    (ht : st.threads[t]? = some p) (hp : P.holdsMutex p = true) (hq : P.holdsMutex q = false) :
    MutexInv P ⟨d, none, st.threads.set t q⟩ := by
  have hnone : ∀ (i : Nat) p', i ≠ t → st.threads[i]? = some p' → ¬ P.holdsMutex p' = true := by
    intro i p' hne hp' hholds
    rw [hi.only ht hp hne hp'] at hholds
    cases hholds
  refine .set (fun hholds => ?_) (fun i p' hne hp' hholds => ?_) (fun hc => ?_)
    (fun i p' hne hp' hc => ?_)
  · rw [hq] at hholds
    cases hholds
  · exact absurd hholds (hnone i p' hne hp')
  · rw [holdsMutex_of_committed hc] at hq
    cases hq
  · exact absurd (holdsMutex_of_committed hc) (hnone i p' hne hp')

/-- A thread moves without the mutex. -/
theorem MutexInv.move (hi : MutexInv P st) {t : Nat} {q : Phase C U}
    (hq : P.holdsMutex q = false) : MutexInv P (st.setPhase t q) := by
  refine .set (fun hholds => ?_) (fun i p _ hp hholds => hi.holder i p hp hholds) (fun hc => ?_)
    (fun i p _ hp hc => hi.committed p (List.mem_of_getElem? hp) hc)
  · rw [hq] at hholds
    cases hholds
  · rw [holdsMutex_of_committed hc] at hq
    cases hq

/-- A thread takes the free mutex, or takes it and releases it again. -/
theorem MutexInv.acquire (hi : MutexInv P st) {t : Nat} {q : Phase C U} {mutex : Option Nat}
    {d : D} (hfree : st.mutex = none) (hq : P.holdsMutex q = true → mutex = some t)
    (hq' : q.isCommitted = false) : MutexInv P ⟨d, mutex, st.threads.set t q⟩ := by
  have hnone : ∀ (i : Nat) p', st.threads[i]? = some p' → ¬ P.holdsMutex p' = true := by
    intro i p' hp' hholds
    have hheld := hi.holder i p' hp' hholds
    rw [hfree] at hheld
    cases hheld
  refine .set hq (fun i p' _ hp' hholds => absurd hholds (hnone i p' hp'))
    (fun hc => ?_) (fun i p' _ hp' hc => absurd (holdsMutex_of_committed hc) (hnone i p' hp'))
  rw [hq'] at hc
  cases hc

theorem holdsMutex_wake (p : Phase C U) : P.holdsMutex p.wake = P.holdsMutex p := by
  cases p <;> rfl

theorem MutexInv.woken (hi : MutexInv P st) : MutexInv P { st with threads := st.notifyAll } where
  holder t p hp hholds := by
    rw [MonitorState.notifyAll, List.getElem?_map] at hp
    obtain ⟨q, hq, rfl⟩ := Option.map_eq_some_iff.mp hp
    exact hi.holder t q hq (holdsMutex_wake q ▸ hholds)
  committed p hp hc := by
    obtain ⟨q, hq, rfl⟩ := List.mem_map.mp hp
    exact hi.committed q hq (q.isCommitted_wake ▸ hc)

theorem MutexInv.notifiedOne (hi : MutexInv P st) {chosen : Option Nat}
    {threads : List (Phase C U)} (hone : st.notifyOne chosen = some threads) :
    MutexInv P { st with threads := threads } := by
  rcases notifyOne_cases hone with rfl | ⟨i, c, -, rfl⟩
  · exact hi
  · exact hi.move rfl

/-- The notifying thread leaves its update, and with it the mutex if it kept it. -/
theorem MutexInv.leave (hi : MutexInv P st) {t : Nat} {u : U}
    (ht : st.threads[t]? = some (.updated u)) :
    MutexInv P ⟨st.data, P.mutexNotified st.mutex u, st.threads.set t .outside⟩ := by
  cases hkept : P.locks u && P.notifiesLocked u with
  | true =>
    rw [mutexNotified, hkept, if_pos rfl]
    exact hi.release ht hkept rfl
  | false =>
    rw [mutexNotified, hkept, if_neg (by simp)]
    exact hi.move rfl

theorem MutexInv.step (hi : MutexInv P st)
    (hlocks : ∀ u d, P.ready d = false → P.ready (P.update u d) = true → P.locks u = true)
    (h : P.step st l = some st') : MutexInv P st' := by
  cases step_cases h with
  | call ht => exact hi.move rfl
  | lock hfree ht => exact hi.acquire hfree (fun _ => rfl) rfl
  | testTrue ht hready => exact hi.release ht rfl rfl
  | testTimedOut ht hready => exact hi.release ht rfl rfl
  | testFalse ht hready =>
    refine .set (fun _ => hi.holder _ _ ht rfl) (fun i p _ hp hholds => hi.holder i p hp hholds)
      (fun _ => hready) fun i p _ hp hc => hi.committed p (List.mem_of_getElem? hp) hc
  | sleep ht => exact hi.release ht rfl rfl
  | wake ht => exact hi.move rfl
  | begin ht => exact hi.move rfl
  | @writeLocked t u ht hu hfree =>
    refine hi.acquire hfree (fun hholds => ?_) rfl
    rw [holdsMutex, hu, Bool.true_and] at hholds
    rw [mutexWritten, if_pos hholds]
  | @writeUnlocked t u ht hu =>
    refine .set (fun hholds => ?_) (fun i p _ hp hholds => hi.holder i p hp hholds)
      (fun hc => ?_) fun i p _ hp hc => ?_
    · rw [holdsMutex, hu] at hholds
      cases hholds
    · cases hc
    · have hready := hi.committed p (List.mem_of_getElem? hp) hc
      refine eq_false_of_ne_true fun hready' => ?_
      rw [hlocks u st.data hready hready'] at hu
      cases hu
  | @notifyAll t u chosen ht hall =>
    have ht' : st.notifyAll[t]? = some (.updated u) := by
      rw [MonitorState.notifyAll, List.getElem?_map, ht]
      rfl
    exact hi.woken.leave ht'
  | notifyOne ht hall hone => exact (hi.notifiedOne hone).leave (getElem?_notifyOne hone ht rfl)

/-- Data that no later call or update opens again. -/
structure Lasting (P : Monitor D C U) (closed : D → Prop) (closes : U → Prop) : Prop where
  closing : ∀ u d, closes u → closed (P.update u d)
  take : ∀ c d, closed d → closed (P.take c d)
  update : ∀ u d, closed d → closed (P.update u d)

/-- An update that is still to notify has closed the data. -/
theorem step_closed (hl : Lasting P closed closes) (h : P.step st l = some st')
    (hi : Pending closes st → closed st.data) : Pending closes st' → closed st'.data := by
  rintro ⟨u, hu, hmem⟩
  have hset : ∀ {t : Nat} {q : Phase C U} {threads : List (Phase C U)},
      .updated u ∈ threads.set t q → q ≠ .updated u →
      (∀ p ∈ threads, p = .updated u → p ∈ st.threads) → closed st.data := by
    intro t q threads hmem hq hold
    rcases List.mem_or_eq_of_mem_set hmem with hmem | heq
    · exact hi ⟨u, hu, hold _ hmem rfl⟩
    · exact absurd heq.symm hq
  cases step_cases h with
  | call ht => exact hset hmem (by simp) fun _ hp _ => hp
  | lock hfree ht => exact hset hmem (by simp) fun _ hp _ => hp
  | testTrue ht hready => exact hl.take _ _ (hset hmem (by simp) fun _ hp _ => hp)
  | testTimedOut ht hready => exact hset hmem (by simp) fun _ hp _ => hp
  | testFalse ht hready => exact hset hmem (by simp) fun _ hp _ => hp
  | sleep ht => exact hset hmem (by simp) fun _ hp _ => hp
  | wake ht => exact hset hmem (by simp) fun _ hp _ => hp
  | begin ht => exact hset hmem (by simp) fun _ hp _ => hp
  | @writeLocked t u' ht hu' hfree =>
    by_cases heq : u' = u
    · exact hl.closing _ _ (heq ▸ hu)
    · exact hl.update _ _ (hset hmem (by simpa using heq) fun _ hp _ => hp)
  | @writeUnlocked t u' ht hu' =>
    by_cases heq : u' = u
    · exact hl.closing _ _ (heq ▸ hu)
    · exact hl.update _ _ (hset hmem (by simpa using heq) fun _ hp _ => hp)
  | notifyAll ht hall =>
    refine hset hmem (by simp) fun p hp heq => ?_
    subst heq
    obtain ⟨q, hq, hwake⟩ := List.mem_map.mp hp
    cases q <;> cases hwake
    exact hq
  | @notifyOne t u' chosen threads ht hall hone =>
    refine hset hmem (by simp) fun p hp heq => ?_
    have hall := forall_notifyOne (Q := fun p => p = .updated u → p ∈ st.threads) hone
      (fun _ hp _ => hp) (fun c heq => by cases heq)
    exact hall p hp heq

theorem closed_of_pending (hl : Lasting P closed closes) {d : D} {n : Nat}
    {steps : List (MonitorState D C U × MonitorLabel C U)} (hrun : (P.machine d n).Run steps st)
    (hp : Pending closes st) : closed st.data := by
  refine hrun.invariant (I := fun st => Pending closes st → closed st.data) ?_
    (fun _ _ _ hi hs => step_closed hl hs hi) hp
  rintro ⟨u, hu, hmem⟩
  cases List.eq_of_mem_replicate hmem

/-- An update that is made under the mutex finds no thread between its test and its sleep
when it notifies, whether or not it still has the mutex. -/
theorem findsNoneCommitted_of_locked (hc : Closing P closed closes) (hl : Lasting P closed closes)
    (hlocks : ∀ u d, P.ready d = false → P.ready (P.update u d) = true → P.locks u = true)
    {d : D} {n : Nat} {steps : List (MonitorState D C U × MonitorLabel C U)}
    (hrun : (P.machine d n).Run steps st) : FindsNoneCommitted closes st l := by
  have hmutex : MutexInv P st :=
    hrun.invariant (MutexInv.machine P d n) fun _ _ _ hi hs => hi.step hlocks hs
  cases l with
  | notify t chosen =>
    rintro ⟨u, hu, ht⟩ p hp
    have hready := hc.ready _ (closed_of_pending hl hrun ⟨u, hu, List.mem_of_getElem? ht⟩)
    refine eq_false_of_ne_true fun hcommitted => ?_
    rw [hmutex.committed p hp hcommitted] at hready
    cases hready
  | _ => trivial

/-- Once the data are closed under the mutex and every closing update has notified, nobody
sleeps. -/
theorem awake_of_locked (hc : Closing P closed closes) (hl : Lasting P closed closes)
    (hlocks : ∀ u d, P.ready d = false → P.ready (P.update u d) = true → P.locks u = true)
    {d : D} {n : Nat} {steps : List (MonitorState D C U × MonitorLabel C U)}
    (hrun : (P.machine d n).Run steps st) (hclosed : closed st.data)
    (hdone : ¬ Pending closes st) : Awake st := by
  refine awake_of_run hc hrun (fun x hx => ?_) hclosed hdone
  obtain ⟨earlier, _, hearlier, _⟩ := hrun.before hx
  exact findsNoneCommitted_of_locked hc hl hlocks hearlier

end Monitor

end Machines
