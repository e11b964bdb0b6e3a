import LoginServer.Events.Event
import LoginServer.Machines.Monitor

/-!
# The event queue

`EventQueue`, each method as what it does under the mutex once its wait is over, and the
monitor that its callers run: consumers that wait for an event or for `stopped_`, producers
that push under the mutex, and `stop`, which writes `stopped_` without it.
-/

namespace LoginServer

open Machines

structure EventQueue where
  queue : List Event := []
  stopped : Bool := false

namespace EventQueue

variable (q : EventQueue)

/-- The predicate of every wait. -/
def ready : Bool := !q.queue.isEmpty || q.stopped

def push (event : Event) : EventQueue := { q with queue := q.queue ++ [event] }

def pushBatch (events : List Event) : EventQueue := { q with queue := q.queue ++ events }

def stop : EventQueue := { q with stopped := true }

/-- `none` is the answer false. -/
def pop : Option Event × EventQueue :=
  match q.queue with
  | [] => (none, q)
  | event :: rest => (some event, { q with queue := rest })

/-- `events.reserve(events.size() + actualSize)` with an `int` that is added to a `size_t`:
a sum from 2^63 on is above every `max_size`. -/
def reserveThrows (size : Nat) (actualSize : Int) : Bool :=
  2 ^ 63 ≤ ((size : Int) + actualSize) % 2 ^ 64

/-- The answer and the batch with what was popped; `none` is the `std::length_error` of
`reserve`. -/
def popBatch (events : List Event) (batchSize : Int) : Option (Bool × List Event) × EventQueue :=
  if q.queue.isEmpty then (some (false, events), q)
  else
    let actualSize := min batchSize ((q.queue.length : Int).bmod (2 ^ 32))
    if reserveThrows events.length actualSize then (none, q)
    else
      let events := events ++ q.queue.take batchSize.toNat
      (some (!events.isEmpty, events), { q with queue := q.queue.drop batchSize.toNat })

/-- `tryPopBatch` when its wait is over, with the predicate true or by the timeout. -/
def tryPopBatch (events : List Event) (batchSize : Int) :
    Option (Bool × List Event) × EventQueue :=
  if !q.ready then (some (false, events), q) else q.popBatch events batchSize

end EventQueue

/-- The calls of consumers. -/
inductive QueueCall where
  | pop
  | popBatch (batchSize : Int)
  | tryPopBatch (batchSize timeoutMs : Int)
deriving DecidableEq

inductive QueueUpdate where
  | push (event : Event)
  | pushBatch (events : List Event)
  | stop
deriving DecidableEq

def eventQueueMonitor : Monitor EventQueue QueueCall QueueUpdate where
  ready := EventQueue.ready
  take
    | .pop, q => q.pop.2
    | .popBatch batchSize, q => (q.popBatch [] batchSize).2
    | .tryPopBatch batchSize _, q => (q.tryPopBatch [] batchSize).2
  update
    | .push event, q => q.push event
    | .pushBatch events, q => q.pushBatch events
    | .stop, q => q.stop
  locks
    | .stop => false
    | _ => true
  notifiesLocked
    | .stop => false
    | _ => true
  notifiesAll
    | .push _ => false
    | _ => true
  timed
    | .tryPopBatch _ _ => true
    | _ => false

namespace EventQueue

abbrev State := MonitorState EventQueue QueueCall QueueUpdate

/-- `stop` has returned and nobody is pushing, but a consumer sleeps and nobody has woken
it. -/
def Stranded (st : State) : Prop :=
  st.data.stopped = true ∧ (∀ p ∈ st.threads, p.inUpdate = false) ∧
  ∃ p ∈ st.threads, p.isAsleep = true

instance (st : State) : Decidable (Stranded st) := inferInstanceAs (Decidable (_ ∧ _ ∧ _))

/-- No `stop` calls `notify_all` while a consumer that has found the predicate false has
not gone to sleep yet. -/
abbrev StopFindsNoneCommitted (st : State) (l : MonitorLabel QueueCall QueueUpdate) : Prop :=
  Monitor.FindsNoneCommitted (· = .stop) st l

theorem stopped_popBatch (q : EventQueue) (events : List Event) (batchSize : Int) :
    (q.popBatch events batchSize).2.stopped = q.stopped := by
  unfold popBatch
  dsimp only
  split_ifs <;> rfl

theorem stopped_take (c : QueueCall) (q : EventQueue) :
    (eventQueueMonitor.take c q).stopped = q.stopped := by
  cases c with
  | pop =>
    change q.pop.2.stopped = q.stopped
    unfold pop
    split <;> rfl
  | popBatch batchSize => exact stopped_popBatch q [] batchSize
  | tryPopBatch batchSize timeoutMs =>
    change (q.tryPopBatch [] batchSize).2.stopped = q.stopped
    unfold tryPopBatch
    split_ifs
    · rfl
    · exact stopped_popBatch q [] batchSize

/-- `stopped_` makes the predicate true, only `stop` sets it and it notifies everybody. -/
theorem closing_stopped :
    Monitor.Closing eventQueueMonitor (fun q => q.stopped = true) (· = .stop) where
  ready q hq := by
    change (!q.queue.isEmpty || q.stopped) = true
    rw [hq, Bool.or_true]
  take c q hq := stopped_take c q ▸ hq
  update u q hq := by
    cases u with
    | push event => exact Or.inl hq
    | pushBatch events => exact Or.inl hq
    | stop => exact Or.inr rfl
  notifiesAll u hu := by
    subst hu
    rfl

theorem lasting_stopped :
    Monitor.Lasting eventQueueMonitor (fun q => q.stopped = true) (· = .stop) where
  closing u q hu := by
    subst hu
    rfl
  take c q hq := (stopped_take c q).trans hq
  update u q hq := by
    cases u with
    | push event => exact hq
    | pushBatch events => exact hq
    | stop => rfl

end EventQueue

/-- In a run in which no `stop` calls `notify_all` between a consumer's test and its sleep,
`stop` leaves nobody asleep. And where one does, with no push under way, that consumer
goes to sleep after it for good. -/
theorem stop_leaves_nobody_asleep {n : Nat}
    {steps : List (EventQueue.State × MonitorLabel QueueCall QueueUpdate)}
    {st : EventQueue.State} (hrun : (eventQueueMonitor.machine {} n).Run steps st) :
    ((∀ x ∈ steps, EventQueue.StopFindsNoneCommitted x.1 x.2) → ¬ EventQueue.Stranded st) ∧
    ∀ t t' c, st.threads[t]? = some (.updated .stop) →
      st.threads[t']? = some (.committed c) →
      (∀ i p, st.threads[i]? = some p → p.inUpdate = true → i = t) →
      ∃ st₁ st₂, eventQueueMonitor.step st (.notify t none) = some st₁ ∧
        eventQueueMonitor.step st₁ (.sleep t') = some st₂ ∧ EventQueue.Stranded st₂ := by
  constructor
  · rintro hmeets ⟨hstopped, hdone, p, hp, hasleep⟩
    have hnone : ¬ Monitor.Pending (· = .stop) st := by
      rintro ⟨u, -, hmem⟩
      cases hdone _ hmem
    have hawake := Monitor.awake_of_run EventQueue.closing_stopped hrun hmeets hstopped hnone
    rw [(hawake p hp).1] at hasleep
    cases hasleep
  · intro t t' c ht ht' honly
    have hstopped := Monitor.closed_of_pending EventQueue.lasting_stopped hrun
      ⟨.stop, rfl, List.mem_of_getElem? ht⟩
    obtain ⟨st₁, st₂, h₁, h₂, hdata, hasleep, hdone⟩ :=
      Monitor.sleeper_of_committed (P := eventQueueMonitor) ht rfl ht' honly
    exact ⟨st₁, st₂, h₁, h₂, hdata ▸ hstopped, hdone, _, hasleep, rfl⟩

/-- A consumer that is asleep when `stop` is called. -/
theorem stop_leaves_nobody_asleep_sleeper :
    ∃ st : EventQueue.State, st.data.stopped = true ∧ st.threads[0]? = some (.entering .pop false) ∧
      ¬ EventQueue.Stranded st := by
  obtain ⟨steps, st, hrun, hP⟩ := Machine.exists_run (eventQueueMonitor.machine {} 2)
    ([.call 0 .pop, .lock 0, .test 0, .sleep 0, .begin 1 .stop, .write 1, .notify 1 none])
    (fun r => r.2.data.stopped && r.2.threads[0]? = some (.entering .pop false) &&
      r.1.all fun x => Monitor.findsNoneCommitted x.1 x.2) (by decide)
  simp only [Bool.and_eq_true, decide_eq_true_eq] at hP
  obtain ⟨⟨hstopped, hentering⟩, hall⟩ := hP
  refine ⟨st, hstopped, hentering, (stop_leaves_nobody_asleep hrun).1 fun x hx => ?_⟩
  exact .of_check (List.all_eq_true.mp hall x hx)

/-- `stop` writes and notifies between the consumer's test and its sleep. -/
theorem stop_strands_consumer :
    ∃ steps st, (eventQueueMonitor.machine {} 2).Run steps st ∧ EventQueue.Stranded st := by
  obtain ⟨steps, st, hrun, hstranded⟩ := Machine.exists_run (eventQueueMonitor.machine {} 2)
    ([.call 0 .pop, .lock 0, .test 0, .begin 1 .stop, .write 1, .notify 1 none, .sleep 0])
    (fun r => decide (EventQueue.Stranded r.2)) (by decide)
  exact ⟨steps, st, hrun, of_decide_eq_true hstranded⟩

end LoginServer
