import LoginServer.Events.EventQueue
import Mathlib.Logic.Relation

/-!
# The order of the events

One queue between any number of threads, each step the critical section of one call.
What consumers have been handed and what is queued are always what producers have put in.
A batch call can fail its caller in two ways: `reserve` gets a wrapped size when the
queue's length does not fit the `int`, and a batch of size 0 is answered false.
-/

namespace LoginServer

open Machines

/-- A call at its critical section; `events` is the vector of the caller. -/
inductive QueueOp where
  | push (event : Event)
  | pushBatch (events : List Event)
  | stop
  | pop
  | popBatch (events : List Event) (batchSize : Int32)
  | tryPopBatch (events : List Event) (batchSize : Int32)

namespace QueueOp

/-- What the call adds to the queue. -/
def inserted : QueueOp → List Event
  | .push event => [event]
  | .pushBatch events => events
  | _ => []

/-- `pop` and `popBatch` wait until the predicate is true. -/
def waits : QueueOp → Bool
  | .pop => true
  | .popBatch _ _ => true
  | _ => false

def after (q : EventQueue) : QueueOp → EventQueue
  | .push event => q.push event
  | .pushBatch events => q.pushBatch events
  | .stop => q.stop
  | .pop => q.pop.2
  | .popBatch events batchSize => (q.popBatch events batchSize.toInt).2
  | .tryPopBatch events batchSize => (q.tryPopBatch events batchSize.toInt).2

/-- What a batch call has added to the vector of its caller. -/
def appended (events : List Event) : Option (Bool × List Event) → List Event
  | some (_, batch) => batch.drop events.length
  | none => []

/-- What the caller is handed. -/
def removed (q : EventQueue) : QueueOp → List Event
  | .pop => q.pop.1.toList
  | .popBatch events batchSize => appended events (q.popBatch events batchSize.toInt).1
  | .tryPopBatch events batchSize => appended events (q.tryPopBatch events batchSize.toInt).1
  | _ => []

end QueueOp

def eventQueueOps : Machine EventQueue QueueOp where
  init := {}
  step q op := if op.waits && !q.ready then none else some (op.after q)

namespace EventQueue

/-- A batch call of size above 0 appends `min(batchSize, queue.size())` events, the oldest
ones, to what the vector held; after `stop` it is answered false only if none is queued. -/
structure BatchDelivers (q : EventQueue) (events : List Event) (batchSize : Int32)
    (outcome : Option (Bool × List Event) × EventQueue) : Prop where
  appends : 0 < batchSize.toInt → ∃ answer popped,
    outcome.1 = some (answer, events ++ popped) ∧ q.queue = popped ++ outcome.2.queue ∧
    (popped.length : Int) = min batchSize.toInt q.queue.length
  answers : q.stopped = true → ∃ batch, outcome.1 = some (!q.queue.isEmpty, batch)

/-- What a call owes its caller. -/
def Delivers (q : EventQueue) : QueueOp → Prop
  | .pop => q.stopped = true → q.pop.1.isSome = !q.queue.isEmpty
  | .popBatch events batchSize =>
    BatchDelivers q events batchSize (q.popBatch events batchSize.toInt)
  | .tryPopBatch events batchSize =>
    BatchDelivers q events batchSize (q.tryPopBatch events batchSize.toInt)
  | _ => True

/-- `reserve` is not called with a wrapped size, and a stopped queue is not asked for 0
events into an empty vector. -/
def BatchFits (q : EventQueue) (events : List Event) (batchSize : Int32) : Prop :=
  q.queue ≠ [] → 0 < batchSize.toInt ∨ q.stopped = true →
    reserveThrows events.length (min batchSize.toInt ((q.queue.length : Int).bmod (2 ^ 32)))
      = false ∧
    ¬ (batchSize.toInt = 0 ∧ events = [])

def Fits (q : EventQueue) : QueueOp → Prop
  | .popBatch events batchSize => BatchFits q events batchSize
  | .tryPopBatch events batchSize => BatchFits q events batchSize
  | _ => True

/-- What other threads can do once the producers have finished. -/
def Consumed (q q' : EventQueue) : Prop :=
  Relation.ReflTransGen (fun q q' => ∃ op : QueueOp, op.inserted = [] ∧
    eventQueueOps.step q op = some q') q q'

/-- `drain`, one call of `popBatch` after the other: whatever other consumers do before
each next call, it returns, and with the queue empty. -/
inductive Drains : EventQueue → Prop where
  | returns {q : EventQueue} {tmp : List Event} (hpop : (q.popBatch [] 1024).1 = some (false, tmp))
      (hempty : q.queue = []) : Drains q
  | again {q : EventQueue} {tmp : List Event} (hpop : (q.popBatch [] 1024).1 = some (true, tmp))
      (hrest : ∀ q', Consumed (q.popBatch [] 1024).2 q' → Drains q') : Drains q

/-- A run in which the queue has been a lossless FIFO, up to the state it reaches. -/
structure LosslessFifo (steps : List (EventQueue × QueueOp)) (q : EventQueue) : Prop where
  inOrder : Machine.history (fun q op => op.removed q) steps <+:
    Machine.history (fun _ op => op.inserted) steps
  delivers : ∀ x ∈ steps, Delivers x.1 x.2
  drains : q.stopped = true → Drains q

variable {q q' : EventQueue} {op : QueueOp} {events : List Event} {batchSize : Int32}

/-! ## One batch call -/

theorem popBatch_of_nil (hempty : q.queue = []) (events : List Event) (batchSize : Int) :
    q.popBatch events batchSize = (some (false, events), q) := by
  simp [popBatch, hempty]

theorem popBatch_of_throws {batchSize : Int} (hne : q.queue ≠ [])
    (hthrows : reserveThrows events.length
      (min batchSize ((q.queue.length : Int).bmod (2 ^ 32))) = true) :
    q.popBatch events batchSize = (none, q) := by
  have hempty : ¬ q.queue.isEmpty = true := by rwa [List.isEmpty_iff]
  unfold popBatch
  rw [if_neg hempty]
  exact if_pos hthrows

theorem popBatch_of_fits {batchSize : Int} (hne : q.queue ≠ [])
    (hfits : reserveThrows events.length
      (min batchSize ((q.queue.length : Int).bmod (2 ^ 32))) = false) :
    q.popBatch events batchSize =
      (some (!(events ++ q.queue.take batchSize.toNat).isEmpty,
        events ++ q.queue.take batchSize.toNat),
        { q with queue := q.queue.drop batchSize.toNat }) := by
  have hempty : ¬ q.queue.isEmpty = true := by rwa [List.isEmpty_iff]
  unfold popBatch
  rw [if_neg hempty]
  exact if_neg (Bool.eq_false_iff.mp hfits)

/-- Where the predicate is false at the end of the wait, the queue is empty. -/
theorem tryPopBatch_eq (q : EventQueue) (events : List Event) (batchSize : Int) :
    q.tryPopBatch events batchSize = q.popBatch events batchSize := by
  unfold tryPopBatch
  split_ifs with hready
  · have hempty : q.queue = [] := by
      simp only [ready, Bool.not_eq_true', Bool.or_eq_false_iff, Bool.not_eq_false',
        List.isEmpty_iff] at hready
      exact hready.1
    rw [popBatch_of_nil hempty]
  · rfl

/-- What a batch call appends is what it takes off the front, and it never leaves the
queue longer. -/
theorem appended_append (q : EventQueue) (events : List Event) (batchSize : Int) :
    QueueOp.appended events (q.popBatch events batchSize).1 ++
      (q.popBatch events batchSize).2.queue = q.queue := by
  by_cases hne : q.queue = []
  · rw [popBatch_of_nil hne]
    simp [QueueOp.appended]
  · cases hthrows : reserveThrows events.length
      (min batchSize ((q.queue.length : Int).bmod (2 ^ 32))) with
    | true =>
      rw [popBatch_of_throws hne hthrows]
      rfl
    | false =>
      rw [popBatch_of_fits hne hthrows]
      simp [QueueOp.appended]

/-- An `int` below 0 that is added to the size 0 wraps. -/
theorem reserveThrows_of_neg {actualSize : Int} (hneg : actualSize < 0)
    (hlow : -2 ^ 31 ≤ actualSize) : reserveThrows 0 actualSize = true := by
  simp only [reserveThrows, decide_eq_true_eq]
  omega

theorem reserveThrows_of_nonneg {size : Nat} {actualSize : Int} (hsize : size < 2 ^ 32)
    (hnonneg : 0 ≤ actualSize) (hhigh : actualSize < 2 ^ 31) :
    reserveThrows size actualSize = false := by
  simp only [reserveThrows, decide_eq_false_iff_not]
  omega

theorem length_bmod_of_lt {n : Nat} (hn : n < 2 ^ 31) : (n : Int).bmod (2 ^ 32) = n :=
  Int.bmod_eq_of_le (by omega) (by omega)

/-- With a wrapped size the call throws: right only where its caller is owed nothing. -/
theorem batchDelivers_throws : BatchDelivers q events batchSize (none, q) ↔
    ¬ (0 < batchSize.toInt ∨ q.stopped = true) := by
  constructor
  · rintro ⟨happends, hanswers⟩ (hpos | hstopped)
    · obtain ⟨answer, popped, hnone, -⟩ := happends hpos
      cases hnone
    · obtain ⟨batch, hnone⟩ := hanswers hstopped
      cases hnone
  · intro h
    exact ⟨fun hpos => absurd (Or.inl hpos) h, fun hstopped => absurd (Or.inr hstopped) h⟩

/-- Where `reserve` accepts the size, the answer after `stop` is wrong for a batch that
stays empty. -/
theorem batchDelivers_pops (hne : q.queue ≠ []) :
    BatchDelivers q events batchSize
      (some (!(events ++ q.queue.take batchSize.toInt.toNat).isEmpty,
        events ++ q.queue.take batchSize.toInt.toNat),
        { q with queue := q.queue.drop batchSize.toInt.toNat }) ↔
    (q.stopped = true → ¬ (batchSize.toInt ≤ 0 ∧ events = [])) := by
  have hqueue : q.queue.isEmpty = false := by rwa [List.isEmpty_eq_false_iff]
  have hbatch : (events ++ q.queue.take batchSize.toInt.toNat).isEmpty = true ↔
      batchSize.toInt ≤ 0 ∧ events = [] := by
    simp only [List.isEmpty_iff, List.append_eq_nil_iff, List.take_eq_nil_iff, hne, or_false,
      Int.toNat_eq_zero]
    exact and_comm
  constructor
  · rintro ⟨-, hanswers⟩ hstopped hnothing
    obtain ⟨batch, hanswer⟩ := hanswers hstopped
    rw [hbatch.mpr hnothing, hqueue] at hanswer
    cases hanswer
  · intro h
    refine ⟨fun hpos => ⟨_, q.queue.take batchSize.toInt.toNat, rfl,
      (List.take_append_drop _ _).symm, ?_⟩, fun hstopped =>
      ⟨events ++ q.queue.take batchSize.toInt.toNat, ?_⟩⟩
    · rw [List.length_take]
      omega
    · rw [hqueue, Bool.eq_false_iff.mpr fun hempty => h hstopped (hbatch.mp hempty)]

theorem batchDelivers_iff : BatchDelivers q events batchSize (q.popBatch events batchSize.toInt) ↔
    BatchFits q events batchSize := by
  by_cases hne : q.queue = []
  · rw [popBatch_of_nil hne]
    refine iff_of_true ⟨fun hpos => ⟨false, [], ?_⟩, fun _ => ⟨events, ?_⟩⟩ fun h => absurd hne h
    · simp [hne]
      omega
    · simp [hne]
  · unfold BatchFits
    cases hthrows : reserveThrows events.length
      (min batchSize.toInt ((q.queue.length : Int).bmod (2 ^ 32))) with
    | true =>
      rw [popBatch_of_throws hne hthrows, batchDelivers_throws]
      simp [hne]
    | false =>
      rw [popBatch_of_fits hne hthrows, batchDelivers_pops hne]
      -- A size below 0 for an empty vector would have thrown.
      have hzero : batchSize.toInt ≤ 0 ∧ events = [] ↔ batchSize.toInt = 0 ∧ events = [] := by
        refine and_congr_left ?_
        rintro rfl
        have hlow := Int32.le_toInt batchSize
        have hlength : -2 ^ 31 ≤ (q.queue.length : Int).bmod (2 ^ 32) := Int.le_bmod (by decide)
        have hnonneg : ¬ min batchSize.toInt ((q.queue.length : Int).bmod (2 ^ 32)) < 0 := by
          intro hneg
          rw [List.length_nil, reserveThrows_of_neg hneg (by omega)] at hthrows
          cases hthrows
        omega
      rw [hzero]
      constructor
      · rintro h - howed
        refine ⟨rfl, fun hnothing => ?_⟩
        rcases howed with hpos | hstopped
        · omega
        · exact h hstopped hnothing
      · intro h hstopped
        exact (h hne (Or.inr hstopped)).2

theorem delivers_iff (q : EventQueue) (op : QueueOp) : Delivers q op ↔ Fits q op := by
  cases op with
  | push event => exact Iff.rfl
  | pushBatch events => exact Iff.rfl
  | stop => exact Iff.rfl
  | pop =>
    refine iff_of_true (fun _ => ?_) trivial
    unfold pop
    split
    · simp [*]
    · simp [*]
  | popBatch events batchSize => exact batchDelivers_iff
  | tryPopBatch events batchSize =>
    change BatchDelivers q events batchSize (q.tryPopBatch events batchSize.toInt) ↔ _
    rw [tryPopBatch_eq]
    exact batchDelivers_iff

/-! ## Runs -/

theorem step_eq (hstep : eventQueueOps.step q op = some q') : q' = op.after q := by
  simp only [eventQueueOps] at hstep
  split at hstep
  · cases hstep
  · exact (Option.some.inj hstep).symm

/-- What a call hands out it takes off the front, and what it puts in comes last. -/
theorem removed_append (hstep : eventQueueOps.step q op = some q') :
    op.removed q ++ q'.queue = q.queue ++ op.inserted := by
  rw [step_eq hstep]
  cases op with
  | push event => rfl
  | pushBatch events => rfl
  | stop => exact (List.append_nil _).symm
  | pop =>
    change q.pop.1.toList ++ q.pop.2.queue = q.queue ++ []
    rw [List.append_nil, pop]
    split
    · simp [*]
    · simp [*]
  | popBatch events batchSize =>
    change _ = q.queue ++ []
    rw [List.append_nil]
    exact appended_append q events batchSize.toInt
  | tryPopBatch events batchSize =>
    change QueueOp.appended events (q.tryPopBatch events batchSize.toInt).1 ++
      (q.tryPopBatch events batchSize.toInt).2.queue = q.queue ++ []
    rw [List.append_nil, tryPopBatch_eq]
    exact appended_append q events batchSize.toInt

theorem stopped_after (q : EventQueue) (hstopped : q.stopped = true) (op : QueueOp) :
    (op.after q).stopped = true := by
  cases op with
  | push event => exact hstopped
  | pushBatch events => exact hstopped
  | stop => rfl
  | pop => exact (stopped_take .pop q).trans hstopped
  | popBatch events batchSize => exact (stopped_popBatch q events _).trans hstopped
  | tryPopBatch events batchSize =>
    change (q.tryPopBatch events batchSize.toInt).2.stopped = true
    rw [tryPopBatch_eq]
    exact (stopped_popBatch q events _).trans hstopped

/-- What the producers have finished only becomes shorter. -/
theorem Consumed.le (h : Consumed q q') (hstopped : q.stopped = true) :
    q'.stopped = true ∧ q'.queue.length ≤ q.queue.length := by
  induction h with
  | refl => exact ⟨hstopped, Nat.le_refl _⟩
  | tail _ hstep ih =>
    obtain ⟨op, hnone, hstep⟩ := hstep
    obtain ⟨hstopped, hle⟩ := ih
    have hlengths := congrArg List.length (removed_append hstep)
    rw [hnone, List.append_nil, List.length_append] at hlengths
    refine ⟨?_, by omega⟩
    rw [step_eq hstep]
    exact stopped_after _ hstopped op

/-! ## `drain` -/

/-- A queue whose length is an `int` gives `drain` 1024 events or all it has. -/
theorem popBatch_drain (hne : q.queue ≠ []) (hlength : q.queue.length < 2 ^ 31) :
    q.popBatch [] 1024 =
      (some (true, q.queue.take 1024), { q with queue := q.queue.drop 1024 }) := by
  have hpos := List.length_pos_iff.mpr hne
  rw [popBatch_of_fits hne]
  · simp [hne]
  · rw [length_bmod_of_lt hlength]
    exact reserveThrows_of_nonneg (by decide) (by omega) (by omega)

theorem drains_of_length (hstopped : q.stopped = true) (hlength : q.queue.length < 2 ^ 31) :
    Drains q := by
  induction hn : q.queue.length using Nat.strongRecOn generalizing q with
  | ind n ih =>
    by_cases hne : q.queue = []
    · exact .returns (congrArg Prod.fst (popBatch_of_nil hne [] 1024)) hne
    · have hpop := popBatch_drain hne hlength
      refine .again (congrArg Prod.fst hpop) fun q' hconsumed => ?_
      rw [hpop] at hconsumed
      obtain ⟨hstopped', hle⟩ := Consumed.le hconsumed hstopped
      have hpos := List.length_pos_iff.mpr hne
      rw [List.length_drop] at hle
      exact ih _ (by omega) hstopped' (by omega) rfl

/-- A longer queue makes `drain` throw, at the latest when its length has come down to one
that a negative `int` shows. -/
theorem length_of_drains (h : Drains q) : q.queue.length < 2 ^ 31 := by
  induction h with
  | returns _ hempty => simp [hempty]
  | @again q tmp hpop _ ih =>
    have hrest := ih _ .refl
    by_contra hlong
    have hne : q.queue ≠ [] := fun hempty => hlong (by simp [hempty])
    cases hthrows : reserveThrows ([] : List Event).length
        (min 1024 ((q.queue.length : Int).bmod (2 ^ 32))) with
    | true =>
      rw [popBatch_of_throws hne hthrows] at hpop
      cases hpop
    | false =>
      rw [popBatch_of_fits hne hthrows] at hrest
      have hshort : q.queue.length < 2 ^ 31 + 1024 := by
        have hdrop : (q.queue.drop 1024).length < 2 ^ 31 := hrest
        rw [List.length_drop] at hdrop
        omega
      have hnegative : (q.queue.length : Int).bmod (2 ^ 32) = q.queue.length - 2 ^ 32 := by
        rw [Int.bmod_def]
        omega
      rw [List.length_nil, hnegative, reserveThrows_of_neg (by omega) (by omega)] at hthrows
      cases hthrows

end EventQueue

/-- In every run what has been removed and what is queued are what has been inserted. A run
is that of a lossless FIFO exactly if its batch calls at a queue that has events, those of a
size above 0 and those after `stop`, call `reserve` with a size that has not wrapped and
are not for 0 events into an empty vector, and `drain` finds fewer than 2^31 events. -/
theorem losslessFifo_iff {steps : List (EventQueue × QueueOp)} {q : EventQueue}
    (hrun : eventQueueOps.Run steps q) :
    Machine.history (fun q op => op.removed q) steps ++ q.queue =
      Machine.history (fun _ op => op.inserted) steps ∧
    (EventQueue.LosslessFifo steps q ↔
      (∀ x ∈ steps, EventQueue.Fits x.1 x.2) ∧
      (q.stopped = true → q.queue.length < 2 ^ 31)) := by
  have hhistory : Machine.history (fun q op => op.removed q) steps ++ q.queue =
      Machine.history (fun _ op => op.inserted) steps := by
    refine Machine.Run.history_append rfl ?_ hrun
    intro q op q' hstep
    exact EventQueue.removed_append hstep
  refine ⟨hhistory, ?_⟩
  constructor
  · intro h
    exact ⟨fun x hx => (EventQueue.delivers_iff _ _).mp (h.delivers x hx),
      fun hstopped => EventQueue.length_of_drains (h.drains hstopped)⟩
  · rintro ⟨hfits, hlength⟩
    exact
      { inOrder := ⟨q.queue, hhistory⟩
        delivers := fun x hx => (EventQueue.delivers_iff _ _).mpr (hfits x hx)
        drains := fun hstopped => EventQueue.drains_of_length hstopped (hlength hstopped) }

namespace EventQueue

/-- A thread pushes a batch, then the queue is stopped. -/
theorem run_pushBatch_stop (events : List Event) :
    eventQueueOps.Run [(⟨events, false⟩, .stop), ({}, .pushBatch events)] ⟨events, true⟩ :=
  .step (.step .init rfl) rfl

def ping : Event := ⟨.PING_CLIENT, 7, .clientData {}, none, none⟩

end EventQueue

/-- A stopped queue that still hands out its event, and drains. -/
theorem losslessFifo_iff_pop :
    EventQueue.LosslessFifo [(⟨[EventQueue.ping], true⟩, .pop), (⟨[EventQueue.ping], false⟩, .stop),
      ({}, .pushBatch [EventQueue.ping])] ⟨[], true⟩ := by
  refine (losslessFifo_iff (.step (EventQueue.run_pushBatch_stop _) rfl)).2.mpr ⟨?_, ?_⟩
  · simp [EventQueue.Fits]
  · simp

/-- After `stop`, a batch of 0 events is answered false with an event queued; and `drain`
throws at 2^31 events. -/
theorem losslessFifo_fails :
    (eventQueueOps.Run [(⟨[EventQueue.ping], true⟩, .popBatch [] 0),
        (⟨[EventQueue.ping], false⟩, .stop), ({}, .pushBatch [EventQueue.ping])]
        ⟨[EventQueue.ping], true⟩ ∧
      ¬ EventQueue.LosslessFifo [(⟨[EventQueue.ping], true⟩, .popBatch [] 0),
        (⟨[EventQueue.ping], false⟩, .stop), ({}, .pushBatch [EventQueue.ping])]
        ⟨[EventQueue.ping], true⟩) ∧
    eventQueueOps.Run [(⟨List.replicate (2 ^ 31) EventQueue.ping, false⟩, .stop),
        ({}, .pushBatch (List.replicate (2 ^ 31) EventQueue.ping))]
        ⟨List.replicate (2 ^ 31) EventQueue.ping, true⟩ ∧
    ¬ EventQueue.Drains ⟨List.replicate (2 ^ 31) EventQueue.ping, true⟩ := by
  refine ⟨⟨.step (EventQueue.run_pushBatch_stop _) rfl, fun h => ?_⟩,
    EventQueue.run_pushBatch_stop _, fun h => ?_⟩
  · obtain ⟨batch, hanswer⟩ := (h.delivers _ (List.mem_cons_self ..)).answers rfl
    cases hanswer
  · have hlength := EventQueue.length_of_drains h
    rw [List.length_replicate] at hlength
    exact Nat.lt_irrefl _ hlength

end LoginServer
