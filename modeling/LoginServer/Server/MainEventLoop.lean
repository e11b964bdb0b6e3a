import Mathlib.Tactic.SplitIfs
import LoginServer.Events.EventQueue
import LoginServer.Utils.ThreadPool

/-!
# The `LoginServer` object and its threads

The event loop, the workers of `threadPool_` and the thread that destroys the object,
over one `EventQueue`, each locked section a step. A wait shows only in its end: a
consumer goes on when its predicate holds, or by the timeout.

Members are destroyed in the reverse order of their declaration. The destructor of
`threadPool_` lets the workers run what is queued and joins them; that of every other
member is one step.

`pushed`, `popped` and `dispatched` record the events that went through `push`,
`tryPopBatch` and `dispatchEvent`, and `iterations` the completed iterations of
`mainEventLoop`; no function reads them.
-/

namespace LoginServer

open Machines

/-- The members of `LoginServer` in the order of their declaration. -/
inductive Member where
  | running_
  | eventCondition
  | threadPool_
  | event_thread_
  | clientData_
  | logger_
  | log_
  | eventQueueLoginServer_
  | eventHandler_
  | networkManager_
  | characterManager_
  | pool_
  | serverConfig_
deriving DecidableEq

def Member.declared : List Member :=
  [running_, eventCondition, threadPool_, event_thread_, clientData_, logger_, log_,
    eventQueueLoginServer_, eventHandler_, networkManager_, characterManager_, pool_, serverConfig_]

/-- How a call comes to its end. -/
inductive Outcome where
  | returns
  | throwsStd
  | throwsOther
deriving DecidableEq

inductive WorkerPhase where
  /-- At the head of its loop. -/
  | waiting
  /-- Inside `dispatchEvent`. -/
  | running (event : Event)
  | returned
deriving DecidableEq

/-- The lambda that `processBatch` enqueues catches `std::exception`. -/
def taskOutcome : Outcome → Outcome
  | .returns => .returns
  | .throwsStd => .returns
  | .throwsOther => .throwsOther

/-- A worker after its task: either of its two `catch` clauses goes on with the loop. -/
def afterTask : Outcome → WorkerPhase
  | .returns => .waiting
  | .throwsStd => .waiting
  | .throwsOther => .waiting

/-- A call of `tryPopBatch` that waits: since when, how many events were queued when it
began and how many were pushed since. -/
structure PopWait where
  since : Int
  queued : Nat
  arrived : Nat := 0
deriving DecidableEq

/-- No event was queued when the wait began and none was pushed during it. -/
def PopWait.quiet (w : PopWait) : Bool := w.queued == 0 && w.arrived == 0

inductive LoopPhase where
  | notStarted
  /-- At `while (running_.load())`. -/
  | checking
  | popping (w : PopWait)
  /-- In `processBatch`, with the events that are left to enqueue. -/
  | enqueueing (rest : List Event) (w : PopWait)
  /-- In the cleanup branch. -/
  | cleaning (w : PopWait)
  | ended
deriving DecidableEq

/-- An event is pushed while the loop is in this phase. -/
def LoopPhase.arrived : LoopPhase → LoopPhase
  | .popping w => .popping { w with arrived := w.arrived + 1 }
  | p => p

structure Iteration where
  wait : PopWait
  ended : Int
  /-- It ran the cleanup branch. -/
  cleanup : Bool
deriving DecidableEq

inductive Destruction where
  | no
  /-- In the destructor's body, at `event_thread_.join()`. -/
  | joiningLoop
  | members
  /-- In the destructor of `threadPool_`. -/
  | joiningWorkers
deriving DecidableEq

structure LoginServerObject where
  now : Int
  eventQueue : EventQueue := {}
  running : Bool := true
  loop : LoopPhase := .notStarted
  threadPool : ThreadPool Event := {}
  workers : List WorkerPhase
  destruction : Destruction := .no
  alive : List Member := Member.declared
  pushed : List Event := []
  popped : List Event := []
  dispatched : List Event := []
  iterations : List Iteration := []

inductive ObjectLabel where
  | tick (ms : Nat)
  | push (event : Event)
  | startMainEventLoop
  /-- The loop reads `running_`. -/
  | check
  /-- The wait of `tryPopBatch` ends. -/
  | tryPopBatch
  | enqueueTask
  | endIteration
  | take (worker : Nat)
  | finish (worker : Nat) (outcome : Outcome)
  | stop
  | beginDestruction
  | joinLoop
  | destroyMember
  | joinWorkers
deriving DecidableEq

namespace LoginServerObject

variable (s : LoginServerObject)

def BATCH_SIZE : Int := 10

/-- The order in which `processBatch` enqueues: no event is taken for a priority one. -/
def batchOrder (eventsBatch : List Event) : List Event :=
  let priorityEvents : List Event := []
  let normalEvents := eventsBatch
  priorityEvents ++ normalEvents

def stop : LoginServerObject :=
  { s with running := false, eventQueue := s.eventQueue.stop }

def setWorker (worker : Nat) (phase : WorkerPhase) : LoginServerObject :=
  { s with workers := s.workers.set worker phase }

/-- `push`, and what the loop's wait records of it. -/
def arrive (event : Event) : LoginServerObject :=
  { s with
    eventQueue := s.eventQueue.push event
    pushed := s.pushed ++ [event]
    loop := s.loop.arrived }

def completed (w : PopWait) (cleanup : Bool) : LoginServerObject :=
  { s with loop := .checking, iterations := s.iterations ++ [⟨w, s.now, cleanup⟩] }

def step (cleanupIntervalMs : Int) : ObjectLabel → Option LoginServerObject
  | .tick ms => some { s with now := s.now + ms }
  | .push event => some (s.arrive event)
  | .startMainEventLoop =>
    if s.loop = .notStarted ∧ s.destruction = .no then some { s with loop := .checking } else none
  | .check =>
    match s.loop with
    | .checking =>
      if s.running then
        some { s with loop := .popping { since := s.now, queued := s.eventQueue.queue.length } }
      else some { s with loop := .ended }
    | _ => none
  | .tryPopBatch =>
    match s.loop with
    | .popping w =>
      if !s.eventQueue.ready && s.now < w.since + cleanupIntervalMs then none
      else
        match s.eventQueue.tryPopBatch [] BATCH_SIZE with
        | (some (true, events), eventQueue) =>
          some { s with
            eventQueue := eventQueue
            popped := s.popped ++ events
            loop := .enqueueing (batchOrder events) w }
        | (some (false, _), eventQueue) =>
          some { s with eventQueue := eventQueue, loop := .cleaning w }
        -- `mainEventLoop` catches the exception outside of its loop
        | (none, eventQueue) => some { s with eventQueue := eventQueue, loop := .ended }
    | _ => none
  | .enqueueTask =>
    match s.loop with
    | .enqueueing (event :: rest) w =>
      match s.threadPool.enqueueTask event with
      | some threadPool =>
        some { s with threadPool := threadPool, loop := .enqueueing rest w }
      -- "Dropped event (pool)"
      | none => some { s with loop := .enqueueing rest w }
    | _ => none
  | .endIteration =>
    match s.loop with
    | .enqueueing [] w => some (s.completed w false)
    | .cleaning w => some (s.completed w true)
    | _ => none
  | .take worker =>
    match s.workers[worker]?, s.threadPool.next with
    | some .waiting, some (.run event, threadPool) =>
      some { s.setWorker worker (.running event) with
        threadPool := threadPool
        dispatched := s.dispatched ++ [event] }
    | some .waiting, some (.exit, _) => some (s.setWorker worker .returned)
    | _, _ => none
  | .finish worker outcome =>
    match s.workers[worker]? with
    | some (.running _) => some (s.setWorker worker (afterTask (taskOutcome outcome)))
    | _ => none
  | .stop => if s.destruction = .no then some s.stop else none
  | .beginDestruction =>
    if s.destruction = .no then some { s.stop with destruction := .joiningLoop } else none
  | .joinLoop =>
    if s.destruction = .joiningLoop ∧ (s.loop = .notStarted ∨ s.loop = .ended) then
      some { s with destruction := .members }
    else none
  | .destroyMember =>
    match s.destruction, s.alive.getLast? with
    | .members, some .threadPool_ =>
      some { s with
        threadPool := s.threadPool.beginDestruction
        destruction := .joiningWorkers }
    | .members, some _ => some { s with alive := s.alive.dropLast }
    | _, _ => none
  | .joinWorkers =>
    if s.destruction = .joiningWorkers ∧ s.workers.all (· = .returned) then
      some { s with alive := s.alive.dropLast, destruction := .members }
    else none

end LoginServerObject

/-- The object after its constructor, with a number of workers. -/
def loginServerMachine (cleanupIntervalMs : Int) (workers : Nat) :
    Machine LoginServerObject ObjectLabel where
  init := { now := 0, workers := List.replicate workers .waiting }
  step s := s.step cleanupIntervalMs

namespace LoginServerObject

/-! ## What a step does -/

/-- The steps, one constructor for each way to take one. -/
inductive Step (cleanupIntervalMs : Int) (s : LoginServerObject) :
    ObjectLabel → LoginServerObject → Prop where
  | tick {ms : Nat} : Step cleanupIntervalMs s (.tick ms) { s with now := s.now + ms }
  | push {event : Event} : Step cleanupIntervalMs s (.push event) (s.arrive event)
  | startMainEventLoop (hloop : s.loop = .notStarted) (hd : s.destruction = .no) :
    Step cleanupIntervalMs s .startMainEventLoop { s with loop := .checking }
  | checkTrue (hloop : s.loop = .checking) :
    Step cleanupIntervalMs s .check
      { s with loop := .popping { since := s.now, queued := s.eventQueue.queue.length } }
  | checkFalse (hloop : s.loop = .checking) (hrunning : s.running = false) :
    Step cleanupIntervalMs s .check { s with loop := .ended }
  | popTrue {w : PopWait} {events : List Event} {eventQueue : EventQueue}
      (hloop : s.loop = .popping w)
      (hpop : s.eventQueue.tryPopBatch [] BATCH_SIZE = (some (true, events), eventQueue)) :
    Step cleanupIntervalMs s .tryPopBatch
      { s with
        eventQueue := eventQueue
        popped := s.popped ++ events
        loop := .enqueueing (batchOrder events) w }
  | popFalse {w : PopWait} {events : List Event} {eventQueue : EventQueue}
      (hloop : s.loop = .popping w)
      (hpop : s.eventQueue.tryPopBatch [] BATCH_SIZE = (some (false, events), eventQueue)) :
    Step cleanupIntervalMs s .tryPopBatch
      { s with eventQueue := eventQueue, loop := .cleaning w }
  | popThrows {w : PopWait} {eventQueue : EventQueue} (hloop : s.loop = .popping w)
      (hpop : s.eventQueue.tryPopBatch [] BATCH_SIZE = (none, eventQueue)) :
    Step cleanupIntervalMs s .tryPopBatch { s with eventQueue := eventQueue, loop := .ended }
  | enqueue {w : PopWait} {event : Event} {rest : List Event} {threadPool : ThreadPool Event}
      (hloop : s.loop = .enqueueing (event :: rest) w)
      (henqueue : s.threadPool.enqueueTask event = some threadPool) :
    Step cleanupIntervalMs s .enqueueTask
      { s with threadPool := threadPool, loop := .enqueueing rest w }
  | drop {w : PopWait} {event : Event} {rest : List Event}
      (hloop : s.loop = .enqueueing (event :: rest) w)
      (henqueue : s.threadPool.enqueueTask event = none) :
    Step cleanupIntervalMs s .enqueueTask { s with loop := .enqueueing rest w }
  | endBatch {w : PopWait} (hloop : s.loop = .enqueueing [] w) :
    Step cleanupIntervalMs s .endIteration (s.completed w false)
  | endCleanup {w : PopWait} (hloop : s.loop = .cleaning w) :
    Step cleanupIntervalMs s .endIteration (s.completed w true)
  | take {worker : Nat} {event : Event} {rest : List Event}
      (hworker : s.workers[worker]? = some .waiting)
      (htasks : s.threadPool.tasks = event :: rest) :
    Step cleanupIntervalMs s (.take worker)
      { s.setWorker worker (.running event) with
        threadPool := { s.threadPool with tasks := rest }
        dispatched := s.dispatched ++ [event] }
  | exit {worker : Nat} (hworker : s.workers[worker]? = some .waiting)
      (htasks : s.threadPool.tasks = []) (hstop : s.threadPool.stop = true) :
    Step cleanupIntervalMs s (.take worker) (s.setWorker worker .returned)
  | finish {worker : Nat} {event : Event} {outcome : Outcome}
      (hworker : s.workers[worker]? = some (.running event)) :
    Step cleanupIntervalMs s (.finish worker outcome)
      (s.setWorker worker (afterTask (taskOutcome outcome)))
  | stop (hd : s.destruction = .no) : Step cleanupIntervalMs s .stop s.stop
  | beginDestruction (hd : s.destruction = .no) :
    Step cleanupIntervalMs s .beginDestruction { s.stop with destruction := .joiningLoop }
  | joinLoop (hd : s.destruction = .joiningLoop) (hloop : s.loop = .notStarted ∨ s.loop = .ended) :
    Step cleanupIntervalMs s .joinLoop { s with destruction := .members }
  | destroyThreadPool (hd : s.destruction = .members)
      (hlast : s.alive.getLast? = some .threadPool_) :
    Step cleanupIntervalMs s .destroyMember
      { s with
        threadPool := s.threadPool.beginDestruction
        destruction := .joiningWorkers }
  | destroyMember {m : Member} (hd : s.destruction = .members) (hlast : s.alive.getLast? = some m)
      (hm : m ≠ .threadPool_) :
    Step cleanupIntervalMs s .destroyMember { s with alive := s.alive.dropLast }
  | joinWorkers (hd : s.destruction = .joiningWorkers) (hall : ∀ p ∈ s.workers, p = .returned) :
    Step cleanupIntervalMs s .joinWorkers
      { s with alive := s.alive.dropLast, destruction := .members }

variable {cleanupIntervalMs : Int} {s s' : LoginServerObject} {l : ObjectLabel}

theorem step_cases (h : s.step cleanupIntervalMs l = some s') : s.Step cleanupIntervalMs l s' := by
  cases l with
  | tick ms =>
    cases h
    exact .tick
  | push event =>
    cases h
    exact .push
  | startMainEventLoop =>
    simp only [step] at h
    split_ifs at h with hstart
    cases h
    exact .startMainEventLoop hstart.1 hstart.2
  | check =>
    simp only [step] at h
    split at h
    · rename_i hloop
      split_ifs at h with hrunning
      · cases h
        exact .checkTrue hloop
      · cases h
        exact .checkFalse hloop (eq_false_of_ne_true hrunning)
    · cases h
  | tryPopBatch =>
    simp only [step] at h
    split at h
    · rename_i w hloop
      split_ifs at h
      split at h
      · rename_i events eventQueue hpop
        cases h
        exact .popTrue hloop hpop
      · rename_i events eventQueue hpop
        cases h
        exact .popFalse hloop hpop
      · rename_i eventQueue hpop
        cases h
        exact .popThrows hloop hpop
    · cases h
  | enqueueTask =>
    simp only [step] at h
    split at h
    · rename_i event rest w hloop
      split at h
      · rename_i threadPool henqueue
        cases h
        exact .enqueue hloop henqueue
      · rename_i henqueue
        cases h
        exact .drop hloop henqueue
    · cases h
  | endIteration =>
    simp only [step] at h
    split at h
    · rename_i w hloop
      cases h
      exact .endBatch hloop
    · rename_i w hloop
      cases h
      exact .endCleanup hloop
    · cases h
  | take worker =>
    simp only [step, ThreadPool.next] at h
    split at h
    · rename_i event threadPool hworker hnext
      cases h
      split at hnext
      · split_ifs at hnext
        cases hnext
      · rename_i task rest htasks
        cases hnext
        exact .take hworker htasks
    · rename_i hworker hnext
      cases h
      split at hnext
      · rename_i htasks
        split_ifs at hnext with hstop
        exact .exit hworker htasks hstop
      · cases hnext
    · cases h
  | finish worker outcome =>
    simp only [step] at h
    split at h
    · rename_i event hworker
      cases h
      exact .finish hworker
    · cases h
  | stop =>
    simp only [step] at h
    split_ifs at h with hd
    cases h
    exact .stop hd
  | beginDestruction =>
    simp only [step] at h
    split_ifs at h with hd
    cases h
    exact .beginDestruction hd
  | joinLoop =>
    simp only [step] at h
    split_ifs at h with hjoin
    cases h
    exact .joinLoop hjoin.1 hjoin.2
  | destroyMember =>
    simp only [step] at h
    split at h
    · rename_i hd hlast
      cases h
      exact .destroyThreadPool hd hlast
    · rename_i m hm hd hlast
      cases h
      exact .destroyMember hd hlast hm
    · cases h
  | joinWorkers =>
    simp only [step] at h
    split_ifs at h with hjoin
    cases h
    refine .joinWorkers hjoin.1 fun p hp => ?_
    have hreturned := List.all_eq_true.mp hjoin.2 p hp
    exact of_decide_eq_true hreturned

end LoginServerObject

end LoginServer
