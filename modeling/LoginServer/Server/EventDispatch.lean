import Mathlib.Data.List.Perm.Subperm
import LoginServer.Server.Destruction

/-!
# Each event is dispatched exactly once

What `tryPopBatch` has returned is on its way through `processBatch`, queued in the pool or
passed to `dispatchEvent`: `Handed` says it as a permutation, which every step keeps. When
the destructor of `threadPool_` has returned only the last of the three is left.
-/

namespace LoginServer

open Machines

/-- The events of the batch that `processBatch` has not enqueued yet. -/
def LoopPhase.rest : LoopPhase → List Event
  | .enqueueing rest _ => rest
  | _ => []

theorem LoopPhase.rest_arrived (p : LoopPhase) : p.arrived.rest = p.rest := by
  cases p <;> rfl

namespace LoginServerObject

/-- Every event is in one place. -/
structure Handed (workers : Nat) (s : LoginServerObject) : Prop where
  teardown : s.Teardown
  handed : (s.dispatched ++ s.threadPool.tasks ++ s.loop.rest).Perm s.popped
  queued : (s.popped ++ s.eventQueue.queue).Perm s.pushed
  workers : s.workers.length = workers

variable {cleanupIntervalMs : Int} {workers : Nat} {s s' : LoginServerObject} {l : ObjectLabel}

/-- What a pop returns was at the front of the queue. -/
theorem queue_tryPopBatch {q q' : EventQueue} {batchSize : Int} {answer : Bool}
    {events : List Event} (h : q.tryPopBatch [] batchSize = (some (answer, events), q')) :
    q.queue = events ++ q'.queue ∧ (answer = false → events = []) := by
  unfold EventQueue.tryPopBatch EventQueue.popBatch at h
  dsimp only at h
  split_ifs at h <;> cases h
  · exact ⟨rfl, fun _ => rfl⟩
  · exact ⟨rfl, fun _ => rfl⟩
  · refine ⟨(List.take_append_drop _ _).symm, fun hanswer => ?_⟩
    rw [Bool.not_eq_false', List.isEmpty_iff] at hanswer
    exact hanswer

theorem queue_tryPopBatch_throws {q q' : EventQueue} {batchSize : Int}
    (h : q.tryPopBatch [] batchSize = (none, q')) : q' = q := by
  unfold EventQueue.tryPopBatch EventQueue.popBatch at h
  dsimp only at h
  split_ifs at h <;> cases h
  rfl

/-- The steps on which no event moves. -/
theorem Handed.frame (hh : s.Handed workers) (ht : s'.Teardown)
    (hdispatched : s'.dispatched = s.dispatched)
    (htasks : s'.threadPool.tasks = s.threadPool.tasks)
    (hrest : s'.loop.rest = s.loop.rest) (hpopped : s'.popped = s.popped)
    (hqueue : s'.eventQueue.queue = s.eventQueue.queue) (hpushed : s'.pushed = s.pushed)
    (hworkers : s'.workers.length = s.workers.length) : s'.Handed workers where
  teardown := ht
  handed := by
    rw [hdispatched, htasks, hrest, hpopped]
    exact hh.handed
  queued := by
    rw [hpopped, hqueue, hpushed]
    exact hh.queued
  workers := hworkers.trans hh.workers

/-- While `processBatch` enqueues, the pool has not been stopped. -/
theorem Teardown.enqueueTask_ne_none (ht : s.Teardown) {w : PopWait} {event : Event}
    {rest : List Event} (hloop : s.loop = .enqueueing (event :: rest) w) :
    s.threadPool.enqueueTask event ≠ none := by
  intro hnone
  have hdone : s.loopDone := by
    rcases ht.stop.mp (ThreadPool.enqueueTask_eq_none.mp hnone) with hd | hgone
    · exact ht.loopDone (Or.inr hd)
    · exact ht.loopDone (Or.inl (ht.members_of_gone hgone))
  rcases hdone with h | h <;> rw [hloop] at h <;> cases h

theorem Handed.step (hh : s.Handed workers) (h : s.step cleanupIntervalMs l = some s') :
    s'.Handed workers := by
  have ht' := hh.teardown.step h
  cases step_cases h with
  | tick => exact hh.frame ht' rfl rfl rfl rfl rfl rfl rfl
  | @push event =>
    refine ⟨ht', ?_, ?_, hh.workers⟩
    · change (s.dispatched ++ s.threadPool.tasks ++ s.loop.arrived.rest).Perm s.popped
      rw [LoopPhase.rest_arrived]
      exact hh.handed
    · change (s.popped ++ (s.eventQueue.queue ++ [event])).Perm (s.pushed ++ [event])
      rw [← List.append_assoc]
      exact hh.queued.append_right _
  | startMainEventLoop hloop hd =>
    exact hh.frame ht' rfl rfl (by rw [hloop]; rfl) rfl rfl rfl rfl
  | checkTrue hloop => exact hh.frame ht' rfl rfl (by rw [hloop]; rfl) rfl rfl rfl rfl
  | checkFalse hloop hrunning => exact hh.frame ht' rfl rfl (by rw [hloop]; rfl) rfl rfl rfl rfl
  | @popTrue w events eventQueue hloop hpop =>
    obtain ⟨hqueue, -⟩ := queue_tryPopBatch hpop
    refine ⟨ht', ?_, ?_, hh.workers⟩
    · change (s.dispatched ++ s.threadPool.tasks ++ ([] ++ events)).Perm (s.popped ++ events)
      have hnone : s.loop.rest = [] := by rw [hloop]; rfl
      have hhanded := hh.handed
      rw [hnone, List.append_nil] at hhanded
      exact hhanded.append_right events
    · change (s.popped ++ events ++ eventQueue.queue).Perm s.pushed
      rw [List.append_assoc, ← hqueue]
      exact hh.queued
  | @popFalse w events eventQueue hloop hpop =>
    obtain ⟨hqueue, hnil⟩ := queue_tryPopBatch hpop
    rw [hnil rfl] at hqueue
    exact hh.frame ht' rfl rfl (by rw [hloop]; rfl) rfl hqueue.symm rfl rfl
  | popThrows hloop hpop =>
    have hqueue := queue_tryPopBatch_throws hpop
    exact hh.frame ht' rfl rfl (by rw [hloop]; rfl) rfl (congrArg _ hqueue) rfl rfl
  | @enqueue w event rest threadPool hloop henqueue =>
    obtain ⟨-, rfl⟩ := ThreadPool.of_enqueueTask henqueue
    refine ⟨ht', ?_, hh.queued, hh.workers⟩
    have hhanded := hh.handed
    rw [hloop] at hhanded
    change (s.dispatched ++ (s.threadPool.tasks ++ [event]) ++ rest).Perm s.popped
    simpa only [LoopPhase.rest, List.append_assoc, List.singleton_append] using hhanded
  | drop hloop henqueue => exact absurd henqueue (hh.teardown.enqueueTask_ne_none hloop)
  | endBatch hloop => exact hh.frame ht' rfl rfl (by rw [hloop]; rfl) rfl rfl rfl rfl
  | endCleanup hloop => exact hh.frame ht' rfl rfl (by rw [hloop]; rfl) rfl rfl rfl rfl
  | @take worker event rest hworker htasks =>
    refine ⟨ht', ?_, hh.queued, List.length_set.trans hh.workers⟩
    have hhanded := hh.handed
    rw [htasks] at hhanded
    change (s.dispatched ++ [event] ++ rest ++ s.loop.rest).Perm s.popped
    simpa only [List.append_assoc, List.singleton_append, List.cons_append, List.nil_append]
      using hhanded
  | exit hworker htasks hstop => exact hh.frame ht' rfl rfl rfl rfl rfl rfl List.length_set
  | finish hworker => exact hh.frame ht' rfl rfl rfl rfl rfl rfl List.length_set
  | _ => exact hh.frame ht' rfl rfl rfl rfl rfl rfl rfl

theorem Handed.of_run {steps : List (LoginServerObject × ObjectLabel)}
    (h : (loginServerMachine cleanupIntervalMs workers).Run steps s) : s.Handed workers := by
  refine h.invariant ⟨?_, List.Perm.refl _, List.Perm.refl _, List.length_replicate⟩
    fun _ _ _ hi hs => hi.step hs
  exact Teardown.of_run Machine.Run.init

/-- When `threadPool_` is gone nothing is under way. -/
theorem Handed.dispatched_of_gone (hh : s.Handed workers) (hworkers : 0 < workers)
    (hgone : .threadPool_ ∉ s.alive) : s.dispatched.Perm s.popped := by
  have ht := hh.teardown
  have hrest : s.loop.rest = [] := by
    rcases ht.loopDone (Or.inl (ht.members_of_gone hgone)) with h | h <;> rw [h] <;> rfl
  have htasks : s.threadPool.tasks = [] := by
    have hlength := hh.workers
    cases hw : s.workers with
    | nil =>
      rw [hw, List.length_nil] at hlength
      omega
    | cons p rest =>
      refine (ht.returned ?_).2
      rw [← ht.joined hgone p (hw ▸ List.mem_cons_self), hw]
      exact List.mem_cons_self
  have hhanded := hh.handed
  rwa [htasks, hrest, List.append_nil, List.append_nil] at hhanded

/-- A handler that throws leaves what one that returns leaves: its worker at the head of
the loop, and everything else as it was. -/
theorem finish_step {worker : Nat} {outcome : Outcome}
    (h : s.step cleanupIntervalMs (.finish worker outcome) = some s') :
    s' = s.setWorker worker .waiting := by
  cases step_cases h with
  | finish hworker => cases outcome <;> rfl

/-- A worker returns only from a stopped pool with nothing queued. -/
theorem Handed.returned (hh : s.Handed workers) {p : WorkerPhase} (hp : p ∈ s.workers)
    (hreturned : p = .returned) : s.threadPool.stop = true ∧ s.threadPool.tasks = [] :=
  hh.teardown.returned (hreturned ▸ hp)

/-- A worker at the head of its loop takes the next task if there is one. -/
theorem take_enabled {worker : Nat} {event : Event} {rest : List Event}
    (hworker : s.workers[worker]? = some .waiting) (htasks : s.threadPool.tasks = event :: rest) :
    ∃ s', s.step cleanupIntervalMs (.take worker) = some s' ∧
      s'.dispatched = s.dispatched ++ [event] := by
  have htake : s.step cleanupIntervalMs (.take worker) =
      some { s.setWorker worker (.running event) with
        threadPool := { s.threadPool with tasks := rest }
        dispatched := s.dispatched ++ [event] } := by
    simp only [LoginServerObject.step, hworker, ThreadPool.next, htasks]
  exact ⟨_, htake, rfl⟩

/-- What becomes of the events that `tryPopBatch` has returned. -/
structure ExactlyOnce (cleanupIntervalMs : Int) (workers : Nat) (s : LoginServerObject) :
    Prop where
  /-- Each is dispatched, queued in the pool or still to be enqueued. -/
  inPlace : (s.dispatched ++ s.threadPool.tasks ++ s.loop.rest).Perm s.popped
  onlyPushed : s.dispatched.Subperm s.pushed
  /-- The destructor of `threadPool_` has returned. -/
  joined : .threadPool_ ∉ s.alive → s.dispatched.Perm s.popped
  /-- However a handler ends, its worker goes on and nothing else changes. -/
  finish : ∀ worker outcome s', s.step cleanupIntervalMs (.finish worker outcome) = some s' →
    s' = s.setWorker worker .waiting
  workers : s.workers.length = workers
  returned : .returned ∈ s.workers → s.threadPool.stop = true ∧ s.threadPool.tasks = []
  next : ∀ worker event rest, s.workers[worker]? = some .waiting →
    s.threadPool.tasks = event :: rest →
    ∃ s', s.step cleanupIntervalMs (.take worker) = some s' ∧
      s'.dispatched = s.dispatched ++ [event]

theorem Handed.onlyPushed (hh : s.Handed workers) : s.dispatched.Subperm s.pushed := by
  have hpopped : s.dispatched.Subperm s.popped :=
    ((List.sublist_append_left _ _).trans (List.sublist_append_left _ _)).subperm.trans
      hh.handed.subperm
  exact hpopped.trans ((List.sublist_append_left _ _).subperm.trans hh.queued.subperm)

end LoginServerObject

/-- Whatever the workers, the loop and the producers do, and whatever the handlers throw,
an event that `tryPopBatch` has returned is dispatched exactly once by the time that the
destructor of `threadPool_` has returned, and no other one is. -/
theorem dispatched_exactly_once {cleanupIntervalMs : Int} {workers : Nat} (hworkers : 0 < workers)
    {steps : List (LoginServerObject × ObjectLabel)} {s : LoginServerObject}
    (hrun : (loginServerMachine cleanupIntervalMs workers).Run steps s) :
    s.ExactlyOnce cleanupIntervalMs workers := by
  have hh := LoginServerObject.Handed.of_run hrun
  exact {
    inPlace := hh.handed
    onlyPushed := hh.onlyPushed
    joined := hh.dispatched_of_gone hworkers
    finish := fun _ _ _ => LoginServerObject.finish_step
    workers := hh.workers
    returned := hh.teardown.returned
    next := fun _ _ _ => LoginServerObject.take_enabled }

/-- One worker and three events, with a handler that throws an `int` and one that throws a
`std::exception`; the destruction starts with two of them still queued. -/
theorem dispatched_exactly_once_throwing :
    ∃ s : LoginServerObject, s.alive = [] ∧ s.dispatched.length = 3 ∧ s.ExactlyOnce 1000 1 := by
  obtain ⟨steps, s, hrun, hP⟩ := Machine.exists_run (loginServerMachine 1000 1)
    (List.replicate 3 (.push ⟨.PING_CLIENT, 0, .clientData {}, none, none⟩) ++
      [.startMainEventLoop, .check, .tryPopBatch, .enqueueTask, .take 0, .enqueueTask,
        .enqueueTask, .finish 0 .throwsOther, .endIteration, .beginDestruction, .check,
        .joinLoop] ++
      List.replicate 11 .destroyMember ++ [.take 0, .finish 0 .throwsStd, .take 0,
        .finish 0 .returns, .take 0, .joinWorkers, .destroyMember, .destroyMember])
    (fun r => r.2.alive.isEmpty && r.2.dispatched.length == 3) (by decide +kernel)
  rw [Bool.and_eq_true, List.isEmpty_iff, beq_iff_eq] at hP
  exact ⟨s, hP.1, hP.2, dispatched_exactly_once (by decide) hrun⟩

end LoginServer
