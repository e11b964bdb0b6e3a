import LoginServer.Machines.Monitor

/-!
# The thread pool

`ThreadPool`, over any type of tasks: `enqueueTask`, the section in which a worker takes
its next task, and the destructor, which sets `stop` under the mutex and notifies after it.
Its workers and callers run a monitor; unlike `EventQueue::stop`, the destructor never
leaves a worker asleep (`ThreadPool.destructor_wakes_workers`).
-/

namespace LoginServer

open Machines

structure ThreadPool (T : Type) where
  tasks : List T := []
  stop : Bool := false

namespace ThreadPool

variable {T : Type} (pool : ThreadPool T)

/-- The predicate of a worker's wait. -/
def ready : Bool := pool.stop || !pool.tasks.isEmpty

/-- `none` is the `std::runtime_error` "enqueue on stopped ThreadPool". -/
def enqueueTask (task : T) : Option (ThreadPool T) :=
  if pool.stop then none else some { pool with tasks := pool.tasks ++ [task] }

inductive Next (T : Type) where
  /-- The worker's loop returns. -/
  | exit
  | run (task : T)

/-- What a worker takes once its predicate holds; `none` while it does not. -/
def next : Option (Next T × ThreadPool T) :=
  match pool.tasks with
  | [] => if pool.stop then some (.exit, pool) else none
  | task :: rest => some (.run task, { pool with tasks := rest })

/-- The destructor up to its `notify_all`. -/
def beginDestruction : ThreadPool T := { pool with stop := true }

end ThreadPool

inductive PoolUpdate (T : Type) where
  | enqueueTask (task : T)
  | destructor
deriving DecidableEq

/-- A worker's wait is the only call. -/
def threadPoolMonitor (T : Type) : Monitor (ThreadPool T) Unit (PoolUpdate T) where
  ready := ThreadPool.ready
  take _ pool := match pool.next with
    | some (_, pool) => pool
    | none => pool
  update
    | .enqueueTask task, pool => (pool.enqueueTask task).getD pool
    | .destructor, pool => pool.beginDestruction
  locks _ := true
  notifiesLocked _ := false
  notifiesAll
    | .enqueueTask _ => false
    | .destructor => true
  timed _ := false

namespace ThreadPool

variable {T : Type}

theorem stop_take (c : Unit) (pool : ThreadPool T) :
    ((threadPoolMonitor T).take c pool).stop = pool.stop := by
  change (match pool.next with
    | some (_, pool) => pool
    | none => pool).stop = pool.stop
  unfold next
  cases pool.tasks with
  | nil => cases hstop : pool.stop <;> simp [hstop]
  | cons task rest => rfl

theorem of_enqueueTask {pool pool' : ThreadPool T} {task : T}
    (h : pool.enqueueTask task = some pool') :
    pool.stop = false ∧ pool' = { pool with tasks := pool.tasks ++ [task] } := by
  unfold enqueueTask at h
  split_ifs at h with hstop
  cases h
  exact ⟨eq_false_of_ne_true hstop, rfl⟩

theorem enqueueTask_eq_none {pool : ThreadPool T} {task : T} :
    pool.enqueueTask task = none ↔ pool.stop = true := by
  unfold enqueueTask
  split_ifs with hstop <;> simp [hstop]

theorem stop_enqueueTask (pool : ThreadPool T) (task : T) :
    ((pool.enqueueTask task).getD pool).stop = pool.stop := by
  unfold enqueueTask
  split_ifs <;> rfl

theorem closing_stop :
    Monitor.Closing (threadPoolMonitor T) (fun pool => pool.stop = true) (· = .destructor) where
  ready pool hpool := by
    change (pool.stop || !pool.tasks.isEmpty) = true
    rw [hpool, Bool.true_or]
  take c pool hpool := stop_take c pool ▸ hpool
  update u pool hpool := by
    cases u with
    | enqueueTask task => exact Or.inl (stop_enqueueTask pool task ▸ hpool)
    | destructor => exact Or.inr rfl
  notifiesAll u hu := by
    subst hu
    rfl

theorem lasting_stop :
    Monitor.Lasting (threadPoolMonitor T) (fun pool => pool.stop = true) (· = .destructor) where
  closing u pool hu := by
    subst hu
    rfl
  take c pool hpool := (stop_take c pool).trans hpool
  update u pool hpool := by
    cases u with
    | enqueueTask task => exact (stop_enqueueTask pool task).trans hpool
    | destructor => rfl

/-- Once the destructor has notified, no worker sleeps and none will. -/
theorem destructor_wakes_workers {n : Nat}
    {steps : List (MonitorState (ThreadPool T) Unit (PoolUpdate T) ×
      MonitorLabel Unit (PoolUpdate T))}
    {st : MonitorState (ThreadPool T) Unit (PoolUpdate T)}
    (hrun : ((threadPoolMonitor T).machine {} n).Run steps st) (hstop : st.data.stop = true)
    (hnotified : ∀ p ∈ st.threads, p ≠ .updated .destructor) : Monitor.Awake st := by
  refine Monitor.awake_of_locked closing_stop lasting_stop (fun _ _ _ _ => rfl) hrun hstop ?_
  rintro ⟨u, rfl, hmem⟩
  exact hnotified _ hmem rfl

end ThreadPool

end LoginServer
