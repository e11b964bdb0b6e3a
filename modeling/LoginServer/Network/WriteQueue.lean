import Mathlib.Logic.Function.Basic
import Mathlib.Logic.Relation
import LoginServer.Utils.Bytes

/-!
# The write queues of `NetworkManager`

The state that the writes share: the live socket objects with their addresses, the queue
objects, the map `writeQueues_` from addresses to queues, the calls of `enqueueWrite`
that have looked up their queue and not yet posted, and the `async_write`s under way. A
label is one action of some thread: a locked section, a task of a strand, a completion.

A socket object and a queue object are named by numbers that are never used again;
addresses are. An owner pointer is expired when its socket is destroyed, which takes
that nothing refers to the socket. `posted` and `handed` record, for each socket, the
payloads whose tasks were posted and those given to `async_write`; no function reads them.
-/

namespace LoginServer

abbrev SocketId := Nat

abbrev QueueId := Nat

/-- What a call of `enqueueWrite` is to write. The socket is noted for the record. -/
structure Payload where
  target : SocketId
  bytes : Bytes
deriving DecidableEq

inductive StrandTask where
  /-- The lambda that `enqueueWrite` posts. -/
  | enqueued (socket : SocketId) (data : Payload)
  /-- The completion handler of an `async_write`. -/
  | completed (socket : SocketId) (error : Bool)
deriving DecidableEq

namespace StrandTask

def socket : StrandTask → SocketId
  | .enqueued socket _ => socket
  | .completed socket _ => socket

def isCompletion : StrandTask → Bool
  | .enqueued _ _ => false
  | .completed _ _ => true

def payload? : StrandTask → Option Payload
  | .enqueued _ data => some data
  | .completed _ _ => none

end StrandTask

structure SocketWriteQueue where
  owner : SocketId
  /-- The tasks of the strand that have not run, in posting order. -/
  strand : List StrandTask := []
  pending : List Payload := []
  writing : Bool := false
deriving DecidableEq

structure SocketObject where
  address : Nat
  isOpen : Bool
deriving DecidableEq

/-- A call of `enqueueWrite` that has looked up its queue. -/
structure EnqueueCall where
  socket : SocketId
  queue : QueueId
  data : Payload
deriving DecidableEq

structure AsyncWrite where
  socket : SocketId
  queue : QueueId
deriving DecidableEq

structure Writes where
  sockets : SocketId → Option SocketObject := fun _ => none
  nextSocket : SocketId := 0
  /-- The read loop, an event or a caller refers to the socket. -/
  held : SocketId → Bool := fun _ => false
  writeQueues : Nat → Option QueueId := fun _ => none
  queues : QueueId → Option SocketWriteQueue := fun _ => none
  nextQueue : QueueId := 0
  calls : List EnqueueCall := []
  inFlight : List AsyncWrite := []
  posted : SocketId → List Payload := fun _ => []
  handed : SocketId → List Payload := fun _ => []

namespace Writes

variable (st : Writes)

def isOpen (s : SocketId) : Bool := (st.sockets s).any (·.isOpen)

def setQueue (q : QueueId) (queue : SocketWriteQueue) : Writes :=
  { st with queues := Function.update st.queues q (some queue) }

/-- `owner.lock()` gives a socket. -/
def ownerAlive (q : QueueId) : Bool :=
  (st.queues q).any fun queue => (st.sockets queue.owner).isSome

/-- `owner && owner.get() == key`. -/
def ownedAt (q : QueueId) (key : Nat) : Bool :=
  (st.queues q).any fun queue => (st.sockets queue.owner).any fun o => o.address = key

def newQueue (key : Nat) (s : SocketId) : QueueId × Writes :=
  (st.nextQueue,
    { st with
      queues := Function.update st.queues st.nextQueue (some { owner := s })
      writeQueues := Function.update st.writeQueues key (some st.nextQueue)
      nextQueue := st.nextQueue + 1 })

def getOrCreateWriteQueue (key : Nat) (s : SocketId) : QueueId × Writes :=
  match st.writeQueues key with
  | some q => if st.ownedAt q key then (q, st) else st.newQueue key s
  | none => st.newQueue key s

def removeWriteQueue (key : Nat) (expectedOwner : Option SocketId) : Writes :=
  match st.writeQueues key with
  | none => st
  | some q =>
    if expectedOwner.isSome && st.ownerAlive q then st
    else { st with writeQueues := Function.update st.writeQueues key none }

def gcWriteQueues : Writes :=
  { st with writeQueues := fun key => (st.writeQueues key).filter st.ownerAlive }

def close (s : SocketId) : Writes :=
  { st with
    sockets := Function.update st.sockets s
      ((st.sockets s).map fun o => { o with isOpen := false }) }

def asyncWrite (s : SocketId) (q : QueueId) (data : Payload) : Writes :=
  { st with
    inFlight := st.inFlight ++ [⟨s, q⟩]
    handed := Function.update st.handed s (st.handed s ++ [data]) }

/-- `doNextWrite(socket, queue)`, for the queue `q` that holds `queue`. -/
def doNextWrite (s : SocketId) (q : QueueId) (queue : SocketWriteQueue) : Writes :=
  match queue.pending with
  | [] => st.setQueue q { queue with writing := false }
  | data :: rest =>
    if !st.isOpen s then st.setQueue q { queue with writing := false, pending := [] }
    else (st.setQueue q { queue with writing := true, pending := rest }).asyncWrite s q data

/-- The body of a task, run on the strand of `q`; `queue` is the queue without it. -/
def runTask (q : QueueId) (queue : SocketWriteQueue) : StrandTask → Writes
  | .enqueued s data =>
    let queue := { queue with pending := queue.pending ++ [data] }
    if !queue.writing then st.doNextWrite s q queue else st.setQueue q queue
  | .completed s error =>
    if error then (st.setQueue q { queue with writing := false, pending := [] }).close s
    else st.doNextWrite s q queue

/-- A task or a call still refers to the socket. -/
def referenced (s : SocketId) : Bool :=
  st.held s || (st.calls.any fun call => call.socket = s) ||
  (st.inFlight.any fun w => w.socket = s) ||
  (List.range st.nextQueue).any fun q =>
    (st.queues q).any fun queue => queue.strand.any fun task => task.socket = s

def addressFree (address : Nat) : Bool :=
  (List.range st.nextSocket).all fun s => (st.sockets s).all fun o => o.address ≠ address

end Writes

inductive WriteLabel where
  /-- A connection is accepted on a socket object at a free address. -/
  | accept (address : Nat)
  /-- The last reference from outside the write path goes. -/
  | release (s : SocketId)
  | destroy (s : SocketId)
  /-- Someone closes the socket. -/
  | close (s : SocketId)
  /-- `reapSocket` up to its `close`, which is a label of its own. -/
  | removeWriteQueue (s : SocketId)
  | gcWriteQueues
  /-- `enqueueWrite` up to its `post`. -/
  | enqueueWrite (s : SocketId) (bytes : Bytes)
  /-- The call at a place of the list posts its task. -/
  | post (i : Nat)
  | runTask (q : QueueId)
  /-- The `async_write` at a place of the list completes. -/
  | complete (i : Nat) (error : Bool)
deriving DecidableEq

namespace Writes

def step (st : Writes) : WriteLabel → Option Writes
  | .accept address =>
    if st.addressFree address then
      some { st with
        sockets := Function.update st.sockets st.nextSocket (some ⟨address, true⟩)
        held := Function.update st.held st.nextSocket true
        nextSocket := st.nextSocket + 1 }
    else none
  | .release s => some { st with held := Function.update st.held s false }
  | .destroy s =>
    if st.referenced s then none
    else some { st with sockets := Function.update st.sockets s none }
  | .close s => some (st.close s)
  | .removeWriteQueue s =>
    match st.held s, st.sockets s with
    | true, some o => some (st.removeWriteQueue o.address (some s))
    | _, _ => none
  | .gcWriteQueues => some st.gcWriteQueues
  | .enqueueWrite s bytes =>
    match st.held s, st.sockets s with
    | true, some o =>
      let (q, st) := st.getOrCreateWriteQueue o.address s
      some { st with calls := st.calls ++ [⟨s, q, ⟨s, bytes⟩⟩] }
    | _, _ => none
  | .post i => do
    let call ← st.calls[i]?
    let queue ← st.queues call.queue
    some { st.setQueue call.queue
        { queue with strand := queue.strand ++ [.enqueued call.socket call.data] } with
      calls := st.calls.eraseIdx i
      posted := Function.update st.posted call.socket (st.posted call.socket ++ [call.data]) }
  | .runTask q => do
    let queue ← st.queues q
    match queue.strand with
    | [] => none
    | task :: rest => some (st.runTask q { queue with strand := rest } task)
  | .complete i error => do
    let w ← st.inFlight[i]?
    let queue ← st.queues w.queue
    some { st.setQueue w.queue
        { queue with strand := queue.strand ++ [.completed w.socket error] } with
      inFlight := st.inFlight.eraseIdx i }

/-- The states of the runs from the empty one. -/
inductive Reach : Writes → Prop where
  | init : Reach {}
  | step {st st' : Writes} {l : WriteLabel} (hreach : Reach st) (hstep : st.step l = some st') :
    Reach st'

/-- What a step can do, with the guards under which it does it. -/
inductive Step (st : Writes) : WriteLabel → Writes → Prop where
  | accept {address : Nat} (hfree : st.addressFree address = true) :
    Step st (.accept address) { st with
      sockets := Function.update st.sockets st.nextSocket (some ⟨address, true⟩)
      held := Function.update st.held st.nextSocket true
      nextSocket := st.nextSocket + 1 }
  | release (s : SocketId) :
    Step st (.release s) { st with held := Function.update st.held s false }
  | destroy {s : SocketId} (hs : st.referenced s = false) :
    Step st (.destroy s) { st with sockets := Function.update st.sockets s none }
  | close (s : SocketId) : Step st (.close s) (st.close s)
  | removeWriteQueue {s : SocketId} {o : SocketObject} (hheld : st.held s = true)
    (ho : st.sockets s = some o) :
    Step st (.removeWriteQueue s) (st.removeWriteQueue o.address (some s))
  | gcWriteQueues : Step st .gcWriteQueues st.gcWriteQueues
  | enqueueWrite {s : SocketId} {bytes : Bytes} {o : SocketObject} (hheld : st.held s = true)
    (ho : st.sockets s = some o) :
    Step st (.enqueueWrite s bytes) { (st.getOrCreateWriteQueue o.address s).2 with
      calls := (st.getOrCreateWriteQueue o.address s).2.calls ++
        [⟨s, (st.getOrCreateWriteQueue o.address s).1, ⟨s, bytes⟩⟩] }
  | post {i : Nat} {call : EnqueueCall} {queue : SocketWriteQueue}
    (hcall : st.calls[i]? = some call) (hq : st.queues call.queue = some queue) :
    Step st (.post i) { st.setQueue call.queue
        { queue with strand := queue.strand ++ [.enqueued call.socket call.data] } with
      calls := st.calls.eraseIdx i
      posted := Function.update st.posted call.socket (st.posted call.socket ++ [call.data]) }
  | runTask {q : QueueId} {queue : SocketWriteQueue} {task : StrandTask} {rest : List StrandTask}
    (hq : st.queues q = some queue) (hstrand : queue.strand = task :: rest) :
    Step st (.runTask q) (st.runTask q { queue with strand := rest } task)
  | complete {i : Nat} {error : Bool} {w : AsyncWrite} {queue : SocketWriteQueue}
    (hw : st.inFlight[i]? = some w) (hq : st.queues w.queue = some queue) :
    Step st (.complete i error) { st.setQueue w.queue
        { queue with strand := queue.strand ++ [.completed w.socket error] } with
      inFlight := st.inFlight.eraseIdx i }

theorem step_cases {st st' : Writes} {l : WriteLabel} (h : st.step l = some st') :
    Step st l st' := by
  cases l with
  | accept address =>
    simp only [step, Option.ite_none_right_eq_some, Option.some.injEq] at h
    obtain ⟨hfree, rfl⟩ := h
    exact .accept hfree
  | release s =>
    cases h
    exact .release s
  | destroy s =>
    simp only [step, Option.ite_none_left_eq_some, Option.some.injEq, Bool.not_eq_true] at h
    obtain ⟨hs, rfl⟩ := h
    exact .destroy hs
  | close s =>
    cases h
    exact .close s
  | removeWriteQueue s =>
    simp only [step] at h
    split at h
    · rename_i hheld ho
      cases h
      exact .removeWriteQueue hheld ho
    · cases h
  | gcWriteQueues =>
    cases h
    exact .gcWriteQueues
  | enqueueWrite s bytes =>
    simp only [step] at h
    split at h
    · rename_i hheld ho
      cases h
      exact .enqueueWrite hheld ho
    · cases h
  | post i =>
    simp only [step, bind, Option.bind_eq_some_iff, Option.some.injEq] at h
    obtain ⟨call, hcall, queue, hq, rfl⟩ := h
    exact .post hcall hq
  | runTask q =>
    simp only [step, bind, Option.bind_eq_some_iff] at h
    obtain ⟨queue, hq, h⟩ := h
    split at h
    · cases h
    · rename_i hstrand
      cases h
      exact .runTask hq hstrand
  | complete i error =>
    simp only [step, bind, Option.bind_eq_some_iff, Option.some.injEq] at h
    obtain ⟨w, hw, queue, hq, rfl⟩ := h
    exact .complete hw hq

theorem held_of_not_referenced {st : Writes} {s : SocketId} (hs : st.referenced s = false) :
    st.held s = false := by
  simp only [referenced, Bool.or_eq_false_iff] at hs
  exact hs.1.1.1

/-! ## What a step leaves as it is -/

/-- The address of a live socket object. -/
def addressOf (st : Writes) (s : SocketId) : Option Nat := (st.sockets s).map (·.address)

/-- The same socket objects, at the same addresses, referred to from outside as before. -/
structure SameObjects (st st' : Writes) : Prop where
  addressOf : st'.addressOf = st.addressOf
  held : st'.held = st.held
  nextSocket : st'.nextSocket = st.nextSocket

variable {st : Writes}

theorem SameObjects.refl (st : Writes) : SameObjects st st := ⟨rfl, rfl, rfl⟩

theorem SameObjects.trans {st₁ st₂ st₃ : Writes} (h : SameObjects st₁ st₂)
    (h' : SameObjects st₂ st₃) : SameObjects st₁ st₃ :=
  ⟨h'.addressOf.trans h.addressOf, h'.held.trans h.held, h'.nextSocket.trans h.nextSocket⟩

theorem sameObjects_close (st : Writes) (s : SocketId) : SameObjects st (st.close s) := by
  refine ⟨?_, rfl, rfl⟩
  funext s'
  rcases eq_or_ne s' s with rfl | hne
  · cases hs : st.sockets s' <;> simp [addressOf, close, hs]
  · simp [addressOf, close, hne]

theorem sameObjects_doNextWrite (s : SocketId) (q : QueueId) (queue : SocketWriteQueue) :
    SameObjects st (st.doNextWrite s q queue) := by
  unfold doNextWrite
  split
  · exact ⟨rfl, rfl, rfl⟩
  · split <;> exact ⟨rfl, rfl, rfl⟩

theorem sameObjects_runTask (q : QueueId) (queue : SocketWriteQueue) (task : StrandTask) :
    SameObjects st (st.runTask q queue task) := by
  cases task with
  | enqueued s data =>
    simp only [runTask]
    split
    · exact sameObjects_doNextWrite s q _
    · exact ⟨rfl, rfl, rfl⟩
  | completed s error =>
    simp only [runTask]
    split
    · have hset : SameObjects st
          (st.setQueue q { queue with writing := false, pending := [] }) := ⟨rfl, rfl, rfl⟩
      exact hset.trans (sameObjects_close _ s)
    · exact sameObjects_doNextWrite s q queue

theorem sameObjects_getOrCreateWriteQueue (key : Nat) (s : SocketId) :
    SameObjects st (st.getOrCreateWriteQueue key s).2 := by
  unfold getOrCreateWriteQueue
  split
  · split <;> exact ⟨rfl, rfl, rfl⟩
  · exact ⟨rfl, rfl, rfl⟩

theorem sameObjects_removeWriteQueue (key : Nat) (expectedOwner : Option SocketId) :
    SameObjects st (st.removeWriteQueue key expectedOwner) := by
  unfold removeWriteQueue
  split
  · exact ⟨rfl, rfl, rfl⟩
  · split <;> exact ⟨rfl, rfl, rfl⟩

end Writes

/-- The steps that make, let go of or destroy a socket object. -/
def WriteLabel.onObjects : WriteLabel → Bool
  | .accept _ => true
  | .release _ => true
  | .destroy _ => true
  | _ => false

namespace Writes

variable {st st' : Writes} {l : WriteLabel}

theorem sameObjects_of_step (hl : l.onObjects = false) (h : st.step l = some st') :
    SameObjects st st' := by
  cases step_cases h with
  | accept => cases hl
  | release => cases hl
  | destroy => cases hl
  | close s => exact sameObjects_close st s
  | removeWriteQueue => exact sameObjects_removeWriteQueue _ _
  | @enqueueWrite s _ o =>
    have hq : SameObjects st (st.getOrCreateWriteQueue o.address s).2 :=
      sameObjects_getOrCreateWriteQueue o.address s
    exact ⟨hq.addressOf, hq.held, hq.nextSocket⟩
  | runTask => exact sameObjects_runTask _ _ _
  | gcWriteQueues | post | complete => exact ⟨rfl, rfl, rfl⟩

/-- `st'` comes after `st` in a run. -/
def Later (st st' : Writes) : Prop :=
  Relation.ReflTransGen (fun a b => ∃ l, a.step l = some b) st st'

theorem later_of_step (h : st.step l = some st') : Later st st' := .single ⟨l, h⟩

/-- `st'` comes after `st`, and no task of a strand has run in between. -/
def Quiet (st st' : Writes) : Prop :=
  Relation.ReflTransGen (fun a b => ∃ l, (∀ q, l ≠ .runTask q) ∧ a.step l = some b) st st'

theorem Quiet.refl (st : Writes) : Quiet st st := Relation.ReflTransGen.refl

theorem quiet_of_step (hl : ∀ q, l ≠ .runTask q) (h : st.step l = some st') : Quiet st st' :=
  .single ⟨l, hl, h⟩

theorem Quiet.later (h : Quiet st st') : Later st st' := by
  refine Relation.ReflTransGen.mono ?_ _ _ h
  rintro a b ⟨l, -, hstep⟩
  exact ⟨l, hstep⟩

theorem Reach.later (h : Reach st) (hlater : Later st st') : Reach st' := by
  induction hlater with
  | refl => exact h
  | tail _ hstep ih =>
    obtain ⟨l, hstep⟩ := hstep
    exact ih.step hstep

end Writes

end LoginServer
