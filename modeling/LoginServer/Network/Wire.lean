import LoginServer.Network.Oversize

/-!
# The bytes on the wire

Under the write queues: an `async_write` transfers its payload piece by piece, and it
completes without an error when nothing of it is left. What a socket has sent is then the
payloads handed over, up to what the write under way still has to transfer; a write that
failed sends nothing more, for its socket is closed before another write starts (`Failed`).
-/

namespace LoginServer

def bytesOf (payloads : List Payload) : Bytes := (payloads.map (·.bytes)).flatten

@[simp] theorem bytesOf_append (l l' : List Payload) :
    bytesOf (l ++ l') = bytesOf l ++ bytesOf l' := by
  simp [bytesOf]

@[simp] theorem bytesOf_singleton (data : Payload) : bytesOf [data] = data.bytes := by
  simp [bytesOf]

theorem bytesOf_mono {l l' : List Payload} (h : l <+: l') : bytesOf l <+: bytesOf l' := by
  obtain ⟨rest, rfl⟩ := h
  exact ⟨bytesOf rest, (bytesOf_append l rest).symm⟩

structure Wire where
  writes : Writes := {}
  /-- For each `async_write` under way, what it has still to transfer. -/
  left : List Bytes := []
  sent : SocketId → Bytes := fun _ => []

inductive WireLabel where
  | write (l : WriteLabel)
  /-- The `async_write` at a place of the list transfers up to `n` bytes. -/
  | transfer (i n : Nat)
deriving DecidableEq

namespace Writes

/-- The payloads that a step from `st` to `st'` gives to `async_write`. -/
def started (st st' : Writes) : List Payload :=
  (st'.inFlight.drop st.inFlight.length).flatMap fun w =>
    (st'.handed w.socket).drop (st.handed w.socket).length

end Writes

namespace Wire

def step (w : Wire) : WireLabel → Option Wire
  | .write (.complete i error) => do
    let bytes ← w.left[i]?
    let st ← w.writes.step (.complete i error)
    if error || bytes.isEmpty then some { w with writes := st, left := w.left.eraseIdx i }
    else none
  | .write l => do
    let st ← w.writes.step l
    some { w with writes := st, left := w.left ++ (w.writes.started st).map (·.bytes) }
  | .transfer i n => do
    let write ← w.writes.inFlight[i]?
    let bytes ← w.left[i]?
    some { w with
      left := w.left.set i (bytes.drop n)
      sent := Function.update w.sent write.socket (w.sent write.socket ++ bytes.take n) }

/-- The states of the runs in which only payloads with `P` are to be written. -/
inductive Reach (P : Bytes → Prop) : Wire → Prop where
  | init : Reach P {}
  | step {w w' : Wire} {l : WireLabel} (hreach : Reach P w)
    (hpayload : ∀ s bytes, l = .write (.enqueueWrite s bytes) → P bytes)
    (hstep : w.step l = some w') : Reach P w'

end Wire

/-! ## What a step does to the writes under way -/

namespace Writes

variable {st st' : Writes} {l : WriteLabel}

/-- The handler of a failed write is to run. -/
def FailureDue (st : Writes) (s : SocketId) : Prop :=
  ∃ q queue, st.queues q = some queue ∧ .completed s true ∈ queue.strand

/-- No more will be written on the socket. -/
def Failed (st : Writes) (s : SocketId) : Prop := st.isOpen s = false ∨ st.FailureDue s

/-- A step leaves the writes under way as they are, or it starts one on an open socket that
has none and whose last write did not fail. -/
def StartsAtMostOne (st st' : Writes) : Prop :=
  (st'.inFlight = st.inFlight ∧ st'.handed = st.handed) ∨
  ∃ s q data, st'.inFlight = st.inFlight ++ [⟨s, q⟩] ∧
    st'.handed = Function.update st.handed s (st.handed s ++ [data]) ∧
    (∀ write ∈ st.inFlight, write.socket ≠ s) ∧ ¬ st.Failed s

theorem Inv.not_failureDue (h : Inv st) {q : QueueId} {queue : SocketWriteQueue}
    (hq : st.queues q = some queue) (hnone : .completed queue.owner true ∉ queue.strand) :
    ¬ st.FailureDue queue.owner := by
  rintro ⟨q', queue', hq', hmem⟩
  have howner' : queue.owner = queue'.owner := (h.queue q' queue' hq').own _ hmem
  have hsame : q' = q := h.owner_inj q' q queue.owner
    (owner_eq_some.mpr ⟨queue', hq', howner'.symm⟩) (owner_eq_some.mpr ⟨queue, hq, rfl⟩)
  rw [hsame, hq] at hq'
  obtain rfl := Option.some.inj hq'
  exact hnone hmem

/-- Where no write of a queue object is under way, none of its socket is. -/
theorem Inv.no_flight (h : Inv st) {q : QueueId} {queue : SocketWriteQueue}
    (hq : st.queues q = some queue) (hzero : st.flights q = 0) :
    ∀ write ∈ st.inFlight, write.socket ≠ queue.owner := by
  intro write hwrite heq
  have howner := h.writes write hwrite
  rw [heq] at howner
  have hsame := h.owner_inj write.queue q _ howner (owner_eq_some.mpr ⟨queue, hq, rfl⟩)
  rw [flights, List.countP_eq_zero] at hzero
  exact hzero write hwrite (decide_eq_true hsame)

theorem not_mem_of_due {queue : SocketWriteQueue} (h : queue.due = 0) (s : SocketId)
    (error : Bool) : .completed s error ∉ queue.strand := by
  rw [SocketWriteQueue.due, List.countP_eq_zero] at h
  intro hmem
  exact h _ hmem rfl

/-- `doNextWrite` on a queue object whose turn is over. -/
theorem Inv.startsAtMostOne_doNextWrite (h : Inv st) {q : QueueId}
    {queue₀ queue : SocketWriteQueue} (hq : st.queues q = some queue₀)
    (hnone : .completed queue₀.owner true ∉ queue₀.strand)
    (hdue : QueueDue queue (st.flights q) (st.isOpen queue₀.owner) (st.posted queue₀.owner)
      (st.handed queue₀.owner)) :
    StartsAtMostOne st (st.doNextWrite queue₀.owner q queue) := by
  unfold Writes.doNextWrite
  split
  next => exact Or.inl ⟨rfl, rfl⟩
  next data rest hpending =>
    split
    next => exact Or.inl ⟨rfl, rfl⟩
    next hopen =>
      refine Or.inr ⟨queue₀.owner, q, data, rfl, rfl, h.no_flight hq hdue.flights_eq, ?_⟩
      rintro (hclosed | hfailure)
      · rw [hclosed] at hopen
        exact hopen rfl
      · exact h.not_failureDue hq hnone hfailure

theorem Inv.startsAtMostOne_runTask (h : Inv st) {q : QueueId} {queue : SocketWriteQueue}
    {task : StrandTask} {rest : List StrandTask} (hq : st.queues q = some queue)
    (hstrand : queue.strand = task :: rest) :
    StartsAtMostOne st (st.runTask q { queue with strand := rest } task) := by
  have hok := h.queue q queue hq
  have hown : task.socket = queue.owner := hok.own task (by simp [hstrand])
  cases task with
  | enqueued s data =>
    obtain rfl : s = queue.owner := hown
    simp only [Writes.runTask]
    split
    next hidle =>
      rw [Bool.not_eq_true'] at hidle
      have hdue := hok.enqueued_idle hstrand hidle
      refine h.startsAtMostOne_doNextWrite hq ?_ hdue
      rw [hstrand, List.mem_cons, not_or]
      exact ⟨StrandTask.noConfusion, not_mem_of_due hdue.due_eq _ _⟩
    next => exact Or.inl ⟨rfl, rfl⟩
  | completed s error =>
    obtain rfl : s = queue.owner := hown
    have hdue := hok.completed hstrand
    simp only [Writes.runTask]
    split
    next => exact Or.inl ⟨rfl, rfl⟩
    next herror =>
      refine h.startsAtMostOne_doNextWrite hq ?_ hdue
      rw [hstrand, List.mem_cons, not_or]
      refine ⟨fun heq => ?_, not_mem_of_due hdue.due_eq _ _⟩
      injection heq with _ herror'
      exact herror herror'.symm

theorem getOrCreateWriteQueue_flights (key : Nat) (s : SocketId) :
    (st.getOrCreateWriteQueue key s).2.inFlight = st.inFlight ∧
      (st.getOrCreateWriteQueue key s).2.handed = st.handed := by
  unfold getOrCreateWriteQueue
  split
  · split <;> exact ⟨rfl, rfl⟩
  · exact ⟨rfl, rfl⟩

/-- Only a completion takes a write away. -/
theorem Inv.startsAtMostOne (h : Inv st) (hstep : st.step l = some st')
    (hl : ∀ i error, l ≠ .complete i error) : StartsAtMostOne st st' := by
  cases step_cases hstep with
  | complete => exact absurd rfl (hl _ _)
  | runTask hq hstrand => exact h.startsAtMostOne_runTask hq hstrand
  | enqueueWrite => exact Or.inl (getOrCreateWriteQueue_flights _ _)
  | removeWriteQueue =>
    refine Or.inl ?_
    unfold Writes.removeWriteQueue
    split
    · exact ⟨rfl, rfl⟩
    · split <;> exact ⟨rfl, rfl⟩
  | accept | release | destroy | close | gcWriteQueues | post => exact Or.inl ⟨rfl, rfl⟩

theorem started_of_same (hsame : st'.inFlight = st.inFlight) : st.started st' = [] := by
  rw [started, hsame, List.drop_length, List.flatMap_nil]

theorem started_of_one {s : SocketId} {q : QueueId} {data : Payload}
    (hin : st'.inFlight = st.inFlight ++ [⟨s, q⟩])
    (hhanded : st'.handed = Function.update st.handed s (st.handed s ++ [data])) :
    st.started st' = [data] := by
  rw [started, hin, List.drop_left, List.flatMap_singleton, hhanded, Function.update_self,
    List.drop_left]

/-! ## A failed write is the last -/

theorem queues_doNextWrite (s : SocketId) (q : QueueId) (queue : SocketWriteQueue) :
    ∃ queue', (st.doNextWrite s q queue).queues = Function.update st.queues q (some queue') ∧
      queue'.strand = queue.strand := by
  unfold doNextWrite
  split
  · exact ⟨_, rfl, rfl⟩
  · split <;> exact ⟨_, rfl, rfl⟩

/-- A task changes its queue object only, and takes no other task from the strand. -/
theorem queues_runTask (q : QueueId) (queue : SocketWriteQueue) (task : StrandTask) :
    ∃ queue', (st.runTask q queue task).queues = Function.update st.queues q (some queue') ∧
      queue'.strand = queue.strand := by
  cases task with
  | enqueued s data =>
    simp only [runTask]
    split
    · exact queues_doNextWrite s q _
    · exact ⟨_, rfl, rfl⟩
  | completed s error =>
    simp only [runTask]
    split
    · exact ⟨_, rfl, rfl⟩
    · exact queues_doNextWrite s q queue

/-- A task that does not run stays in its strand. -/
theorem Inv.mem_strand_of_step (h : Inv st) (hstep : st.step l = some st') {q : QueueId}
    {queue : SocketWriteQueue} {task : StrandTask} (hq : st.queues q = some queue)
    (hmem : task ∈ queue.strand) :
    (∃ queue', st'.queues q = some queue' ∧ task ∈ queue'.strand) ∨
      ∃ rest, queue.strand = task :: rest ∧
        st' = st.runTask q { queue with strand := rest } task := by
  have hkept : st'.queues q = some queue →
      (∃ queue', st'.queues q = some queue' ∧ task ∈ queue'.strand) := fun hq' =>
    ⟨queue, hq', hmem⟩
  cases step_cases hstep with
  | accept | release | destroy | close | gcWriteQueues => exact Or.inl (hkept hq)
  | removeWriteQueue =>
    refine Or.inl (hkept ?_)
    unfold Writes.removeWriteQueue
    split
    · exact hq
    · split <;> exact hq
  | @enqueueWrite s _ o =>
    refine Or.inl (hkept ?_)
    show (st.getOrCreateWriteQueue o.address s).2.queues q = some queue
    have hne : q ≠ st.nextQueue :=
      (h.owner_lt q _ (owner_eq_some.mpr ⟨queue, hq, rfl⟩)).1.ne
    have hnew : (st.newQueue o.address s).2.queues q = some queue := by
      simp only [Writes.newQueue, Function.update_of_ne hne]
      exact hq
    unfold Writes.getOrCreateWriteQueue
    split
    · split
      · exact hq
      · exact hnew
    · exact hnew
  | @post i call queue' hcall hq' =>
    refine Or.inl ?_
    rcases eq_or_ne q call.queue with rfl | hne
    · rw [hq] at hq'
      obtain rfl := Option.some.inj hq'
      exact ⟨_, Function.update_self _ _ _, List.mem_append_left _ hmem⟩
    · exact hkept ((Function.update_of_ne hne _ _).trans hq)
  | @complete i error write queue' hw hq' =>
    refine Or.inl ?_
    rcases eq_or_ne q write.queue with rfl | hne
    · rw [hq] at hq'
      obtain rfl := Option.some.inj hq'
      exact ⟨_, Function.update_self _ _ _, List.mem_append_left _ hmem⟩
    · exact hkept ((Function.update_of_ne hne _ _).trans hq)
  | @runTask q' queue' task' rest hq' hstrand =>
    rcases eq_or_ne q q' with rfl | hne
    · rw [hq] at hq'
      obtain rfl := Option.some.inj hq'
      rw [hstrand, List.mem_cons] at hmem
      rcases hmem with rfl | hmem
      · exact Or.inr ⟨rest, hstrand, rfl⟩
      · obtain ⟨queue', hqueues, hstrand'⟩ :=
          @queues_runTask st q { queue with strand := rest } task'
        refine Or.inl ⟨queue', ?_, hstrand' ▸ hmem⟩
        rw [hqueues, Function.update_self]
    · obtain ⟨queue₁, hqueues, -⟩ := @queues_runTask st q' { queue' with strand := rest } task'
      refine Or.inl (hkept ?_)
      rw [hqueues, Function.update_of_ne hne]
      exact hq

/-- The handler of a failed write closes the socket. -/
theorem Inv.failed_of_step (h : Inv st) (hstep : st.step l = some st') {s : SocketId}
    (hs : s < st.nextSocket) (hfailed : st.Failed s) : st'.Failed s := by
  rcases hfailed with hclosed | ⟨q, queue, hq, hmem⟩
  · exact Or.inl ((grows_of_step hstep).closed s hs hclosed).1
  · rcases h.mem_strand_of_step hstep hq hmem with ⟨queue', hq', hmem'⟩ | ⟨rest, -, rfl⟩
    · exact Or.inr ⟨q, queue', hq', hmem'⟩
    · refine Or.inl ?_
      simp only [Writes.runTask, if_true]
      exact isOpen_close s

end Writes

/-! ## What a socket has sent -/

namespace Wire

variable {w w' : Wire} {l : WireLabel} {s : SocketId}

/-- All that was handed over was sent, or the last write failed. -/
def Ended (w : Wire) (s : SocketId) : Prop :=
  w.sent s = bytesOf (w.writes.handed s) ∨
    w.sent s <+: bytesOf (w.writes.handed s) ∧ s < w.writes.nextSocket ∧ w.writes.Failed s

structure Inv (w : Wire) : Prop where
  writes : w.writes.Inv
  length : w.left.length = w.writes.inFlight.length
  /-- What was handed over was sent, or the write under way has still to transfer it. -/
  busy : ∀ (i : Nat) (write : AsyncWrite) (bytes : Bytes),
    w.writes.inFlight[i]? = some write → w.left[i]? = some bytes →
    w.sent write.socket ++ bytes = bytesOf (w.writes.handed write.socket)
  idle : ∀ s, (∀ write ∈ w.writes.inFlight, write.socket ≠ s) → w.Ended s

theorem inv_init : Wire.Inv {} where
  writes := Writes.inv_init
  length := rfl
  busy := by simp
  idle := fun _ _ => Or.inl rfl

/-- Two writes under way are on different sockets. -/
theorem Inv.socket_inj (h : w.Inv) {i j : Nat} {write write' : AsyncWrite}
    (hi : w.writes.inFlight[i]? = some write) (hj : w.writes.inFlight[j]? = some write')
    (hsocket : write.socket = write'.socket) : i = j := by
  by_contra hne
  have hcount := h.writes.countP_socket_le write.socket
  have hcountP := fun (a : AsyncWrite) (k : Nat) (hk : w.writes.inFlight[k]? = some a) =>
    Writes.countP_eraseIdx (fun a : AsyncWrite => decide (a.socket = write.socket)) hk
  rw [hcountP write i hi, decide_eq_true rfl, if_pos rfl] at hcount
  have hmem : write' ∈ w.writes.inFlight.eraseIdx i :=
    (List.mem_eraseIdx_iff_getElem?).mpr ⟨j, fun heq => hne heq.symm, hj⟩
  have hpos : 0 < (w.writes.inFlight.eraseIdx i).countP (fun a => a.socket = write.socket) :=
    List.countP_pos_iff.mpr ⟨write', hmem, decide_eq_true hsocket.symm⟩
  omega

theorem Inv.ended_of_step (h : w.Inv) {l : WriteLabel} {st : Writes} (left : List Bytes)
    (hstep : w.writes.step l = some st) (hhanded : st.handed s = w.writes.handed s)
    (hended : w.Ended s) : Ended ⟨st, left, w.sent⟩ s := by
  simp only [Ended, hhanded]
  rcases hended with hwhole | ⟨hbefore, hlt, hfailed⟩
  · exact Or.inl hwhole
  · exact Or.inr ⟨hbefore, Nat.lt_of_lt_of_le hlt (Writes.grows_of_step hstep).nextSocket,
      h.writes.failed_of_step hstep hlt hfailed⟩

theorem Inv.start (h : w.Inv) {l : WriteLabel} {st : Writes}
    (hstep : w.writes.step l = some st) (hl : ∀ i error, l ≠ .complete i error) :
    Inv { w with writes := st, left := w.left ++ (w.writes.started st).map (·.bytes) } := by
  have hinv := h.writes.step hstep
  rcases h.writes.startsAtMostOne hstep hl with ⟨hin, hhanded⟩ |
    ⟨s, q, data, hin, hhanded, hnone, hlive⟩
  · rw [Writes.started_of_same hin, List.map_nil, List.append_nil]
    refine ⟨hinv, by rw [hin]; exact h.length, ?_, ?_⟩
    · intro i write bytes hwrite hbytes
      rw [hin] at hwrite
      rw [hhanded]
      exact h.busy i write bytes hwrite hbytes
    · intro s hs
      rw [hin] at hs
      exact h.ended_of_step _ hstep (congrFun hhanded s) (h.idle s hs)
  · rw [Writes.started_of_one hin hhanded]
    have hother : ∀ s', s' ≠ s → st.handed s' = w.writes.handed s' := by
      intro s' hne
      rw [hhanded, Function.update_of_ne hne]
    refine ⟨hinv, ?_, ?_, ?_⟩
    · rw [hin, List.length_append, List.length_append, h.length]
      rfl
    · intro i write bytes hwrite hbytes
      rw [hin] at hwrite
      rcases Nat.lt_or_ge i w.writes.inFlight.length with hlt | hge
      · rw [List.getElem?_append_left hlt] at hwrite
        rw [List.getElem?_append_left (h.length ▸ hlt)] at hbytes
        rw [hother _ (hnone write (List.mem_of_getElem? hwrite))]
        exact h.busy i write bytes hwrite hbytes
      · rw [List.getElem?_append_right hge, List.getElem?_singleton] at hwrite
        rw [List.getElem?_append_right (h.length ▸ hge), h.length, List.map_singleton,
          List.getElem?_singleton] at hbytes
        split_ifs at hwrite hbytes
        cases hwrite
        cases hbytes
        show w.sent s ++ data.bytes = bytesOf (st.handed s)
        rw [hhanded, Function.update_self, bytesOf_append, bytesOf_singleton]
        rcases h.idle s hnone with hwhole | ⟨-, -, hfailed⟩
        · rw [hwhole]
        · exact absurd hfailed hlive
    · intro s' hs'
      rw [hin, List.forall_mem_append, List.forall_mem_singleton] at hs'
      exact h.ended_of_step _ hstep (hother s' (Ne.symm hs'.2)) (h.idle s' hs'.1)

theorem Inv.transfer (h : w.Inv) {i : Nat} (n : Nat) {write : AsyncWrite} {bytes : Bytes}
    (hwrite : w.writes.inFlight[i]? = some write) (hbytes : w.left[i]? = some bytes) :
    Inv { w with
      left := w.left.set i (bytes.drop n)
      sent := Function.update w.sent write.socket (w.sent write.socket ++ bytes.take n) } := by
  refine ⟨h.writes, by rw [List.length_set]; exact h.length, ?_, ?_⟩
  · intro j write' bytes' hwrite' hbytes'
    rcases eq_or_ne i j with rfl | hne
    · rw [hwrite] at hwrite'
      obtain rfl := Option.some.inj hwrite'
      obtain ⟨hlt, -⟩ := List.getElem?_eq_some_iff.mp hbytes
      rw [List.getElem?_set_self hlt] at hbytes'
      obtain rfl := Option.some.inj hbytes'
      show Function.update w.sent write.socket _ write.socket ++ bytes.drop n = _
      rw [Function.update_self, List.append_assoc, List.take_append_drop]
      exact h.busy i write bytes hwrite hbytes
    · rw [List.getElem?_set_ne hne] at hbytes'
      have hsocket : write'.socket ≠ write.socket := fun heq =>
        hne (h.socket_inj hwrite hwrite' heq.symm)
      show Function.update w.sent write.socket _ write'.socket ++ bytes' = _
      rw [Function.update_of_ne hsocket]
      exact h.busy j write' bytes' hwrite' hbytes'
  · intro s hs
    have hne : s ≠ write.socket := (hs write (List.mem_of_getElem? hwrite)).symm
    have hidle := h.idle s hs
    simp only [Ended, Function.update_of_ne hne]
    exact hidle

theorem Inv.complete (h : w.Inv) {i : Nat} {error : Bool} {bytes : Bytes} {st : Writes}
    (hbytes : w.left[i]? = some bytes) (hstep : w.writes.step (.complete i error) = some st)
    (hdone : (error || bytes.isEmpty) = true) :
    Inv { w with writes := st, left := w.left.eraseIdx i } := by
  have hinv := h.writes.step hstep
  cases Writes.step_cases hstep with
  | @complete _ _ write queue hwrite hq =>
  refine ⟨hinv, ?_, ?_, ?_⟩
  · obtain ⟨hlt, -⟩ := List.getElem?_eq_some_iff.mp hwrite
    show (w.left.eraseIdx i).length = (w.writes.inFlight.eraseIdx i).length
    rw [List.length_eraseIdx_of_lt hlt, List.length_eraseIdx_of_lt (h.length ▸ hlt), h.length]
  · intro j write' bytes' hwrite' hbytes'
    replace hwrite' : (w.writes.inFlight.eraseIdx i)[j]? = some write' := hwrite'
    rw [List.getElem?_eraseIdx] at hwrite' hbytes'
    split_ifs at hwrite' hbytes'
    · exact h.busy j write' bytes' hwrite' hbytes'
    · exact h.busy (j + 1) write' bytes' hwrite' hbytes'
  · intro s hs
    rcases eq_or_ne s write.socket with rfl | hne
    · have hbusy := h.busy i write bytes hwrite hbytes
      rcases Bool.or_eq_true_iff.mp hdone with rfl | hempty
      · refine Or.inr ⟨⟨bytes, hbusy⟩,
          (h.writes.owner_lt write.queue _ (h.writes.writes write
            (List.mem_of_getElem? hwrite))).2, Or.inr ⟨write.queue, _,
              Function.update_self _ _ _, ?_⟩⟩
        exact List.mem_append_right _ (List.mem_singleton_self _)
      · rw [List.isEmpty_iff.mp hempty, List.append_nil] at hbusy
        exact Or.inl hbusy
    · refine h.ended_of_step _ hstep rfl (h.idle s fun write' hwrite' heq => ?_)
      obtain ⟨j, hj⟩ := List.getElem?_of_mem hwrite'
      have hne' : i ≠ j := by
        rintro rfl
        rw [hwrite] at hj
        obtain rfl := Option.some.inj hj
        exact hne heq.symm
      exact hs write' (List.mem_eraseIdx_iff_getElem?.mpr ⟨j, hne'.symm, hj⟩) heq

theorem Inv.step (h : w.Inv) (hstep : w.step l = some w') : w'.Inv := by
  cases l with
  | transfer i n =>
    simp only [Wire.step, bind, Option.bind_eq_some_iff, Option.some.injEq] at hstep
    obtain ⟨write, hwrite, bytes, hbytes, rfl⟩ := hstep
    exact h.transfer n hwrite hbytes
  | write l =>
    by_cases hl : ∃ i error, l = .complete i error
    · obtain ⟨i, error, rfl⟩ := hl
      simp only [Wire.step, bind, Option.bind_eq_some_iff, Option.ite_none_right_eq_some,
        Option.some.injEq] at hstep
      obtain ⟨bytes, hbytes, st, hst, hdone, rfl⟩ := hstep
      exact h.complete hbytes hst hdone
    · have hl' : ∀ i error, l ≠ .complete i error := fun i error heq => hl ⟨i, error, heq⟩
      have hwrites : ∃ st, w.writes.step l = some st ∧
          { w with writes := st, left := w.left ++ (w.writes.started st).map (·.bytes) } = w' := by
        cases l with
        | complete i error => exact absurd rfl (hl' i error)
        | _ =>
          simpa only [Wire.step, bind, Option.bind_eq_some_iff, Option.some.injEq] using hstep
      obtain ⟨st, hst, rfl⟩ := hwrites
      exact h.start hst hl'

theorem Reach.inv {P : Bytes → Prop} (h : Reach P w) : w.Inv := by
  induction h with
  | init => exact inv_init
  | step _ _ hstep ih => exact ih.step hstep

theorem Inv.sent_prefix_handed (h : w.Inv) (s : SocketId) :
    w.sent s <+: bytesOf (w.writes.handed s) := by
  by_cases hidle : ∀ write ∈ w.writes.inFlight, write.socket ≠ s
  · rcases h.idle s hidle with hwhole | ⟨hbefore, -, -⟩
    · exact hwhole ▸ List.prefix_refl _
    · exact hbefore
  · push Not at hidle
    obtain ⟨write, hwrite, rfl⟩ := hidle
    obtain ⟨i, hi⟩ := List.getElem?_of_mem hwrite
    obtain ⟨hlt, -⟩ := List.getElem?_eq_some_iff.mp hi
    have hleft := List.getElem?_eq_getElem (h.length.symm ▸ hlt)
    exact ⟨_, h.busy i write _ hi hleft⟩

/-- A socket sends what was posted to it, in that order. -/
theorem Inv.sent_prefix_posted (h : w.Inv) (s : SocketId) :
    w.sent s <+: bytesOf (w.writes.posted s) :=
  (h.sent_prefix_handed s).trans (bytesOf_mono (h.writes.order s))

end Wire

/-! ## What waits on a socket -/

namespace Writes

variable {st : Writes} {s : SocketId}

/-- The payloads posted on a socket that its strand has not handed over. -/
def waiting (st : Writes) (s : SocketId) : List Payload :=
  (((st.addressOf s).bind st.writeQueues).bind st.queues).elim []
    fun queue => if queue.owner = s then queue.waiting else []

/-- On an open socket what was posted was handed over or waits. -/
theorem Inv.posted_eq (h : Inv st) (hopen : st.isOpen s = true) :
    st.posted s = st.handed s ++ st.waiting s := by
  obtain ⟨o, ho, -⟩ := (Option.any_eq_true _ _).mp hopen
  have ha : st.addressOf s = some o.address := by rw [addressOf, ho]; rfl
  by_cases hnone : ∀ q, st.owner q ≠ some s
  · have hposted := h.untouched s hnone
    have hwaiting : st.waiting s = [] := by
      rw [waiting, ha, Option.bind_some]
      cases hq : (st.writeQueues o.address).bind st.queues with
      | none => rfl
      | some queue =>
        obtain ⟨q, -, hqueue⟩ := Option.bind_eq_some_iff.mp hq
        exact if_neg fun howner => hnone q (owner_eq_some.mpr ⟨queue, hqueue, howner⟩)
    rw [hposted, h.handed_untouched hnone, hwaiting]
    rfl
  · obtain ⟨q, howner⟩ := not_forall_not.mp hnone
    obtain ⟨queue, hqueue, rfl⟩ := owner_eq_some.mp howner
    have hwaiting : st.waiting queue.owner = queue.waiting := by
      rw [waiting, ha, Option.bind_some, h.kept q _ o howner ho, Option.bind_some, hqueue,
        Option.elim_some, if_pos rfl]
    rw [hwaiting]
    exact (h.queue q queue hqueue).flow hopen

end Writes

namespace Wire

variable {w w' : Wire} {l : WireLabel} {s : SocketId}

/-- The socket is open, and nothing that was posted to it waits or is being written. -/
structure Drained (w : Wire) (s : SocketId) : Prop where
  isOpen : w.writes.isOpen s = true
  idle : ∀ write ∈ w.writes.inFlight, write.socket ≠ s
  waiting : w.writes.waiting s = []
  whole : ¬ w.writes.FailureDue s

theorem Inv.sent_eq_posted (h : w.Inv) (hdrained : w.Drained s) :
    w.sent s = bytesOf (w.writes.posted s) := by
  rw [h.writes.posted_eq hdrained.isOpen, hdrained.waiting, List.append_nil]
  rcases h.idle s hdrained.idle with hwhole | ⟨-, -, hclosed | hfailure⟩
  · exact hwhole
  · rw [hdrained.isOpen] at hclosed
    cases hclosed
  · exact absurd hfailure hdrained.whole

/-! ## What may be written -/

/-- Every payload of a call or of a record has `P`. -/
structure Payloads (P : Bytes → Prop) (st : Writes) : Prop where
  calls : ∀ call ∈ st.calls, P call.data.bytes
  posted : ∀ s, ∀ data ∈ st.posted s, P data.bytes

theorem Payloads.step {P : Bytes → Prop} {st st' : Writes} {l : WriteLabel}
    (h : Payloads P st) (hpayload : ∀ s bytes, l = .enqueueWrite s bytes → P bytes)
    (hstep : st.step l = some st') : Payloads P st' := by
  have hframe : st'.calls = st.calls ∧ st'.posted = st.posted → Payloads P st' := by
    rintro ⟨hcalls, hposted⟩
    exact ⟨hcalls ▸ h.calls, hposted ▸ h.posted⟩
  cases Writes.step_cases hstep with
  | accept | release | destroy | close | gcWriteQueues | complete => exact hframe ⟨rfl, rfl⟩
  | removeWriteQueue =>
    apply hframe
    unfold Writes.removeWriteQueue
    split
    · exact ⟨rfl, rfl⟩
    · split <;> exact ⟨rfl, rfl⟩
  | @enqueueWrite s bytes o =>
    obtain ⟨hcalls, hposted⟩ : (st.getOrCreateWriteQueue o.address s).2.calls = st.calls ∧
        (st.getOrCreateWriteQueue o.address s).2.posted = st.posted :=
      Writes.getOrCreateWriteQueue_frame o.address s
    refine ⟨?_, by rw [hposted]; exact h.posted⟩
    rw [hcalls, List.forall_mem_append, List.forall_mem_singleton]
    exact ⟨h.calls, hpayload s bytes rfl⟩
  | @post i call queue hcall =>
    refine ⟨fun call' hcall' => h.calls call' (List.mem_of_mem_eraseIdx hcall'), ?_⟩
    intro s data hdata
    replace hdata : data ∈ Function.update st.posted call.socket
      (st.posted call.socket ++ [call.data]) s := hdata
    rcases eq_or_ne s call.socket with rfl | hne
    · rw [Function.update_self, List.mem_append, List.mem_singleton] at hdata
      rcases hdata with hdata | rfl
      · exact h.posted _ data hdata
      · exact h.calls call (List.mem_of_getElem? hcall)
    · rw [Function.update_of_ne hne] at hdata
      exact h.posted s data hdata
  | @runTask q queue task rest =>
    have hnext : ∀ (st₁ : Writes) (s : SocketId) (queue' : SocketWriteQueue),
        (st₁.doNextWrite s q queue').calls = st₁.calls ∧
          (st₁.doNextWrite s q queue').posted = st₁.posted := by
      intro st₁ s queue'
      unfold Writes.doNextWrite
      split
      · exact ⟨rfl, rfl⟩
      · split <;> exact ⟨rfl, rfl⟩
    apply hframe
    cases task with
    | enqueued s data =>
      simp only [Writes.runTask]
      split
      · exact hnext st s _
      · exact ⟨rfl, rfl⟩
    | completed s error =>
      simp only [Writes.runTask]
      split
      · exact ⟨rfl, rfl⟩
      · exact hnext st s _

theorem step_writes (h : w.step l = some w') :
    w'.writes = w.writes ∨ ∃ l', l = .write l' ∧ w.writes.step l' = some w'.writes := by
  cases l with
  | transfer i n =>
    simp only [Wire.step, bind, Option.bind_eq_some_iff, Option.some.injEq] at h
    obtain ⟨write, -, bytes, -, rfl⟩ := h
    exact Or.inl rfl
  | write l =>
    refine Or.inr ⟨l, rfl, ?_⟩
    cases l with
    | complete i error =>
      simp only [Wire.step, bind, Option.bind_eq_some_iff, Option.ite_none_right_eq_some,
        Option.some.injEq] at h
      obtain ⟨bytes, -, st, hst, -, rfl⟩ := h
      exact hst
    | _ =>
      simp only [Wire.step, bind, Option.bind_eq_some_iff, Option.some.injEq] at h
      obtain ⟨st, hst, rfl⟩ := h
      exact hst

theorem Reach.payloads {P : Bytes → Prop} (h : Reach P w) : Payloads P w.writes := by
  induction h with
  | init => exact ⟨by simp, by simp⟩
  | step _ hpayload hstep ih =>
    rcases step_writes hstep with heq | ⟨l', rfl, hst⟩
    · rw [heq]
      exact ih
    · exact ih.step (fun s bytes heq => hpayload s bytes (by rw [heq])) hst

end Wire

end LoginServer
