import Mathlib.Data.List.Perm.Basic
import LoginServer.Network.WriteQueue

/-!
# Writes on a socket stay in order

One queue object takes at most one turn at a time: a write under way, or a completion
whose handler has not run, and exactly while `writing` is set (`QueueOk`). A live socket
has at most one queue object, the one that the map gives for its address (`Inv`), so that
what holds of the queue holds of the socket.
-/

namespace LoginServer

namespace SocketWriteQueue

/-- The payloads accepted and not handed over, in posting order. -/
def waiting (queue : SocketWriteQueue) : List Payload :=
  queue.pending ++ queue.strand.filterMap StrandTask.payload?

/-- The completions whose handlers have not run. -/
def due (queue : SocketWriteQueue) : Nat := queue.strand.countP StrandTask.isCompletion

end SocketWriteQueue

/-- A queue object between two tasks, with the number of its writes under way. -/
structure QueueOk (queue : SocketWriteQueue) (flights : Nat) (isOpen : Bool)
    (posted handed : List Payload) : Prop where
  own : ∀ task ∈ queue.strand, task.socket = queue.owner
  turn : flights + queue.due = if queue.writing then 1 else 0
  idle : queue.writing = false → queue.pending = []
  flow : isOpen = true → posted = handed ++ queue.waiting

/-- A queue object about to run `doNextWrite`: nothing is under way. -/
structure QueueDue (queue : SocketWriteQueue) (flights : Nat) (isOpen : Bool)
    (posted handed : List Payload) : Prop where
  own : ∀ task ∈ queue.strand, task.socket = queue.owner
  flights_eq : flights = 0
  due_eq : queue.due = 0
  flow : isOpen = true → posted = handed ++ queue.waiting

section

variable {queue : SocketWriteQueue} {flights : Nat} {isOpen : Bool}
  {posted handed : List Payload}

theorem QueueOk.new (s : SocketId) : QueueOk { owner := s } 0 isOpen [] [] where
  own := by simp
  turn := by simp [SocketWriteQueue.due]
  idle := fun _ => rfl
  flow := fun _ => by simp [SocketWriteQueue.waiting]

theorem QueueOk.post (h : QueueOk queue flights isOpen posted handed) (d : Payload) :
    QueueOk { queue with strand := queue.strand ++ [.enqueued queue.owner d] } flights isOpen
      (posted ++ [d]) handed where
  own := List.forall_mem_append.mpr ⟨h.own, List.forall_mem_singleton.mpr rfl⟩
  turn := by
    have := h.turn
    simpa [SocketWriteQueue.due, StrandTask.isCompletion] using this
  idle := h.idle
  flow := by
    intro hopen
    rw [h.flow hopen]
    simp [SocketWriteQueue.waiting, StrandTask.payload?]

theorem QueueOk.complete (h : QueueOk queue (flights + 1) isOpen posted handed)
    (error : Bool) :
    QueueOk { queue with strand := queue.strand ++ [.completed queue.owner error] } flights
      isOpen posted handed where
  own := List.forall_mem_append.mpr ⟨h.own, List.forall_mem_singleton.mpr rfl⟩
  turn := by
    have := h.turn
    simp only [SocketWriteQueue.due, List.countP_append, List.countP_singleton,
      StrandTask.isCompletion, if_true] at this ⊢
    omega
  idle := h.idle
  flow := by
    intro hopen
    rw [h.flow hopen]
    simp [SocketWriteQueue.waiting, StrandTask.payload?]

variable {s : SocketId} {d : Payload} {error : Bool} {rest : List StrandTask}

/-- A write is under way when the lambda runs: the payload waits. -/
theorem QueueOk.enqueued_busy (h : QueueOk queue flights isOpen posted handed)
    (hstrand : queue.strand = .enqueued s d :: rest) (hbusy : queue.writing = true) :
    QueueOk { queue with strand := rest, pending := queue.pending ++ [d] } flights isOpen
      posted handed where
  own := fun task hmem => h.own task (hstrand ▸ List.mem_cons_of_mem _ hmem)
  turn := by
    have := h.turn
    simpa [SocketWriteQueue.due, hstrand, StrandTask.isCompletion] using this
  idle := by
    intro hidle
    rw [hbusy] at hidle
    cases hidle
  flow := by
    intro hopen
    rw [h.flow hopen]
    simp [SocketWriteQueue.waiting, hstrand, StrandTask.payload?]

theorem QueueOk.enqueued_idle (h : QueueOk queue flights isOpen posted handed)
    (hstrand : queue.strand = .enqueued s d :: rest) (hidle : queue.writing = false) :
    QueueDue { queue with strand := rest, pending := queue.pending ++ [d] } flights isOpen
      posted handed := by
  have hturn := h.turn
  simp only [SocketWriteQueue.due, hstrand, hidle, StrandTask.isCompletion, Bool.false_eq_true,
    not_false_eq_true, List.countP_cons_of_neg, if_false] at hturn
  refine ⟨fun task hmem => h.own task (hstrand ▸ List.mem_cons_of_mem _ hmem), by omega,
    ?_, ?_⟩
  · simp only [SocketWriteQueue.due]
    omega
  · intro hopen
    rw [h.flow hopen]
    simp [SocketWriteQueue.waiting, hstrand, StrandTask.payload?]

/-- The completion was the one write of the queue. -/
theorem QueueOk.completed (h : QueueOk queue flights isOpen posted handed)
    (hstrand : queue.strand = .completed s error :: rest) :
    QueueDue { queue with strand := rest } flights isOpen posted handed := by
  have hturn := h.turn
  have hle : (if queue.writing = true then 1 else 0) ≤ 1 := by split <;> omega
  simp only [SocketWriteQueue.due, hstrand, List.countP_cons, StrandTask.isCompletion,
    if_true] at hturn
  refine ⟨fun task hmem => h.own task (hstrand ▸ List.mem_cons_of_mem _ hmem), by omega,
    ?_, ?_⟩
  · simp only [SocketWriteQueue.due]
    omega
  · intro hopen
    rw [h.flow hopen]
    simp [SocketWriteQueue.waiting, hstrand, List.filterMap_cons, StrandTask.payload?]

theorem QueueDue.empty (h : QueueDue queue flights isOpen posted handed)
    (hpending : queue.pending = []) :
    QueueOk { queue with writing := false } flights isOpen posted handed :=
  ⟨h.own, by rw [h.flights_eq, Nat.zero_add]; exact h.due_eq, fun _ => hpending, h.flow⟩

theorem QueueDue.dropped (h : QueueDue queue flights isOpen posted handed) :
    QueueOk { queue with writing := false, pending := [] } flights false posted handed :=
  ⟨h.own, by rw [h.flights_eq, Nat.zero_add]; exact h.due_eq, fun _ => rfl, nofun⟩

theorem QueueDue.written {rest : List Payload}
    (h : QueueDue queue flights true posted handed) (hpending : queue.pending = d :: rest) :
    QueueOk { queue with writing := true, pending := rest } (flights + 1) isOpen posted
      (handed ++ [d]) where
  own := h.own
  turn := by
    have hflights := h.flights_eq
    have hdue := h.due_eq
    simp only [SocketWriteQueue.due] at hdue ⊢
    simp only [if_true]
    omega
  idle := nofun
  flow := by
    intro _
    rw [h.flow rfl]
    simp [SocketWriteQueue.waiting, hpending]

end

namespace Writes

variable (st : Writes)

def owner (q : QueueId) : Option SocketId := (st.queues q).map (·.owner)

/-- The writes under way that a queue object has started. -/
def flights (q : QueueId) : Nat := st.inFlight.countP fun w => w.queue = q

structure Inv : Prop where
  owner_lt : ∀ q s, st.owner q = some s → q < st.nextQueue ∧ s < st.nextSocket
  socket_lt : ∀ s o, st.sockets s = some o → s < st.nextSocket
  distinct : ∀ s s' o o', st.sockets s = some o → st.sockets s' = some o' →
    o.address = o'.address → s = s'
  /-- The map gives the queue object of a live socket. -/
  kept : ∀ q s o, st.owner q = some s → st.sockets s = some o →
    st.writeQueues o.address = some q
  owner_inj : ∀ q q' s, st.owner q = some s → st.owner q' = some s → q = q'
  calls : ∀ call ∈ st.calls, st.owner call.queue = some call.socket ∧
    call.data.target = call.socket
  writes : ∀ w ∈ st.inFlight, st.owner w.queue = some w.socket
  untouched : ∀ s, (∀ q, st.owner q ≠ some s) → st.posted s = []
  targets : ∀ s, ∀ d ∈ st.posted s, d.target = s
  order : ∀ s, st.handed s <+: st.posted s
  queue : ∀ q queue, st.queues q = some queue → QueueOk queue (st.flights q)
    (st.isOpen queue.owner) (st.posted queue.owner) (st.handed queue.owner)

variable {st}

theorem owner_eq_some {q : QueueId} {s : SocketId} :
    st.owner q = some s ↔ ∃ queue, st.queues q = some queue ∧ queue.owner = s := by
  simp [owner]

theorem inv_init : Inv {} where
  owner_lt := by simp [owner]
  socket_lt := by simp
  distinct := by simp
  kept := by simp
  owner_inj := by simp [owner]
  calls := by simp
  writes := by simp
  untouched := by simp
  targets := by simp
  order := by simp
  queue := by simp

theorem Inv.handed_untouched (h : Inv st) {s : SocketId} (hnone : ∀ q, st.owner q ≠ some s) :
    st.handed s = [] :=
  List.prefix_nil.mp (h.untouched s hnone ▸ h.order s)

/-! ## Steps that change no queue object -/

/-- Sockets may close and go; the addresses of those that stay do not change. -/
theorem Inv.shrinkSockets (h : Inv st) {sockets : SocketId → Option SocketObject}
    (hless : ∀ s o, sockets s = some o → ∃ o', st.sockets s = some o' ∧
      o'.address = o.address ∧ (o.isOpen = true → o'.isOpen = true)) :
    Inv { st with sockets := sockets } where
  owner_lt := h.owner_lt
  socket_lt := by
    intro s o hs
    obtain ⟨o', hs', -⟩ := hless s o hs
    exact h.socket_lt s o' hs'
  distinct := by
    intro s₁ s₂ o₁ o₂ hs₁ hs₂ haddr
    obtain ⟨o₁', hs₁', haddr₁, -⟩ := hless s₁ o₁ hs₁
    obtain ⟨o₂', hs₂', haddr₂, -⟩ := hless s₂ o₂ hs₂
    exact h.distinct s₁ s₂ o₁' o₂' hs₁' hs₂' (by rw [haddr₁, haddr, haddr₂])
  kept := by
    intro q s o howner hs
    obtain ⟨o', hs', haddr, -⟩ := hless s o hs
    rw [← haddr]
    exact h.kept q s o' howner hs'
  owner_inj := h.owner_inj
  calls := h.calls
  writes := h.writes
  untouched := h.untouched
  targets := h.targets
  order := h.order
  queue := by
    intro q queue hq
    have hok := h.queue q queue hq
    refine ⟨hok.own, hok.turn, hok.idle, fun hopen => hok.flow ?_⟩
    simp only [isOpen, Option.any_eq_true] at hopen ⊢
    obtain ⟨o, hs, hopen⟩ := hopen
    obtain ⟨o', hs', -, himp⟩ := hless _ o hs
    exact ⟨o', hs', himp hopen⟩

theorem Inv.close (h : Inv st) (s : SocketId) : Inv (st.close s) := by
  refine h.shrinkSockets ?_
  intro s' o hs'
  rcases eq_or_ne s' s with rfl | hne
  · rw [Function.update_self, Option.map_eq_some_iff] at hs'
    obtain ⟨o', ho', rfl⟩ := hs'
    exact ⟨o', ho', rfl, nofun⟩
  · rw [Function.update_of_ne hne] at hs'
    exact ⟨o, hs', rfl, id⟩

theorem Inv.destroy (h : Inv st) (s : SocketId) :
    Inv { st with sockets := Function.update st.sockets s none } := by
  refine h.shrinkSockets ?_
  intro s' o hs'
  rcases eq_or_ne s' s with rfl | hne
  · rw [Function.update_self] at hs'
    cases hs'
  · rw [Function.update_of_ne hne] at hs'
    exact ⟨o, hs', rfl, id⟩

theorem Inv.accept (h : Inv st) {address : Nat} (hfree : st.addressFree address = true)
    (held : SocketId → Bool) :
    Inv { st with
      sockets := Function.update st.sockets st.nextSocket (some ⟨address, true⟩)
      held := held
      nextSocket := st.nextSocket + 1 } := by
  have hold : ∀ {s o}, s ≠ st.nextSocket →
      Function.update st.sockets st.nextSocket (some ⟨address, true⟩) s = some o →
      st.sockets s = some o := by
    intro s o hne hs
    rwa [Function.update_of_ne hne] at hs
  have hother : ∀ {s o}, st.sockets s = some o → o.address ≠ address := by
    intro s o hs
    have hrange := List.all_eq_true.mp hfree s (List.mem_range.mpr (h.socket_lt s o hs))
    rw [hs] at hrange
    simpa using hrange
  have howned : ∀ {q s}, st.owner q = some s → s ≠ st.nextSocket := by
    intro q s howner
    exact Nat.ne_of_lt (h.owner_lt q s howner).2
  refine ⟨?_, ?_, ?_, ?_, h.owner_inj, h.calls, h.writes, h.untouched, h.targets, h.order, ?_⟩
  · intro q s howner
    have := h.owner_lt q s howner
    exact ⟨this.1, Nat.lt_succ_of_lt this.2⟩
  · intro s o hs
    rcases eq_or_ne s st.nextSocket with rfl | hne
    · exact Nat.lt_succ_self _
    · exact Nat.lt_succ_of_lt (h.socket_lt s o (hold hne hs))
  · intro s s' o o' hs hs' haddr
    rcases eq_or_ne s st.nextSocket with rfl | hne
    · rcases eq_or_ne s' st.nextSocket with rfl | hne'
      · rfl
      · simp only [Function.update_self, Option.some.injEq] at hs
        subst hs
        exact absurd haddr.symm (hother (hold hne' hs'))
    · rcases eq_or_ne s' st.nextSocket with rfl | hne'
      · simp only [Function.update_self, Option.some.injEq] at hs'
        subst hs'
        exact absurd haddr (hother (hold hne hs))
      · exact h.distinct s s' o o' (hold hne hs) (hold hne' hs') haddr
  · intro q s o howner hs
    exact h.kept q s o howner (hold (howned howner) hs)
  · intro q queue hq
    have hne : queue.owner ≠ st.nextSocket := howned (owner_eq_some.mpr ⟨queue, hq, rfl⟩)
    have hok := h.queue q queue hq
    simp only [isOpen, Function.update_of_ne hne] at hok ⊢
    exact hok

/-- An entry may go from the map unless it is the one of a live socket. -/
theorem Inv.shrinkMap (h : Inv st) {writeQueues : Nat → Option QueueId}
    (hkeep : ∀ key q s, st.writeQueues key = some q → st.owner q = some s →
      (st.sockets s).isSome → writeQueues key = some q) :
    Inv { st with writeQueues := writeQueues } where
  owner_lt := h.owner_lt
  socket_lt := h.socket_lt
  distinct := h.distinct
  kept := by
    intro q s o howner hs
    exact hkeep o.address q s (h.kept q s o howner hs) howner
      (Option.isSome_iff_exists.mpr ⟨o, hs⟩)
  owner_inj := h.owner_inj
  calls := h.calls
  writes := h.writes
  untouched := h.untouched
  targets := h.targets
  order := h.order
  queue := h.queue

theorem ownerAlive_of_owner {q : QueueId} {s : SocketId} (howner : st.owner q = some s)
    (hlive : (st.sockets s).isSome) : st.ownerAlive q = true := by
  obtain ⟨queue, hq, rfl⟩ := owner_eq_some.mp howner
  simpa [ownerAlive, hq] using hlive

theorem Inv.gcWriteQueues (h : Inv st) : Inv st.gcWriteQueues := by
  refine h.shrinkMap ?_
  intro key q s hkey howner hlive
  rw [hkey, Option.filter_some, ownerAlive_of_owner howner hlive, if_pos rfl]

theorem Inv.removeWriteQueue (h : Inv st) (key : Nat) (s : SocketId) :
    Inv (st.removeWriteQueue key (some s)) := by
  unfold Writes.removeWriteQueue
  split
  · exact h
  next q hkey =>
    split
    · exact h
    next hdead =>
      refine h.shrinkMap ?_
      intro key' q' s' hkey' howner hlive
      rcases eq_or_ne key' key with rfl | hne
      · rw [hkey] at hkey'
        obtain rfl := Option.some.inj hkey'
        exact absurd (by simpa using ownerAlive_of_owner howner hlive) hdead
      · rw [Function.update_of_ne hne]
        exact hkey'

/-! ## Looking up the queue -/

theorem ownedAt_of_kept {q : QueueId} {s : SocketId} {o : SocketObject}
    (howner : st.owner q = some s) (hs : st.sockets s = some o) :
    st.ownedAt q o.address = true := by
  obtain ⟨queue, hq, rfl⟩ := owner_eq_some.mp howner
  simp [ownedAt, hq, hs]

/-- A queue whose owner is at the address of a live socket is owned by that socket. -/
theorem Inv.owner_of_ownedAt (h : Inv st) {q : QueueId} {s : SocketId} {o : SocketObject}
    (hs : st.sockets s = some o) (howned : st.ownedAt q o.address = true) :
    st.owner q = some s := by
  simp only [ownedAt, Option.any_eq_true, decide_eq_true_eq] at howned
  obtain ⟨queue, hq, o', ho', haddr⟩ := howned
  have heq := h.distinct queue.owner s o' o ho' hs haddr
  exact owner_eq_some.mpr ⟨queue, hq, heq⟩

theorem Inv.flights_new (h : Inv st) : st.flights st.nextQueue = 0 := by
  rw [flights, List.countP_eq_zero]
  intro w hw
  have := (h.owner_lt w.queue w.socket (h.writes w hw)).1
  simp only [decide_eq_true_eq]
  exact Nat.ne_of_lt this

theorem owner_newQueue {key : Nat} {s : SocketId} (q : QueueId) :
    (st.newQueue key s).2.owner q = if q = st.nextQueue then some s else st.owner q := by
  rcases eq_or_ne q st.nextQueue with rfl | hne
  · simp [owner, newQueue]
  · simp [owner, newQueue, hne]

theorem Inv.newQueue (h : Inv st) {s : SocketId} {o : SocketObject}
    (hs : st.sockets s = some o) (hnone : ∀ q, st.owner q ≠ some s) :
    Inv (st.newQueue o.address s).2 := by
  have hold : ∀ {q s'}, st.owner q = some s' → q ≠ st.nextQueue := by
    intro q s' howner
    exact Nat.ne_of_lt (h.owner_lt q s' howner).1
  have howners : ∀ {q s'}, (st.newQueue o.address s).2.owner q = some s' →
      (q = st.nextQueue ∧ s' = s) ∨ (q ≠ st.nextQueue ∧ st.owner q = some s') := by
    intro q s' howner
    rw [owner_newQueue] at howner
    split at howner
    next heq => exact .inl ⟨heq, (Option.some.inj howner).symm⟩
    next hne => exact .inr ⟨hne, howner⟩
  have hkeeps : ∀ {q s'}, st.owner q = some s' →
      (st.newQueue o.address s).2.owner q = some s' := by
    intro q s' howner
    rw [owner_newQueue, if_neg (hold howner)]
    exact howner
  have hposted : st.posted s = [] := h.untouched s hnone
  have hhanded : st.handed s = [] := h.handed_untouched hnone
  constructor
  case owner_lt =>
    intro q s' howner
    rcases howners howner with ⟨rfl, rfl⟩ | ⟨-, howner⟩
    · exact ⟨Nat.lt_succ_self _, h.socket_lt s' o hs⟩
    · exact ⟨Nat.lt_succ_of_lt (h.owner_lt q s' howner).1, (h.owner_lt q s' howner).2⟩
  case socket_lt => exact h.socket_lt
  case distinct => exact h.distinct
  case kept =>
    intro q s' o' howner hs'
    rcases howners howner with ⟨rfl, rfl⟩ | ⟨hne, howner⟩
    · rw [show o' = o from Option.some.inj (hs'.symm.trans hs)]
      exact Function.update_self _ _ _
    · have haddr : o'.address ≠ o.address := by
        intro heq
        have := h.distinct s' s o' o hs' hs heq
        exact hnone q (this ▸ howner)
      have := h.kept q s' o' howner hs'
      simpa [Writes.newQueue, Function.update_of_ne haddr] using this
  case owner_inj =>
    intro q q' s' howner howner'
    rcases howners howner with ⟨rfl, rfl⟩ | ⟨-, howner⟩ <;>
      rcases howners howner' with ⟨rfl, hs'⟩ | ⟨-, howner'⟩
    · rfl
    · exact absurd howner' (hnone q')
    · exact absurd (hs' ▸ howner) (hnone q)
    · exact h.owner_inj q q' s' howner howner'
  case calls =>
    intro call hcall
    exact ⟨hkeeps (h.calls call hcall).1, (h.calls call hcall).2⟩
  case writes => exact fun w hw => hkeeps (h.writes w hw)
  case untouched =>
    intro s' hnone'
    exact h.untouched s' fun q howner => hnone' q (hkeeps howner)
  case targets => exact h.targets
  case order => exact h.order
  case queue =>
    intro q queue hq
    rcases eq_or_ne q st.nextQueue with rfl | hne
    · simp only [Writes.newQueue, Function.update_self, Option.some.injEq] at hq
      subst hq
      have : QueueOk { owner := s } 0 (st.isOpen s) [] [] := QueueOk.new s
      rw [← h.flights_new] at this
      simpa [Writes.newQueue, hposted, hhanded, flights, isOpen] using this
    · simp only [Writes.newQueue, Function.update_of_ne hne] at hq
      exact h.queue q queue hq

/-- The look-up gives the queue of the socket, or makes its first one. -/
theorem Inv.getOrCreate_cases (h : Inv st) {s : SocketId} {o : SocketObject}
    (hs : st.sockets s = some o) :
    (∃ q, st.owner q = some s ∧ st.getOrCreateWriteQueue o.address s = (q, st)) ∨
      (∀ q, st.owner q ≠ some s) ∧
        st.getOrCreateWriteQueue o.address s = st.newQueue o.address s := by
  unfold Writes.getOrCreateWriteQueue
  split
  next q hkey =>
    split
    next howned => exact .inl ⟨q, h.owner_of_ownedAt hs howned, rfl⟩
    next hstale =>
      refine .inr ⟨?_, rfl⟩
      -- an older queue of this socket would be the one that the map gives
      intro q' howner
      have := h.kept q' s o howner hs
      rw [hkey] at this
      obtain rfl := Option.some.inj this
      exact hstale (ownedAt_of_kept howner hs)
  next hkey =>
    refine .inr ⟨?_, rfl⟩
    intro q' howner
    rw [h.kept q' s o howner hs] at hkey
    cases hkey

theorem Inv.getOrCreateWriteQueue (h : Inv st) {s : SocketId} {o : SocketObject}
    (hs : st.sockets s = some o) :
    Inv (st.getOrCreateWriteQueue o.address s).2 ∧
      (st.getOrCreateWriteQueue o.address s).2.owner
        (st.getOrCreateWriteQueue o.address s).1 = some s := by
  rcases h.getOrCreate_cases hs with ⟨q, howner, hsame⟩ | ⟨hnone, hnew⟩
  · rw [hsame]
    exact ⟨h, howner⟩
  · rw [hnew]
    refine ⟨h.newQueue hs hnone, ?_⟩
    rw [owner_newQueue]
    exact if_pos rfl

theorem Inv.enqueueWrite (h : Inv st) {s : SocketId} {q : QueueId}
    (howner : st.owner q = some s) (bytes : Bytes) :
    Inv { st with calls := st.calls ++ [⟨s, q, ⟨s, bytes⟩⟩] } where
  owner_lt := h.owner_lt
  socket_lt := h.socket_lt
  distinct := h.distinct
  kept := h.kept
  owner_inj := h.owner_inj
  calls := by
    intro call hcall
    rcases List.mem_append.mp hcall with hcall | hcall
    · exact h.calls call hcall
    · rw [List.mem_singleton.mp hcall]
      exact ⟨howner, rfl⟩
  writes := h.writes
  untouched := h.untouched
  targets := h.targets
  order := h.order
  queue := h.queue

/-! ## Steps of one queue object -/

/-- A step that changes one queue object and the records of its owner. -/
theorem Inv.onQueue (h : Inv st) {q : QueueId} {queue queue' : SocketWriteQueue}
    {calls : List EnqueueCall} {inFlight : List AsyncWrite}
    {posted handed : SocketId → List Payload} (hq : st.queues q = some queue)
    (howner : queue'.owner = queue.owner) (hcalls : ∀ call ∈ calls, call ∈ st.calls)
    (hwrites : ∀ w ∈ inFlight, w ∈ st.inFlight ∨ w = ⟨queue.owner, q⟩)
    (hflights : ∀ q', q' ≠ q → inFlight.countP (fun w => w.queue = q') = st.flights q')
    (hposted : ∀ s, s ≠ queue.owner → posted s = st.posted s)
    (hhanded : ∀ s, s ≠ queue.owner → handed s = st.handed s)
    (htargets : ∀ d ∈ posted queue.owner, d.target = queue.owner)
    (horder : handed queue.owner <+: posted queue.owner)
    (hok : QueueOk queue' (inFlight.countP fun w => w.queue = q) (st.isOpen queue.owner)
      (posted queue.owner) (handed queue.owner)) :
    Inv { st.setQueue q queue' with
      calls := calls
      inFlight := inFlight
      posted := posted
      handed := handed } := by
  have howned : st.owner q = some queue.owner := owner_eq_some.mpr ⟨queue, hq, rfl⟩
  have howners : ∀ q', owner { st.setQueue q queue' with
      calls := calls, inFlight := inFlight, posted := posted, handed := handed } q' =
      st.owner q' := by
    intro q'
    rcases eq_or_ne q' q with rfl | hne
    · simp [owner, setQueue, hq, howner]
    · simp [owner, setQueue, hne]
  constructor
  case owner_lt =>
    intro q' s hs
    rw [howners] at hs
    exact h.owner_lt q' s hs
  case socket_lt => exact h.socket_lt
  case distinct => exact h.distinct
  case kept =>
    intro q' s o hs ho
    rw [howners] at hs
    exact h.kept q' s o hs ho
  case owner_inj =>
    intro q₁ q₂ s h₁ h₂
    rw [howners] at h₁ h₂
    exact h.owner_inj q₁ q₂ s h₁ h₂
  case calls =>
    intro call hcall
    rw [howners]
    exact h.calls call (hcalls call hcall)
  case writes =>
    intro w hw
    rw [howners]
    rcases hwrites w hw with hw | rfl
    · exact h.writes w hw
    · exact howned
  case untouched =>
    intro s hnone
    have hold : ∀ q', st.owner q' ≠ some s := fun q' hs => hnone q' (by rw [howners, hs])
    have hne : s ≠ queue.owner := fun heq => hold q (heq ▸ howned)
    exact (hposted s hne).trans (h.untouched s hold)
  case targets =>
    intro s d hd
    rcases eq_or_ne s queue.owner with rfl | hne
    · exact htargets d hd
    · exact h.targets s d (hposted s hne ▸ hd)
  case order =>
    intro s
    rcases eq_or_ne s queue.owner with rfl | hne
    · exact horder
    · change handed s <+: posted s
      rw [hposted s hne, hhanded s hne]
      exact h.order s
  case queue =>
    intro q' queue₁ hq'
    rcases eq_or_ne q' q with rfl | hne
    · simp only [setQueue, Function.update_self, Option.some.injEq] at hq'
      subst hq'
      rw [howner]
      exact hok
    · simp only [setQueue, Function.update_of_ne hne] at hq'
      have hother : queue₁.owner ≠ queue.owner := by
        intro heq
        have hs := owner_eq_some.mpr ⟨queue₁, hq', heq⟩
        exact hne (h.owner_inj q' q _ hs howned)
      have hold := h.queue q' queue₁ hq'
      rw [← hflights q' hne] at hold
      rw [← hposted _ hother, ← hhanded _ hother] at hold
      exact hold

/-- A queue object changes, and nothing is recorded. -/
theorem Inv.setQueue (h : Inv st) {q : QueueId} {queue queue' : SocketWriteQueue}
    (hq : st.queues q = some queue) (howner : queue'.owner = queue.owner)
    (hok : QueueOk queue' (st.flights q) (st.isOpen queue.owner) (st.posted queue.owner)
      (st.handed queue.owner)) :
    Inv (st.setQueue q queue') :=
  h.onQueue hq howner (fun _ => id) (fun _ => .inl) (fun _ _ => rfl) (fun _ _ => rfl)
    (fun _ _ => rfl) (h.targets _) (h.order _) hok

theorem Inv.post (h : Inv st) {i : Nat} {call : EnqueueCall} {queue : SocketWriteQueue}
    (hcall : st.calls[i]? = some call) (hq : st.queues call.queue = some queue) :
    Inv { st.setQueue call.queue
        { queue with strand := queue.strand ++ [.enqueued call.socket call.data] } with
      calls := st.calls.eraseIdx i
      posted := Function.update st.posted call.socket (st.posted call.socket ++ [call.data]) } := by
  obtain ⟨howner, htarget⟩ := h.calls call (List.mem_of_getElem? hcall)
  obtain ⟨queue', hq', heq⟩ := owner_eq_some.mp howner
  rw [hq] at hq'
  obtain rfl := Option.some.inj hq'
  rw [← heq] at htarget ⊢
  refine h.onQueue hq rfl (fun _ => List.mem_of_mem_eraseIdx) (fun _ => .inl)
    (fun _ _ => rfl) ?_ (fun _ _ => rfl) ?_ ?_ ?_
  · intro s hne
    exact Function.update_of_ne hne _ _
  · intro d hd
    rw [Function.update_self] at hd
    rcases List.mem_append.mp hd with hd | hd
    · exact h.targets _ d hd
    · rw [List.mem_singleton.mp hd]
      exact htarget
  · rw [Function.update_self]
    exact (h.order _).trans (List.prefix_append _ _)
  · rw [Function.update_self]
    exact (h.queue _ _ hq).post call.data

theorem countP_eraseIdx {α : Type} (p : α → Bool) {l : List α} {i : Nat} {a : α}
    (ha : l[i]? = some a) : l.countP p = (l.eraseIdx i).countP p + if p a then 1 else 0 := by
  obtain ⟨hlt, rfl⟩ := List.getElem?_eq_some_iff.mp ha
  rw [← (List.getElem_cons_eraseIdx_perm hlt).countP_eq p, List.countP_cons]

theorem Inv.complete (h : Inv st) {i : Nat} {w : AsyncWrite} {queue : SocketWriteQueue}
    (hw : st.inFlight[i]? = some w) (hq : st.queues w.queue = some queue) (error : Bool) :
    Inv { st.setQueue w.queue
        { queue with strand := queue.strand ++ [.completed w.socket error] } with
      inFlight := st.inFlight.eraseIdx i } := by
  obtain ⟨queue', hq', heq⟩ := owner_eq_some.mp (h.writes w (List.mem_of_getElem? hw))
  rw [hq] at hq'
  obtain rfl := Option.some.inj hq'
  rw [← heq]
  have hcount := fun q => countP_eraseIdx (fun w => decide (w.queue = q)) hw
  refine h.onQueue hq rfl (fun _ => id) (fun w hmem => .inl (List.mem_of_mem_eraseIdx hmem)) ?_
    (fun _ _ => rfl) (fun _ _ => rfl) (h.targets _) (h.order _) ?_
  · intro q' hne
    rw [flights, hcount q']
    simp [hne.symm]
  · have hok := h.queue _ _ hq
    rw [flights, hcount w.queue, decide_eq_true rfl, if_pos rfl] at hok
    exact hok.complete error

theorem Inv.doNextWrite (h : Inv st) {q : QueueId} {queue₀ queue : SocketWriteQueue}
    (hq : st.queues q = some queue₀) (howner : queue.owner = queue₀.owner)
    (hdue : QueueDue queue (st.flights q) (st.isOpen queue₀.owner) (st.posted queue₀.owner)
      (st.handed queue₀.owner)) :
    Inv (st.doNextWrite queue₀.owner q queue) := by
  unfold Writes.doNextWrite
  split
  next hpending => exact h.setQueue hq howner (hdue.empty hpending)
  next d rest hpending =>
    split
    next hclosed =>
      rw [Bool.not_eq_true'] at hclosed
      refine h.setQueue hq howner ?_
      rw [hclosed]
      exact hdue.dropped
    next hopen =>
      have hopen : st.isOpen queue₀.owner = true := by simpa using hopen
      rw [hopen] at hdue
      refine h.onQueue hq howner (fun _ => id) ?_ ?_ (fun _ _ => rfl) ?_ (h.targets _) ?_ ?_
      · intro w hw
        rcases List.mem_append.mp hw with hw | hw
        · exact .inl hw
        · exact .inr (List.mem_singleton.mp hw)
      · intro q' hne
        simp [Writes.setQueue, flights, hne.symm]
      · intro s hne
        exact Function.update_of_ne hne _ _
      · simp only [Writes.setQueue, Function.update_self]
        rw [hdue.flow rfl, SocketWriteQueue.waiting, hpending]
        exact ⟨rest ++ queue.strand.filterMap StrandTask.payload?, by simp⟩
      · have hok : QueueOk { queue with writing := true, pending := rest } (st.flights q + 1)
          (st.isOpen queue₀.owner) _ _ := hdue.written hpending
        simpa [Writes.setQueue, flights, List.countP_append] using hok

theorem close_setQueue (q : QueueId) (queue : SocketWriteQueue) (s : SocketId) :
    (st.setQueue q queue).close s = (st.close s).setQueue q queue := rfl

theorem isOpen_close (s : SocketId) : (st.close s).isOpen s = false := by
  cases hs : st.sockets s <;> simp [Writes.close, isOpen, hs]

theorem Inv.runTask (h : Inv st) {q : QueueId} {queue : SocketWriteQueue} {task : StrandTask}
    {rest : List StrandTask} (hq : st.queues q = some queue)
    (hstrand : queue.strand = task :: rest) :
    Inv (st.runTask q { queue with strand := rest } task) := by
  have hok := h.queue q queue hq
  have hown : task.socket = queue.owner := hok.own task (by simp [hstrand])
  cases task with
  | enqueued s d =>
    obtain rfl : s = queue.owner := hown
    simp only [Writes.runTask]
    split
    next hidle =>
      rw [Bool.not_eq_true'] at hidle
      exact h.doNextWrite hq rfl (hok.enqueued_idle hstrand hidle)
    next hbusy =>
      exact h.setQueue hq rfl (hok.enqueued_busy hstrand (by simpa using hbusy))
  | completed s error =>
    obtain rfl : s = queue.owner := hown
    have hdue := hok.completed hstrand
    simp only [Writes.runTask]
    split
    next =>
      rw [close_setQueue]
      refine (h.close queue.owner).setQueue hq rfl ?_
      rw [isOpen_close]
      exact hdue.dropped
    next => exact h.doNextWrite hq rfl hdue

/-! ## Runs -/

theorem Inv.step (h : Inv st) {l : WriteLabel} {st' : Writes} (hstep : st.step l = some st') :
    Inv st' := by
  cases step_cases hstep with
  | accept hfree => exact h.accept hfree _
  | release s =>
    exact ⟨h.owner_lt, h.socket_lt, h.distinct, h.kept, h.owner_inj, h.calls, h.writes,
      h.untouched, h.targets, h.order, h.queue⟩
  | @destroy s => exact h.destroy s
  | close s => exact h.close s
  | @removeWriteQueue s => exact h.removeWriteQueue _ s
  | gcWriteQueues => exact h.gcWriteQueues
  | @enqueueWrite _ bytes _ _ ho =>
    obtain ⟨hinv, howner⟩ := h.getOrCreateWriteQueue ho
    exact hinv.enqueueWrite howner bytes
  | post hcall hq => exact h.post hcall hq
  | runTask hq hstrand => exact h.runTask hq hstrand
  | @complete _ error _ _ hw hq => exact h.complete hw hq error

theorem Reach.inv (h : Reach st) : Inv st := by
  induction h with
  | init => exact inv_init
  | step _ hstep ih => exact ih.step hstep

/-- All writes of a socket are started by its one queue object. -/
theorem Inv.countP_socket_le (h : Inv st) (s : SocketId) :
    st.inFlight.countP (fun w => w.socket = s) ≤ 1 := by
  by_cases hnone : st.inFlight.countP (fun w => decide (w.socket = s)) = 0
  · omega
  · obtain ⟨w, hw, hs⟩ := List.countP_pos_iff.mp (Nat.pos_of_ne_zero hnone)
    rw [decide_eq_true_eq] at hs
    have howner := h.writes w hw
    rw [hs] at howner
    obtain ⟨queue, hq, -⟩ := owner_eq_some.mp howner
    have hturn := (h.queue w.queue queue hq).turn
    have hle : st.inFlight.countP (fun w => decide (w.socket = s)) ≤ st.flights w.queue := by
      refine List.countP_mono_left ?_
      intro w' hw' hs'
      rw [decide_eq_true_eq] at hs' ⊢
      have howner' := h.writes w' hw'
      rw [hs'] at howner'
      exact h.owner_inj _ _ s howner' howner
    have : (if queue.writing = true then 1 else 0) ≤ 1 := by split <;> omega
    omega

/-- Writes on a socket are serialised, in posting order, and never misdirected. -/
theorem writes_serialised_in_order (h : Reach st) (s : SocketId) :
    st.inFlight.countP (fun w => w.socket = s) ≤ 1 ∧ st.handed s <+: st.posted s ∧
      ∀ d ∈ st.handed s, d.target = s :=
  ⟨h.inv.countP_socket_le s, h.inv.order s,
    fun d hd => h.inv.targets s d ((h.inv.order s).subset hd)⟩

/-- The second socket is at the address of the first, whose queue is still in the map. -/
theorem writes_serialised_in_order_reused :
    ∃ st : Writes, Reach st ∧ st.handed 0 = [⟨0, [65]⟩] ∧ st.handed 1 = [⟨1, [66]⟩] ∧
      st.posted 1 = [⟨1, [66]⟩, ⟨1, [67]⟩] ∧
      st.inFlight.countP (fun w => w.socket = 1) ≤ 1 ∧ st.handed 1 <+: st.posted 1 ∧
      ∀ d ∈ st.handed 1, d.target = 1 := by
  have hfirst := Reach.init |>.step (l := .accept 7) rfl |>.step (l := .enqueueWrite 0 [65]) rfl
    |>.step (l := .post 0) rfl |>.step (l := .runTask 0) rfl |>.step (l := .complete 0 false) rfl
    |>.step (l := .runTask 0) rfl |>.step (l := .close 0) rfl
    |>.step (l := .removeWriteQueue 0) rfl |>.step (l := .release 0) rfl
    |>.step (l := .destroy 0) rfl
  have hsecond := hfirst |>.step (l := .accept 7) rfl |>.step (l := .enqueueWrite 1 [66]) rfl
    |>.step (l := .enqueueWrite 1 [67]) rfl |>.step (l := .post 0) rfl
    |>.step (l := .post 0) rfl |>.step (l := .runTask 1) rfl |>.step (l := .runTask 1) rfl
  exact ⟨_, hsecond, rfl, rfl, rfl, writes_serialised_in_order hsecond 1⟩

end Writes

end LoginServer
