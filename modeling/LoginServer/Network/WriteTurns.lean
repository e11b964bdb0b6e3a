import LoginServer.Network.WriteOrder

/-!
# The turns of a strand

On an open socket the payloads handed to `async_write` follow from the tasks that the strand
has run: one for each completion handler, and one more while a write is under way (`Paced`).
So `k` payloads have been handed over exactly if the strand has run the lambdas of `k` of
them and the completion handlers of the `k - 1` writes in front (`Paced.le_handed_iff`).
-/

namespace LoginServer

/-- A queue object on an open socket whose strand has run `ran` lambdas of `enqueueWrite` and
`completed` completion handlers. -/
structure QueuePaced (queue : SocketWriteQueue) (ran completed : Nat) (handed : List Payload) :
    Prop where
  ran : handed.length + queue.pending.length = ran
  turn : handed.length = completed + if queue.writing then 1 else 0

namespace Writes

variable (st : Writes)

/-- The task that a step runs. -/
def taskOf : WriteLabel → Option StrandTask
  | .runTask q => (st.queues q).bind fun queue => queue.strand.head?
  | _ => none

/-- The step runs the lambda of an `enqueueWrite` on the socket. -/
def runsLambda (s : SocketId) (l : WriteLabel) : Bool :=
  (st.taskOf l).any fun task => !task.isCompletion && task.socket = s

/-- The step runs the completion handler of an `async_write` on the socket. -/
def runsCompletion (s : SocketId) (l : WriteLabel) : Bool :=
  (st.taskOf l).any fun task => task.isCompletion && task.socket = s

/-- What the strands have run, for each socket: lambdas of `enqueueWrite`, and completion
handlers. -/
structure Paced (ran completed : SocketId → Nat) : Prop where
  untouched : ∀ s, (∀ q, st.owner q ≠ some s) → ran s = 0 ∧ completed s = 0
  queue : ∀ q queue, st.queues q = some queue → st.isOpen queue.owner = true →
    QueuePaced queue (ran queue.owner) (completed queue.owner) (st.handed queue.owner)

variable {st} {st' : Writes} {ran completed ran' completed' : SocketId → Nat}

theorem paced_init : Paced {} (fun _ => 0) fun _ => 0 :=
  ⟨fun _ _ => ⟨rfl, rfl⟩, fun _ _ hq => by cases hq⟩

/-! ## Steps that run no task -/

/-- A step that changes no queue object. -/
theorem Paced.of_queues (h : Paced st ran completed) (hqueues : st'.queues = st.queues)
    (hhanded : st'.handed = st.handed)
    (hopen : ∀ q s, st.owner q = some s → st'.isOpen s = true → st.isOpen s = true) :
    Paced st' ran completed := by
  refine ⟨fun s hnone => h.untouched s fun q hs => hnone q ?_, fun q queue hq hs => ?_⟩
  · rw [owner, hqueues]
    exact hs
  · rw [hqueues] at hq
    rw [hhanded]
    exact h.queue q queue hq (hopen q _ (owner_eq_some.mpr ⟨queue, hq, rfl⟩) hs)

theorem isOpen_of_close {s s' : SocketId} (h : (st.close s).isOpen s' = true) :
    st.isOpen s' = true := by
  rcases eq_or_ne s' s with rfl | hne
  · rw [isOpen_close] at h
    cases h
  · simpa [isOpen, close, hne] using h

theorem isOpen_of_destroy {s s' : SocketId}
    (h : isOpen { st with sockets := Function.update st.sockets s none } s' = true) :
    st.isOpen s' = true := by
  rcases eq_or_ne s' s with rfl | hne
  · simp [isOpen] at h
  · simpa [isOpen, hne] using h

theorem Paced.newQueue (h : Paced st ran completed) (hinv : Inv st) {key : Nat} {s : SocketId}
    (hnone : ∀ q, st.owner q ≠ some s) : Paced (st.newQueue key s).2 ran completed := by
  refine ⟨fun s' hnone' => h.untouched s' fun q hs => hnone' q ?_, fun q queue hq hs => ?_⟩
  · rw [owner_newQueue, if_neg (Nat.ne_of_lt (hinv.owner_lt q s' hs).1)]
    exact hs
  · rcases eq_or_ne q st.nextQueue with rfl | hne
    · simp only [Writes.newQueue, Function.update_self, Option.some.injEq] at hq
      subst hq
      obtain ⟨hran, hcompleted⟩ := h.untouched s hnone
      have hhanded : st.handed s = [] := hinv.handed_untouched hnone
      refine ⟨?_, ?_⟩
      · simp [Writes.newQueue, hhanded, hran]
      · simp [Writes.newQueue, hhanded, hcompleted]
    · simp only [Writes.newQueue, Function.update_of_ne hne] at hq
      exact h.queue q queue hq hs

theorem Paced.getOrCreateWriteQueue (h : Paced st ran completed) (hinv : Inv st) {s : SocketId}
    {o : SocketObject} (hs : st.sockets s = some o) :
    Paced (st.getOrCreateWriteQueue o.address s).2 ran completed := by
  rcases hinv.getOrCreate_cases hs with ⟨q, -, hsame⟩ | ⟨hnone, hnew⟩
  · rw [hsame]
    exact h
  · rw [hnew]
    exact h.newQueue hinv hnone

/-! ## Steps of one queue object -/

/-- A step that changes one queue object and the records of its owner. -/
theorem Paced.onQueue (h : Paced st ran completed) (hinv : Inv st) {q : QueueId}
    {queue queue' : SocketWriteQueue} (hq : st.queues q = some queue)
    (hqueues : st'.queues = Function.update st.queues q (some queue'))
    (howner : queue'.owner = queue.owner)
    (hopen : ∀ s, st'.isOpen s = true → st.isOpen s = true)
    (hhanded : ∀ s, s ≠ queue.owner → st'.handed s = st.handed s)
    (hran : ∀ s, s ≠ queue.owner → ran' s = ran s)
    (hcompleted : ∀ s, s ≠ queue.owner → completed' s = completed s)
    (hok : st'.isOpen queue.owner = true → QueuePaced queue' (ran' queue.owner)
      (completed' queue.owner) (st'.handed queue.owner)) :
    Paced st' ran' completed' := by
  have howned : st.owner q = some queue.owner := owner_eq_some.mpr ⟨queue, hq, rfl⟩
  have howners : ∀ q', st'.owner q' = st.owner q' := by
    intro q'
    rw [owner, owner, hqueues]
    rcases eq_or_ne q' q with rfl | hne
    · rw [Function.update_self, hq, Option.map_some, Option.map_some, howner]
    · rw [Function.update_of_ne hne]
  refine ⟨fun s hnone => ?_, fun q' queue₁ hq' hs => ?_⟩
  · have hold : ∀ q', st.owner q' ≠ some s := fun q' hs => hnone q' (by rw [howners, hs])
    have hne : s ≠ queue.owner := fun heq => hold q (heq ▸ howned)
    rw [hran s hne, hcompleted s hne]
    exact h.untouched s hold
  · rw [hqueues] at hq'
    rcases eq_or_ne q' q with rfl | hne
    · rw [Function.update_self] at hq'
      obtain rfl := Option.some.inj hq'
      rw [howner] at hs ⊢
      exact hok hs
    · rw [Function.update_of_ne hne] at hq'
      have hother : queue₁.owner ≠ queue.owner := by
        intro heq
        have hs' := owner_eq_some.mpr ⟨queue₁, hq', heq⟩
        exact hne (hinv.owner_inj q' q _ hs' howned)
      rw [hhanded _ hother, hran _ hother, hcompleted _ hother]
      exact h.queue q' queue₁ hq' (hopen _ hs)

/-- A task is posted to the strand of a queue. -/
theorem Paced.posted (h : Paced st ran completed) (hinv : Inv st) {q : QueueId}
    {queue : SocketWriteQueue} (hq : st.queues q = some queue) {strand : List StrandTask}
    (hqueues : st'.queues = Function.update st.queues q (some { queue with strand := strand }))
    (hsockets : st'.sockets = st.sockets) (hhanded : st'.handed = st.handed) :
    Paced st' ran completed := by
  have hopen : ∀ s, st'.isOpen s = true → st.isOpen s = true := by
    intro s hs
    rwa [isOpen, hsockets] at hs
  refine h.onQueue hinv hq hqueues rfl hopen (fun s _ => congrFun hhanded s) (fun _ _ => rfl)
    (fun _ _ => rfl) fun hs => ?_
  obtain ⟨hran, hturn⟩ := h.queue q queue hq (hopen _ hs)
  rw [hhanded]
  exact ⟨hran, hturn⟩

/-- `doNextWrite` on a queue that has no write under way. -/
theorem Paced.doNextWrite (h : Paced st ran completed) (hinv : Inv st) {q : QueueId}
    {queue₀ queue : SocketWriteQueue} (hq : st.queues q = some queue₀)
    (howner : queue.owner = queue₀.owner)
    (hran : ∀ s, s ≠ queue₀.owner → ran' s = ran s)
    (hcompleted : ∀ s, s ≠ queue₀.owner → completed' s = completed s)
    (hdue : st.isOpen queue₀.owner = true →
      (st.handed queue₀.owner).length + queue.pending.length = ran' queue₀.owner ∧
        (st.handed queue₀.owner).length = completed' queue₀.owner) :
    Paced (st.doNextWrite queue₀.owner q queue) ran' completed' := by
  unfold Writes.doNextWrite
  split
  next hpending =>
    refine h.onQueue hinv hq rfl howner (fun _ => id) (fun _ _ => rfl) hran hcompleted
      fun hs => ?_
    obtain ⟨hflow, hturn⟩ := hdue hs
    exact ⟨hflow, hturn⟩
  next d rest hpending =>
    split
    next hclosed =>
      refine h.onQueue hinv hq rfl howner (fun _ => id) (fun _ _ => rfl) hran hcompleted
        fun hs => ?_
      rw [show st.isOpen queue₀.owner = true from hs] at hclosed
      cases hclosed
    next hopen =>
      refine h.onQueue hinv hq rfl howner (fun _ => id)
        (fun s hne => Function.update_of_ne hne _ _) hran hcompleted fun hs => ?_
      obtain ⟨hflow, hturn⟩ := hdue hs
      simp only [asyncWrite, setQueue, Function.update_self]
      rw [hpending, List.length_cons] at hflow
      refine ⟨?_, ?_⟩
      · rw [List.length_append, List.length_singleton]
        dsimp only
        omega
      · rw [List.length_append, List.length_singleton, if_pos rfl, hturn]

/-- A task runs, and its kind is counted for its socket. -/
theorem Paced.runTask (h : Paced st ran completed) (hinv : Inv st) {q : QueueId}
    {queue : SocketWriteQueue} {task : StrandTask} {rest : List StrandTask}
    (hq : st.queues q = some queue) (hstrand : queue.strand = task :: rest) :
    Paced (st.runTask q { queue with strand := rest } task)
      (fun s => ran s + (st.runsLambda s (.runTask q)).toNat)
      fun s => completed s + (st.runsCompletion s (.runTask q)).toNat := by
  have hok := hinv.queue q queue hq
  have hown : task.socket = queue.owner := hok.own task (by simp [hstrand])
  have htask : st.taskOf (.runTask q) = some task := by
    rw [taskOf, hq, Option.bind_some, hstrand, List.head?_cons]
  have hran : ∀ s, s ≠ queue.owner →
      ran s + (st.runsLambda s (.runTask q)).toNat = ran s := by
    intro s hne
    simp [runsLambda, htask, hown, hne.symm]
  have hcompleted : ∀ s, s ≠ queue.owner →
      completed s + (st.runsCompletion s (.runTask q)).toNat = completed s := by
    intro s hne
    simp [runsCompletion, htask, hown, hne.symm]
  have hlambda : st.runsLambda queue.owner (.runTask q) = !task.isCompletion := by
    simp [runsLambda, htask, hown]
  have hcompletion : st.runsCompletion queue.owner (.runTask q) = task.isCompletion := by
    simp [runsCompletion, htask, hown]
  cases task with
  | enqueued s d =>
    obtain rfl : s = queue.owner := hown
    simp only [Writes.runTask]
    split
    next hidle =>
      rw [Bool.not_eq_true'] at hidle
      refine h.doNextWrite hinv hq rfl hran hcompleted fun hs => ?_
      obtain ⟨hflow, hturn⟩ := h.queue q queue hq hs
      rw [hlambda, hcompletion]
      rw [hidle] at hturn
      simp only [StrandTask.isCompletion, Bool.not_false, Bool.toNat_true, Bool.toNat_false,
        List.length_append, List.length_singleton]
      exact ⟨by omega, hturn⟩
    next hbusy =>
      refine h.onQueue hinv hq rfl rfl (fun _ => id) (fun _ _ => rfl) hran hcompleted
        fun hs => ?_
      obtain ⟨hflow, hturn⟩ := h.queue q queue hq hs
      rw [hlambda, hcompletion]
      refine ⟨?_, hturn⟩
      simp only [StrandTask.isCompletion, Bool.not_false, Bool.toNat_true, List.length_append,
        List.length_singleton]
      change (st.handed queue.owner).length + _ = _
      omega
  | completed s error =>
    obtain rfl : s = queue.owner := hown
    simp only [Writes.runTask]
    split
    next =>
      refine h.onQueue hinv hq rfl rfl (fun _ => isOpen_of_close) (fun _ _ => rfl) hran
        hcompleted fun hs => ?_
      rw [isOpen_close] at hs
      cases hs
    next =>
      refine h.doNextWrite hinv hq rfl hran hcompleted fun hs => ?_
      obtain ⟨hflow, hturn⟩ := h.queue q queue hq hs
      -- a completion handler waits only while `writing` is set
      have hwriting : queue.writing = true := by
        have hone := hok.turn
        rw [SocketWriteQueue.due, hstrand, List.countP_cons] at hone
        by_contra hidle
        rw [if_neg hidle, StrandTask.isCompletion, if_pos rfl] at hone
        omega
      rw [hlambda, hcompletion]
      rw [hwriting] at hturn
      exact ⟨hflow, hturn⟩

theorem Paced.step (h : Paced st ran completed) (hinv : Inv st) {l : WriteLabel}
    (hstep : st.step l = some st') :
    Paced st' (fun s => ran s + (st.runsLambda s l).toNat)
      fun s => completed s + (st.runsCompletion s l).toNat := by
  cases step_cases hstep with
  | accept hfree =>
    refine h.of_queues rfl rfl fun q s hs hopen => ?_
    simpa [isOpen, Nat.ne_of_lt (hinv.owner_lt q s hs).2] using hopen
  | release s => exact h.of_queues rfl rfl fun _ _ _ => id
  | @destroy s => exact h.of_queues rfl rfl fun _ _ _ => isOpen_of_destroy
  | close s => exact h.of_queues rfl rfl fun _ _ _ => isOpen_of_close
  | removeWriteQueue =>
    unfold removeWriteQueue
    split
    · exact h
    · split
      · exact h
      · exact h.of_queues rfl rfl fun _ _ _ => id
  | gcWriteQueues => exact h.of_queues rfl rfl fun _ _ _ => id
  | @enqueueWrite _ bytes _ _ ho =>
    exact (h.getOrCreateWriteQueue hinv ho).of_queues rfl rfl fun _ _ _ => id
  | post hcall hq => exact h.posted hinv hq rfl rfl rfl
  | runTask hq hstrand => exact h.runTask hinv hq hstrand
  | complete hw hq => exact h.posted hinv hq rfl rfl rfl

theorem taskOf_eq_none {l : WriteLabel} (hl : ∀ q, l ≠ .runTask q) : st.taskOf l = none := by
  cases l with
  | runTask q => exact absurd rfl (hl q)
  | _ => rfl

theorem Paced.quiet (h : Paced st ran completed) (hinv : Inv st) (hquiet : Quiet st st') :
    Paced st' ran completed := by
  have hboth : Inv st' ∧ Paced st' ran completed := by
    induction hquiet with
    | refl => exact ⟨hinv, h⟩
    | tail _ hstep ih =>
      obtain ⟨l, hl, hstep⟩ := hstep
      refine ⟨ih.1.step hstep, ?_⟩
      have hpaced := ih.2.step ih.1 hstep
      simpa only [runsLambda, runsCompletion, taskOf_eq_none hl, Option.any_none, Bool.toNat_false,
        Nat.add_zero] using hpaced
  exact hboth.2

/-- On an open socket `k` payloads have been handed over exactly if the lambdas of `k` of
them have run and the writes in front of the last have completed. -/
theorem Paced.le_handed_iff (h : Paced st ran completed) (hinv : Inv st) {s : SocketId}
    (hopen : st.isOpen s = true) (k : Nat) :
    k ≤ (st.handed s).length ↔ k ≤ ran s ∧ k ≤ completed s + 1 := by
  by_cases hnone : ∀ q, st.owner q ≠ some s
  · obtain ⟨hran, hcompleted⟩ := h.untouched s hnone
    rw [hran, hcompleted, hinv.handed_untouched hnone, List.length_nil]
    omega
  · obtain ⟨q, howner⟩ := not_forall_not.mp hnone
    obtain ⟨queue, hqueue, rfl⟩ := owner_eq_some.mp howner
    obtain ⟨hran, hturn⟩ := h.queue q queue hqueue hopen
    cases hwriting : queue.writing with
    | false =>
      have hpending := (hinv.queue q queue hqueue).idle hwriting
      rw [hpending, List.length_nil] at hran
      rw [hwriting] at hturn
      simp only [Bool.false_eq_true, if_false] at hturn
      omega
    | true =>
      rw [hwriting, if_pos rfl] at hturn
      omega

end Writes

end LoginServer
