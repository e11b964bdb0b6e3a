import LoginServer.Server.EventDispatch

/-!
# How often `mainEventLoop` cleans up

The cleanup branch runs when `tryPopBatch` answers false, which it does after a wait that
began with an empty queue and saw no push. Traffic that never leaves such a pause starves
the branch; `cleanup_cadence_iff` says that nothing else does.
-/

namespace LoginServer

open Machines

/-- Between two iterations completed more than `span` apart, the later one included, there
is one of a kind. -/
def SeenWithin (span : Int) (kind : Iteration → Bool) (iterations : List Iteration) : Prop :=
  ∀ (i j : Nat) (a b : Iteration), i < j → iterations[i]? = some a → iterations[j]? = some b →
    span < b.ended - a.ended → ∃ k c, i < k ∧ k ≤ j ∧ iterations[k]? = some c ∧ kind c = true

theorem SeenWithin.mono {span : Int} {kind kind' : Iteration → Bool} {iterations : List Iteration}
    (h : SeenWithin span kind iterations)
    (hkind : ∀ c ∈ iterations, kind c = true → kind' c = true) :
    SeenWithin span kind' iterations := by
  intro i j a b hij ha hb hspan
  obtain ⟨k, c, hik, hkj, hc, hkc⟩ := h i j a b hij ha hb hspan
  exact ⟨k, c, hik, hkj, hc, hkind c (List.mem_of_getElem? hc) hkc⟩

namespace LoginServerObject

/-- What an iteration has seen of the queue decides its branch. -/
structure Cadence (s : LoginServerObject) : Prop where
  /-- Nobody else pops: what was queued and what arrived is still there. -/
  popping : ∀ w, s.loop = .popping w → s.eventQueue.queue.length = w.queued + w.arrived
  enqueueing : ∀ rest w, s.loop = .enqueueing rest w → w.quiet = false
  cleaning : ∀ w, s.loop = .cleaning w → w.quiet = true
  iterations : ∀ c ∈ s.iterations, c.cleanup = c.wait.quiet

variable {cleanupIntervalMs : Int} {s s' : LoginServerObject} {l : ObjectLabel}

theorem quiet_iff (w : PopWait) : w.quiet = true ↔ w.queued + w.arrived = 0 := by
  rw [PopWait.quiet, Bool.and_eq_true, beq_iff_eq, beq_iff_eq]
  omega

/-- `tryPopBatch` answers false exactly on an empty queue. -/
theorem answer_tryPopBatch {q q' : EventQueue} {answer : Bool} {events : List Event}
    (h : q.tryPopBatch [] BATCH_SIZE = (some (answer, events), q')) :
    answer = false ↔ q.queue.length = 0 := by
  unfold EventQueue.tryPopBatch EventQueue.popBatch EventQueue.ready at h
  dsimp only at h
  rw [List.length_eq_zero_iff]
  split_ifs at h with hready hempty hthrows <;> cases h
  · simp only [Bool.not_or, Bool.not_not, Bool.and_eq_true, List.isEmpty_iff] at hready
    exact ⟨fun _ => hready.1, fun _ => rfl⟩
  · exact ⟨fun _ => List.isEmpty_iff.mp hempty, fun _ => rfl⟩
  · have hqueue : q.queue ≠ [] := fun hnil => hempty (List.isEmpty_iff.mpr hnil)
    rw [Bool.not_eq_false', List.isEmpty_iff, List.nil_append, List.take_eq_nil_iff]
    refine ⟨fun hnil => ?_, fun hnil => Or.inr hnil⟩
    rcases hnil with hzero | hnil
    · cases hzero
    · exact hnil

/-- The steps outside of an iteration's beginning, end and answer. -/
theorem Cadence.frame (hc : s.Cadence) (hloop : s'.loop = s.loop)
    (hqueue : s'.eventQueue.queue = s.eventQueue.queue) (hits : s'.iterations = s.iterations) :
    s'.Cadence where
  popping w h := by
    rw [hqueue]
    exact hc.popping w (hloop ▸ h)
  enqueueing rest w h := hc.enqueueing rest w (hloop ▸ h)
  cleaning w h := hc.cleaning w (hloop ▸ h)
  iterations := hits ▸ hc.iterations

/-- The loop goes to a phase that says nothing of a wait. -/
theorem Cadence.leave (hc : s.Cadence) {p : LoopPhase} (hloop : s'.loop = p)
    (hp : p = .checking ∨ p = .ended) (hits : ∀ c ∈ s'.iterations, c ∈ s.iterations ∨
      c.cleanup = c.wait.quiet) : s'.Cadence := by
  have hnot : s'.loop = .checking ∨ s'.loop = .ended := hloop ▸ hp
  refine ⟨fun w h => ?_, fun rest w h => ?_, fun w h => ?_, fun c hmem => ?_⟩
  · rcases hnot with hnot | hnot <;> rw [h] at hnot <;> cases hnot
  · rcases hnot with hnot | hnot <;> rw [h] at hnot <;> cases hnot
  · rcases hnot with hnot | hnot <;> rw [h] at hnot <;> cases hnot
  · exact (hits c hmem).elim (hc.iterations c) id

theorem Cadence.step (hc : s.Cadence) (h : s.step cleanupIntervalMs l = some s') :
    s'.Cadence := by
  cases step_cases h with
  | @push event =>
    refine ⟨fun w hw => ?_, fun rest w hw => ?_, fun w hw => ?_, hc.iterations⟩
    · change s.loop.arrived = .popping w at hw
      cases hloop : s.loop with
      | popping w' =>
        rw [hloop] at hw
        cases hw
        have hlength := hc.popping w' hloop
        change (s.eventQueue.queue ++ [event]).length = w'.queued + (w'.arrived + 1)
        rw [List.length_append, List.length_singleton, hlength, Nat.add_assoc]
      | _ =>
        rw [hloop] at hw
        cases hw
    · change s.loop.arrived = .enqueueing rest w at hw
      cases hloop : s.loop <;> rw [hloop] at hw <;> cases hw
      exact hc.enqueueing rest w hloop
    · change s.loop.arrived = .cleaning w at hw
      cases hloop : s.loop <;> rw [hloop] at hw <;> cases hw
      exact hc.cleaning w hloop
  | startMainEventLoop hloop hd => exact hc.leave rfl (Or.inl rfl) fun _ hc => Or.inl hc
  | checkTrue hloop =>
    refine ⟨fun w hw => ?_, fun rest w hw => ?_, fun w hw => ?_, hc.iterations⟩
    · cases hw
      rfl
    · cases hw
    · cases hw
  | checkFalse hloop hrunning => exact hc.leave rfl (Or.inr rfl) fun _ hc => Or.inl hc
  | @popTrue w events eventQueue hloop hpop =>
    have hqueue : w.queued + w.arrived ≠ 0 := by
      rw [← hc.popping w hloop]
      intro hzero
      cases (answer_tryPopBatch hpop).mpr hzero
    refine ⟨fun w hw => ?_, fun rest w' hw => ?_, fun w hw => ?_, hc.iterations⟩
    · cases hw
    · cases hw
      exact eq_false_of_ne_true fun hquiet => hqueue ((quiet_iff w).mp hquiet)
    · cases hw
  | @popFalse w events eventQueue hloop hpop =>
    have hqueue : w.queued + w.arrived = 0 := by
      rw [← hc.popping w hloop]
      exact (answer_tryPopBatch hpop).mp rfl
    refine ⟨fun w hw => ?_, fun rest w' hw => ?_, fun w' hw => ?_, hc.iterations⟩
    · cases hw
    · cases hw
    · cases hw
      exact (quiet_iff w).mpr hqueue
  | popThrows hloop hpop => exact hc.leave rfl (Or.inr rfl) fun _ hc => Or.inl hc
  | @enqueue w event rest threadPool hloop henqueue =>
    refine ⟨fun w hw => ?_, fun rest w' hw => ?_, fun w hw => ?_, hc.iterations⟩
    · cases hw
    · cases hw
      exact hc.enqueueing _ w hloop
    · cases hw
  | @drop w event rest hloop henqueue =>
    refine ⟨fun w hw => ?_, fun rest w' hw => ?_, fun w hw => ?_, hc.iterations⟩
    · cases hw
    · cases hw
      exact hc.enqueueing _ w hloop
    · cases hw
  | @endBatch w hloop =>
    refine hc.leave rfl (Or.inl rfl) fun c hmem => ?_
    rcases List.mem_append.mp hmem with hmem | hmem
    · exact Or.inl hmem
    · rw [List.mem_singleton.mp hmem]
      exact Or.inr (hc.enqueueing _ w hloop).symm
  | @endCleanup w hloop =>
    refine hc.leave rfl (Or.inl rfl) fun c hmem => ?_
    rcases List.mem_append.mp hmem with hmem | hmem
    · exact Or.inl hmem
    · rw [List.mem_singleton.mp hmem]
      exact Or.inr (hc.cleaning w hloop).symm
  | _ => exact hc.frame rfl rfl rfl

theorem Cadence.of_run {workers : Nat} {steps : List (LoginServerObject × ObjectLabel)}
    (h : (loginServerMachine cleanupIntervalMs workers).Run steps s) : s.Cadence := by
  refine h.invariant ⟨fun w hw => ?_, fun rest w hw => ?_, fun w hw => ?_, fun c hc => ?_⟩
    fun _ _ _ hi hs => hi.step hs
  · cases hw
  · cases hw
  · cases hw
  · cases hc

end LoginServerObject

/-- Any span of more than three intervals between two completed iterations has seen the
cleanup branch exactly when in each such span a wait began with an empty queue and saw no
event arrive. -/
theorem cleanup_cadence_iff {cleanupIntervalMs : Int} {workers : Nat}
    {steps : List (LoginServerObject × ObjectLabel)} {s : LoginServerObject}
    (hrun : (loginServerMachine cleanupIntervalMs workers).Run steps s) :
    SeenWithin (3 * cleanupIntervalMs) Iteration.cleanup s.iterations ↔
      SeenWithin (3 * cleanupIntervalMs) (fun c => c.wait.quiet) s.iterations := by
  have hc := (LoginServerObject.Cadence.of_run hrun).iterations
  constructor
  · exact fun h => h.mono fun c hmem hcleanup => (hc c hmem).symm.trans hcleanup
  · exact fun h => h.mono fun c hmem hquiet => (hc c hmem).trans hquiet

/-- Five iterations that find nothing for a second each. -/
theorem cleanup_cadence_iff_quiet :
    ∃ iterations : List Iteration, iterations.map Iteration.ended = [1000, 2000, 3000, 4000, 5000] ∧
      SeenWithin 3000 Iteration.cleanup iterations := by
  obtain ⟨steps, s, hrun, hP⟩ := Machine.exists_run (loginServerMachine 1000 1)
    (.startMainEventLoop ::
      (List.replicate 5 [.check, .tick 1000, .tryPopBatch, .endIteration]).flatten)
    (fun r => r.2.iterations.map Iteration.ended = [1000, 2000, 3000, 4000, 5000] &&
      r.2.iterations.all fun c => c.wait.quiet) (by decide)
  rw [Bool.and_eq_true, decide_eq_true_eq, List.all_eq_true] at hP
  refine ⟨s.iterations, hP.1, (cleanup_cadence_iff hrun).mpr ?_⟩
  intro i j a b hij ha hb _
  exact ⟨j, b, hij, Nat.le_refl j, hb, hP.2 b (List.mem_of_getElem? hb)⟩

/-- A ping every 900 ms, with an interval of a second: no iteration cleans up, and the last
one ends 3600 ms after the first. -/
theorem pings_starve_cleanup :
    ∃ steps s, (loginServerMachine 1000 1).Run steps s ∧
      ¬ SeenWithin (3 * 1000) Iteration.cleanup s.iterations := by
  obtain ⟨steps, s, hrun, hP⟩ := Machine.exists_run (loginServerMachine 1000 1)
    (.startMainEventLoop :: (List.replicate 5 [.check, .tick 900,
      .push ⟨.PING_CLIENT, 0, .clientData {}, none, none⟩, .tryPopBatch, .enqueueTask, .take 0,
      .finish 0 .returns, .endIteration]).flatten)
    (fun r => r.2.iterations.map Iteration.ended = [900, 1800, 2700, 3600, 4500] &&
      r.2.iterations.all fun c => !c.cleanup) (by decide)
  rw [Bool.and_eq_true, decide_eq_true_eq, List.all_eq_true] at hP
  obtain ⟨hended, hnone⟩ := hP
  refine ⟨steps, s, hrun, fun hseen => ?_⟩
  have hget : ∀ i : Nat, (s.iterations[i]?).map Iteration.ended =
      ([900, 1800, 2700, 3600, 4500] : List Int)[i]? := by
    intro i
    rw [← List.getElem?_map, hended]
  obtain ⟨a, ha, ha'⟩ := Option.map_eq_some_iff.mp (hget 0)
  obtain ⟨b, hb, hb'⟩ := Option.map_eq_some_iff.mp (hget 4)
  obtain ⟨k, c, _, _, hc, hcleanup⟩ := hseen 0 4 a b (by decide) ha hb (by rw [ha', hb']; decide)
  have hnot := hnone c (List.mem_of_getElem? hc)
  rw [hcleanup] at hnot
  cases hnot

end LoginServer
