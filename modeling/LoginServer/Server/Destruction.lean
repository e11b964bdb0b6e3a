import Mathlib.Data.List.Infix
import Mathlib.Data.List.Nodup
import LoginServer.Server.MainEventLoop

/-!
# The destruction of `LoginServer`

`eventHandler_` is declared after `threadPool_` and so is destroyed before it: what the
destructor of `threadPool_` still runs calls a destroyed handler. `dispatch_alive_iff` says
when a run is spared that.
-/

namespace LoginServer

open Machines

namespace LoginServerObject

/-- The event loop's thread can be joined. -/
def loopDone (s : LoginServerObject) : Prop := s.loop = .notStarted ∨ s.loop = .ended

/-- How far the destruction is, and what that says of the loop and of `threadPool_`. -/
structure Teardown (s : LoginServerObject) : Prop where
  alive : s.alive <+: Member.declared
  whole : s.destruction = .no ∨ s.destruction = .joiningLoop → s.alive = Member.declared
  loopDone : s.destruction = .members ∨ s.destruction = .joiningWorkers → s.loopDone
  last : s.destruction = .joiningWorkers → s.alive.getLast? = some .threadPool_
  stop : s.threadPool.stop = true ↔ s.destruction = .joiningWorkers ∨ .threadPool_ ∉ s.alive
  returned : .returned ∈ s.workers → s.threadPool.stop = true ∧ s.threadPool.tasks = []
  joined : .threadPool_ ∉ s.alive → ∀ p ∈ s.workers, p = .returned

variable {cleanupIntervalMs : Int} {s s' : LoginServerObject} {l : ObjectLabel}

theorem Member.nodup_declared : Member.declared.Nodup := by decide

/-- `threadPool_` is gone only after the loop has been joined. -/
theorem Teardown.members_of_gone (ht : s.Teardown) (hgone : .threadPool_ ∉ s.alive) :
    s.destruction = .members := by
  cases hd : s.destruction with
  | no =>
    rw [ht.whole (Or.inl hd)] at hgone
    exact absurd (by decide) hgone
  | joiningLoop =>
    rw [ht.whole (Or.inr hd)] at hgone
    exact absurd (by decide) hgone
  | members => rfl
  | joiningWorkers => exact absurd (List.mem_of_getLast? (ht.last hd)) hgone

/-- The steps that touch neither the members nor `threadPool_`. -/
theorem Teardown.frame (ht : s.Teardown) (halive : s'.alive = s.alive)
    (hd : s'.destruction = s.destruction) (hpool : s'.threadPool = s.threadPool)
    (hworkers : s'.workers = s.workers)
    (hloop : s.loopDone → s.destruction ≠ .no → s'.loopDone) : s'.Teardown where
  alive := halive ▸ ht.alive
  whole h := halive.trans (ht.whole (hd ▸ h))
  loopDone h := by
    rw [hd] at h
    refine hloop (ht.loopDone h) ?_
    rcases h with h | h <;> simp [h]
  last h := halive ▸ ht.last (hd ▸ h)
  stop := by rw [hpool, hd, halive]; exact ht.stop
  returned h := by rw [hpool]; exact ht.returned (hworkers ▸ h)
  joined h := hworkers ▸ ht.joined (halive ▸ h)

/-- A worker that has not returned cannot move once `threadPool_` is gone. -/
theorem Teardown.alive_of_worker (ht : s.Teardown) {worker : Nat} {p : WorkerPhase}
    (hworker : s.workers[worker]? = some p) (hp : p ≠ .returned) : .threadPool_ ∈ s.alive := by
  by_contra hgone
  exact hp (ht.joined hgone p (List.mem_of_getElem? hworker))

/-- A step of a worker that has not returned: only its phase and the tasks change. -/
theorem Teardown.worked (ht : s.Teardown) {worker : Nat} {p p' : WorkerPhase}
    (hworker : s.workers[worker]? = some p) (hp : p ≠ .returned) (halive : s'.alive = s.alive)
    (hd : s'.destruction = s.destruction) (hloop : s'.loop = s.loop)
    (hworkers : s'.workers = s.workers.set worker p')
    (hstop : s'.threadPool.stop = s.threadPool.stop)
    (hreturned : .returned ∈ s.workers ∨ p' = .returned →
      s.threadPool.stop = true ∧ s'.threadPool.tasks = []) : s'.Teardown where
  alive := halive ▸ ht.alive
  whole h := halive.trans (ht.whole (hd ▸ h))
  loopDone h := by
    rw [LoginServerObject.loopDone, hloop]
    exact ht.loopDone (hd ▸ h)
  last h := halive ▸ ht.last (hd ▸ h)
  stop := by rw [hstop, hd, halive]; exact ht.stop
  returned h := by
    rw [hworkers] at h
    rw [hstop]
    exact hreturned ((List.mem_or_eq_of_mem_set h).imp_right Eq.symm)
  joined h := by
    rw [halive] at h
    exact absurd (ht.alive_of_worker hworker hp) h

theorem Teardown.beginDestruction (ht : s.Teardown) (hd : s.destruction = .no) :
    ({ s.stop with destruction := .joiningLoop } : LoginServerObject).Teardown := by
  have hwhole := ht.whole (Or.inl hd)
  refine ⟨ht.alive, fun _ => hwhole, ?_, ?_, ?_, ht.returned, ht.joined⟩
  · rintro (h | h) <;> cases h
  · intro h
    cases h
  · refine ht.stop.trans ?_
    rw [hd]
    exact or_congr_left (by simp)

theorem Teardown.joinLoop (ht : s.Teardown) (hd : s.destruction = .joiningLoop)
    (hloop : s.loopDone) : ({ s with destruction := .members } : LoginServerObject).Teardown := by
  refine ⟨ht.alive, ?_, fun _ => hloop, ?_, ?_, ht.returned, ht.joined⟩
  · rintro (h | h) <;> cases h
  · intro h
    cases h
  · refine ht.stop.trans ?_
    simp [hd]

theorem Teardown.destroyThreadPool (ht : s.Teardown) (hd : s.destruction = .members)
    (hlast : s.alive.getLast? = some .threadPool_) :
    ({ s with
      threadPool := s.threadPool.beginDestruction
      destruction := .joiningWorkers } : LoginServerObject).Teardown := by
  refine ⟨ht.alive, ?_, fun _ => ht.loopDone (Or.inl hd), fun _ => hlast, ?_, ?_, ht.joined⟩
  · rintro (h | h) <;> cases h
  · exact ⟨fun _ => Or.inl rfl, fun _ => rfl⟩
  · intro hreturned
    exact ⟨rfl, (ht.returned hreturned).2⟩

theorem Teardown.destroyMember (ht : s.Teardown) {m : Member} (hd : s.destruction = .members)
    (hlast : s.alive.getLast? = some m) (hm : m ≠ .threadPool_) :
    ({ s with alive := s.alive.dropLast } : LoginServerObject).Teardown := by
  have hsame : .threadPool_ ∈ s.alive.dropLast ↔ .threadPool_ ∈ s.alive := by
    refine ⟨fun h => List.dropLast_subset _ h, fun h => ?_⟩
    rw [← List.dropLast_append_getLast? m hlast] at h
    rcases List.mem_append.mp h with h | h
    · exact h
    · exact absurd (List.mem_singleton.mp h).symm hm
  refine ⟨(List.dropLast_prefix _).trans ht.alive, ?_, fun _ => ht.loopDone (Or.inl hd), ?_, ?_,
    ht.returned, fun hgone => ht.joined (fun h => hgone (hsame.mpr h))⟩
  · rw [hd]
    rintro (h | h) <;> cases h
  · rw [hd]
    intro h
    cases h
  · refine ht.stop.trans ?_
    simp only [hsame]

theorem Teardown.joinWorkers (ht : s.Teardown) (hd : s.destruction = .joiningWorkers)
    (hall : ∀ p ∈ s.workers, p = .returned) :
    ({ s with alive := s.alive.dropLast, destruction := .members } :
      LoginServerObject).Teardown := by
  have hlast := ht.last hd
  have hnodup : s.alive.Nodup := Member.nodup_declared.sublist ht.alive.sublist
  have hgone : .threadPool_ ∉ s.alive.dropLast := by
    rw [← List.dropLast_append_getLast? _ hlast] at hnodup
    exact fun hmem => (List.nodup_append.mp hnodup).2.2 _ hmem _ (List.mem_singleton_self _) rfl
  refine ⟨(List.dropLast_prefix _).trans ht.alive, ?_, fun _ => ht.loopDone (Or.inr hd), ?_, ?_,
    ht.returned, fun _ => hall⟩
  · rintro (h | h) <;> cases h
  · intro h
    cases h
  · exact ⟨fun _ => Or.inr hgone, fun _ => ht.stop.mpr (Or.inl hd)⟩

theorem Teardown.step (ht : s.Teardown) (h : s.step cleanupIntervalMs l = some s') :
    s'.Teardown := by
  have hbusy : ∀ {p : LoopPhase}, s.loop = p → p ≠ .notStarted → p ≠ .ended → ¬ s.loopDone := by
    rintro p hp hne hne' (hloop | hloop)
    · exact hne (hp.symm.trans hloop)
    · exact hne' (hp.symm.trans hloop)
  cases step_cases h with
  | tick => exact ht.frame rfl rfl rfl rfl fun hl _ => hl
  | push =>
    refine ht.frame rfl rfl rfl rfl fun hl _ => ?_
    rcases hl with hl | hl
    · exact Or.inl (by rw [arrive, hl]; rfl)
    · exact Or.inr (by rw [arrive, hl]; rfl)
  | startMainEventLoop hloop hd =>
    exact ht.frame rfl rfl rfl rfl fun _ hno => absurd hd hno
  | checkTrue hloop =>
    exact ht.frame rfl rfl rfl rfl fun hl _ => absurd hl (hbusy hloop (by simp) (by simp))
  | checkFalse hloop hrunning => exact ht.frame rfl rfl rfl rfl fun _ _ => Or.inr rfl
  | popTrue hloop hpop =>
    exact ht.frame rfl rfl rfl rfl fun hl _ => absurd hl (hbusy hloop (by simp) (by simp))
  | popFalse hloop hpop =>
    exact ht.frame rfl rfl rfl rfl fun hl _ => absurd hl (hbusy hloop (by simp) (by simp))
  | popThrows hloop hpop => exact ht.frame rfl rfl rfl rfl fun _ _ => Or.inr rfl
  | @enqueue w event rest threadPool hloop henqueue =>
    have hbusy' := hbusy hloop (by simp) (by simp)
    obtain ⟨hstop, rfl⟩ := ThreadPool.of_enqueueTask henqueue
    refine ⟨ht.alive, ht.whole, fun hd => absurd (ht.loopDone hd) hbusy', ht.last, ht.stop, ?_,
      ht.joined⟩
    · intro hreturned
      have hstop' := (ht.returned hreturned).1
      rw [hstop] at hstop'
      cases hstop'
  | drop hloop henqueue =>
    exact ht.frame rfl rfl rfl rfl fun hl _ => absurd hl (hbusy hloop (by simp) (by simp))
  | endBatch hloop =>
    exact ht.frame rfl rfl rfl rfl fun hl _ => absurd hl (hbusy hloop (by simp) (by simp))
  | endCleanup hloop =>
    exact ht.frame rfl rfl rfl rfl fun hl _ => absurd hl (hbusy hloop (by simp) (by simp))
  | @take worker event rest hworker htasks =>
    refine ht.worked hworker (by simp) rfl rfl rfl rfl rfl fun hreturned => ?_
    rcases hreturned with hreturned | heq
    · have htasks' := (ht.returned hreturned).2
      rw [htasks] at htasks'
      cases htasks'
    · cases heq
  | exit hworker htasks hstop =>
    exact ht.worked hworker (by simp) rfl rfl rfl rfl rfl fun _ => ⟨hstop, htasks⟩
  | @finish worker event outcome hworker =>
    refine ht.worked hworker (by simp) rfl rfl rfl rfl rfl fun hreturned => ?_
    rcases hreturned with hreturned | heq
    · exact ht.returned hreturned
    · cases outcome <;> cases heq
  | stop hd => exact ht.frame rfl rfl rfl rfl fun _ hno => absurd hd hno
  | beginDestruction hd => exact ht.beginDestruction hd
  | joinLoop hd hloop => exact ht.joinLoop hd hloop
  | destroyThreadPool hd hlast => exact ht.destroyThreadPool hd hlast
  | destroyMember hd hlast hm => exact ht.destroyMember hd hlast hm
  | joinWorkers hd hall => exact ht.joinWorkers hd hall

theorem Teardown.of_run {workers : Nat} {steps : List (LoginServerObject × ObjectLabel)}
    (h : (loginServerMachine cleanupIntervalMs workers).Run steps s) : s.Teardown := by
  refine h.invariant ?_ fun _ _ _ hi hs => hi.step hs
  refine ⟨List.prefix_refl _, fun _ => rfl, ?_, ?_, ?_, ?_, ?_⟩
  · rintro (h | h) <;> cases h
  · intro h
    cases h
  · have hdeclared : false = true ↔
        Destruction.no = .joiningWorkers ∨ .threadPool_ ∉ Member.declared := by decide
    exact hdeclared
  · intro h
    cases List.eq_of_mem_replicate h
  · intro h
    have hdeclared : .threadPool_ ∈ Member.declared := by decide
    exact absurd hdeclared h

/-! ## Calls of a destroyed handler -/

/-- The step begins or ends a call of `dispatchEvent`. -/
def startsOrEndsDispatch (s : LoginServerObject) : ObjectLabel → Bool
  | .take _ => !s.threadPool.tasks.isEmpty
  | .finish _ _ => true
  | _ => false

/-- The step destroys `eventHandler_`. -/
def destroysHandler (s : LoginServerObject) (l : ObjectLabel) : Prop :=
  l = .destroyMember ∧ s.alive.getLast? = some .eventHandler_

/-- No worker is inside a task, and none is queued for one. -/
def idle (s : LoginServerObject) : Prop :=
  (∀ event, .running event ∉ s.workers) ∧ (s.threadPool.tasks = [] ∨ s.workers = [])

/-- Members are only ever destroyed, the last of them first. -/
theorem alive_step (h : s.step cleanupIntervalMs l = some s') :
    s'.alive = s.alive ∨ ∃ m, s.alive.getLast? = some m ∧ s'.alive = s.alive.dropLast ∧
      (l = .destroyMember ∨ s.destruction = .joiningWorkers) := by
  cases step_cases h with
  | destroyMember hd hlast hm => exact Or.inr ⟨_, hlast, rfl, Or.inl rfl⟩
  | joinWorkers hd hall =>
    cases hlast : s.alive.getLast? with
    | none =>
      rw [List.getLast?_eq_none_iff] at hlast
      refine Or.inl ?_
      change s.alive.dropLast = s.alive
      rw [hlast]
      rfl
    | some m => exact Or.inr ⟨m, rfl, rfl, Or.inr hd⟩
  | _ => exact Or.inl rfl

/-- `eventHandler_` goes by the step that destroys it. -/
theorem Teardown.destroysHandler_of_gone (ht : s.Teardown)
    (h : s.step cleanupIntervalMs l = some s') (hmem : .eventHandler_ ∈ s.alive)
    (hgone : .eventHandler_ ∉ s'.alive) : s.destroysHandler l := by
  rcases alive_step h with heq | ⟨m, hlast, heq, hwhen⟩
  · rw [heq] at hgone
    exact absurd hmem hgone
  · have hm : m = .eventHandler_ := by
      rw [heq] at hgone
      rw [← List.dropLast_append_getLast? m hlast] at hmem
      rcases List.mem_append.mp hmem with hmem | hmem
      · exact absurd hmem hgone
      · exact (List.mem_singleton.mp hmem).symm
    subst hm
    rcases hwhen with rfl | hd
    · exact ⟨rfl, hlast⟩
    · rw [ht.last hd] at hlast
      cases hlast

theorem Teardown.gone_of_destroysHandler (ht : s.Teardown)
    (h : s.step cleanupIntervalMs l = some s') (hx : s.destroysHandler l) :
    .eventHandler_ ∉ s'.alive := by
  obtain ⟨rfl, hlast⟩ := hx
  have hnodup : s.alive.Nodup := Member.nodup_declared.sublist ht.alive.sublist
  rw [← List.dropLast_append_getLast? _ hlast] at hnodup
  have hgone : .eventHandler_ ∉ s.alive.dropLast := fun hmem =>
    (List.nodup_append.mp hnodup).2.2 _ hmem _ (List.mem_singleton_self _) rfl
  cases step_cases h with
  | destroyThreadPool hd hlast' =>
    rw [hlast] at hlast'
    cases hlast'
  | destroyMember hd hlast' hm => exact hgone

theorem gone_step (h : s.step cleanupIntervalMs l = some s') (hgone : .eventHandler_ ∉ s.alive) :
    .eventHandler_ ∉ s'.alive := by
  rcases alive_step h with heq | ⟨m, hlast, heq, _⟩
  · rw [heq]
    exact hgone
  · rw [heq]
    exact fun hmem => hgone (List.dropLast_subset _ hmem)

/-- When `eventHandler_` is gone the loop has been joined. -/
theorem Teardown.loopDone_of_gone (ht : s.Teardown) (hgone : .eventHandler_ ∉ s.alive) :
    s.loopDone := by
  have hdeclared : .eventHandler_ ∈ Member.declared := by decide
  cases hd : s.destruction with
  | no =>
    rw [ht.whole (Or.inl hd)] at hgone
    exact absurd hdeclared hgone
  | joiningLoop =>
    rw [ht.whole (Or.inr hd)] at hgone
    exact absurd hdeclared hgone
  | members => exact ht.loopDone (Or.inl hd)
  | joiningWorkers => exact ht.loopDone (Or.inr hd)

/-- A worker that has not run a task moves, and the running ones stay. -/
theorem idle_setWorker {worker : Nat} {p q : WorkerPhase} (hworker : s.workers[worker]? = some p)
    (hp : ∀ event, p ≠ .running event) (hq : ∀ event, q ≠ .running event) :
    (s.setWorker worker q).idle ↔ s.idle := by
  have hrunning : ∀ event, .running event ∈ s.workers.set worker q ↔
      .running event ∈ s.workers := by
    intro event
    constructor
    · intro hmem
      rcases List.mem_or_eq_of_mem_set hmem with hmem | heq
      · exact hmem
      · exact absurd heq.symm (hq event)
    · exact fun hmem => Monitor.mem_set_of_ne hmem hworker fun heq => hp event heq.symm
  have hnil : s.workers.set worker q = [] ↔ s.workers = [] := by
    rw [← List.length_eq_zero_iff, List.length_set, List.length_eq_zero_iff]
  exact and_congr (forall_congr' fun event => not_congr (hrunning event))
    (or_congr Iff.rfl hnil)

/-- Once the loop is joined, only the ends of a dispatch change what is left to run. -/
theorem idle_step (hloop : s.loopDone) (hnot : s.startsOrEndsDispatch l = false)
    (h : s.step cleanupIntervalMs l = some s') : s'.idle ↔ s.idle := by
  cases step_cases h with
  | enqueue hbusy henqueue =>
    rcases hloop with hloop | hloop <;> rw [hbusy] at hloop <;> cases hloop
  | take hworker htasks =>
    rw [startsOrEndsDispatch, htasks] at hnot
    cases hnot
  | exit hworker htasks hstop => exact idle_setWorker hworker (by simp) (by simp)
  | finish hworker => cases hnot
  | _ => exact Iff.rfl

theorem idle_destroysHandler (h : s.step cleanupIntervalMs l = some s')
    (hx : s.destroysHandler l) : s'.idle ↔ s.idle := by
  obtain ⟨rfl, hlast⟩ := hx
  cases step_cases h with
  | destroyThreadPool hd hlast' =>
    rw [hlast] at hlast'
    cases hlast'
  | destroyMember hd hlast' hm => exact Iff.rfl

/-- Nothing begins or ends a dispatch where nothing is left to run. -/
theorem not_startsOrEnds_of_idle (hidle : s.idle) (h : s.step cleanupIntervalMs l = some s') :
    s.startsOrEndsDispatch l = false := by
  refine eq_false_of_ne_true fun hstarts => ?_
  cases step_cases h with
  | take hworker htasks =>
    rcases hidle.2 with hnil | hnil
    · rw [htasks] at hnil
      cases hnil
    · rw [hnil] at hworker
      cases hworker
  | exit hworker htasks hstop =>
    rw [startsOrEndsDispatch, htasks] at hstarts
    cases hstarts
  | finish hworker => exact hidle.1 _ (List.mem_of_getElem? hworker)
  | _ => cases hstarts

/-- If nothing was left to run when the handler was destroyed, nothing is since. -/
theorem idle_since {workers : Nat} {steps : List (LoginServerObject × ObjectLabel)}
    (hrun : (loginServerMachine cleanupIntervalMs workers).Run steps s)
    (hidle : ∀ x ∈ steps, x.1.destroysHandler x.2 → x.1.idle) :
    (∀ x ∈ steps, x.1.startsOrEndsDispatch x.2 = true → .eventHandler_ ∈ x.1.alive) ∧
    (.eventHandler_ ∉ s.alive → s.idle) := by
  refine hrun.induct (C := fun s l => s.destroysHandler l → s.idle)
    (I := fun steps s =>
      (∀ x ∈ steps, x.1.startsOrEndsDispatch x.2 = true → .eventHandler_ ∈ x.1.alive) ∧
      (.eventHandler_ ∉ s.alive → s.idle)) ?_ ?_ hidle
  · refine ⟨fun x hx => absurd hx List.not_mem_nil, fun hgone => ?_⟩
    have hdeclared : .eventHandler_ ∈ Member.declared := by decide
    exact absurd hdeclared hgone
  · rintro steps s l s' hrun ⟨hall, hsince⟩ hmeets (h : s.step cleanupIntervalMs l = some s')
    have ht := Teardown.of_run hrun
    have hnow : s.startsOrEndsDispatch l = true → .eventHandler_ ∈ s.alive := by
      intro hstarts
      by_contra hgone
      rw [not_startsOrEnds_of_idle (hsince hgone) h] at hstarts
      cases hstarts
    refine ⟨List.forall_mem_cons.mpr ⟨hnow, hall⟩, fun hgone' => ?_⟩
    by_cases hmem : .eventHandler_ ∈ s.alive
    · -- the step destroys the handler and does nothing else
      have hx := ht.destroysHandler_of_gone h hmem hgone'
      exact (idle_destroysHandler h hx).mpr (hmeets hx)
    · have hidle := hsince hmem
      exact (idle_step (ht.loopDone_of_gone hmem) (not_startsOrEnds_of_idle hidle h) h).mpr hidle

/-- If something was left to run when the handler was destroyed, it has called it since or
is still left. -/
theorem called_since {workers : Nat} {steps : List (LoginServerObject × ObjectLabel)}
    (hrun : (loginServerMachine cleanupIntervalMs workers).Run steps s)
    (hbusy : ∃ x ∈ steps, x.1.destroysHandler x.2 ∧ ¬ x.1.idle) :
    (∃ x ∈ steps, x.1.startsOrEndsDispatch x.2 = true ∧ .eventHandler_ ∉ x.1.alive) ∨
    (.eventHandler_ ∉ s.alive ∧ ¬ s.idle) := by
  revert hbusy
  refine hrun.induct (C := fun _ _ => True)
    (I := fun steps s => (∃ x ∈ steps, x.1.destroysHandler x.2 ∧ ¬ x.1.idle) →
      (∃ x ∈ steps, x.1.startsOrEndsDispatch x.2 = true ∧ .eventHandler_ ∉ x.1.alive) ∨
      (.eventHandler_ ∉ s.alive ∧ ¬ s.idle)) ?_ ?_ fun _ _ => trivial
  · rintro ⟨x, hx, -⟩
    cases hx
  · rintro steps s l s' hrun ih - (h : s.step cleanupIntervalMs l = some s')
      ⟨x, hx, hdestroys, hbusy⟩
    have ht := Teardown.of_run hrun
    cases hx with
    | head =>
      have hgone := ht.gone_of_destroysHandler h hdestroys
      exact Or.inr ⟨hgone, fun hidle => hbusy ((idle_destroysHandler h hdestroys).mp hidle)⟩
    | tail _ hx =>
      rcases ih ⟨x, hx, hdestroys, hbusy⟩ with ⟨y, hy, hcalls⟩ | ⟨hgone, hbusy⟩
      · exact Or.inl ⟨y, List.mem_cons_of_mem _ hy, hcalls⟩
      · cases hstarts : s.startsOrEndsDispatch l with
        | true => exact Or.inl ⟨(s, l), List.mem_cons_self, hstarts, hgone⟩
        | false =>
          have hsame := idle_step (ht.loopDone_of_gone hgone) hstarts h
          exact Or.inr ⟨gone_step h hgone, fun hidle => hbusy (hsame.mp hidle)⟩

/-- A destroyed object has nothing left to run. -/
theorem Teardown.idle_of_destroyed (ht : s.Teardown) (hdone : s.alive = []) : s.idle := by
  have hgone : .threadPool_ ∉ s.alive := by
    rw [hdone]
    exact List.not_mem_nil
  have hall := ht.joined hgone
  refine ⟨fun event hmem => ?_, ?_⟩
  · cases hall _ hmem
  · cases hw : s.workers with
    | nil => exact Or.inr rfl
    | cons p rest =>
      refine Or.inl (ht.returned ?_).2
      rw [← hall p (hw ▸ List.mem_cons_self), hw]
      exact List.mem_cons_self

end LoginServerObject

/-- In a run to the end of the destruction, every dispatch starts and ends while
`eventHandler_` is alive exactly when no task is queued or running at the moment that
`eventHandler_` is destroyed. -/
theorem dispatch_alive_iff {cleanupIntervalMs : Int} {workers : Nat}
    {steps : List (LoginServerObject × ObjectLabel)} {s : LoginServerObject}
    (hrun : (loginServerMachine cleanupIntervalMs workers).Run steps s) (hdone : s.alive = []) :
    (∀ x ∈ steps, x.1.startsOrEndsDispatch x.2 = true → .eventHandler_ ∈ x.1.alive) ↔
      ∀ x ∈ steps, x.1.destroysHandler x.2 → x.1.idle := by
  constructor
  · intro halive x hx hdestroys
    by_contra hbusy
    rcases LoginServerObject.called_since hrun ⟨x, hx, hdestroys, hbusy⟩ with
      ⟨y, hy, hstarts, hgone⟩ | ⟨-, hleft⟩
    · exact hgone (halive y hy hstarts)
    · exact hleft ((LoginServerObject.Teardown.of_run hrun).idle_of_destroyed hdone)
  · intro hidle
    exact (LoginServerObject.idle_since hrun hidle).1

/-- One worker, and a destruction that starts after the only event was handled. -/
theorem dispatch_alive_iff_quiet :
    ∃ steps s, (loginServerMachine 1000 1).Run steps s ∧ s.alive = [] ∧
      ∀ x ∈ steps, x.1.startsOrEndsDispatch x.2 = true → .eventHandler_ ∈ x.1.alive := by
  obtain ⟨steps, s, hrun, hP⟩ := Machine.exists_run (loginServerMachine 1000 1)
    ([.push ⟨.PING_CLIENT, 0, .clientData {}, none, none⟩, .startMainEventLoop, .check,
      .tryPopBatch, .enqueueTask, .take 0, .finish 0 .returns, .endIteration, .beginDestruction,
      .check, .joinLoop] ++ List.replicate 11 .destroyMember ++ [.take 0, .joinWorkers,
      .destroyMember, .destroyMember])
    (fun r => r.2.alive.isEmpty && r.1.all fun x =>
      x.1.alive.getLast? ≠ some .eventHandler_ || x.1.threadPool.tasks.isEmpty &&
        x.1.workers == [.waiting]) (by decide)
  rw [Bool.and_eq_true, List.isEmpty_iff, List.all_eq_true] at hP
  refine ⟨steps, s, hrun, hP.1, (dispatch_alive_iff hrun hP.1).mpr fun x hx hdestroys => ?_⟩
  have hidle := hP.2 x hx
  simp only [hdestroys.2, ne_eq, not_true_eq_false, decide_false, Bool.false_or,
    Bool.and_eq_true, List.isEmpty_iff, beq_iff_eq] at hidle
  refine ⟨fun event hmem => ?_, Or.inl hidle.1⟩
  rw [hidle.2] at hmem
  cases List.mem_singleton.mp hmem

/-- The worker has not come to the task when the destruction starts. -/
theorem dispatch_on_destroyed_handler :
    ∃ steps s, (loginServerMachine 1000 1).Run steps s ∧
      ∃ x ∈ steps, x.1.startsOrEndsDispatch x.2 = true ∧ .eventHandler_ ∉ x.1.alive := by
  obtain ⟨steps, s, hrun, hP⟩ := Machine.exists_run (loginServerMachine 1000 1)
    ([.push ⟨.PING_CLIENT, 0, .clientData {}, none, none⟩, .startMainEventLoop, .check,
      .tryPopBatch, .enqueueTask, .endIteration, .beginDestruction, .check, .joinLoop] ++
      List.replicate 11 .destroyMember ++ [.take 0, .finish 0 .returns])
    (fun r => r.1.any fun x =>
      x.1.startsOrEndsDispatch x.2 && decide (.eventHandler_ ∉ x.1.alive)) (by decide)
  obtain ⟨x, hx, hcalls⟩ := List.any_eq_true.mp hP
  rw [Bool.and_eq_true, decide_eq_true_eq] at hcalls
  exact ⟨steps, s, hrun, x, hx, hcalls⟩

end LoginServer
