import LoginServer.Interleaving.System

/-!
# Systems that keep a log

`M.logged note` is the system `M` with a log of all calls, the latest first. An entry
holds the thread, the call with its answer, and a note of the state in which it was made,
such as the time. The log decides nothing: `reach_erase` and `exists_reach_logged` say
that the two systems have the same runs.
-/

namespace Interleaving

/-- A call that was made, by which thread, and what was noted of the state. -/
structure Entry (C : Type) (R : C → Type) (N : Type) where
  note : N
  thread : Nat
  call : Σ c, R c

variable {J A C : Type} {R : C → Type} {S X O N : Type}

/-- The configuration without its log. -/
def Config.erase (c : Config J C R (S × List (Entry C R N))) : Config J C R S :=
  ⟨c.threads, c.shared.1⟩

/-- The configuration with a log. -/
def Config.withLog (c : Config J C R S) (log : List (Entry C R N)) :
    Config J C R (S × List (Entry C R N)) :=
  ⟨c.threads, (c.shared, log)⟩

/-- The job that thread `t` was started with. -/
def Config.job? (c : Config J C R S) (t : Nat) : Option J := (c.threads t).map Thread.job

namespace System

/-- The system with a log of its calls; `note` is what an entry keeps of the state. -/
def logged (M : System J A C R S X O) (note : S → N) :
    System J A C R (S × List (Entry C R N)) X O where
  program := M.program
  start a s := (M.start a s.1).map fun x => (x.1, (x.2, s.2))
  exec t c x s := (M.exec t c x s.1).map fun y => (y.1, (y.2, ⟨note s.1, t, ⟨c, y.1⟩⟩ :: s.2))
  outside o s := (M.outside o s.1).map fun s' => (s', s.2)

variable {M : System J A C R S X O} {note : S → N}
  {c c' : Config J C R (S × List (Entry C R N))} {l : Label A X O}

/-- A step of the system, and what it does to the log. -/
inductive LoggedStep (M : System J A C R S X O) (note : S → N)
    (c : Config J C R (S × List (Entry C R N))) (l : Label A X O) :
    Config J C R (S × List (Entry C R N)) → Prop where
  | call {t : Nat} {x : X} {job : J} {hist : History C R} {cmd : C}
      {k : R cmd → Program C R Unit} {r : R cmd} {s : S} (hlabel : l = .run t x)
      (hthread : c.threads t = some ⟨job, hist, .op cmd k⟩)
      (hexec : M.exec t cmd x c.shared.1 = some (r, s)) :
      LoggedStep M note c l (c.set t ⟨job, ⟨cmd, r⟩ :: hist, k r⟩
        (s, ⟨note c.shared.1, t, ⟨cmd, r⟩⟩ :: c.shared.2))
  | spawn {t : Nat} {a : A} {job : J} {s : S} (hlabel : l = .spawn t a)
      (hfree : c.threads t = none) (hstart : M.start a c.shared.1 = some (job, s)) :
      LoggedStep M note c l (c.set t ⟨job, [], M.program job⟩ (s, c.shared.2))
  | outside {o : O} {s : S} (hlabel : l = .outside o) (ho : M.outside o c.shared.1 = some s) :
      LoggedStep M note c l ⟨c.threads, (s, c.shared.2)⟩

theorem logged_step_cases (hstep : (M.logged note).Step c l c') : LoggedStep M note c l c' := by
  cases hstep with
  | run hthread hexec =>
    obtain ⟨⟨r, s⟩, hcall, heq⟩ := Option.map_eq_some_iff.mp hexec
    cases heq
    exact .call rfl hthread hcall
  | spawn hfree hstart =>
    obtain ⟨⟨job, s⟩, hjob, heq⟩ := Option.map_eq_some_iff.mp hstart
    cases heq
    exact .spawn rfl hfree hjob
  | outside ho =>
    obtain ⟨s, hs, heq⟩ := Option.map_eq_some_iff.mp ho
    cases heq
    exact .outside rfl hs

theorem step_erase (hstep : (M.logged note).Step c l c') : M.Step c.erase l c'.erase := by
  cases logged_step_cases hstep with
  | call hlabel hthread hexec =>
    rw [hlabel]
    exact .run (c := c.erase) hthread hexec
  | spawn hlabel hfree hstart =>
    rw [hlabel]
    exact .spawn (c := c.erase) hfree hstart
  | outside hlabel ho =>
    rw [hlabel]
    exact .outside (c := c.erase) ho

/-- The log does not change what happens. -/
theorem reach_erase {c₀ : Config J C R (S × List (Entry C R N))}
    {meets : Config J C R S → Label A X O → Prop}
    (h : (M.logged note).Reach (fun c l => meets c.erase l) c₀ c) :
    M.Reach meets c₀.erase c.erase := by
  induction h with
  | refl => exact .refl
  | step _ hmeets hs ih => exact ih.step hmeets (step_erase hs)

theorem reach_erase_any {c₀ : Config J C R (S × List (Entry C R N))}
    {meets : Config J C R (S × List (Entry C R N)) → Label A X O → Prop}
    (h : (M.logged note).Reach meets c₀ c) : M.Reach (fun _ _ => True) c₀.erase c.erase := by
  induction h with
  | refl => exact .refl
  | step _ _ hs ih => exact ih.step trivial (step_erase hs)

/-- Every run can be logged. -/
theorem exists_reach_logged {c₀ c : Config J C R S} {meets : Config J C R S → Label A X O → Prop}
    (h : M.Reach meets c₀ c) (log₀ : List (Entry C R N)) :
    ∃ log, (M.logged note).Reach (fun c l => meets c.erase l) (c₀.withLog log₀)
      (c.withLog log) := by
  induction h with
  | refl => exact ⟨log₀, .refl⟩
  | @step c c' l _ hmeets hs ih =>
    obtain ⟨log, hreach⟩ := ih
    cases hs with
    | @run t x job hist cmd k r s hthread hexec =>
      refine ⟨⟨note c.shared, t, ⟨cmd, r⟩⟩ :: log, hreach.step hmeets ?_⟩
      exact .run (c := c.withLog log) hthread (Option.map_eq_some_iff.mpr ⟨(r, s), hexec, rfl⟩)
    | @spawn t a job s hfree hstart =>
      refine ⟨log, hreach.step hmeets ?_⟩
      exact .spawn (c := c.withLog log) hfree (Option.map_eq_some_iff.mpr ⟨(job, s), hstart, rfl⟩)
    | @outside o s ho =>
      refine ⟨log, hreach.step hmeets ?_⟩
      exact .outside (c := c.withLog log) (Option.map_eq_some_iff.mpr ⟨s, ho, rfl⟩)

end System

end Interleaving
