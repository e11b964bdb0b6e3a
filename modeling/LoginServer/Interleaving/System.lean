import Mathlib.Logic.Function.Basic
import LoginServer.Interleaving.Program

/-!
# Threads over a shared state

A `System` runs programs as threads over one shared state: a step lets one thread issue
its next command and continue with the answer, starts a thread, or changes the shared
state from outside. `Reach meets` are the configurations of the runs all of whose steps
satisfy `meets`; `runLabels` executes a given schedule.

Two rules carry every proof about runs: `Reach.invariant`, the induction over the steps,
and `reach_obedient`, which turns what each program obeys on its own into a property of
all threads of every run.
-/

namespace Interleaving

/-- `J` are the jobs that threads run, `A` the ways to start one, `X` what a step leaves
open and `O` the steps from outside. -/
structure System (J A C : Type) (R : C → Type) (S X O : Type) where
  program : J → Program C R Unit
  start : A → S → Option (J × S)
  /-- One command of thread `t`; `none` while it cannot proceed. -/
  exec : Nat → (c : C) → X → S → Option (R c × S)
  outside : O → S → Option S

structure Thread (J C : Type) (R : C → Type) where
  job : J
  hist : History C R
  prog : Program C R Unit

structure Config (J C : Type) (R : C → Type) (S : Type) where
  threads : Nat → Option (Thread J C R)
  shared : S

namespace Config

variable {J C : Type} {R : C → Type} {S : Type}

/-- The thread `t` and the shared state are replaced. -/
def set (c : Config J C R S) (t : Nat) (th : Thread J C R) (s : S) : Config J C R S :=
  ⟨Function.update c.threads t (some th), s⟩

@[simp] theorem shared_set (c : Config J C R S) (t : Nat) (th : Thread J C R) (s : S) :
    (c.set t th s).shared = s := rfl

@[simp] theorem threads_set_self (c : Config J C R S) (t : Nat) (th : Thread J C R) (s : S) :
    (c.set t th s).threads t = some th :=
  Function.update_self ..

theorem threads_set_of_ne (c : Config J C R S) {t t' : Nat} (h : t' ≠ t) (th : Thread J C R)
    (s : S) : (c.set t th s).threads t' = c.threads t' :=
  Function.update_of_ne h ..

/-- What thread `t` has called so far; nothing before it starts. -/
def hist (c : Config J C R S) (t : Nat) : History C R := ((c.threads t).map Thread.hist).getD []

/-- What thread `t` will call next. -/
def pending (c : Config J C R S) (t : Nat) : Option C :=
  match c.threads t with
  | some ⟨_, _, .op cmd _⟩ => some cmd
  | _ => none

theorem hist_of_threads {c : Config J C R S} {t : Nat} {th : Thread J C R}
    (h : c.threads t = some th) : c.hist t = th.hist := by
  rw [hist, h]
  rfl

theorem hist_set (c : Config J C R S) (t : Nat) (th : Thread J C R) (s : S) :
    (c.set t th s).hist = Function.update c.hist t th.hist := by
  funext t'
  by_cases h : t' = t
  · subst h
    rw [Function.update_self, hist_of_threads (threads_set_self ..)]
  · rw [Function.update_of_ne h, hist, threads_set_of_ne c h, hist]

/-- A thread that starts has called nothing, as before. -/
theorem hist_set_start {c : Config J C R S} {t : Nat} (h : c.threads t = none) (job : J)
    (prog : Program C R Unit) (s : S) : (c.set t ⟨job, [], prog⟩ s).hist = c.hist := by
  rw [hist_set]
  refine Function.update_eq_self_iff.mpr ?_
  rw [hist, h]
  rfl

theorem pending_eq_some {c : Config J C R S} {t : Nat} {cmd : C} :
    c.pending t = some cmd ↔
      ∃ job hist k, c.threads t = some (⟨job, hist, .op cmd k⟩ : Thread J C R) := by
  unfold pending
  constructor
  · intro h
    split at h
    · rename_i job hist cmd' k hthread
      cases h
      exact ⟨job, hist, k, hthread⟩
    · cases h
  · rintro ⟨job, hist, k, hthread⟩
    rw [hthread]

/-- A property of all threads after a thread was replaced. -/
theorem forall_threads_set {c : Config J C R S} {t : Nat} {th : Thread J C R} {s : S}
    {P : Nat → Thread J C R → Prop} (hself : P t th)
    (hother : ∀ t' th', t' ≠ t → c.threads t' = some th' → P t' th') :
    ∀ t' th', (c.set t th s).threads t' = some th' → P t' th' := by
  intro t' th' h
  by_cases heq : t' = t
  · subst heq
    rw [threads_set_self] at h
    cases h
    exact hself
  · rw [threads_set_of_ne c heq] at h
    exact hother t' th' heq h

end Config

inductive Label (A X O : Type) where
  | run (t : Nat) (x : X)
  | spawn (t : Nat) (a : A)
  | outside (o : O)

namespace System

variable {J A C : Type} {R : C → Type} {S X O : Type}

inductive Step (M : System J A C R S X O) :
    Config J C R S → Label A X O → Config J C R S → Prop where
  | run {c : Config J C R S} {t : Nat} {x : X} {job : J} {hist : History C R} {cmd : C}
      {k : R cmd → Program C R Unit} {r : R cmd} {s : S}
      (hthread : c.threads t = some ⟨job, hist, .op cmd k⟩)
      (hexec : M.exec t cmd x c.shared = some (r, s)) :
      Step M c (.run t x)
        (c.set t ⟨job, ⟨cmd, r⟩ :: hist, k r⟩ s)
  | spawn {c : Config J C R S} {t : Nat} {a : A} {job : J} {s : S}
      (hfree : c.threads t = none) (hstart : M.start a c.shared = some (job, s)) :
      Step M c (.spawn t a) (c.set t ⟨job, [], M.program job⟩ s)
  | outside {c : Config J C R S} {o : O} {s : S} (h : M.outside o c.shared = some s) :
      Step M c (.outside o) ⟨c.threads, s⟩

/-- The step of a label, computed. -/
def next (M : System J A C R S X O) (c : Config J C R S) :
    Label A X O → Option (Config J C R S)
  | .run t x =>
    match c.threads t with
    | some ⟨job, hist, .op cmd k⟩ =>
      match M.exec t cmd x c.shared with
      | some (r, s) => some (c.set t ⟨job, ⟨cmd, r⟩ :: hist, k r⟩ s)
      | none => none
    | _ => none
  | .spawn t a =>
    match c.threads t, M.start a c.shared with
    | none, some (job, s) => some (c.set t ⟨job, [], M.program job⟩ s)
    | _, _ => none
  | .outside o =>
    match M.outside o c.shared with
    | some s => some ⟨c.threads, s⟩
    | none => none

/-- A schedule, executed as long as its steps pass the check. -/
def runLabels (M : System J A C R S X O) (check : Config J C R S → Label A X O → Bool)
    (c : Config J C R S) : List (Label A X O) → Option (Config J C R S)
  | [] => some c
  | l :: ls =>
    if check c l then
      match M.next c l with
      | some c => M.runLabels check c ls
      | none => none
    else none

theorem step_of_next {M : System J A C R S X O} {c c' : Config J C R S} {l : Label A X O}
    (h : M.next c l = some c') : M.Step c l c' := by
  cases l with
  | run t x =>
    simp only [next] at h
    split at h
    · rename_i job hist cmd k hthread
      split at h
      · rename_i r s hexec
        cases h
        exact .run hthread hexec
      · cases h
    · cases h
  | spawn t a =>
    simp only [next] at h
    split at h
    · rename_i job s hfree hstart
      cases h
      exact .spawn hfree hstart
    · cases h
  | outside o =>
    simp only [next] at h
    split at h
    · rename_i s hs
      cases h
      exact .outside hs
    · cases h

/-- The configurations of the runs from `c₀` whose steps all satisfy `meets`. -/
inductive Reach (M : System J A C R S X O) (meets : Config J C R S → Label A X O → Prop)
    (c₀ : Config J C R S) : Config J C R S → Prop where
  | refl : Reach M meets c₀ c₀
  | step {c c' : Config J C R S} {l : Label A X O} (hreach : Reach M meets c₀ c)
      (hmeets : meets c l) (hstep : M.Step c l c') : Reach M meets c₀ c'

theorem Reach.invariant {M : System J A C R S X O}
    {meets : Config J C R S → Label A X O → Prop} {c₀ : Config J C R S}
    {I : Config J C R S → Prop} (hinit : I c₀)
    (hstep : ∀ c l c', M.Reach meets c₀ c → I c → meets c l → M.Step c l c' → I c')
    {c : Config J C R S} (h : M.Reach meets c₀ c) : I c := by
  induction h with
  | refl => exact hinit
  | step hreach hmeets hs ih => exact hstep _ _ _ hreach ih hmeets hs

theorem Reach.trans {M : System J A C R S X O}
    {meets : Config J C R S → Label A X O → Prop} {c₀ c₁ c₂ : Config J C R S}
    (h₁ : M.Reach meets c₀ c₁) (h₂ : M.Reach meets c₁ c₂) : M.Reach meets c₀ c₂ := by
  induction h₂ with
  | refl => exact h₁
  | step _ hmeets hs ih => exact ih.step hmeets hs

theorem Reach.mono {M : System J A C R S X O}
    {meets meets' : Config J C R S → Label A X O → Prop}
    (hm : ∀ c l, meets c l → meets' c l) {c₀ c : Config J C R S}
    (h : M.Reach meets c₀ c) : M.Reach meets' c₀ c := by
  induction h with
  | refl => exact .refl
  | step _ hmeets hs ih => exact ih.step (hm _ _ hmeets) hs

/-- A schedule that executes is a run. -/
theorem reach_of_runLabels {M : System J A C R S X O}
    {check : Config J C R S → Label A X O → Bool} {c c' : Config J C R S}
    {ls : List (Label A X O)} (h : M.runLabels check c ls = some c') :
    M.Reach (fun c l => check c l = true) c c' := by
  induction ls generalizing c with
  | nil =>
    cases h
    exact .refl
  | cons l ls ih =>
    simp only [runLabels] at h
    split at h
    · rename_i hcheck
      split at h
      · rename_i c₁ hnext
        exact (Reach.refl.step hcheck (step_of_next hnext)).trans (ih h)
      · cases h
    · cases h

/-! ### Whole programs -/

/-- What a thread has called so far and what it may still call is a run of its program. -/
theorem reach_ends {M : System J A C R S X O} {meets : Config J C R S → Label A X O → Prop}
    {c₀ c : Config J C R S} (hinit : ∀ t, c₀.threads t = none) (h : M.Reach meets c₀ c) :
    ∀ t th, c.threads t = some th →
      ∀ h' a, Ends th.hist th.prog h' a → Ends [] (M.program th.job) h' a := by
  induction h with
  | refl =>
    intro t th ht
    rw [hinit t] at ht
    cases ht
  | step _ _ hs ih =>
    cases hs with
    | run hthread hexec =>
      refine Config.forall_threads_set (fun h' a hends => ?_) fun t' th' _ => ih t' th'
      exact ih _ _ hthread h' a ⟨_, hends⟩
    | spawn hfree hstart =>
      exact Config.forall_threads_set (fun h' a hends => hends) fun t' th' _ => ih t' th'
    | outside ho => exact ih

/-- A thread that has finished has run its program from beginning to end. -/
theorem ends_of_finished {M : System J A C R S X O}
    {meets : Config J C R S → Label A X O → Prop} {c₀ c : Config J C R S}
    (hinit : ∀ t, c₀.threads t = none) (h : M.Reach meets c₀ c) {t : Nat} {job : J}
    {hist : History C R} (hthread : c.threads t = some ⟨job, hist, .pure ()⟩) :
    Ends [] (M.program job) hist () :=
  reach_ends hinit h t _ hthread hist () ⟨rfl, rfl⟩

/-! ### Serial runs -/

/-- While a thread makes a call, no other one is between two of its own. -/
def Serial (c : Config J C R S) : Label A X O → Prop
  | .run t _ => ∀ t', t' ≠ t → c.pending t' = none
  | _ => True

/-- The labels of a run of the threads below `n`. -/
def Label.Below (n : Nat) : Label A X O → Prop
  | .run t _ => t < n
  | .spawn t _ => t < n
  | .outside _ => True

instance (n : Nat) : (l : Label A X O) → Decidable (Label.Below n l)
  | .run t _ => inferInstanceAs (Decidable (t < n))
  | .spawn t _ => inferInstanceAs (Decidable (t < n))
  | .outside _ => .isTrue trivial

/-- `Serial`, for the threads below `n`. -/
def serialBelow (n : Nat) (c : Config J C R S) : Label A X O → Bool
  | .run t _ => (List.range n).all fun t' => t' = t || (c.pending t').isNone
  | _ => true

theorem Serial.of_below {n : Nat} {c : Config J C R S} {l : Label A X O}
    (h : serialBelow n c l = true) (hnone : ∀ t, n ≤ t → c.threads t = none) : Serial c l := by
  cases l with
  | run t x =>
    intro t' ht'
    by_cases hn : t' < n
    · have hall := List.all_eq_true.mp h t' (List.mem_range.mpr hn)
      simpa [ht'] using hall
    · rw [Config.pending, hnone t' (Nat.le_of_not_lt hn)]
  | spawn _ _ => trivial
  | outside _ => trivial

theorem none_of_step {M : System J A C R S X O} {n : Nat} {c c' : Config J C R S}
    {l : Label A X O} (hl : Label.Below n l) (hstep : M.Step c l c')
    (hnone : ∀ t, n ≤ t → c.threads t = none) (t : Nat) (ht : n ≤ t) : c'.threads t = none := by
  cases hstep with
  | run hthread hexec =>
    rw [Config.threads_set_of_ne c (Nat.ne_of_gt (Nat.lt_of_lt_of_le hl ht))]
    exact hnone t ht
  | spawn hfree hstart =>
    rw [Config.threads_set_of_ne c (Nat.ne_of_gt (Nat.lt_of_lt_of_le hl ht))]
    exact hnone t ht
  | outside ho => exact hnone t ht

/-- A schedule that executes, of the threads below `n`. -/
theorem reach_below {M : System J A C R S X O} {check : Config J C R S → Label A X O → Bool}
    {n : Nat} {c c' : Config J C R S} {ls : List (Label A X O)}
    (h : M.runLabels check c ls = some c') (hls : ∀ l ∈ ls, Label.Below n l)
    (hnone : ∀ t, n ≤ t → c.threads t = none) :
    M.Reach (fun c l => check c l = true ∧ Label.Below n l ∧ ∀ t, n ≤ t → c.threads t = none) c c' ∧
    ∀ t, n ≤ t → c'.threads t = none := by
  induction ls generalizing c with
  | nil =>
    cases h
    exact ⟨.refl, hnone⟩
  | cons l ls ih =>
    obtain ⟨hl, hls⟩ := List.forall_mem_cons.mp hls
    simp only [runLabels] at h
    split at h
    · rename_i hcheck
      split at h
      · rename_i c₁ hnext
        have hstep := step_of_next hnext
        obtain ⟨hreach, hnone'⟩ := ih h hls (none_of_step hl hstep hnone)
        exact ⟨(Reach.refl.step ⟨hcheck, hl, hnone⟩ hstep).trans hreach, hnone'⟩
      · cases h
    · cases h

/-! ## Threads obey their discipline -/

/-- Every call in the history was allowed when it was made. -/
def Lawful (may : History C R → C → Prop) : History C R → Prop
  | [] => True
  | e :: h => may h e.1 ∧ Lawful may h

theorem Lawful.of_append {may : History C R → C → Prop} {h h' : History C R}
    (hl : Lawful may (h' ++ h)) : Lawful may h := by
  induction h' with
  | nil => exact hl
  | cons e h' ih => exact ih hl.2

/-- The call of any event of a lawful history was allowed by the history before it. -/
theorem Lawful.may_of_append {may : History C R → C → Prop} {h h' : History C R} {c : C}
    {r : R c} (hl : Lawful may (h' ++ ⟨c, r⟩ :: h)) : may h c :=
  hl.of_append.1

/-- The thread has obeyed `may` so far, will go on to, and will end in `post`. -/
structure Obedient (may : J → History C R → C → Prop) (post : J → History C R → Prop)
    (th : Thread J C R) : Prop where
  lawful : Lawful (may th.job) th.hist
  obeys : Obeys (may th.job) (fun h _ => post th.job h) th.hist th.prog

variable {may : J → History C R → C → Prop} {post : J → History C R → Prop}

/-- The next call of an obedient thread is allowed. -/
theorem Obedient.allowed {job : J} {hist : History C R} {cmd : C}
    {k : R cmd → Program C R Unit} (h : Obedient may post ⟨job, hist, .op cmd k⟩) :
    may job hist cmd :=
  h.obeys.1

theorem Obedient.run {job : J} {hist : History C R} {cmd : C}
    {k : R cmd → Program C R Unit} (h : Obedient may post ⟨job, hist, .op cmd k⟩) (r : R cmd) :
    Obedient may post ⟨job, ⟨cmd, r⟩ :: hist, k r⟩ :=
  ⟨⟨h.allowed, h.lawful⟩, h.obeys.2 r⟩

/-- All threads of a configuration obey. -/
def AllObedient (may : J → History C R → C → Prop) (post : J → History C R → Prop)
    (c : Config J C R S) : Prop :=
  ∀ t th, c.threads t = some th → Obedient may post th

theorem AllObedient.step {M : System J A C R S X O}
    (hprog : ∀ job, Obeys (may job) (fun h _ => post job h) [] (M.program job))
    {c c' : Config J C R S} {l : Label A X O} (h : AllObedient may post c)
    (hstep : M.Step c l c') : AllObedient may post c' := by
  cases hstep with
  | run hthread hexec =>
    exact Config.forall_threads_set ((h _ _ hthread).run _) fun t' th' _ => h t' th'
  | spawn hfree hstart =>
    exact Config.forall_threads_set ⟨trivial, hprog _⟩ fun t' th' _ => h t' th'
  | outside ho => exact h

theorem reach_obedient {M : System J A C R S X O}
    (hprog : ∀ job, Obeys (may job) (fun h _ => post job h) [] (M.program job))
    {meets : Config J C R S → Label A X O → Prop} {c₀ c : Config J C R S}
    (hinit : ∀ t, c₀.threads t = none) (h : M.Reach meets c₀ c) : AllObedient may post c :=
  h.invariant (fun t th ht => by rw [hinit t] at ht; cases ht)
    fun _ _ _ _ hI _ hstep => hI.step hprog hstep

end System

end Interleaving
