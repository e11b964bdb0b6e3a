import Mathlib.Logic.Relation

/-!
# Machines and their runs

A machine has one partial step for each label. A run comes with the steps it took, each
as the state before it and its label, the latest first: a condition that every step of a
run meets is a condition on that list. `execute` computes the run of a list of labels.

Every proof about runs goes through `Run.invariant`, or through `Run.invariantOf` where
the steps are known to meet a condition.
-/

namespace Machines

structure Machine (S L : Type) where
  init : S
  step : S → L → Option S

namespace Machine

variable {S L : Type} {M : Machine S L}

inductive Run (M : Machine S L) : List (S × L) → S → Prop where
  | init : Run M [] M.init
  | step {steps : List (S × L)} {s s' : S} {l : L} (hrun : Run M steps s)
      (hstep : M.step s l = some s') : Run M ((s, l) :: steps) s'

/-- A property of the steps and the state that each step keeps when it meets a condition. -/
theorem Run.induct {C : S → L → Prop} {I : List (S × L) → S → Prop} (hinit : I [] M.init)
    (hstep : ∀ steps s l s', M.Run steps s → I steps s → C s l → M.step s l = some s' →
      I ((s, l) :: steps) s')
    {steps : List (S × L)} {s : S} (h : M.Run steps s) (hmeets : ∀ x ∈ steps, C x.1 x.2) :
    I steps s := by
  induction h with
  | init => exact hinit
  | step hrun hs ih =>
    obtain ⟨hl, hmeets⟩ := List.forall_mem_cons.mp hmeets
    exact hstep _ _ _ _ hrun (ih hmeets) hl hs

theorem Run.invariantOf {C : S → L → Prop} {I : S → Prop} (hinit : I M.init)
    (hstep : ∀ s l s', I s → C s l → M.step s l = some s' → I s')
    {steps : List (S × L)} {s : S} (h : M.Run steps s) (hmeets : ∀ x ∈ steps, C x.1 x.2) :
    I s :=
  Run.induct (I := fun _ s => I s) hinit (fun _ s l s' _ => hstep s l s') h hmeets

theorem Run.invariant {I : S → Prop} (hinit : I M.init)
    (hstep : ∀ s l s', I s → M.step s l = some s' → I s')
    {steps : List (S × L)} {s : S} (h : M.Run steps s) : I s :=
  Run.invariantOf (C := fun _ _ => True) hinit (fun s l s' hI _ => hstep s l s' hI) h
    fun _ _ => trivial

/-- Each step of a run was taken from a state that an earlier part of it reached. -/
theorem Run.before {steps : List (S × L)} {s : S} (h : M.Run steps s) {x : S × L}
    (hx : x ∈ steps) : ∃ earlier s', M.Run earlier x.1 ∧ M.step x.1 x.2 = some s' := by
  induction h with
  | init => cases hx
  | step hrun hs ih =>
    cases hx with
    | head => exact ⟨_, _, hrun, hs⟩
    | tail _ hx => exact ih hx

theorem Run.of_append_cons {later earlier : List (S × L)} {x : S × L} {s : S}
    (h : M.Run (later ++ x :: earlier) s) : M.Run earlier x.1 := by
  induction later generalizing s with
  | nil =>
    cases h with
    | step hrun hs => exact hrun
  | cons y later ih =>
    cases h with
    | step hrun hs => exact ih hrun

/-! ## Histories -/

/-- What the steps of a run give, in the order in which they were taken. -/
def history {α : Type} (gives : S → L → List α) : List (S × L) → List α
  | [] => []
  | (s, l) :: steps => history gives steps ++ gives s l

/-- Where each step takes out at one end what it or an earlier one has put in at the
other, what a run has taken out and what is left are what it has put in. -/
theorem Run.history_append {α : Type} {contents : S → List α} {puts takes : S → L → List α}
    (hinit : contents M.init = [])
    (hstep : ∀ s l s', M.step s l = some s' →
      takes s l ++ contents s' = contents s ++ puts s l)
    {steps : List (S × L)} {s : S} (h : M.Run steps s) :
    history takes steps ++ contents s = history puts steps := by
  induction h with
  | init => exact hinit
  | step hrun hs ih =>
    rw [history, history, List.append_assoc, hstep _ _ _ hs, ← List.append_assoc, ih]

/-! ## Computed runs -/

/-- The steps and the last state of the run that continues `steps` by a list of labels. -/
def executeFrom (M : Machine S L) (steps : List (S × L)) (s : S) :
    List L → Option (List (S × L) × S)
  | [] => some (steps, s)
  | l :: ls =>
    match M.step s l with
    | some s' => M.executeFrom ((s, l) :: steps) s' ls
    | none => none

def execute (M : Machine S L) (ls : List L) : Option (List (S × L) × S) :=
  M.executeFrom [] M.init ls

theorem run_of_executeFrom {steps steps' : List (S × L)} {s s' : S} {ls : List L}
    (h : M.executeFrom steps s ls = some (steps', s')) (hrun : M.Run steps s) :
    M.Run steps' s' := by
  induction ls generalizing steps s with
  | nil =>
    cases h
    exact hrun
  | cons l ls ih =>
    simp only [executeFrom] at h
    split at h
    · rename_i s₁ hs
      exact ih h (hrun.step hs)
    · cases h

/-- A list of labels that executes with a property has a run with that property. -/
theorem exists_run (M : Machine S L) (ls : List L) (P : List (S × L) × S → Bool)
    (h : (M.execute ls).any P = true) : ∃ steps s, M.Run steps s ∧ P (steps, s) = true := by
  obtain ⟨⟨steps, s⟩, hex, hP⟩ := (Option.any_eq_true _ _).mp h
  exact ⟨steps, s, run_of_executeFrom hex .init, hP⟩

end Machine

end Machines
