import Mathlib.Data.Option.Basic

/-!
# Files of statements under psql

`psql -f` executes the statements of a file in their order, each in a transaction of its
own. A statement that fails leaves the data as it was, and the next one is executed all the
same. A run that is interrupted has executed only the first statements, and the file may be
run again from the top.

The statements, the data with its constraints and the answers of the environment (a number
drawn from a sequence, say) are parameters.
-/

namespace Scripts

/-- What becomes of a statement: it is executed, or something outside it makes it fail. -/
inductive Fate (ε : Type) where
  | executed (answer : ε)
  | failed

def Fate.isExecuted {ε : Type} : Fate ε → Bool
  | .executed _ => true
  | .failed => false

/-- The statements of a file, on data with constraints. -/
structure Language (S ε σ : Type) where
  /-- The data meet the constraints. -/
  check : σ → Bool
  /-- What a statement makes of the data, if its own checks let it. -/
  effect : S → ε → σ → Option σ

namespace Language

variable {S ε σ : Type} (L : Language S ε σ)

/-- Data that meet the constraints. -/
abbrev Content : Type := { d : σ // L.check d = true }

/-- A statement is accepted if what it makes of the data meets the constraints. -/
def commit (c : S) (answer : ε) (d : L.Content) : Option L.Content :=
  (L.effect c answer d.val).bind fun d' =>
    if h : L.check d' = true then some ⟨d', h⟩ else none

abbrev Attempt (S ε : Type) : Type := S × Fate ε

def attempt (d : L.Content) (a : Attempt S ε) : L.Content :=
  match a.2 with
  | .executed answer => (L.commit a.1 answer d).getD d
  | .failed => d

def run (d : L.Content) (attempts : List (Attempt S ε)) : L.Content :=
  attempts.foldl L.attempt d

/-- The statements that the runs of a file reach. A run that was interrupted has fewer fates
than the file has statements. -/
def attempts (file : List S) (runs : List (List (Fate ε))) : List (Attempt S ε) :=
  runs.flatMap fun fates => file.zip fates

/-- Each attempt with the data before it. -/
def history (d : L.Content) : List (Attempt S ε) → List (L.Content × Attempt S ε)
  | [] => []
  | a :: attempts => (d, a) :: history (L.attempt d a) attempts

/-- How many attempts meet a condition on them and on the data before them. -/
def occurrences (p : L.Content → Attempt S ε → Bool) (d : L.Content)
    (attempts : List (Attempt S ε)) : Nat :=
  (L.history d attempts).countP fun x => p x.1 x.2

variable {L}

@[simp] theorem run_cons (d : L.Content) (a : Attempt S ε) (attempts : List (Attempt S ε)) :
    L.run d (a :: attempts) = L.run (L.attempt d a) attempts := rfl

theorem occurrences_cons (p : L.Content → Attempt S ε → Bool) (d : L.Content) (a : Attempt S ε)
    (attempts : List (Attempt S ε)) :
    L.occurrences p d (a :: attempts) =
      L.occurrences p (L.attempt d a) attempts + if p d a then 1 else 0 :=
  List.countP_cons

theorem commit_eq_some {c : S} {answer : ε} {d d' : L.Content} :
    L.commit c answer d = some d' ↔ L.effect c answer d.val = some d'.val := by
  unfold commit
  constructor
  · intro h
    obtain ⟨e, he, h⟩ := Option.bind_eq_some_iff.mp h
    split at h
    · cases h
      exact he
    · cases h
  · intro h
    rw [h, Option.bind_some, dif_pos d'.property]

/-- An attempt is accepted, or it leaves the data and nothing acceptable comes of it. -/
theorem attempt_cases (d : L.Content) (a : Attempt S ε) :
    (∃ answer, a.2 = .executed answer ∧ L.effect a.1 answer d.val = some (L.attempt d a).val) ∨
      (L.attempt d a = d ∧
        ∀ answer, a.2 = .executed answer → ∀ d' : L.Content,
          L.effect a.1 answer d.val ≠ some d'.val) := by
  obtain ⟨c, fate⟩ := a
  cases fate with
  | failed => exact Or.inr ⟨rfl, fun _ h => by cases h⟩
  | executed answer =>
    cases hcommit : L.commit c answer d with
    | none =>
      refine Or.inr ⟨by simp [attempt, hcommit], fun answer' h d' heffect => ?_⟩
      cases h
      rw [commit_eq_some.mpr heffect] at hcommit
      cases hcommit
    | some d' =>
      refine Or.inl ⟨answer, rfl, ?_⟩
      have hattempt : L.attempt d (c, .executed answer) = d' := by simp [attempt, hcommit]
      rw [hattempt]
      exact commit_eq_some.mp hcommit

end Language

end Scripts
