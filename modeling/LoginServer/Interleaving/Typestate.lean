import LoginServer.Interleaving.Program

/-!
# Programs that follow an automaton

A `Typestate` reads the calls of a program with their answers: `state` is where a history
has brought it, and `allows` says what may be called there. `Follows a Q E m` says that the
program `m`, begun in the state `a`, makes allowed calls only, returns in a state of `Q` and
throws in one of `E`.
-/

namespace Interleaving

structure Typestate (C : Type) (R : C → Type) (σ : Type) where
  init : σ
  next : σ → (c : C) → R c → σ
  allows : σ → C → Prop

namespace Typestate

variable {C : Type} {R : C → Type} {σ α β ε : Type} {T : Typestate C R σ}

/-- Where the calls of a history have led. -/
def state (T : Typestate C R σ) : History C R → σ
  | [] => T.init
  | e :: h => T.next (T.state h) e.1 e.2

/-- The discipline of the automaton. -/
def may (T : Typestate C R σ) (h : History C R) (c : C) : Prop := T.allows (T.state h) c

def Follows (T : Typestate C R σ) (a : σ) (Q : σ → α → Prop) (E : σ → Prop)
    (m : ExceptT ε (Program C R) α) : Prop :=
  ∀ h, T.state h = a →
    ObeysE T.may (fun h' x => Q (T.state h') x) (fun h' _ => E (T.state h')) h m

variable {a : σ} {Q : σ → α → Prop} {E : σ → Prop} {m : ExceptT ε (Program C R) α}

theorem follows_pure {x : α} (h : Q a x) :
    T.Follows a Q E (pure x : ExceptT ε (Program C R) α) := by
  rintro h' rfl
  exact obeysE_pure.mpr h

theorem follows_throw (e : ε) (h : E a) :
    T.Follows a Q E (throw e : ExceptT ε (Program C R) α) := by
  rintro h' rfl
  exact obeysE_throw.mpr h

theorem follows_call {c : C} {Q : σ → R c → Prop} (hc : T.allows a c)
    (hnext : ∀ r, Q (T.next a c r) r) :
    T.Follows a Q E (ExceptT.lift (Program.call c) : ExceptT ε (Program C R) (R c)) := by
  rintro h rfl
  exact obeysE_lift.mpr (obeys_call.mpr ⟨hc, hnext⟩)

theorem Follows.mono {Q' : σ → α → Prop} {E' : σ → Prop} (hm : T.Follows a Q E m)
    (hQ : ∀ b x, Q b x → Q' b x) (hE : ∀ b, E b → E' b) : T.Follows a Q' E' m := by
  intro h hstate
  exact (hm h hstate).mono (fun h' x hq => hQ _ x hq) fun h' _ he => hE _ he

theorem follows_bind {P : σ → α → Prop} {Q : σ → β → Prop} {f : α → ExceptT ε (Program C R) β}
    (hm : T.Follows a P E m) (hf : ∀ b x, P b x → T.Follows b Q E (f x)) :
    T.Follows a Q E (m >>= f) := by
  intro h hstate
  refine obeysE_bind.mpr ((hm h hstate).mono (fun h' x hx => ?_) fun _ _ he => he)
  exact hf _ x hx h' rfl

theorem follows_tryCatch {F : σ → Prop} {f : ε → ExceptT ε (Program C R) α}
    (hm : T.Follows a Q F m) (hf : ∀ b e, F b → T.Follows b Q E (f e)) :
    T.Follows a Q E (tryCatch m f) := by
  intro h hstate
  refine obeysE_tryCatch.mpr ((hm h hstate).mono (fun _ _ hq => hq) fun h' e he => ?_)
  exact hf _ e he h' rfl

/-- A loop whose body comes back to where it began. -/
theorem follows_mapM {f : α → ExceptT ε (Program C R) β} {as : List α}
    (hf : ∀ x ∈ as, T.Follows a (fun b _ => b = a) E (f x)) :
    T.Follows a (fun b _ => b = a) E (as.mapM f) := by
  induction as with
  | nil =>
    rw [List.mapM_nil]
    exact follows_pure rfl
  | cons x as ih =>
    rw [List.forall_mem_cons] at hf
    rw [List.mapM_cons]
    refine follows_bind hf.1 ?_
    rintro b y rfl
    refine follows_bind (ih hf.2) ?_
    rintro b ys rfl
    exact follows_pure rfl

theorem follows_forM {f : α → ExceptT ε (Program C R) PUnit} {as : List α}
    (hf : ∀ x ∈ as, T.Follows a (fun b _ => b = a) E (f x)) :
    T.Follows a (fun b _ => b = a) E (as.forM f) := by
  induction as with
  | nil => exact follows_pure rfl
  | cons x as ih =>
    rw [List.forall_mem_cons] at hf
    refine follows_bind hf.1 ?_
    rintro b y rfl
    exact ih hf.2

end Typestate

end Interleaving
