import Mathlib.Data.Sigma.Basic

/-!
# Programs that call into a shared state

A `Program C R α` issues commands `c : C` one at a time, each answered by an `R c`, and
ends with a result. What it does next may depend on every answer so far, so a program
is a tree; what has happened in one run of it is its history, the latest event first.

`Ends h p h' a` says that `p`, begun after the history `h`, can end after `h'` with the
result `a`. `Obeys may Q h p` says that from history `h` every command that `p` issues is one that
`may` allows after the history at that moment, whatever the answers are, and that `p`
ends in `Q`. The rules follow the way programs are written: `obeys_call`, `obeys_bind`
for sequencing, and the `ObeysE` forms for programs that throw and catch.
-/

namespace Interleaving

inductive Program (C : Type) (R : C → Type) (α : Type) where
  | pure (a : α)
  | op (c : C) (k : R c → Program C R α)

/-- What has been called and answered, the latest call first. -/
abbrev History (C : Type) (R : C → Type) := List (Σ c, R c)

variable {C : Type} {R : C → Type} {α β ε : Type}

namespace Program

protected def bind : Program C R α → (α → Program C R β) → Program C R β
  | .pure a, f => f a
  | .op c k, f => .op c fun r => (k r).bind f

instance : Monad (Program C R) where
  pure := .pure
  bind := .bind

instance : LawfulMonad (Program C R) :=
  LawfulMonad.mk' _
    (fun p => by
      induction p with
      | pure a => rfl
      | op c k ih => exact congrArg (Program.op c) (funext ih))
    (fun _ _ => rfl)
    (fun p f g => by
      induction p with
      | pure a => rfl
      | op c k ih => exact congrArg (Program.op c) (funext ih))

def call (c : C) : Program C R (R c) := .op c .pure

end Program

/-! ## Complete runs -/

/-- One run of the program, for some answers. -/
def Ends : History C R → Program C R α → History C R → α → Prop
  | h, .pure a, h', a' => h' = h ∧ a' = a
  | h, .op c k, h', a' => ∃ r, Ends (⟨c, r⟩ :: h) (k r) h' a'

/-! ## Obeying a discipline -/

variable {may : History C R → C → Prop}

def Obeys (may : History C R → C → Prop) (Q : History C R → α → Prop) :
    History C R → Program C R α → Prop
  | h, .pure a => Q h a
  | h, .op c k => may h c ∧ ∀ r, Obeys may Q (⟨c, r⟩ :: h) (k r)

theorem obeys_call {c : C} {Q : History C R → R c → Prop} {h : History C R} :
    Obeys may Q h (Program.call c) ↔ may h c ∧ ∀ r, Q (⟨c, r⟩ :: h) r :=
  Iff.rfl

theorem obeys_bind {Q : History C R → β → Prop} {h : History C R} {p : Program C R α}
    {f : α → Program C R β} :
    Obeys may Q h (p >>= f) ↔ Obeys may (fun h' a => Obeys may Q h' (f a)) h p := by
  induction p generalizing h with
  | pure a => rfl
  | op c k ih => exact and_congr_right fun _ => forall_congr' fun r => ih r

theorem Obeys.mono {Q Q' : History C R → α → Prop} (hQ : ∀ h a, Q h a → Q' h a)
    {h : History C R} {p : Program C R α} (hp : Obeys may Q h p) : Obeys may Q' h p := by
  induction p generalizing h with
  | pure a => exact hQ h a hp
  | op c k ih => exact ⟨hp.1, fun r => ih r (hp.2 r)⟩

/-- Under an invariant of the history more is known of the calls. -/
theorem Obeys.strengthen {may' : History C R → C → Prop} {P : History C R → Prop}
    {Q : History C R → α → Prop} (hP : ∀ h c r, may h c → P h → P (⟨c, r⟩ :: h))
    (hmay : ∀ h c, may h c → P h → may' h c) {h : History C R} {p : Program C R α}
    (hp : Obeys may Q h p) (h₀ : P h) : Obeys may' (fun h' a => Q h' a ∧ P h') h p := by
  induction p generalizing h with
  | pure a => exact ⟨hp, h₀⟩
  | op c k ih =>
    refine ⟨hmay h c hp.1 h₀, fun r => ih r (hp.2 r) ?_⟩
    exact hP h c r hp.1 h₀

/-- A discipline that forbids nothing. -/
theorem obeys_of_forall (hmay : ∀ h c, may h c) {h : History C R} (p : Program C R α) :
    Obeys may (fun _ _ => True) h p := by
  induction p generalizing h with
  | pure a => trivial
  | op c k ih => exact ⟨hmay h c, fun r => ih r⟩

/-- A postcondition is a property of all runs. -/
theorem obeys_iff_ends {Q : History C R → α → Prop} {h : History C R} {p : Program C R α} :
    Obeys (fun _ _ => True) Q h p ↔ ∀ h' a, Ends h p h' a → Q h' a := by
  induction p generalizing h with
  | pure a =>
    constructor
    · rintro hq h' a' ⟨rfl, rfl⟩
      exact hq
    · intro hq
      exact hq h a ⟨rfl, rfl⟩
  | op c k ih =>
    constructor
    · rintro ⟨-, hk⟩ h' a' ⟨r, hends⟩
      exact (ih r).mp (hk r) h' a' hends
    · intro hq
      refine ⟨trivial, fun r => (ih r).mpr fun h' a' hends => ?_⟩
      exact hq h' a' ⟨r, hends⟩

/-- Where a program that obeys can end: some events later, and in its postcondition. -/
theorem Obeys.extends {Q : History C R → α → Prop} {h : History C R} {p : Program C R α}
    (hp : Obeys may Q h p) : Obeys may (fun h' a => Q h' a ∧ h <:+ h') h p := by
  induction p generalizing h with
  | pure a => exact ⟨hp, List.suffix_refl h⟩
  | op c k ih =>
    refine ⟨hp.1, fun r => (ih r (hp.2 r)).mono fun h' a hq => ⟨hq.1, ?_⟩⟩
    exact (List.suffix_cons _ _).trans hq.2

/-! ## Programs that throw and catch -/

/-- `Obeys` for a program with exceptions: it returns in `Q` or throws in `E`. -/
def ObeysE (may : History C R → C → Prop) (Q : History C R → α → Prop)
    (E : History C R → ε → Prop) (h : History C R) (x : ExceptT ε (Program C R) α) : Prop :=
  Obeys may (fun h r => match r with
    | .ok a => Q h a
    | .error e => E h e) h x.run

variable {Q : History C R → α → Prop} {E : History C R → ε → Prop} {h : History C R}

theorem obeysE_pure {a : α} :
    ObeysE may Q E h (pure a : ExceptT ε (Program C R) α) ↔ Q h a :=
  Iff.rfl

theorem obeysE_throw {e : ε} :
    ObeysE may Q E h (throw e : ExceptT ε (Program C R) α) ↔ E h e :=
  Iff.rfl

theorem obeysE_lift {p : Program C R α} :
    ObeysE may Q E h (ExceptT.lift p) ↔ Obeys may Q h p := by
  refine obeys_bind.trans (Iff.of_eq ?_)
  rfl

theorem obeysE_bind {Q : History C R → β → Prop} {x : ExceptT ε (Program C R) α}
    {f : α → ExceptT ε (Program C R) β} :
    ObeysE may Q E h (x >>= f) ↔ ObeysE may (fun h' a => ObeysE may Q E h' (f a)) E h x := by
  refine obeys_bind.trans (Iff.of_eq ?_)
  unfold ObeysE
  congr 1
  funext h' r
  cases r <;> rfl

theorem obeysE_tryCatch {x : ExceptT ε (Program C R) α}
    {f : ε → ExceptT ε (Program C R) α} :
    ObeysE may Q E h (tryCatch x f) ↔
      ObeysE may Q (fun h' e => ObeysE may Q E h' (f e)) h x := by
  refine obeys_bind.trans (Iff.of_eq ?_)
  unfold ObeysE
  congr 1
  funext h' r
  cases r <;> rfl

theorem ObeysE.mono {Q' : History C R → α → Prop} {E' : History C R → ε → Prop}
    (hQ : ∀ h a, Q h a → Q' h a) (hE : ∀ h e, E h e → E' h e)
    {x : ExceptT ε (Program C R) α} (hx : ObeysE may Q E h x) : ObeysE may Q' E' h x := by
  refine Obeys.mono (fun h r hr => ?_) hx
  cases r with
  | ok a => exact hQ h a hr
  | error e => exact hE h e hr

theorem ObeysE.extends {x : ExceptT ε (Program C R) α} (hx : ObeysE may Q E h x) :
    ObeysE may (fun h' a => Q h' a ∧ h <:+ h') (fun h' e => E h' e ∧ h <:+ h') h x := by
  refine Obeys.mono (fun h' r hr => ?_) (Obeys.extends hx)
  cases r with
  | ok a => exact hr
  | error e => exact hr

theorem ObeysE.strengthen {may' : History C R → C → Prop} {P : History C R → Prop}
    {x : ExceptT ε (Program C R) α} (hP : ∀ h c r, may h c → P h → P (⟨c, r⟩ :: h))
    (hmay : ∀ h c, may h c → P h → may' h c) (hx : ObeysE may Q E h x) (h₀ : P h) :
    ObeysE may' (fun h' a => Q h' a ∧ P h') (fun h' e => E h' e ∧ P h') h x := by
  refine Obeys.mono (fun h' r hr => ?_) (Obeys.strengthen hP hmay hx h₀)
  cases r with
  | ok a => exact hr
  | error e => exact hr

/-- A property that every allowed call keeps holds at the end, also after a throw. -/
theorem ObeysE.keeps {P : History C R → Prop} {x : ExceptT ε (Program C R) α}
    (hP : ∀ h c r, may h c → P h → P (⟨c, r⟩ :: h)) (hx : ObeysE may Q E h x) (h₀ : P h) :
    ObeysE (fun _ _ => True) (fun h' a => Q h' a ∧ P h') (fun h' e => E h' e ∧ P h') h x :=
  hx.strengthen hP (fun _ _ _ _ => trivial) h₀

/-- A handler that deals with whatever the body throws. -/
theorem obeysE_catch {x : ExceptT ε (Program C R) α} {f : ε → ExceptT ε (Program C R) α}
    (hx : ObeysE may Q (fun _ _ => True) h x) (hf : ∀ h' e, ObeysE may Q E h' (f e)) :
    ObeysE may Q E h (tryCatch x f) :=
  obeysE_tryCatch.mpr (hx.mono (fun _ _ hq => hq) fun h' e _ => hf h' e)

/-- A loop whose body keeps `P`, also when it throws. -/
theorem obeysE_mapM {P : History C R → Prop} {f : α → ExceptT ε (Program C R) β}
    (hf : ∀ a h, P h → ObeysE may (fun h' _ => P h') (fun h' _ => P h') h (f a)) (as : List α)
    (hP : P h) : ObeysE may (fun h' _ => P h') (fun h' _ => P h') h (as.mapM f) := by
  induction as generalizing h with
  | nil =>
    rw [List.mapM_nil]
    exact obeysE_pure.mpr hP
  | cons a as ih =>
    rw [List.mapM_cons]
    refine obeysE_bind.mpr ((hf a h hP).mono (fun h₁ b hP₁ => ?_) fun _ _ hP₁ => hP₁)
    refine obeysE_bind.mpr ((ih hP₁).mono (fun h₂ bs hP₂ => ?_) fun _ _ hP₂ => hP₂)
    exact obeysE_pure.mpr hP₂

theorem obeysE_forM {P : History C R → Prop} {f : α → ExceptT ε (Program C R) PUnit}
    {as : List α} (hf : ∀ a ∈ as, ∀ h, P h →
      ObeysE may (fun h' _ => P h') (fun h' _ => P h') h (f a))
    (hP : P h) : ObeysE may (fun h' _ => P h') (fun h' _ => P h') h (as.forM f) := by
  induction as generalizing h with
  | nil => exact obeysE_pure.mpr hP
  | cons a as ih =>
    refine obeysE_bind.mpr ((hf a List.mem_cons_self h hP).mono (fun h₁ _ hP₁ => ?_) fun _ _ h => h)
    exact ih (fun b hb => hf b (List.mem_cons_of_mem a hb)) hP₁

/-! ## Programs of some calls only -/

/-- Whatever the answers, the program makes only calls that are `allowed`, and it throws
only if `throws`. -/
def Makes (allowed : C → Prop) (throws : Prop) (m : ExceptT ε (Program C R) α) : Prop :=
  ∀ h, ObeysE (fun _ c => allowed c) (fun _ _ => True) (fun _ _ => throws) h m

section Makes

variable {allowed : C → Prop} {throws : Prop} {m : ExceptT ε (Program C R) α}

theorem makes_pure (a : α) : Makes allowed throws (pure a : ExceptT ε (Program C R) α) :=
  fun _ => obeysE_pure.mpr trivial

theorem makes_throw (e : ε) : Makes allowed True (throw e : ExceptT ε (Program C R) α) :=
  fun _ => obeysE_throw.mpr trivial

theorem makes_bind {f : α → ExceptT ε (Program C R) β} (hm : Makes allowed throws m)
    (hf : ∀ a, Makes allowed throws (f a)) : Makes allowed throws (m >>= f) :=
  fun h => obeysE_bind.mpr ((hm h).mono (fun h' a _ => hf a h') fun _ _ ht => ht)

theorem makes_tryCatch {f : ε → ExceptT ε (Program C R) α} (hm : Makes allowed True m)
    (hf : ∀ e, Makes allowed throws (f e)) : Makes allowed throws (tryCatch m f) :=
  fun h => obeysE_catch (hm h) fun h' e => hf e h'

theorem makes_mapM {f : α → ExceptT ε (Program C R) β} (hf : ∀ a, Makes allowed throws (f a))
    (as : List α) : Makes allowed throws (as.mapM f) := by
  induction as with
  | nil =>
    rw [List.mapM_nil]
    exact makes_pure _
  | cons a as ih =>
    rw [List.mapM_cons]
    exact makes_bind (hf a) fun _ => makes_bind ih fun _ => makes_pure _

theorem makes_forM {f : α → ExceptT ε (Program C R) PUnit} (hf : ∀ a, Makes allowed throws (f a))
    (as : List α) : Makes allowed throws (as.forM f) := by
  induction as with
  | nil => exact makes_pure _
  | cons a as ih => exact makes_bind (hf a) fun _ => ih

/-- A program obeys what allows its calls whatever came before. -/
theorem Makes.obeysE {may : History C R → C → Prop} {h : History C R} (hm : Makes allowed throws m)
    (hmay : ∀ h' c, allowed c → may h' c) :
    ObeysE may (fun _ _ => True) (fun _ _ => throws) h m := by
  refine ((hm h).strengthen (P := fun _ => True) (fun _ _ _ _ _ => trivial) ?_ trivial).mono ?_ ?_
  · exact fun h' c hc _ => hmay h' c hc
  · exact fun _ _ _ => trivial
  · exact fun _ _ he => he.1

theorem Makes.mono {allowed' : C → Prop} {throws' : Prop} (hallowed : ∀ c, allowed c → allowed' c)
    (hthrows : throws → throws') (hm : Makes allowed throws m) : Makes allowed' throws' m :=
  fun _ => (hm.obeysE fun _ => hallowed).mono (fun _ _ _ => trivial) fun _ _ => hthrows

/-- In every complete run all calls are allowed. -/
theorem Makes.forall_mem_of_ends (hm : Makes allowed throws m) {h : History C R}
    {r : Except ε α} (hends : Ends [] m.run h r) : ∀ e ∈ h, allowed e.1 := by
  have hcalls := (hm []).keeps (P := fun h => ∀ e ∈ h, allowed e.1)
    (fun h c r hc hh => List.forall_mem_cons.mpr ⟨hc, hh⟩) (fun _ he => by cases he)
  have hend := obeys_iff_ends.mp hcalls h r hends
  cases r with
  | ok a => exact hend.2
  | error e => exact hend.2

end Makes

end Interleaving
