import Mathlib.Logic.Relation
import LoginServer.Interleaving.System

/-!
# Programs that run alone

A `Machine` answers commands from a state `S`, up to a choice `X`, and may move on by
itself after a command (`env`). `Runs` are the complete runs of one program on it, with
every choice in `allow`; `Sat` is the weakest precondition that goes with them, and
`sat_iff_runs` says so. The rules follow the program, as those of `Obeys` do: a call, a
sequence, a handler of exceptions. `CanE` is the counterpart for one run.

`System.alone` is the machine that one thread of a system has to itself;
`System.reach_of_runs` turns its runs into runs of the system.
-/

namespace Interleaving

structure Machine (C : Type) (R : C → Type) (S X : Type) where
  exec : (c : C) → X → S → Option (R c × S)
  /-- What may happen after a command. -/
  env : S → S → Prop
  /-- The choices that are considered. -/
  allow : X → Prop

variable {C : Type} {R : C → Type} {S X α β ε : Type}

namespace Machine

variable (M : Machine C R S X)

/-- From history `h` and state `s`, the program ends after `h'`, in `s'`, with `a'`. -/
def Runs : History C R → S → Program C R α → History C R → S → α → Prop
  | h, s, .pure a, h', s', a' => h' = h ∧ s' = s ∧ a' = a
  | h, s, .op c k, h', s', a' => ∃ x r s₁ s₂, M.allow x ∧ M.exec c x s = some (r, s₁) ∧
      M.env s₁ s₂ ∧ Runs (⟨c, r⟩ :: h) s₂ (k r) h' s' a'

/-- Every run from history `h` and state `s` ends in `Q`. -/
def Sat (Q : History C R → S → α → Prop) : History C R → S → Program C R α → Prop
  | h, s, .pure a => Q h s a
  | h, s, .op c k => ∀ x r s₁ s₂, M.allow x → M.exec c x s = some (r, s₁) → M.env s₁ s₂ →
      Sat Q (⟨c, r⟩ :: h) s₂ (k r)

variable {M} {h : History C R} {s : S}

theorem sat_iff_runs {Q : History C R → S → α → Prop} {p : Program C R α} :
    M.Sat Q h s p ↔ ∀ h' s' a, M.Runs h s p h' s' a → Q h' s' a := by
  induction p generalizing h s with
  | pure a =>
    constructor
    · rintro hq h' s' a' ⟨rfl, rfl, rfl⟩
      exact hq
    · intro hq
      exact hq h s a ⟨rfl, rfl, rfl⟩
  | op c k ih =>
    constructor
    · rintro hsat h' s' a' ⟨x, r, s₁, s₂, hallow, hexec, henv, hruns⟩
      exact (ih r).mp (hsat x r s₁ s₂ hallow hexec henv) h' s' a' hruns
    · intro hq x r s₁ s₂ hallow hexec henv
      refine (ih r).mpr fun h' s' a' hruns => ?_
      exact hq h' s' a' ⟨x, r, s₁, s₂, hallow, hexec, henv, hruns⟩

/-- What every allowed call keeps holds at the end of every run. -/
theorem sat_of_obeys {may : History C R → C → Prop} {I : History C R → S → Prop}
    (hI : ∀ h c x r s s₁ s₂, may h c → I h s → M.allow x → M.exec c x s = some (r, s₁) →
      M.env s₁ s₂ → I (⟨c, r⟩ :: h) s₂) {Q : History C R → α → Prop} {p : Program C R α}
    (hp : Obeys may Q h p) (h₀ : I h s) : M.Sat (fun h' s' a => Q h' a ∧ I h' s') h s p := by
  induction p generalizing h s with
  | pure a => exact ⟨hp, h₀⟩
  | op c k ih =>
    intro x r s₁ s₂ hallow hexec henv
    exact ih r (hp.2 r) (hI h c x r s s₁ s₂ hp.1 h₀ hallow hexec henv)

/-- The run with the given choices, and `x` when they have run out. Nothing else happens. -/
def play (M : Machine C R S X) (x : X) :
    List X → History C R → S → Program C R α → Option (History C R × S × α)
  | _, h, s, .pure a => some (h, s, a)
  | xs, h, s, .op c k =>
    match M.exec c (xs.headD x) s with
    | none => none
    | some (r, s') => play M x xs.tail (⟨c, r⟩ :: h) s' (k r)

theorem runs_of_play {x : X} {xs : List X} {p : Program C R α} {h' : History C R} {s' : S} {a : α}
    (henv : ∀ s, M.env s s) (hallow : ∀ y, y = x ∨ y ∈ xs → M.allow y)
    (hplay : M.play x xs h s p = some (h', s', a)) : M.Runs h s p h' s' a := by
  induction p generalizing h s xs with
  | pure b =>
    cases hplay
    exact ⟨rfl, rfl, rfl⟩
  | op c k ih =>
    have hchoice : xs.headD x = x ∨ xs.headD x ∈ xs := by
      cases xs with
      | nil => exact Or.inl rfl
      | cons y ys => exact Or.inr List.mem_cons_self
    unfold play at hplay
    split at hplay
    · cases hplay
    · rename_i r s₁ hexec
      refine ⟨_, r, s₁, s₁, hallow _ hchoice, hexec, henv s₁, ih r (fun y hy => ?_) hplay⟩
      exact hallow y (hy.imp_right List.mem_of_mem_tail)

theorem sat_call {c : C} {Q : History C R → S → R c → Prop} :
    M.Sat Q h s (Program.call c) ↔ ∀ x r s₁ s₂, M.allow x → M.exec c x s = some (r, s₁) →
      M.env s₁ s₂ → Q (⟨c, r⟩ :: h) s₂ r :=
  Iff.rfl

theorem sat_bind {Q : History C R → S → β → Prop} {p : Program C R α} {f : α → Program C R β} :
    M.Sat Q h s (p >>= f) ↔ M.Sat (fun h' s' a => M.Sat Q h' s' (f a)) h s p := by
  induction p generalizing h s with
  | pure a => rfl
  | op c k ih =>
    refine forall_congr' fun x => forall_congr' fun r => forall_congr' fun s₁ => ?_
    refine forall_congr' fun s₂ => forall_congr' fun _ => forall_congr' fun _ => ?_
    exact forall_congr' fun _ => ih r

theorem Sat.mono {Q Q' : History C R → S → α → Prop} (hQ : ∀ h s a, Q h s a → Q' h s a)
    {p : Program C R α} (hp : M.Sat Q h s p) : M.Sat Q' h s p := by
  induction p generalizing h s with
  | pure a => exact hQ h s a hp
  | op c k ih =>
    intro x r s₁ s₂ hallow hexec henv
    exact ih r (hp x r s₁ s₂ hallow hexec henv)

/-- What every call keeps, whatever the program. -/
theorem sat_invariant {I : S → Prop} (hI : ∀ c x r s s₁ s₂, I s → M.allow x →
      M.exec c x s = some (r, s₁) → M.env s₁ s₂ → I s₂) {p : Program C R α} (h₀ : I s) :
    M.Sat (fun _ s' _ => I s') h s p := by
  induction p generalizing h s with
  | pure a => exact h₀
  | op c k ih =>
    intro x r s₁ s₂ hallow hexec henv
    exact ih r (hI c x r s s₁ s₂ h₀ hallow hexec henv)

/-- A program whose calls are always answered comes to its end. -/
theorem exists_runs {allowed : C → Prop} {I : S → Prop} {Q : History C R → α → Prop}
    (hI : ∀ c s, allowed c → I s → ∃ x r s₁ s₂, M.allow x ∧ M.exec c x s = some (r, s₁) ∧
      M.env s₁ s₂ ∧ I s₂) {p : Program C R α} (hp : Obeys (fun _ c => allowed c) Q h p)
    (h₀ : I s) : ∃ h' s' a, M.Runs h s p h' s' a := by
  induction p generalizing h s with
  | pure a => exact ⟨h, s, a, rfl, rfl, rfl⟩
  | op c k ih =>
    obtain ⟨x, r, s₁, s₂, hallow, hexec, henv, hI₂⟩ := hI c s hp.1 h₀
    obtain ⟨h', s', a, hruns⟩ := ih r (hp.2 r) hI₂
    exact ⟨h', s', a, x, r, s₁, s₂, hallow, hexec, henv, hruns⟩

/-! ## Programs that throw and catch -/

/-- `Sat` for a program with exceptions: it returns in `Q` or throws in `E`. -/
def SatE (M : Machine C R S X) (Q : History C R → S → α → Prop) (E : History C R → S → ε → Prop)
    (h : History C R) (s : S) (x : ExceptT ε (Program C R) α) : Prop :=
  M.Sat (fun h s r => match r with
    | .ok a => Q h s a
    | .error e => E h s e) h s x.run

variable {Q : History C R → S → α → Prop} {E : History C R → S → ε → Prop}

theorem satE_pure {a : α} :
    M.SatE Q E h s (pure a : ExceptT ε (Program C R) α) ↔ Q h s a :=
  Iff.rfl

theorem satE_throw {e : ε} :
    M.SatE Q E h s (throw e : ExceptT ε (Program C R) α) ↔ E h s e :=
  Iff.rfl

theorem satE_lift {p : Program C R α} :
    M.SatE Q E h s (ExceptT.lift p) ↔ M.Sat Q h s p := by
  refine sat_bind.trans (Iff.of_eq ?_)
  rfl

theorem satE_bind {Q : History C R → S → β → Prop} {x : ExceptT ε (Program C R) α}
    {f : α → ExceptT ε (Program C R) β} :
    M.SatE Q E h s (x >>= f) ↔ M.SatE (fun h' s' a => M.SatE Q E h' s' (f a)) E h s x := by
  refine sat_bind.trans (Iff.of_eq ?_)
  unfold SatE
  congr 1
  funext h' s' r
  cases r <;> rfl

theorem satE_tryCatch {x : ExceptT ε (Program C R) α} {f : ε → ExceptT ε (Program C R) α} :
    M.SatE Q E h s (tryCatch x f) ↔
      M.SatE Q (fun h' s' e => M.SatE Q E h' s' (f e)) h s x := by
  refine sat_bind.trans (Iff.of_eq ?_)
  unfold SatE
  congr 1
  funext h' s' r
  cases r <;> rfl

theorem SatE.mono {Q' : History C R → S → α → Prop} {E' : History C R → S → ε → Prop}
    {x : ExceptT ε (Program C R) α} (hx : M.SatE Q E h s x)
    (hQ : ∀ h s a, Q h s a → Q' h s a) (hE : ∀ h s e, E h s e → E' h s e) :
    M.SatE Q' E' h s x := by
  refine Sat.mono (fun h s r hr => ?_) hx
  cases r with
  | ok a => exact hQ h s a hr
  | error e => exact hE h s e hr

/-! ## What a program can come to -/

/-- Some run of the program returns in `Q`. -/
def CanE (M : Machine C R S X) (Q : History C R → S → α → Prop) (h : History C R) (s : S)
    (x : ExceptT ε (Program C R) α) : Prop :=
  ∃ h' s' a, M.Runs h s x.run h' s' (.ok a) ∧ Q h' s' a

theorem Runs.bind {p : Program C R α} {f : α → Program C R β} {h₁ h' : History C R} {s₁ s' : S}
    {a : α} {b : β} (hp : M.Runs h s p h₁ s₁ a) (hf : M.Runs h₁ s₁ (f a) h' s' b) :
    M.Runs h s (p >>= f) h' s' b := by
  induction p generalizing h s with
  | pure a' =>
    obtain ⟨rfl, rfl, rfl⟩ := hp
    exact hf
  | op c k ih =>
    obtain ⟨x, r, s₂, s₃, hallow, hexec, henv, hk⟩ := hp
    exact ⟨x, r, s₂, s₃, hallow, hexec, henv, ih r hk⟩

variable {Q : History C R → S → α → Prop}

theorem canE_pure {a : α} (hQ : Q h s a) :
    M.CanE Q h s (pure a : ExceptT ε (Program C R) α) :=
  ⟨h, s, a, ⟨rfl, rfl, rfl⟩, hQ⟩

theorem canE_call {c : C} {Q : History C R → S → R c → Prop} {x : X} {r : R c} {s₁ s₂ : S}
    (hallow : M.allow x) (hexec : M.exec c x s = some (r, s₁)) (henv : M.env s₁ s₂)
    (hQ : Q (⟨c, r⟩ :: h) s₂ r) :
    M.CanE Q h s (ExceptT.lift (Program.call c) : ExceptT ε (Program C R) (R c)) :=
  ⟨_, s₂, r, ⟨x, r, s₁, s₂, hallow, hexec, henv, rfl, rfl, rfl⟩, hQ⟩

theorem canE_bind {Q : History C R → S → β → Prop} {x : ExceptT ε (Program C R) α}
    {f : α → ExceptT ε (Program C R) β}
    (hx : M.CanE (fun h' s' a => M.CanE Q h' s' (f a)) h s x) : M.CanE Q h s (x >>= f) := by
  obtain ⟨h₁, s₁, a, hruns, h', s', b, hruns', hQ⟩ := hx
  exact ⟨h', s', b, hruns.bind hruns', hQ⟩

/-- What the program returns, it returns under a handler as well. -/
theorem canE_tryCatch {x : ExceptT ε (Program C R) α} {f : ε → ExceptT ε (Program C R) α}
    (hx : M.CanE Q h s x) : M.CanE Q h s (tryCatch x f) := by
  obtain ⟨h', s', a, hruns, hQ⟩ := hx
  exact ⟨h', s', a, hruns.bind ⟨rfl, rfl, rfl⟩, hQ⟩

end Machine

/-! ## A thread of a system, alone -/

namespace System

variable {J A O : Type}

/-- Thread `t` makes all calls; what happens outside goes on. -/
def alone (M : System J A C R S X O) (t : Nat) (allow : X → Prop) : Machine C R S X where
  exec := M.exec t
  env := Relation.ReflTransGen fun s s' => ∃ o, M.outside o s = some s'
  allow := allow

theorem reach_of_env {M : System J A C R S X O} {t : Nat} {allow : X → Prop}
    {c : Config J C R S} {s : S} (henv : (M.alone t allow).env c.shared s) :
    M.Reach (fun _ _ => True) c ⟨c.threads, s⟩ := by
  induction henv with
  | refl => exact .refl
  | tail _ hlast ih =>
    obtain ⟨o, ho⟩ := hlast
    exact ih.step trivial (.outside ho)

/-- What a thread can do alone, it can do in the system. -/
theorem reach_of_runs {M : System J A C R S X O} {t : Nat} {allow : X → Prop} {job : J}
    {p : Program C R Unit} {c : Config J C R S} {h h' : History C R} {s' : S}
    (hthread : c.threads t = some ⟨job, h, p⟩)
    (hruns : (M.alone t allow).Runs h c.shared p h' s' ()) :
    ∃ c', M.Reach (fun _ _ => True) c c' ∧
      c'.threads t = some ⟨job, h', .pure ()⟩ ∧ c'.shared = s' := by
  induction p generalizing c h with
  | pure a =>
    obtain ⟨rfl, rfl, -⟩ := hruns
    exact ⟨c, .refl, hthread, rfl⟩
  | op cmd k ih =>
    obtain ⟨x, r, s₁, s₂, -, hexec, henv, hruns⟩ := hruns
    have hcall : M.Reach (fun _ _ => True) c (c.set t ⟨job, ⟨cmd, r⟩ :: h, k r⟩ s₁) :=
      Reach.refl.step trivial (Step.run hthread hexec)
    have hwait := reach_of_env (c := c.set t ⟨job, ⟨cmd, r⟩ :: h, k r⟩ s₁) henv
    obtain ⟨c', hreach, hthread', hshared⟩ := ih r
      (c := ⟨(c.set t ⟨job, ⟨cmd, r⟩ :: h, k r⟩ s₁).threads, s₂⟩)
      (Config.threads_set_self ..) hruns
    exact ⟨c', (hcall.trans hwait).trans hreach, hthread', hshared⟩

end System

end Interleaving
