import Mathlib.Data.List.Basic

/-!
# Functions of a shell script under `set -eu`

A command that fails ends the shell (`set -e`), and so do `exit` and a signal. Then the `EXIT`
trap is run. The variables in it are local to the function that set it. They still have their
values after an `exit` and after a signal. After `set -e` that depends on the shell, and
without them the trap fails (`set -u`).

`Performs` gives a script as the list of its phases, each of which goes well or stops the
script. It composes along `>>=`.
-/

namespace Scripts

/-- How a command ends, with its status or with a signal that kills the shell as well. -/
inductive Ending where
  | status (code : Nat)
  | signal (number : Nat)
deriving DecidableEq

namespace Shell

inductive Stop where
  | errexit (code : Nat)
  | exit (code : Nat)
  | signal (number : Nat)
deriving DecidableEq

structure State (W : Type) where
  world : W
  /-- The `EXIT` trap, as long as the variables in it have their values. -/
  trap : Option (W → Ending × W)

def Script (W α : Type) : Type := State W → Except Stop α × State W

variable {W α β : Type}

instance : Monad (Script W) where
  pure a := fun s => (.ok a, s)
  bind c k := fun s =>
    match c s with
    | (.ok a, s') => k a s'
    | (.error stop, s') => (.error stop, s')

/-- What `set -e` makes of the end of a command. -/
def errexit : Ending → Option Stop
  | .status 0 => none
  | .status (code + 1) => some (.errexit (code + 1))
  | .signal number => some (.signal number)

theorem errexit_eq_none {ending : Ending} : errexit ending = none ↔ ending = .status 0 := by
  match ending with
  | .status 0 => simp [errexit]
  | .status (code + 1) => simp [errexit]
  | .signal number => simp [errexit]

/-- A command under `set -e`, with what it writes. -/
def capture (act : W → Ending × W) (output : W → α) : Script W α := fun s =>
  match errexit (act s.world).1 with
  | none => (.ok (output (act s.world).2), { s with world := (act s.world).2 })
  | some stop => (.error stop, { s with world := (act s.world).2 })

def command (act : W → Ending × W) : Script W Unit := capture act fun _ => ()

/-- `act || handler`. -/
def orElse (act : W → Ending × W) (handler : Script W Unit) : Script W Unit := fun s =>
  match (act s.world).1 with
  | .status 0 => (.ok (), { s with world := (act s.world).2 })
  | .status (_ + 1) => handler { s with world := (act s.world).2 }
  | .signal number => (.error (.signal number), { s with world := (act s.world).2 })

def exit (code : Nat) : Script W α := fun s => (.error (.exit code), s)

def setTrap (act : W → Ending × W) : Script W Unit := fun s =>
  (.ok (), { s with trap := some act })

def clearTrap : Script W Unit := fun s => (.ok (), { s with trap := none })

/-- A builtin that succeeds, as `echo` is taken to do: what it prints is always written. -/
def builtin (f : W → W) : Script W Unit := fun s => (.ok (), { s with world := f s.world })

/-- `for x in …; do …; done`. -/
def each (body : β → Script W Unit) : List β → Script W Unit
  | [] => pure ()
  | b :: bs => do
    body b
    each body bs

/-- The trap is run, and then the shell ends. -/
def runTrap (localsKept : Bool) (code : Nat) (s : State W) : Nat × W :=
  match s.trap with
  | none => (code, s.world)
  | some act =>
    if localsKept then
      match act s.world with
      | (.status 0, w) => (code, w)
      | (.status (n + 1), w) => (n + 1, w)
      | (.signal number, w) => (128 + number, w)
    else (1, s.world)

def Stop.code : Stop → Nat
  | .errexit code => code
  | .exit code => code
  | .signal number => 128 + number

/-- The trap sees the local variables. -/
def Stop.localsKept (afterErrexit : Bool) : Stop → Bool
  | .errexit _ => afterErrexit
  | .exit _ => true
  | .signal _ => true

/-- The status of the shell and what it leaves. The function was its last command. -/
def finish (localsAfterErrexit : Bool) : Except Stop Unit × State W → Nat × W
  | (.ok (), s) => runTrap false 0 s
  | (.error stop, s) => runTrap (stop.localsKept localsAfterErrexit) stop.code s

theorem errexit_code {ending : Ending} {stop : Stop} (h : errexit ending = some stop) :
    stop.code ≠ 0 := by
  match ending with
  | .status 0 => cases h
  | .status (code + 1) =>
    cases h
    exact Nat.succ_ne_zero code
  | .signal number =>
    cases h
    simp [Stop.code]

/-! ## Phases -/

variable {τ : Type} (stop : τ → Option Stop) (left : τ → State W → Prop)

def firstStop (phases : List τ) : Option τ := phases.find? fun p => (stop p).isSome

/-- From a state with `P` the script goes through its phases. One that stops it leaves what
`left` says, and if none does, the script yields a value with `Q`. -/
def Performs (P : State W → Prop) (c : Script W α) (phases : List τ)
    (Q : α → State W → Prop) : Prop :=
  ∀ s, P s →
    match firstStop stop phases with
    | some p => ∃ r s', stop p = some r ∧ c s = (.error r, s') ∧ left p s'
    | none => ∃ a s', c s = (.ok a, s') ∧ Q a s'

variable {stop left} {P : State W → Prop} {c : Script W α} {phases phases' : List τ}
  {Q : α → State W → Prop} {R : β → State W → Prop}

namespace Performs

theorem bind {k : α → Script W β} (hc : Performs stop left P c phases Q)
    (hk : ∀ a, Performs stop left (Q a) (k a) phases' R) :
    Performs stop left P (c >>= k) (phases ++ phases') R := by
  intro s hs
  have hc := hc s hs
  unfold firstStop at hc ⊢
  rw [List.find?_append]
  cases hfirst : phases.find? fun p => (stop p).isSome with
  | some p =>
    rw [hfirst] at hc
    obtain ⟨r, s', hstop, heq, hleft⟩ := hc
    refine ⟨r, s', hstop, ?_, hleft⟩
    change (match c s with | (.ok a, s') => k a s' | (.error e, s') => (.error e, s')) = _
    rw [heq]
  | none =>
    rw [hfirst] at hc
    obtain ⟨a, s', heq, hQ⟩ := hc
    have hbind : (c >>= k) s = k a s' := by
      change (match c s with | (.ok a, s') => k a s' | (.error e, s') => (.error e, s')) = _
      rw [heq]
    rw [Option.none_or, hbind]
    exact hk a s' hQ

/-- What holds beside the state may be used. -/
theorem assuming {φ : Prop} (h : φ → Performs stop left P c phases Q) :
    Performs stop left (fun s => φ ∧ P s) c phases Q :=
  fun s hs => h hs.1 s hs.2

/-- A command that cannot stop the script. -/
theorem quiet (h : ∀ s, P s → ∃ a s', c s = (.ok a, s') ∧ Q a s') :
    Performs stop left P c [] Q := h

/-- A script of one phase. -/
theorem single {p : τ} (hgood : ∀ s, P s → stop p = none → ∃ a s', c s = (.ok a, s') ∧ Q a s')
    (hbad : ∀ s, P s → ∀ r, stop p = some r → ∃ s', c s = (.error r, s') ∧ left p s') :
    Performs stop left P c [p] Q := by
  intro s hs
  unfold firstStop
  cases hstop : stop p with
  | none =>
    rw [List.find?_cons_of_neg (by simp [hstop]), List.find?_nil]
    exact hgood s hs hstop
  | some r =>
    rw [List.find?_cons_of_pos (by simp [hstop])]
    obtain ⟨s', heq, hleft⟩ := hbad s hs r hstop
    exact ⟨r, s', hstop, heq, hleft⟩

theorem capture {p : τ} {act : W → Ending × W} {output : W → α}
    (hstop : ∀ s, P s → errexit (act s.world).1 = stop p)
    (hgood : ∀ s, P s → stop p = none →
      Q (output (act s.world).2) { s with world := (act s.world).2 })
    (hbad : ∀ s, P s → stop p ≠ none → left p { s with world := (act s.world).2 }) :
    Performs stop left P (Shell.capture act output) [p] Q := by
  refine single (fun s hs hnone => ?_) fun s hs r hsome => ?_
  · refine ⟨_, _, ?_, hgood s hs hnone⟩
    unfold Shell.capture
    rw [hstop s hs, hnone]
  · refine ⟨_, ?_, hbad s hs fun hnone => by rw [hnone] at hsome; cases hsome⟩
    unfold Shell.capture
    rw [hstop s hs, hsome]

theorem orElse {p : τ} {act : W → Ending × W} {handler : Script W Unit}
    {Q : Unit → State W → Prop}
    (hgood : ∀ s, P s → (act s.world).1 = .status 0 →
      stop p = none ∧ Q () { s with world := (act s.world).2 })
    (hhandler : ∀ s, P s → ∀ code, (act s.world).1 = .status (code + 1) →
      ∃ r s', stop p = some r ∧ handler { s with world := (act s.world).2 } = (.error r, s') ∧
        left p s')
    (hsignal : ∀ s, P s → ∀ number, (act s.world).1 = .signal number →
      stop p = some (.signal number) ∧ left p { s with world := (act s.world).2 }) :
    Performs stop left P (Shell.orElse act handler) [p] Q := by
  intro s hs
  unfold firstStop Shell.orElse
  cases hact : (act s.world).1 with
  | status code =>
    cases code with
    | zero =>
      obtain ⟨hstop, hQ⟩ := hgood s hs hact
      rw [List.find?_cons_of_neg (by simp [hstop]), List.find?_nil]
      exact ⟨(), _, rfl, hQ⟩
    | succ code =>
      obtain ⟨r, s', hstop, heq, hleft⟩ := hhandler s hs code hact
      rw [List.find?_cons_of_pos (by simp [hstop])]
      exact ⟨r, s', hstop, heq, hleft⟩
  | signal number =>
    obtain ⟨hstop, hleft⟩ := hsignal s hs number hact
    rw [List.find?_cons_of_pos (by simp [hstop])]
    exact ⟨.signal number, _, hstop, rfl, hleft⟩

theorem each {phase : β → τ} {body : β → Script W Unit} {P : State W → Prop}
    (h : ∀ b, Performs stop left P (body b) [phase b] fun _ => P) (bs : List β) :
    Performs stop left P (Shell.each body bs) (bs.map phase) fun _ => P := by
  induction bs with
  | nil => exact quiet fun s hs => ⟨(), s, rfl, hs⟩
  | cons b bs ih => exact (h b).bind fun _ => ih

end Performs

end Shell

end Scripts
