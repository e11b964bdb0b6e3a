import Mathlib.Data.List.Nodup
import Mathlib.Data.List.Perm.Basic
import Mathlib.Data.List.Range
import LoginServer.Machines.Machine
import LoginServer.Utils.Bytes

/-!
# The connection pool

`DatabasePool` with the guards that hold its slots. `acquire` keeps the mutex from the end
of its wait to its return, and `release` takes it once, so both are one step. A move
assignment is two: the release of the old slot, and the overwriting of the members, which
needs no mutex.

Every slot is at one place: `available` or a guard. `Linear` says it as a permutation, and
each step moves a slot from one place to another.
-/

namespace LoginServer

open Machines

/-- What the probe of a slot's connection comes to, and `openSlot` after a probe that
failed. -/
inductive SlotHealth where
  | healthy
  | reopened
  | reopenFailed (what : Bytes)

inductive AcquireError where
  | timedOut (timeoutMs : Int)
  | reconnectFailed (what : Bytes)

namespace AcquireError

def what : AcquireError → Bytes
  | timedOut timeoutMs =>
    str "[DatabasePool] acquire() timed out: pool exhausted after " ++ str (toString timeoutMs) ++
      str "ms. Consider increasing pool size."
  | reconnectFailed what => str "[DatabasePool] reconnect failed: " ++ what

end AcquireError

/-- `pool` says that `pool_` is not null. -/
structure DatabasePool.Guard where
  pool : Bool := false
  slot : Nat := 2 ^ 64 - 1

/-- The connections are named by numbers that are never used again. -/
structure DatabasePool where
  connections : List Nat
  nextConnection : Nat
  available : List Nat
  timeouts : Nat := 0
  reconnects : Nat := 0

namespace DatabasePool

/-- The pool that the constructor leaves when every slot opens. -/
def new (poolSize : Int) : DatabasePool :=
  let poolSize := if poolSize < 1 then 1 else poolSize
  let poolSize := if poolSize > 20 then 20 else poolSize
  { connections := List.range poolSize.toNat
    nextConnection := poolSize.toNat
    available := List.range poolSize.toNat }

variable (pool : DatabasePool)

def openSlot (slot : Nat) : DatabasePool :=
  { pool with
    connections := pool.connections.set slot pool.nextConnection
    nextConnection := pool.nextConnection + 1 }

/-- `acquire` from the moment its wait has ended: with a slot there, or by the timeout. -/
def acquire (timeoutMs : Int) (health : SlotHealth) : Except AcquireError Guard × DatabasePool :=
  match pool.available with
  | [] => (.error (.timedOut timeoutMs), { pool with timeouts := pool.timeouts + 1 })
  | slot :: rest =>
    let pool := { pool with available := rest }
    match health with
    | .healthy => (.ok ⟨true, slot⟩, pool)
    | .reopened =>
      let pool := pool.openSlot slot
      (.ok ⟨true, slot⟩, { pool with reconnects := pool.reconnects + 1 })
    | .reopenFailed what =>
      (.error (.reconnectFailed what), { pool with available := pool.available ++ [slot] })

def release (slot : Nat) : DatabasePool := { pool with available := pool.available ++ [slot] }

/-- The subtraction of two `size_t`. -/
def inUse : Nat :=
  (((pool.connections.length : Int) - (pool.available.length : Int)) % 2 ^ 64).toNat

end DatabasePool

/-- A live guard. During a move assignment, from its `release` to the overwriting of the
members, `assignedFrom` is the source. -/
structure GuardObject where
  name : Nat
  guard : DatabasePool.Guard
  assignedFrom : Option Nat := none

namespace GuardObject

/-- The slot that the guard owns. The one that an assignment has released is not owned,
though `slot_` still names it. -/
def holding (x : GuardObject) : Option Nat :=
  if x.guard.pool && x.assignedFrom.isNone then some x.guard.slot else none

end GuardObject

/-- The guard of a name, and the other ones. -/
def extractGuard (g : Nat) : List GuardObject → Option (GuardObject × List GuardObject)
  | [] => none
  | x :: xs =>
    if x.name = g then some (x, xs) else (extractGuard g xs).map fun r => (r.1, x :: r.2)

structure PoolSystem where
  pool : DatabasePool
  guards : List GuardObject := []

inductive PoolLabel where
  | defaultConstruct (g : Nat)
  | acquire (g : Nat) (timeoutMs : Int) (health : SlotHealth)
  | moveConstruct (g o : Nat)
  /-- `operator=` up to its `release`. -/
  | moveAssign (g o : Nat)
  /-- The rest of `operator=`. -/
  | overwrite (g : Nat)
  | destroy (g : Nat)

namespace PoolSystem

variable (s : PoolSystem)

def fresh (g : Nat) : Bool := s.guards.all fun x => x.name ≠ g

def step : PoolLabel → Option PoolSystem
  | .defaultConstruct g =>
    if s.fresh g then some { s with guards := ⟨g, {}, none⟩ :: s.guards } else none
  | .acquire g timeoutMs health =>
    if s.fresh g then
      match s.pool.acquire timeoutMs health with
      | (.ok guard, pool) => some { s with pool := pool, guards := ⟨g, guard, none⟩ :: s.guards }
      | (.error _, pool) => some { s with pool := pool }
    else none
  | .moveConstruct g o =>
    if s.fresh g then
      match extractGuard o s.guards with
      | some (⟨_, guard, none⟩, rest) =>
        some { s with
          guards := ⟨g, guard, none⟩ :: ⟨o, { guard with pool := false }, none⟩ :: rest }
      | _ => none
    else none
  | .moveAssign g o =>
    if g = o then some s
    else
      match extractGuard g s.guards with
      | some (⟨_, guard, none⟩, rest) =>
        some {
          pool := if guard.pool then s.pool.release guard.slot else s.pool
          guards := ⟨g, guard, some o⟩ :: rest }
      | _ => none
  | .overwrite g =>
    match extractGuard g s.guards with
    | some (⟨_, _, some o⟩, rest) =>
      match extractGuard o rest with
      | some (⟨_, guard, none⟩, rest) =>
        some { s with
          guards := ⟨g, guard, none⟩ :: ⟨o, { guard with pool := false }, none⟩ :: rest }
      | _ => none
    | _ => none
  | .destroy g =>
    match extractGuard g s.guards with
    | some (⟨_, guard, none⟩, rest) =>
      some {
        pool := if guard.pool then s.pool.release guard.slot else s.pool
        guards := rest }
    | _ => none

/-- The slots that the live guards own. -/
def held : List Nat := s.guards.filterMap GuardObject.holding

def holders (slot : Nat) : List GuardObject :=
  s.guards.filter fun x => x.holding = some slot

/-- `connectionAt(slot_)` of every guard that owns a slot. -/
def connectionsInUse : List Nat :=
  s.guards.filterMap fun x => x.holding.bind fun slot => s.pool.connections[slot]?

end PoolSystem

def poolMachine (poolSize : Int) : Machine PoolSystem PoolLabel where
  init := { pool := DatabasePool.new poolSize }
  step := PoolSystem.step

/-! ## Every slot is at one place -/

/-- The slot of a guard that owns it. -/
def DatabasePool.Guard.slots (guard : DatabasePool.Guard) : List Nat :=
  if guard.pool then [guard.slot] else []

/-- The slots owned in a list of guards. -/
def heldBy (guards : List GuardObject) : List Nat := guards.filterMap GuardObject.holding

theorem heldBy_cons (x : GuardObject) (guards : List GuardObject) :
    heldBy (x :: guards) = x.holding.toList ++ heldBy guards := by
  rw [heldBy, List.filterMap_cons, heldBy]
  cases x.holding <;> rfl

/-- A guard outside of an assignment owns the slot of its members. -/
theorem heldBy_settled (g : Nat) (guard : DatabasePool.Guard) (guards : List GuardObject) :
    heldBy (⟨g, guard, none⟩ :: guards) = guard.slots ++ heldBy guards := by
  rw [heldBy_cons]
  cases hpool : guard.pool <;> simp [GuardObject.holding, DatabasePool.Guard.slots, hpool]

/-- A guard whose members are about to be overwritten owns nothing. -/
theorem heldBy_assigned (g o : Nat) (guard : DatabasePool.Guard) (guards : List GuardObject) :
    heldBy (⟨g, guard, some o⟩ :: guards) = heldBy guards := by
  rw [heldBy_cons]
  simp [GuardObject.holding]

/-- Nor does one that was moved from. -/
theorem heldBy_movedFrom (o : Nat) (guard : DatabasePool.Guard) (guards : List GuardObject) :
    heldBy (⟨o, { guard with pool := false }, none⟩ :: guards) = heldBy guards := by
  rw [heldBy_settled]
  rfl

theorem heldBy_perm {guards guards' : List GuardObject} (h : guards.Perm guards') :
    (heldBy guards).Perm (heldBy guards') :=
  h.filterMap _

theorem perm_of_extractGuard {g : Nat} {guards rest : List GuardObject} {x : GuardObject}
    (h : extractGuard g guards = some (x, rest)) : guards.Perm (x :: rest) := by
  induction guards generalizing rest with
  | nil => cases h
  | cons y ys ih =>
    simp only [extractGuard] at h
    split_ifs at h
    · cases h
      exact List.Perm.refl _
    · obtain ⟨⟨x', rest'⟩, hrec, heq⟩ := Option.map_eq_some_iff.mp h
      cases heq
      exact ((ih hrec).cons y).trans (List.Perm.swap ..)

/-- The slots of a list of guards, with one of them taken out. -/
theorem heldBy_extract {g g' : Nat} {guards rest : List GuardObject} {guard : DatabasePool.Guard}
    (h : extractGuard g guards = some (⟨g', guard, none⟩, rest)) :
    (heldBy guards).Perm (guard.slots ++ heldBy rest) := by
  rw [← heldBy_settled g']
  exact heldBy_perm (perm_of_extractGuard h)

namespace DatabasePool

/-- The release of a destructor or an assignment gives back what the guard owned. -/
theorem available_released (pool : DatabasePool) (guard : Guard) :
    (if guard.pool then pool.release guard.slot else pool).available =
      pool.available ++ guard.slots := by
  cases hpool : guard.pool <;> simp [release, Guard.slots, hpool]

theorem connections_released (pool : DatabasePool) (guard : Guard) :
    (if guard.pool then pool.release guard.slot else pool).connections = pool.connections ∧
    (if guard.pool then pool.release guard.slot else pool).nextConnection =
      pool.nextConnection := by
  cases guard.pool <;> exact ⟨rfl, rfl⟩

/-- An `acquire` that succeeds takes a slot, and one that fails takes none. -/
theorem available_acquire {pool pool' : DatabasePool} {timeoutMs : Int} {health : SlotHealth}
    {result : Except AcquireError Guard} (h : pool.acquire timeoutMs health = (result, pool')) :
    match result with
    | .ok guard => pool.available = guard.slots ++ pool'.available
    | .error _ => pool'.available.Perm pool.available := by
  unfold acquire at h
  split at h
  · cases h
    exact List.Perm.refl _
  · rename_i slot rest havailable
    cases health <;> cases h
    · exact havailable
    · exact havailable
    · rw [havailable]
      exact List.perm_append_singleton slot rest

end DatabasePool

namespace PoolSystem

variable {s s' : PoolSystem} {l : PoolLabel}

theorem held_eq (s : PoolSystem) : s.held = heldBy s.guards := rfl

/-- The outcomes of a step, with the state that each leaves. -/
inductive Step (s : PoolSystem) : PoolSystem → Prop where
  | constructed (g : Nat) : Step s { s with guards := ⟨g, {}, none⟩ :: s.guards }
  | acquired {g : Nat} {timeoutMs : Int} {health : SlotHealth} {guard : DatabasePool.Guard}
    {pool : DatabasePool} (hacq : s.pool.acquire timeoutMs health = (.ok guard, pool)) :
    Step s { s with pool := pool, guards := ⟨g, guard, none⟩ :: s.guards }
  | refused {timeoutMs : Int} {health : SlotHealth} {error : AcquireError} {pool : DatabasePool}
    (hacq : s.pool.acquire timeoutMs health = (.error error, pool)) : Step s { s with pool := pool }
  | moved {g o o' : Nat} {guard : DatabasePool.Guard} {rest : List GuardObject}
    (hsource : extractGuard o s.guards = some (⟨o', guard, none⟩, rest)) :
    Step s { s with
      guards := ⟨g, guard, none⟩ :: ⟨o, { guard with pool := false }, none⟩ :: rest }
  | movedOnto : Step s s
  | released {g g' o : Nat} {guard : DatabasePool.Guard} {rest : List GuardObject}
    (hextract : extractGuard g s.guards = some (⟨g', guard, none⟩, rest)) :
    Step s {
      pool := if guard.pool then s.pool.release guard.slot else s.pool
      guards := ⟨g, guard, some o⟩ :: rest }
  | overwritten {g g' o o' : Nat} {old guard : DatabasePool.Guard}
    {rest rest' : List GuardObject}
    (hextract : extractGuard g s.guards = some (⟨g', old, some o⟩, rest))
    (hsource : extractGuard o rest = some (⟨o', guard, none⟩, rest')) :
    Step s { s with
      guards := ⟨g, guard, none⟩ :: ⟨o, { guard with pool := false }, none⟩ :: rest' }
  | destroyed {g g' : Nat} {guard : DatabasePool.Guard} {rest : List GuardObject}
    (hextract : extractGuard g s.guards = some (⟨g', guard, none⟩, rest)) :
    Step s {
      pool := if guard.pool then s.pool.release guard.slot else s.pool
      guards := rest }

theorem step_cases (h : s.step l = some s') : Step s s' := by
  cases l with
  | defaultConstruct g =>
    simp only [step] at h
    split_ifs at h
    cases h
    exact .constructed g
  | acquire g timeoutMs health =>
    simp only [step] at h
    split_ifs at h
    split at h
    · rename_i hacq
      cases h
      exact .acquired hacq
    · rename_i hacq
      cases h
      exact .refused hacq
  | moveConstruct g o =>
    simp only [step] at h
    split_ifs at h
    split at h
    · rename_i hsource
      cases h
      exact .moved hsource
    · cases h
  | moveAssign g o =>
    simp only [step] at h
    split_ifs at h
    · cases h
      exact .movedOnto
    · split at h
      · rename_i hextract
        cases h
        exact .released hextract
      · cases h
  | overwrite g =>
    simp only [step] at h
    split at h
    · rename_i hextract
      split at h
      · rename_i hsource
        cases h
        exact .overwritten hextract hsource
      · cases h
    · cases h
  | destroy g =>
    simp only [step] at h
    split at h
    · rename_i hextract
      cases h
      exact .destroyed hextract
    · cases h

/-- No step loses a slot or makes a second one. -/
theorem step_slots (h : s.step l = some s') :
    (s'.pool.available ++ s'.held).Perm (s.pool.available ++ s.held) := by
  simp only [held_eq]
  cases step_cases h with
  | constructed g =>
    rw [heldBy_settled]
    exact List.Perm.refl _
  | @acquired g timeoutMs health guard pool hacq =>
    have htaken : s.pool.available = guard.slots ++ pool.available :=
      DatabasePool.available_acquire hacq
    rw [heldBy_settled, htaken, ← List.append_assoc]
    exact List.perm_append_comm.append_right _
  | @refused timeoutMs health error pool hacq =>
    have hkept : pool.available.Perm s.pool.available := DatabasePool.available_acquire hacq
    exact hkept.append_right _
  | moved hsource =>
    rw [heldBy_settled, heldBy_movedFrom]
    exact (heldBy_extract hsource).symm.append_left _
  | movedOnto => exact List.Perm.refl _
  | released hextract =>
    rw [heldBy_assigned, DatabasePool.available_released, List.append_assoc]
    exact (heldBy_extract hextract).symm.append_left _
  | overwritten hextract hsource =>
    have hassigned := heldBy_perm (perm_of_extractGuard hextract)
    rw [heldBy_assigned] at hassigned
    rw [heldBy_settled, heldBy_movedFrom]
    exact ((heldBy_extract hsource).symm.trans hassigned.symm).append_left _
  | destroyed hextract =>
    rw [DatabasePool.available_released, List.append_assoc]
    exact (heldBy_extract hextract).symm.append_left _

/-- The connections are distinct, and the names that come are new. -/
structure DistinctConnections (pool : DatabasePool) : Prop where
  nodup : pool.connections.Nodup
  lt_next : ∀ c ∈ pool.connections, c < pool.nextConnection

theorem DistinctConnections.openSlot {pool : DatabasePool} (h : DistinctConnections pool)
    (slot : Nat) : DistinctConnections (pool.openSlot slot) where
  nodup := by
    have hnew : pool.nextConnection ∉ pool.connections := fun hmem =>
      Nat.lt_irrefl _ (h.lt_next _ hmem)
    exact h.nodup.set hnew
  lt_next c hc := by
    rcases List.mem_or_eq_of_mem_set hc with hc | rfl
    · exact Nat.lt_succ_of_lt (h.lt_next c hc)
    · exact Nat.lt_succ_self _

theorem DistinctConnections.acquire {pool : DatabasePool} (h : DistinctConnections pool)
    (timeoutMs : Int) (health : SlotHealth) :
    DistinctConnections (pool.acquire timeoutMs health).2 := by
  unfold DatabasePool.acquire
  split
  · exact ⟨h.nodup, h.lt_next⟩
  · rename_i slot rest havailable
    cases health with
    | healthy => exact ⟨h.nodup, h.lt_next⟩
    | reopened => exact ⟨(h.openSlot slot).nodup, (h.openSlot slot).lt_next⟩
    | reopenFailed what => exact ⟨h.nodup, h.lt_next⟩

theorem length_connections_acquire (pool : DatabasePool) (timeoutMs : Int) (health : SlotHealth) :
    (pool.acquire timeoutMs health).2.connections.length = pool.connections.length := by
  unfold DatabasePool.acquire
  split
  · rfl
  · cases health with
    | healthy => rfl
    | reopened => exact List.length_set
    | reopenFailed what => rfl

/-- A step keeps the number of slots, and a slot that it reopens gets a new connection. -/
theorem step_connections (h : s.step l = some s') :
    s'.pool.connections.length = s.pool.connections.length ∧
    (DistinctConnections s.pool → DistinctConnections s'.pool) := by
  have hacquire : ∀ {timeoutMs health result} {pool : DatabasePool},
      s.pool.acquire timeoutMs health = (result, pool) →
      pool.connections.length = s.pool.connections.length ∧
      (DistinctConnections s.pool → DistinctConnections pool) := by
    intro timeoutMs health result pool hacq
    obtain rfl : (s.pool.acquire timeoutMs health).2 = pool := congrArg Prod.snd hacq
    exact ⟨length_connections_acquire _ _ _, fun hd => hd.acquire timeoutMs health⟩
  have hrelease : ∀ guard : DatabasePool.Guard,
      (if guard.pool then s.pool.release guard.slot else s.pool).connections.length =
        s.pool.connections.length ∧
      (DistinctConnections s.pool →
        DistinctConnections (if guard.pool then s.pool.release guard.slot else s.pool)) := by
    intro guard
    obtain ⟨hconnections, hnext⟩ := s.pool.connections_released guard
    exact ⟨congrArg _ hconnections, fun hd =>
      ⟨hconnections ▸ hd.nodup, hconnections ▸ hnext ▸ hd.lt_next⟩⟩
  cases step_cases h with
  | acquired hacq => exact hacquire hacq
  | refused hacq => exact hacquire hacq
  | @released g g' o guard rest hextract => exact hrelease guard
  | @destroyed g g' guard rest hextract => exact hrelease guard
  | _ => exact ⟨rfl, id⟩

/-! ## Whole runs -/

structure Inv (s : PoolSystem) : Prop where
  slots : (s.pool.available ++ s.held).Perm (List.range s.pool.connections.length)
  connections : DistinctConnections s.pool
  size : s.pool.connections.length ≤ 20

theorem inv_new (poolSize : Int) : Inv { pool := DatabasePool.new poolSize } where
  slots := by simp [DatabasePool.new, held]
  connections := ⟨List.nodup_range, fun c hc => List.mem_range.mp hc⟩
  size := by
    simp only [DatabasePool.new, List.length_range]
    split_ifs <;> omega

theorem Inv.step (hi : Inv s) (h : s.step l = some s') : Inv s' := by
  obtain ⟨hlength, hdistinct⟩ := step_connections h
  exact ⟨hlength ▸ (step_slots h).trans hi.slots, hdistinct hi.connections, hlength ▸ hi.size⟩

theorem Inv.of_run {poolSize : Int} {steps : List (PoolSystem × PoolLabel)}
    (h : (poolMachine poolSize).Run steps s) : Inv s :=
  h.invariant (inv_new poolSize) fun _ _ _ hi hstep => hi.step hstep

/-- As many guards own a slot as it stands among the owned ones. -/
theorem length_holders (s : PoolSystem) (slot : Nat) :
    (s.holders slot).length = s.held.count slot := by
  rw [holders, held, List.count_filterMap, ← List.countP_eq_length_filter]
  refine List.countP_congr fun x _ => ?_
  simp

/-- A slot of the pool is in one place, and no other number is in any. -/
theorem Inv.count_eq (hi : Inv s) (slot : Nat) :
    s.pool.available.count slot + (s.holders slot).length =
      if slot < s.pool.connections.length then 1 else 0 := by
  rw [length_holders, ← List.count_append, hi.slots.count_eq]
  split_ifs with hslot
  · exact List.count_eq_one_of_mem List.nodup_range (List.mem_range.mpr hslot)
  · exact List.count_eq_zero.mpr fun hmem => hslot (List.mem_range.mp hmem)

theorem Inv.owner (hi : Inv s) {slot : Nat} (hslot : slot < s.pool.connections.length) :
    (s.pool.available.count slot = 1 ∧ s.holders slot = []) ∨
    (slot ∉ s.pool.available ∧ ∃ x, s.holders slot = [x]) := by
  have hone := hi.count_eq slot
  rw [if_pos hslot] at hone
  rcases Nat.eq_zero_or_pos (s.holders slot).length with hnone | hsome
  · exact Or.inl ⟨by omega, List.length_eq_zero_iff.mp hnone⟩
  · have hcount : s.pool.available.count slot = 0 := by omega
    exact Or.inr ⟨List.count_eq_zero.mp hcount, List.length_eq_one_iff.mp (by omega)⟩

/-- Two guards never get the same connection. -/
theorem Inv.connectionsInUse_nodup (hi : Inv s) : s.connectionsInUse.Nodup := by
  have hheld : s.held.Nodup :=
    (hi.slots.nodup_iff.mpr List.nodup_range).of_append_right
  have huse : s.connectionsInUse = s.held.filterMap (s.pool.connections[·]?) := by
    rw [held, List.filterMap_filterMap, connectionsInUse]
  rw [huse]
  refine hheld.filterMap fun i j c hic hjc => ?_
  obtain ⟨hi', hci⟩ := List.getElem?_eq_some_iff.mp (Option.mem_def.mp hic)
  obtain ⟨hj', hcj⟩ := List.getElem?_eq_some_iff.mp (Option.mem_def.mp hjc)
  exact (hi.connections.nodup.getElem_inj_iff).mp (hci.trans hcj.symm)

theorem Inv.inUse_eq (hi : Inv s) :
    s.pool.available.length ≤ s.pool.connections.length ∧
    s.pool.inUse = s.held.length := by
  have hlength := hi.slots.length_eq
  rw [List.length_append, List.length_range] at hlength
  have hsize := hi.size
  refine ⟨by omega, ?_⟩
  rw [DatabasePool.inUse]
  omega

/-- What the pool promises of its slots. -/
structure SlotsLinear (s : PoolSystem) : Prop where
  owner : ∀ slot < s.pool.connections.length,
    (s.pool.available.count slot = 1 ∧ s.holders slot = []) ∨
    (slot ∉ s.pool.available ∧ ∃ x, s.holders slot = [x])
  noOther : ∀ slot, s.pool.connections.length ≤ slot →
    slot ∉ s.pool.available ∧ s.holders slot = []
  exclusive : s.connectionsInUse.Nodup
  /-- `inUse` does not underflow: it counts the slots that guards own. -/
  inUse : s.pool.available.length ≤ s.pool.connections.length ∧ s.pool.inUse = s.held.length
  failedAcquire : ∀ g timeoutMs health e s',
    (s.pool.acquire timeoutMs health).1 = .error e →
    s.step (.acquire g timeoutMs health) = some s' →
    s'.pool.available.Perm s.pool.available ∧ s'.guards = s.guards
  drained : s.guards = [] → s.pool.available.Perm (List.range s.pool.connections.length)

theorem failedAcquire_slots {g : Nat} {timeoutMs : Int} {health : SlotHealth} {e : AcquireError}
    (herror : (s.pool.acquire timeoutMs health).1 = .error e)
    (h : s.step (.acquire g timeoutMs health) = some s') :
    s'.pool.available.Perm s.pool.available ∧ s'.guards = s.guards := by
  simp only [step] at h
  split_ifs at h
  split at h
  · rename_i hacq
    rw [hacq] at herror
    cases herror
  · rename_i hacq
    cases h
    have hkept := DatabasePool.available_acquire hacq
    exact ⟨hkept, rfl⟩

theorem Inv.slotsLinear (hi : Inv s) : SlotsLinear s where
  owner _ hslot := hi.owner hslot
  noOther slot hslot := by
    have hzero := hi.count_eq slot
    rw [if_neg (Nat.not_lt.mpr hslot)] at hzero
    have hcount : s.pool.available.count slot = 0 := by omega
    exact ⟨List.count_eq_zero.mp hcount, List.length_eq_zero_iff.mp (by omega)⟩
  exclusive := hi.connectionsInUse_nodup
  inUse := hi.inUse_eq
  failedAcquire _ _ _ _ _ herror hstep := failedAcquire_slots herror hstep
  drained hnone := by
    have hslots := hi.slots
    rwa [held, hnone, List.filterMap_nil, List.append_nil] at hslots

end PoolSystem

/-- In every state of every run of a pool, each slot is available once or owned by one
guard, and the guards that are gone have given theirs back. -/
theorem pool_slots_linear (poolSize : Int) {steps : List (PoolSystem × PoolLabel)}
    {s : PoolSystem} (hrun : (poolMachine poolSize).Run steps s) : s.SlotsLinear :=
  (PoolSystem.Inv.of_run hrun).slotsLinear

/-- Two slots: an acquire with a reopened connection, one whose reopening fails, a chain of
moves, a move onto itself, and every guard destroyed. -/
theorem pool_slots_linear_swap :
    ∃ steps s, (poolMachine 2).Run steps s ∧ s.guards.isEmpty = true ∧ s.SlotsLinear := by
  obtain ⟨steps, s, hrun, hnone⟩ := Machine.exists_run (poolMachine 2)
    ([.acquire 0 5000 .reopened, .acquire 1 5000 (.reopenFailed []), .acquire 1 5000 .healthy,
      .acquire 2 5000 .healthy, .moveConstruct 2 0, .moveAssign 0 1, .overwrite 0,
      .moveAssign 0 0, .moveAssign 1 2, .overwrite 1, .destroy 0, .destroy 1, .destroy 2])
    (fun r => r.2.guards.isEmpty) (by decide)
  exact ⟨steps, s, hrun, hnone, pool_slots_linear 2 hrun⟩

end LoginServer
