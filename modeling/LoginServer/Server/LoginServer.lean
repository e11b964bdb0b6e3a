import LoginServer.Data.SessionHistory
import LoginServer.Interleaving.System
import LoginServer.Network.ProcessMessage

/-!
# The running server

The state that the pool threads share, what one call does to it, and the steps of the
whole: a frame arrives and its events are queued, the event loop hands the next event
to a thread or runs its cleanup branch, a thread makes its next call, time passes. Any
number of threads may be under way, which is more than the pool has.

Each SQL statement is one step, taken when no row that it writes is locked by another
transaction. That is an assumption: PostgreSQL locks the rows of a statement one after the
other and keeps the locks that it has while it waits for the next, so that two statements
which come to the same rows in different orders can wait for each other. A statement, a
commit or an acquisition may also fail; a commit that fails has not been applied.
-/

namespace LoginServer

open Database Interleaving

structure Server where
  clientData : ClientData
  store : Database.Store
  sequences : Sequences
  /-- The clock behind `now()`. -/
  clock : Time
  /-- `steady_clock`, in milliseconds. -/
  steadyMs : Int
  /-- The tokens that exist. A generated one is the text of a UUID and none of them. -/
  uuids : List Bytes
  eventQueue : List Event

/-- What a call leaves open. -/
structure Choice where
  fails : Bool := false
  uuid : Bytes := []
  address : Option Bytes := none

namespace Server

def withClientData (s : Server) (c : ClientData) : Server := { s with clientData := c }

def withStore (s : Server) (store : Database.Store) : Server := { s with store := store }

/-- A statement of transaction `t`; `none` while it waits for a row lock. It takes the locks
of all rows that it writes at once, and none of them as long as it waits. -/
def execStatement (f : SqlFunctions) (t : Nat) (q : Query) (x : Choice) (s : Server) :
    Option (Option q.Rows × Server) :=
  match s.store.active t with
  | none => some (none, s)
  | some txn =>
    if x.fails then some (none, s)
    else
      match q.run (s.store.view writes t) txn.start s.sequences f with
      | none => some (none, s)
      | some (rows, ws, sequences) =>
        if s.store.blocked writes t ws then none
        else
          some (some rows,
            { s with store := s.store.record writes t ws, sequences := sequences })

/-- One call of thread `t`, which is also the name of its transaction. -/
def exec (f : SqlFunctions) (t : Nat) : (c : Cmd) → Choice → Server → Option (c.Reply × Server)
  | .storeClientData clientData, _, s =>
    some ((), s.withClientData (s.clientData.storeClientData clientData s.steadyMs))
  | .getClientData id, _, s => some (s.clientData.getClientData id, s)
  | .validateSession id hash, _, s => some (s.clientData.validateSession id hash, s)
  | .nowMs, _, s => some (s.steadyMs, s)
  | .touchSession id nowMs, _, s =>
    let r := s.clientData.touchSession id 0 nowMs
    some (r.1, s.withClientData r.2)
  | .removeClientData id, _, s =>
    let r := s.clientData.removeClientData id
    some (r.1, s.withClientData r.2)
  | .getClientsDataMap, _, s => some (s.clientData.getClientsDataMap, s)
  | .sweepExpiredSessions nowMs ttlMs, _, s =>
    let r := s.clientData.sweepExpiredSessions nowMs ttlMs
    some (r.1, s.withClientData r.2)
  | .acquire, x, s => some (if x.fails then none else some (), s)
  | .beginWork, x, s =>
    -- a second transaction on the connection is a `usage_error`
    if x.fails || (s.store.active t).isSome then some (none, s)
    else some (some (), s.withStore (s.store.begin t s.clock))
  | .execPrepared query, x, s => s.execStatement f t query x
  | .commitWork, x, s =>
    match s.store.active t with
    | none => some (none, s)
    | some _ =>
      if x.fails then some (none, s.withStore (s.store.close t))
      else some (some (), s.withStore (s.store.commit writes t))
  | .abortWork, _, s => some ((), s.withStore (s.store.close t))
  | .unwindWork, _, s => some ((), s.withStore (s.store.close t))
  | .randomUuid, x, s =>
    if ¬IsUuidText x.uuid ∨ x.uuid ∈ s.uuids then none
    else some (x.uuid, { s with uuids := x.uuid :: s.uuids })
  | .remoteEndpoint socket, x, s => some (socket.bind fun _ => x.address, s)
  | .sendResponse _ _ _, _, s => some ((), s)

end Server

/-- The cleanup branch of `mainEventLoop`. -/
def periodicCleanup (cleanupIntervalMs : Int) : M Unit := do
  tryCatch
    (do
      acquire
      withWork do
        execPrepared .cleanupExpiredSessions
        commitWork)
    fun _ => return
  let now ← nowMs
  let _ ← sweepExpiredSessions now (2 * cleanupIntervalMs)

inductive Job where
  | event (event : Event)
  | cleanup

inductive Start where
  | dispatch
  | cleanup

inductive Outside where
  | frame (ctx : FrameContext) (message : Bytes)
  | tick (clock : Time) (steadyMs : Int)

structure ServerConfig where
  limits : VersionLimits
  sessionCleanupMs : Int := 60000

/-- A pool task: what a handler throws is logged. -/
def task (m : M Unit) : Program Cmd Cmd.Reply Unit := m.run >>= fun _ => pure ()

theorem obeys_task {may : Hist → Cmd → Prop} {Q : Hist → Prop} {h : Hist} {m : M Unit}
    (hm : ObeysE may (fun h' _ => Q h') (fun h' _ => Q h') h m) :
    Obeys may (fun h' _ => Q h') h (task m) := by
  refine obeys_bind.mpr (Obeys.mono (fun h' r hr => ?_) hm)
  cases r with
  | ok _ => exact hr
  | error _ => exact hr

def loginServer (p : Platform) (cfg : ServerConfig) :
    System Job Start Cmd Cmd.Reply Server Choice Outside where
  program
    | .event event => task (EventHandler.dispatchEvent p event)
    | .cleanup => task (periodicCleanup cfg.sessionCleanupMs)
  start
    | .dispatch, s =>
      match s.eventQueue with
      | [] => none
      | event :: rest => some (.event event, { s with eventQueue := rest })
    | .cleanup, s => some (.cleanup, s)
  exec := Server.exec p.toSqlFunctions
  outside
    | .frame ctx message, s =>
      some { s with
        eventQueue := s.eventQueue ++ (processMessage p cfg.limits ctx message).events }
    | .tick clock steadyMs, s =>
      if s.clock ≤ clock ∧ s.steadyMs ≤ steadyMs then
        some { s with clock := clock, steadyMs := steadyMs }
      else none

abbrev ServerState := Config Job Cmd Cmd.Reply Server

abbrev ServerLabel := Label Start Choice Outside

/-- The server before its first step: an empty session store, no transaction, no event. -/
structure Server.Initial (s : Server) : Prop where
  clientData : s.clientData = ClientData.empty
  store : s.store = .idle s.store.committed
  eventQueue : s.eventQueue = []
  tokens : ∀ r ∈ s.store.committed.userSessions, r.tokenHash ∈ s.uuids
  sessionIds : ∀ r ∈ s.store.committed.userSessions, r.id < s.sequences.userSessions

/-- No thread has started yet. -/
def Server.boot (s : Server) : ServerState := ⟨fun _ => none, s⟩

/-! ## What one call changes -/

namespace Server

/-- The operation on the session store that a call is. -/
def sessionOp (s : Server) : Cmd → Option SessionOp
  | .storeClientData clientData => some (.storeClientData clientData s.steadyMs)
  | .touchSession id nowMs => some (.touchSession id 0 nowMs)
  | .removeClientData id => some (.removeClientData id)
  | .sweepExpiredSessions nowMs ttlMs => some (.sweepExpiredSessions nowMs ttlMs)
  | _ => none

/-- The calls that change nothing. -/
def readsOnly : Cmd → Bool
  | .getClientData _ | .validateSession _ _ | .nowMs | .getClientsDataMap | .acquire
  | .remoteEndpoint _ | .sendResponse _ _ _ => true
  | _ => false

/-- The outcomes of a call of thread `t`, with the state that each leaves. -/
inductive Executes (f : SqlFunctions) (t : Nat) (x : Choice) (s : Server) :
    (c : Cmd) → c.Reply → Server → Prop where
  | session {c : Cmd} {r : c.Reply} {op : SessionOp} (hop : s.sessionOp c = some op) :
    Executes f t x s c r (s.withClientData (op.apply s.clientData))
  | read {c : Cmd} {r : c.Reply} (hreads : readsOnly c = true) : Executes f t x s c r s
  | beginFailed : Executes f t x s .beginWork none s
  | begin (hidle : s.store.active t = none) :
    Executes f t x s .beginWork (some ()) (s.withStore (s.store.begin t s.clock))
  | statementFailed {q : Query} : Executes f t x s (.execPrepared q) none s
  | statement {q : Query} {rows : q.Rows} {ws : List Write} {sequences : Sequences}
    {txn : Transactions.Txn Write} (hactive : s.store.active t = some txn)
    (hrun : q.run (s.store.view writes t) txn.start s.sequences f = some (rows, ws, sequences))
    (hfree : s.store.blocked writes t ws = false) :
    Executes f t x s (.execPrepared q) (some rows)
      { s with store := s.store.record writes t ws, sequences := sequences }
  | commitIdle (hidle : s.store.active t = none) : Executes f t x s .commitWork none s
  | commitFailed : Executes f t x s .commitWork none (s.withStore (s.store.close t))
  | commit {txn : Transactions.Txn Write} (hactive : s.store.active t = some txn)
    (hok : x.fails = false) :
    Executes f t x s .commitWork (some ()) (s.withStore (s.store.commit writes t))
  | abort : Executes f t x s .abortWork () (s.withStore (s.store.close t))
  | unwind : Executes f t x s .unwindWork () (s.withStore (s.store.close t))
  | randomUuid (htoken : IsUuidText x.uuid) (hfresh : x.uuid ∉ s.uuids) :
    Executes f t x s .randomUuid x.uuid { s with uuids := x.uuid :: s.uuids }

section Exec

variable {f : SqlFunctions} {t : Nat} {c : Cmd} {x : Choice} {s s' : Server} {r : c.Reply}

/-- Every proof about a call goes through these cases; `exec` is not unfolded again. -/
theorem exec_cases (h : s.exec f t c x = some (r, s')) : Executes f t x s c r s' := by
  cases c with
  | beginWork =>
    simp only [exec] at h
    split_ifs at h with hfails
    · cases h
      exact .beginFailed
    · cases h
      simp only [Bool.or_eq_true, not_or] at hfails
      exact .begin (Option.not_isSome_iff_eq_none.mp hfails.2)
  | execPrepared q =>
    simp only [exec, execStatement] at h
    split at h
    · cases h
      exact .statementFailed
    · rename_i txn hactive
      split_ifs at h
      · cases h
        exact .statementFailed
      · split at h
        · cases h
          exact .statementFailed
        · rename_i rows ws sequences hrun
          split_ifs at h with hblocked
          cases h
          exact .statement hactive hrun (eq_false_of_ne_true hblocked)
  | commitWork =>
    simp only [exec] at h
    split at h
    · rename_i hidle
      cases h
      exact .commitIdle hidle
    · rename_i txn hactive
      split_ifs at h with hfails
      · cases h
        exact .commitFailed
      · cases h
        exact .commit hactive (eq_false_of_ne_true hfails)
  | randomUuid =>
    simp only [exec] at h
    split_ifs at h with hbad
    cases h
    rw [not_or, not_not] at hbad
    exact .randomUuid hbad.1 hbad.2
  | abortWork =>
    cases h
    exact .abort
  | unwindWork =>
    cases h
    exact .unwind
  | storeClientData d =>
    have hop : s.sessionOp (.storeClientData d) = some (.storeClientData d s.steadyMs) := rfl
    cases h
    exact .session hop
  | touchSession id nowMs =>
    have hop : s.sessionOp (.touchSession id nowMs) = some (.touchSession id 0 nowMs) := rfl
    cases h
    exact .session hop
  | removeClientData id =>
    have hop : s.sessionOp (.removeClientData id) = some (.removeClientData id) := rfl
    cases h
    exact .session hop
  | sweepExpiredSessions nowMs ttlMs =>
    have hop : s.sessionOp (.sweepExpiredSessions nowMs ttlMs) =
        some (.sweepExpiredSessions nowMs ttlMs) := rfl
    cases h
    exact .session hop
  | _ =>
    cases h
    exact .read rfl

/-- The session store changes by the operation that the call is, and by nothing else. -/
theorem exec_clientData (h : s.exec f t c x = some (r, s')) :
    s'.clientData = match s.sessionOp c with
      | some op => op.apply s.clientData
      | none => s.clientData := by
  cases exec_cases h with
  | session hop =>
    rw [hop]
    rfl
  | read hreads => cases c <;> first | rfl | cases hreads
  | _ => rfl

end Exec

end Server

/-! ## What the steps between the calls change -/

section Steps

variable {p : Platform} {cfg : ServerConfig} {s s' : Server}

theorem start_cases {a : Start} {job : Job}
    (h : (loginServer p cfg).start a s = some (job, s')) :
    ∃ queue, s' = { s with eventQueue := queue } := by
  cases a with
  | cleanup =>
    cases h
    exact ⟨_, rfl⟩
  | dispatch =>
    simp only [loginServer] at h
    split at h
    · cases h
    · cases h
      exact ⟨_, rfl⟩

theorem outside_cases {o : Outside} (h : (loginServer p cfg).outside o s = some s') :
    (∃ queue, s' = { s with eventQueue := queue }) ∨
    ∃ clock steadyMs, s.clock ≤ clock ∧ s.steadyMs ≤ steadyMs ∧
      s' = { s with clock := clock, steadyMs := steadyMs } := by
  cases o with
  | frame ctx message =>
    cases h
    exact Or.inl ⟨_, rfl⟩
  | tick clock steadyMs =>
    simp only [loginServer] at h
    split_ifs at h with hle
    cases h
    exact Or.inr ⟨clock, steadyMs, hle.1, hle.2, rfl⟩

end Steps

end LoginServer
