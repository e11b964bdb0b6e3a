import LoginServer.Data.ClientData
import LoginServer.Database.Queries
import LoginServer.Interleaving.Program
import LoginServer.Utils.Json

/-!
# What a pool thread calls

The atomic actions of the handlers: a method of the session store, a call into the
connection pool or libpqxx, a fresh token, a response. Everything between two of them
is local to the thread. A call that may throw answers with an option.

`M` is a handler's program. The only exceptions are those derived from
`std::exception`; what they say is logged and nothing else.
-/

namespace LoginServer

open Database Interleaving

inductive Cmd where
  | storeClientData (clientData : ClientDataStruct)
  | getClientData (id : Int)
  | validateSession (id : Int) (hash : Bytes)
  | nowMs
  | touchSession (id nowMs : Int)
  | removeClientData (id : Int)
  | getClientsDataMap
  | sweepExpiredSessions (nowMs ttlMs : Int)
  /-- `pool_.acquire()`; the guard's destructor is not a step of its own. -/
  | acquire
  /-- The constructor of a `pqxx::work`. -/
  | beginWork
  | execPrepared (query : Query)
  | commitWork
  | abortWork
  /-- The destructor of a `pqxx::work` that an exception unwinds. -/
  | unwindWork
  | randomUuid
  /-- `is_open()` and `remote_endpoint(ec)`. -/
  | remoteEndpoint (socket : Option Socket)
  /-- `sendResponse(socket, generateResponseMessage(status, message))`. -/
  | sendResponse (socket : Option Socket) (status : Bytes) (message : Json)

def Cmd.Reply : Cmd → Type
  | .storeClientData _ => Unit
  | .getClientData _ => Option ClientDataStruct
  | .validateSession _ _ => Bool
  | .nowMs => Int
  | .touchSession _ _ => Bool
  | .removeClientData _ => Bool
  | .getClientsDataMap => List ClientDataStruct
  | .sweepExpiredSessions _ _ => List Int
  | .acquire => Option Unit
  | .beginWork => Option Unit
  | .execPrepared query => Option query.Rows
  | .commitWork => Option Unit
  | .abortWork => Unit
  | .unwindWork => Unit
  | .randomUuid => Bytes
  | .remoteEndpoint _ => Option Bytes
  | .sendResponse _ _ _ => Unit

abbrev Hist := History Cmd Cmd.Reply

/-- A caught `std::exception`. -/
abbrev StdException := Unit

abbrev M (α : Type) := ExceptT StdException (Program Cmd Cmd.Reply) α

def call (c : Cmd) : M c.Reply := ExceptT.lift (Program.call c)

/-- The value of an answer, or an exception. -/
def orThrow {α : Type} : Option α → M α
  | some a => pure a
  | none => throw ()

def storeClientData (clientData : ClientDataStruct) : M Unit := call (.storeClientData clientData)

def getClientData (id : Int) : M (Option ClientDataStruct) := call (.getClientData id)

def validateSession (id : Int) (hash : Bytes) : M Bool := call (.validateSession id hash)

def nowMs : M Int := call .nowMs

/-- The clock is read before the mutex is taken. -/
def touchSession (id : Int) : M Bool := do
  let now ← nowMs
  call (.touchSession id now)

def removeClientData (id : Int) : M Bool := call (.removeClientData id)

def getClientsDataMap : M (List ClientDataStruct) := call .getClientsDataMap

def sweepExpiredSessions (nowMs ttlMs : Int) : M (List Int) :=
  call (.sweepExpiredSessions nowMs ttlMs)

def acquire : M Unit := call .acquire >>= orThrow

def beginWork : M Unit := call .beginWork >>= orThrow

def execPrepared (query : Query) : M query.Rows := call (.execPrepared query) >>= orThrow

def commitWork : M Unit := call .commitWork >>= orThrow

def abortWork : M Unit := call .abortWork

def unwindWork : M Unit := call .unwindWork

def randomUuid : M Bytes := call .randomUuid

def remoteEndpoint (socket : Option Socket) : M (Option Bytes) := call (.remoteEndpoint socket)

def sendResponse (socket : Option Socket) (status : Bytes) (message : Json) : M Unit :=
  call (.sendResponse socket status message)

/-- The scope of a local `pqxx::work`: if an exception leaves it, the destructor rolls
back what is still open. The paths that leave it normally commit or abort themselves. -/
def withWork {α : Type} (body : M α) : M α := do
  beginWork
  tryCatch body fun e => do
    unwindWork
    throw e

/-- `as<int>()` of a `bigint` column: a value outside `int` is a conversion error. -/
def asInt (n : Int) : M Int := orThrow (integer n)

/-- `as<std::string>()`: NULL is a conversion error. -/
def asString (s : Option Bytes) : M Bytes := orThrow s

/-! ## Rules for the calls -/

variable {may : Hist → Cmd → Prop} {E : Hist → StdException → Prop} {h : Hist}

theorem obeysE_call {c : Cmd} {Q : Hist → c.Reply → Prop} :
    ObeysE may Q E h (call c) ↔ may h c ∧ ∀ r, Q (⟨c, r⟩ :: h) r :=
  obeysE_lift.trans obeys_call

theorem obeysE_touchSession {id : Int} {Q : Hist → Bool → Prop} (hclock : may h .nowMs)
    (htouch : ∀ now, may (⟨.nowMs, now⟩ :: h) (.touchSession id now))
    (hQ : ∀ now touched, Q (⟨.touchSession id now, touched⟩ :: ⟨.nowMs, now⟩ :: h) touched) :
    ObeysE may Q E h (touchSession id) :=
  obeysE_bind.mpr (obeysE_call.mpr ⟨hclock, fun now =>
    obeysE_call.mpr ⟨htouch now, hQ now⟩⟩)

theorem obeysE_orThrow {α : Type} {a : Option α} {Q : Hist → α → Prop}
    (hsome : ∀ x, a = some x → Q h x) (hnone : a = none → E h ()) :
    ObeysE may Q E h (orThrow a) := by
  cases a with
  | none => exact hnone rfl
  | some x => exact hsome x rfl

/-- A call that may throw. -/
theorem obeysE_callOrThrow {α : Type} {c : Cmd} (f : c.Reply → Option α) {Q : Hist → α → Prop}
    (hmay : may h c) (hsome : ∀ r x, f r = some x → Q (⟨c, r⟩ :: h) x)
    (hnone : ∀ r, f r = none → E (⟨c, r⟩ :: h) ()) :
    ObeysE may Q E h (call c >>= fun r => orThrow (f r)) :=
  obeysE_bind.mpr (obeysE_call.mpr ⟨hmay, fun r => obeysE_orThrow (hsome r) (hnone r)⟩)

theorem obeysE_acquire {Q : Hist → Unit → Prop} (hmay : may h .acquire)
    (hok : Q (⟨.acquire, some ()⟩ :: h) ()) (hfail : E (⟨.acquire, none⟩ :: h) ()) :
    ObeysE may Q E h acquire :=
  obeysE_callOrThrow (c := .acquire) id hmay
    (fun r x hr => by cases x; obtain rfl : r = some () := hr; exact hok)
    (fun r hr => by obtain rfl : r = none := hr; exact hfail)

theorem obeysE_beginWork {Q : Hist → Unit → Prop} (hmay : may h .beginWork)
    (hok : Q (⟨.beginWork, some ()⟩ :: h) ()) (hfail : E (⟨.beginWork, none⟩ :: h) ()) :
    ObeysE may Q E h beginWork :=
  obeysE_callOrThrow (c := .beginWork) id hmay
    (fun r x hr => by cases x; obtain rfl : r = some () := hr; exact hok)
    (fun r hr => by obtain rfl : r = none := hr; exact hfail)

theorem obeysE_commitWork {Q : Hist → Unit → Prop} (hmay : may h .commitWork)
    (hok : Q (⟨.commitWork, some ()⟩ :: h) ()) (hfail : E (⟨.commitWork, none⟩ :: h) ()) :
    ObeysE may Q E h commitWork :=
  obeysE_callOrThrow (c := .commitWork) id hmay
    (fun r x hr => by cases x; obtain rfl : r = some () := hr; exact hok)
    (fun r hr => by obtain rfl : r = none := hr; exact hfail)

theorem obeysE_execPrepared {query : Query} {Q : Hist → query.Rows → Prop}
    (hmay : may h (.execPrepared query))
    (hok : ∀ rows : query.Rows, Q (⟨.execPrepared query, some rows⟩ :: h) rows)
    (hfail : E (⟨.execPrepared query, none⟩ :: h) ()) :
    ObeysE may Q E h (execPrepared query) :=
  obeysE_callOrThrow (c := .execPrepared query) id hmay
    (fun r x hr => by obtain rfl : r = some x := hr; exact hok x)
    (fun r hr => by obtain rfl : r = none := hr; exact hfail)

theorem obeysE_withWork {α : Type} {body : M α} {Q : Hist → α → Prop}
    (hbegin : may h .beginWork) (hfail : E (⟨.beginWork, none⟩ :: h) ())
    (hbody : ObeysE may Q
      (fun h' _ => may h' .unwindWork ∧ E (⟨.unwindWork, ()⟩ :: h') ())
      (⟨.beginWork, some ()⟩ :: h) body) :
    ObeysE may Q E h (withWork body) := by
  refine obeysE_bind.mpr (obeysE_beginWork hbegin ?_ hfail)
  refine obeysE_tryCatch.mpr (hbody.mono (fun _ _ hq => hq) fun h' e he => ?_)
  refine obeysE_bind.mpr (obeysE_call.mpr ⟨he.1, fun r => ?_⟩)
  exact obeysE_throw.mpr he.2

end LoginServer
