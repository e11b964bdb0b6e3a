import Mathlib.Tactic.SplitIfs
import LoginServer.Machines.Machine
import LoginServer.Network.Framing
import LoginServer.Network.ProcessMessage
import LoginServer.Network.Responses
import LoginServer.Network.WriteQueue
import LoginServer.Nlohmann.Serializer

/-!
# The connections of `NetworkManager`

The accept handlers and the read chains, over the writes of `Writes`. A handler is the
list of what is left of its body, one entry for each locked section, each call into
Asio and each `post`, so that any two handlers and the strands interleave between any
two entries. `socketBuffers_` and `activeSockets_` are keyed by addresses, which are used
again once a socket object is destroyed.

The look-up of the queue and the `post` of one `enqueueWrite` of the reading thread are
one entry: the queue of a live socket does not change in between.

`admitted`, `reaped`, `received` and `refused` record what happened to a connection; no
function reads them.
-/

namespace LoginServer

open Machines protocol

/-- The configuration, and the parts that are not in the repository. -/
structure NetworkParams where
  max_clients : Int
  /-- `parsePositiveInt("SERVER_MAX_CLIENTS", …, 1, 100000)`. -/
  max_clients_range : 1 ≤ max_clients ∧ max_clients ≤ 100000
  platform : Platform
  versionLimits : VersionLimits
  /-- `std::to_chars`, which `dump` calls for a finite `double`. -/
  to_chars : UInt64 → Bytes
  localtime : Int → LocalTime

/-- `static_cast<size_t>(maxClients)`. -/
def NetworkParams.maxClients (p : NetworkParams) : Nat := p.max_clients.toNat

/-- `generateResponseMessage("error", err)` at a time. What `dump` throws `processMessage`
catches, and it answers with `ERR_MALFORMED`. -/
def NetworkParams.errorText (p : NetworkParams) (err : Json) (now : Int) : Option Bytes :=
  let text := generateResponseMessage (Nlohmann.dump p.to_chars)
    (getCurrentTimestamp (p.localtime now)) (str "error")
  (text err).orElse fun _ => text malformedError

/-! ## The bodies of the handlers -/

/-- What is left of the completion handler of `async_accept`. -/
inductive AcceptAction where
  /-- `clientSocket->remote_endpoint()`. -/
  | remoteEndpoint
  /-- The section under `activeSocketsMutex_`. -/
  | insertActive
  | close
  | startReading
  | startAccept
deriving DecidableEq

structure AcceptHandler where
  /-- Null in the first call, which `startIOEventLoop` makes, and after an error. -/
  socket : Option SocketId
  rest : List AcceptAction
deriving DecidableEq

namespace AcceptHandler

/-- The body for an accepted connection. -/
def onSuccess (s : SocketId) : AcceptHandler :=
  ⟨some s, [.remoteEndpoint, .insertActive, .startReading, .startAccept]⟩

def onError : AcceptHandler := ⟨none, [.startAccept]⟩

/-- The branch `activeSockets_.size() >= maxClients`, which returns. -/
def rejecting (h : AcceptHandler) : AcceptHandler := { h with rest := [.close, .startAccept] }

end AcceptHandler

/-- What is left of the completion handler of `async_read_some`. -/
inductive ReadAction where
  /-- The section of `handleClientData` under `socketBufferMutex_`. -/
  | handleClientData (dataBuffer : Bytes)
  | processMessage (message : Bytes)
  /-- `sendResponse(clientSocket, generateResponseMessage("error", err))`. -/
  | sendResponse (err : Json)
  /-- The same, for a length above `kMaxFrameBytes`. -/
  | sendOversize
  /-- `socketBuffers_[clientSocket.get()] = std::move(accumulatedData)`. -/
  | storeBuffer (accumulatedData : Bytes)
  | eraseBuffer
  | eraseSlot
  | removeWriteQueue
  | close
  | startReading

namespace ReadAction

def reapSocket : List ReadAction := [eraseBuffer, eraseSlot, removeWriteQueue, close]

/-- The end of `extractV2Messages`, after its loop. -/
def keepRest (accumulatedData : Bytes) : List ReadAction :=
  if accumulatedData.isEmpty then []
  else if accumulatedData.length > kMaxAccumulatedBytesV2 then
    [sendResponse NetworkManager.oversizeError, storeBuffer []]
  else [storeBuffer accumulatedData]

/-- `extractV2Messages`, with the messages still allowed in this read. -/
def extractV2Messages : Nat → Bytes → List ReadAction
  | 0, accumulatedData => keepRest accumulatedData
  | k + 1, accumulatedData =>
    match accumulatedData with
    | b0 :: b1 :: b2 :: b3 :: _ =>
      let n := frameLength b0 b1 b2 b3
      if n.toNat > kMaxFrameBytes then sendOversize :: reapSocket
      else if accumulatedData.length < (4 + n).toNat then keepRest accumulatedData
      else
        processMessage ((accumulatedData.drop 4).take n.toNat) ::
          extractV2Messages k (accumulatedData.drop (4 + n).toNat)
    | _ => keepRest accumulatedData

/-- The handler of a read of `dataBuffer`. -/
def onData (dataBuffer : Bytes) : List ReadAction := [handleClientData dataBuffer, startReading]

end ReadAction

/-! ## A handler that nothing comes between -/

namespace ReadAction

/-- What an entry does to the maps of `NetworkManager`, where the first and the last entry of
a handler have no part. -/
def onManager (clientSocket : Socket) (nm : NetworkManager) : ReadAction → NetworkManager
  | handleClientData _ => nm
  | processMessage message => nm.log clientSocket (.processMessage message)
  | sendResponse err => nm.log clientSocket (.sendResponse (str "error") err)
  | sendOversize => nm.log clientSocket (.sendResponse (str "error") NetworkManager.oversizeError)
  | storeBuffer accumulatedData => nm.setBuffer clientSocket (some accumulatedData)
  | eraseBuffer => nm.setBuffer clientSocket none
  | eraseSlot =>
    { nm with activeSockets := Function.update nm.activeSockets clientSocket false }
  | removeWriteQueue => nm
  | close => nm.close clientSocket
  | startReading => nm

variable {clientSocket : Socket}

theorem foldl_keepRest (nm : NetworkManager) (accumulatedData : Bytes) :
    (keepRest accumulatedData).foldl (onManager clientSocket) nm =
      if accumulatedData.isEmpty then nm
      else if accumulatedData.length > kMaxAccumulatedBytesV2 then
        (nm.log clientSocket (.sendResponse (str "error") NetworkManager.oversizeError)).setBuffer
          clientSocket (some [])
      else nm.setBuffer clientSocket (some accumulatedData) := by
  unfold keepRest
  split_ifs <;> rfl

/-- The end of `extractV2Messages` after its loop, on the maps. -/
def finish (clientSocket : Socket) : NetworkManager × Option Bytes → NetworkManager
  | (nm, none) => nm
  | (nm, some rest) => (keepRest rest).foldl (onManager clientSocket) nm

theorem foldl_extractLoop (k : Nat) (nm : NetworkManager) (accumulatedData : Bytes) :
    (extractV2Messages k accumulatedData).foldl (onManager clientSocket) nm =
      finish clientSocket (NetworkManager.extractLoop clientSocket k nm accumulatedData) := by
  induction k generalizing nm accumulatedData with
  | zero => rfl
  | succ k ih =>
    rcases accumulatedData with _ | ⟨b0, _ | ⟨b1, _ | ⟨b2, _ | ⟨b3, tail⟩⟩⟩⟩
    · rfl
    · rfl
    · rfl
    · rfl
    · simp only [extractV2Messages, NetworkManager.extractLoop]
      split_ifs
      · rfl
      · rfl
      · exact ih _ _

/-- The entries do together what `extractV2Messages` does. -/
theorem foldl_extractV2Messages (nm : NetworkManager) (accumulatedData : Bytes) :
    (extractV2Messages NetworkManager.MAX_MESSAGES_PER_READ accumulatedData).foldl
      (onManager clientSocket) nm = nm.extractV2Messages clientSocket accumulatedData := by
  rw [foldl_extractLoop, NetworkManager.extractV2Messages]
  rcases NetworkManager.extractLoop clientSocket NetworkManager.MAX_MESSAGES_PER_READ nm
    accumulatedData with ⟨nm', _ | rest⟩
  · rfl
  · exact foldl_keepRest nm' rest

end ReadAction

/-- Where the read chain of a connection is. -/
inductive ReadChain where
  /-- The accept handler has the connection. -/
  | accepted
  /-- An `async_read_some` is outstanding, which was started on an open socket or not. -/
  | reading (startedOpen : Bool)
  | handling (rest : List ReadAction)
  /-- No handler refers to the socket. -/
  | ended

namespace ReadChain

/-- A handler with nothing left returns, and the chain ends with it. -/
def handler : List ReadAction → ReadChain
  | [] => .ended
  | rest => .handling rest

def isEnded : ReadChain → Bool
  | .ended => true
  | _ => false

end ReadChain

/-! ## The state and its steps -/

structure Connections where
  writes : Writes := {}
  socketBuffers : Nat → Option Bytes := fun _ => none
  activeSockets : List Nat := []
  /-- The addresses of the sockets of the outstanding `async_accept`s. -/
  outstanding : List Nat := []
  /-- The calls that are to end in a `startAccept`. -/
  handlers : List AcceptHandler := [⟨none, [.startAccept]⟩]
  chain : SocketId → ReadChain := fun _ => .ended
  /-- An exception has left a handler, and `io_context_.run()` with it. -/
  threw : Bool := false
  admitted : SocketId → Bool := fun _ => false
  /-- A `reapSocket` of the connection has erased its slot. -/
  reaped : SocketId → Bool := fun _ => false
  /-- The bytes that `handleClientData` was given. -/
  received : SocketId → Bytes := fun _ => []
  /-- How many payloads had been posted when the oversize error had been. -/
  refused : SocketId → Option Nat := fun _ => none

/-- The frame that `sendResponse` makes of a response, empty when it is too large. -/
def frameResponse (responseString : Bytes) : Bytes :=
  packFramedMessage (if responseString.getLast? = some 10 then responseString.dropLast
    else responseString)

theorem frameResponse_ne_nil {text : Bytes} (h : text.length ≤ kMaxFrameBytes) :
    frameResponse text ≠ [] := by
  have hfits : ¬ (if text.getLast? = some 10 then text.dropLast else text).length >
      kMaxFrameBytes := by
    split
    · rw [List.length_dropLast]
      omega
    · omega
  rw [frameResponse, packFramedMessage, if_neg hfits]
  simp [lengthPrefix]

def Writes.sendResponse (st : Writes) (s : SocketId) (responseString : Bytes) : Option Writes :=
  if (frameResponse responseString).isEmpty then some st
  else (st.step (.enqueueWrite s (frameResponse responseString))).bind fun st' =>
    st'.step (.post st.calls.length)

/-- `sendResponse` of a text that has been generated. -/
def Writes.sendText (st : Writes) (s : SocketId) : Option Bytes → Option Writes
  | some text => st.sendResponse s text
  | none => some st

inductive ConnectionLabel where
  /-- A step of another thread on the writes. -/
  | write (l : WriteLabel)
  | acceptCompleted (i : Nat) (error : Bool)
  /-- A handler calls `remote_endpoint()`, on a socket that is connected or not. -/
  | remoteEndpoint (i : Nat) (connected : Bool)
  | acceptHandler (i : Nat)
  /-- A handler calls `startAccept`; the new socket object is at a free address. -/
  | startAccept (i : Nat) (address : Nat)
  /-- A read completes with data or with an error. -/
  | readCompleted (s : SocketId) (data : Option Bytes)
  /-- The next entry of the read handler. -/
  | readHandler (s : SocketId) (remoteAddress : Option Bytes) (now : Int)
deriving DecidableEq

namespace Connections

variable (p : NetworkParams) (st : Connections)

/-- An accept handler refers to the socket. -/
def inHandler (s : SocketId) : Bool := st.handlers.any fun h => h.socket = some s

/-- The steps on the writes that other threads take: the tasks of the strands, the
responses of the event handlers, the sweep, and the end of the last reference. -/
def otherThread : WriteLabel → Bool
  | .accept _ => false
  | .close _ => false
  | .removeWriteQueue _ => false
  | .release s => (st.chain s).isEnded && !st.inHandler s
  | _ => true

/-- A handler goes on with what is left, or returns. -/
def setHandler (i : Nat) (h : AcceptHandler) : Connections :=
  { st with
    handlers := if h.rest.isEmpty then st.handlers.eraseIdx i else st.handlers.set i h }

def setChain (s : SocketId) (c : ReadChain) : Connections :=
  { st with chain := Function.update st.chain s c }

/-- `startReadingFromClient(clientSocket)`. -/
def startReading (s : SocketId) : Connections := st.setChain s (.reading (st.writes.isOpen s))

def setBuffer (address : Nat) (entry : Option Bytes) : Connections :=
  { st with socketBuffers := Function.update st.socketBuffers address entry }

def runAccept (i : Nat) (h : AcceptHandler) (s : SocketId) (address : Nat)
    (rest : List AcceptAction) : AcceptAction → Option Connections
  | .insertActive =>
    if st.activeSockets.length ≥ p.maxClients then some (st.setHandler i h.rejecting)
    else some { st.setHandler i { h with rest := rest } with
      activeSockets := st.activeSockets.insert address
      admitted := Function.update st.admitted s true }
  | .close =>
    some ({ st with writes := st.writes.close s }.setChain s .ended
      |>.setHandler i { h with rest := rest })
  | .startReading => some ((st.startReading s).setHandler i { h with rest := rest })
  | .remoteEndpoint | .startAccept => none

/-- The section of `handleClientData` under the mutex, and what it leads to. -/
def takeData (s : SocketId) (address : Nat) (dataBuffer : Bytes) (rest : List ReadAction) :
    Connections :=
  let accumulatedData := (st.socketBuffers address).getD []
  let st := { st with
    received := Function.update st.received s (st.received s ++ dataBuffer) }
  if accumulatedData.length + dataBuffer.length > kMaxAccumulatedBytesV2 then
    (st.setBuffer address none).setChain s (.handling (.close :: rest))
  else
    (st.setBuffer address ((st.socketBuffers address).map fun _ => [])).setChain s
      (.handler (ReadAction.extractV2Messages NetworkManager.MAX_MESSAGES_PER_READ
        (accumulatedData ++ dataBuffer) ++ rest))

def runRead (s : SocketId) (address : Nat) (remoteAddress : Option Bytes) (now : Int)
    (rest : List ReadAction) : ReadAction → Option Connections
  | .handleClientData dataBuffer => some (st.takeData s address dataBuffer rest)
  | .processMessage message =>
    let processed := LoginServer.processMessage p.platform p.versionLimits
      ⟨s, remoteAddress, now⟩ message
    some (st.setChain s (.handler (processed.responses.map .sendResponse ++ rest)))
  | .sendResponse err => do
    let writes ← st.writes.sendText s (p.errorText err now)
    some ({ st with writes := writes }.setChain s (.handler rest))
  | .sendOversize => do
    let writes ← st.writes.sendText s (p.errorText NetworkManager.oversizeError now)
    some ({ st with
      writes := writes
      refused := Function.update st.refused s (some (writes.posted s).length) }.setChain s
        (.handler rest))
  | .storeBuffer accumulatedData =>
    some ((st.setBuffer address (some accumulatedData)).setChain s (.handler rest))
  | .eraseBuffer => some ((st.setBuffer address none).setChain s (.handler rest))
  | .eraseSlot =>
    some ({ st with
      activeSockets := st.activeSockets.erase address
      reaped := Function.update st.reaped s true }.setChain s (.handler rest))
  | .removeWriteQueue =>
    some ({ st with writes := st.writes.removeWriteQueue address (some s) }.setChain s
      (.handler rest))
  | .close => some ({ st with writes := st.writes.close s }.setChain s (.handler rest))
  | .startReading => some (st.startReading s)

def step (st : Connections) (l : ConnectionLabel) : Option Connections :=
  if st.threw then none
  else match l with
  | .write l =>
    if st.otherThread l then (st.writes.step l).map fun writes => { st with writes := writes }
    else none
  | .acceptCompleted i error => do
    let address ← st.outstanding[i]?
    let st := { st with outstanding := st.outstanding.eraseIdx i }
    if error then some { st with handlers := st.handlers ++ [AcceptHandler.onError] }
    else do
      let s := st.writes.nextSocket
      let writes ← st.writes.step (.accept address)
      some ({ st with
        writes := writes
        handlers := st.handlers ++ [AcceptHandler.onSuccess s] }.setChain s .accepted)
  | .remoteEndpoint i connected => do
    let h ← st.handlers[i]?
    match h.rest with
    | .remoteEndpoint :: rest =>
      if connected then some (st.setHandler i { h with rest := rest })
      else some { st with threw := true }
    | _ => none
  | .acceptHandler i => do
    let h ← st.handlers[i]?
    let s ← h.socket
    let o ← st.writes.sockets s
    match h.rest with
    | action :: rest => st.runAccept p i h s o.address rest action
    | [] => none
  | .startAccept i address => do
    let h ← st.handlers[i]?
    match h.rest with
    | .startAccept :: rest =>
      if st.writes.addressFree address && !st.outstanding.contains address then
        some { st.setHandler i { h with rest := rest } with
          outstanding := st.outstanding ++ [address] }
      else none
    | _ => none
  | .readCompleted s data =>
    match st.chain s, data with
    | .reading startedOpen, some dataBuffer =>
      if startedOpen && dataBuffer.length ≤ kMaxMessageBytes then
        some (st.setChain s (.handling (ReadAction.onData dataBuffer)))
      else none
    | .reading _, none => some (st.setChain s (.handling ReadAction.reapSocket))
    | _, _ => none
  | .readHandler s remoteAddress now => do
    let o ← st.writes.sockets s
    match st.chain s with
    | .handling (action :: rest) => st.runRead p s o.address remoteAddress now rest action
    | _ => none

/-! ## What a step can be -/

inductive Step (p : NetworkParams) (st : Connections) : ConnectionLabel → Connections → Prop where
  | write {l : WriteLabel} {writes : Writes} (hl : st.otherThread l = true)
      (hw : st.writes.step l = some writes) : Step p st (.write l) { st with writes := writes }
  | acceptError {i address : Nat} (ha : st.outstanding[i]? = some address) :
    Step p st (.acceptCompleted i true)
      { st with
        outstanding := st.outstanding.eraseIdx i
        handlers := st.handlers ++ [AcceptHandler.onError] }
  | acceptSuccess {i address : Nat} {writes : Writes} (ha : st.outstanding[i]? = some address)
      (hw : st.writes.step (.accept address) = some writes) :
    Step p st (.acceptCompleted i false)
      ({ st with
        writes := writes
        outstanding := st.outstanding.eraseIdx i
        handlers := st.handlers ++ [AcceptHandler.onSuccess st.writes.nextSocket] }.setChain
          st.writes.nextSocket .accepted)
  | connected {i : Nat} {h : AcceptHandler} {rest : List AcceptAction}
      (hh : st.handlers[i]? = some h) (hrest : h.rest = .remoteEndpoint :: rest) :
    Step p st (.remoteEndpoint i true) (st.setHandler i { h with rest := rest })
  | threw {i : Nat} {h : AcceptHandler} {rest : List AcceptAction}
      (hh : st.handlers[i]? = some h) (hrest : h.rest = .remoteEndpoint :: rest) :
    Step p st (.remoteEndpoint i false) { st with threw := true }
  | acceptHandler {i : Nat} {h : AcceptHandler} {s : SocketId} {address : Nat}
      {action : AcceptAction} {rest : List AcceptAction} {st' : Connections}
      (hh : st.handlers[i]? = some h) (hs : h.socket = some s)
      (ho : st.writes.addressOf s = some address) (hrest : h.rest = action :: rest)
      (hrun : st.runAccept p i h s address rest action = some st') :
    Step p st (.acceptHandler i) st'
  | startAccept {i address : Nat} {h : AcceptHandler} {rest : List AcceptAction}
      (hh : st.handlers[i]? = some h) (hrest : h.rest = .startAccept :: rest)
      (hfree : st.writes.addressFree address = true) (hnew : address ∉ st.outstanding) :
    Step p st (.startAccept i address)
      { st.setHandler i { h with rest := rest } with outstanding := st.outstanding ++ [address] }
  | readData {s : SocketId} {dataBuffer : Bytes} (hc : st.chain s = .reading true) :
    Step p st (.readCompleted s (some dataBuffer))
      (st.setChain s (.handling (ReadAction.onData dataBuffer)))
  | readError {s : SocketId} {startedOpen : Bool} (hc : st.chain s = .reading startedOpen) :
    Step p st (.readCompleted s none) (st.setChain s (.handling ReadAction.reapSocket))
  | readHandler {s : SocketId} {address : Nat} {remoteAddress : Option Bytes} {now : Int}
      {action : ReadAction} {rest : List ReadAction} {st' : Connections}
      (ho : st.writes.addressOf s = some address)
      (hc : st.chain s = .handling (action :: rest))
      (hrun : st.runRead p s address remoteAddress now rest action = some st') :
    Step p st (.readHandler s remoteAddress now) st'

variable {p : NetworkParams} {st st' : Connections} {l : ConnectionLabel}

theorem addressOf_of_sockets {writes : Writes} {s : SocketId} {o : SocketObject}
    (ho : writes.sockets s = some o) : writes.addressOf s = some o.address := by
  rw [Writes.addressOf, ho]
  rfl

theorem step_cases (h : st.step p l = some st') : st.threw = false ∧ Step p st l st' := by
  simp only [step, Option.ite_none_left_eq_some, Bool.not_eq_true] at h
  refine ⟨h.1, ?_⟩
  replace h := h.2
  cases l with
  | write l =>
    simp only [Option.ite_none_right_eq_some, Option.map_eq_some_iff] at h
    obtain ⟨hl, writes, hw, rfl⟩ := h
    exact .write hl hw
  | acceptCompleted i error =>
    simp only [bind, Option.bind_eq_some_iff] at h
    obtain ⟨address, ha, h⟩ := h
    cases error with
    | true =>
      cases h
      exact .acceptError ha
    | false =>
      simp only [Bool.false_eq_true, if_false, Option.bind_eq_some_iff, Option.some.injEq] at h
      obtain ⟨writes, hw, rfl⟩ := h
      exact .acceptSuccess ha hw
  | remoteEndpoint i connected =>
    simp only [bind, Option.bind_eq_some_iff] at h
    obtain ⟨h', hh, h⟩ := h
    split at h
    · rename_i rest hrest
      cases connected with
      | true =>
        cases h
        exact .connected hh hrest
      | false =>
        cases h
        exact .threw hh hrest
    · cases h
  | acceptHandler i =>
    simp only [bind, Option.bind_eq_some_iff] at h
    obtain ⟨h', hh, s, hs, o, ho, h⟩ := h
    split at h
    · rename_i action rest hrest
      exact .acceptHandler hh hs (addressOf_of_sockets ho) hrest h
    · cases h
  | startAccept i address =>
    simp only [bind, Option.bind_eq_some_iff] at h
    obtain ⟨h', hh, h⟩ := h
    split at h
    · rename_i rest hrest
      simp only [Option.ite_none_right_eq_some, Bool.and_eq_true, Bool.not_eq_true',
        List.contains_eq_mem, decide_eq_false_iff_not, Option.some.injEq] at h
      obtain ⟨⟨hfree, hnew⟩, rfl⟩ := h
      exact .startAccept hh hrest hfree hnew
    · cases h
  | readCompleted s data =>
    simp only at h
    split at h
    · rename_i startedOpen dataBuffer hc
      simp only [Option.ite_none_right_eq_some, Bool.and_eq_true, Option.some.injEq] at h
      obtain ⟨⟨rfl, -⟩, rfl⟩ := h
      exact .readData hc
    · rename_i startedOpen hc
      cases h
      exact .readError hc
    · cases h
  | readHandler s remoteAddress now =>
    simp only [bind, Option.bind_eq_some_iff] at h
    obtain ⟨o, ho, h⟩ := h
    split at h
    · rename_i action rest hc
      exact .readHandler (addressOf_of_sockets ho) hc h
    · cases h

end Connections

def connections (p : NetworkParams) : Machine Connections ConnectionLabel :=
  ⟨{}, Connections.step p⟩

/-- A server for one client. -/
def smallNetwork : NetworkParams where
  max_clients := 1
  max_clients_range := by decide
  platform := ⟨⟨id, fun _ => []⟩, fun _ => [], fun _ => none⟩
  versionLimits := ⟨str "0.1.0", str "0.1.0"⟩
  to_chars := fun _ => []
  localtime := fun _ => ⟨2026, 1, 1, 0, 0, 0, 0⟩

end LoginServer
