import Mathlib.Logic.Function.Basic
import LoginServer.Utils.Json
import LoginServer.Utils.WireFraming

/-!
# The framing layer of the network manager

`handleClientData` and `extractV2Messages`, with the two maps they share with
`reapSocket`. What the layer does to the outside (a message handed to
`processMessage`, an error response, a connection closed by the overflow guard) is
written to `framingLog`; neither `processMessage` nor `sendResponse` reads or writes
a map of this layer. A completed read reaches `handleClientData` only on an open
socket: `async_read_some` on a closed one completes with an error and is reaped.
-/

namespace LoginServer

open protocol

inductive FramingEvent where
  | processMessage (message : Bytes)
  | sendResponse (status : Bytes) (message : Json)
  /-- `overCap`: "Framing overflow, disconnecting client". -/
  | overCap

structure NetworkManager where
  socketBuffers : Socket → Option Bytes
  activeSockets : Socket → Bool
  /-- `is_open()` of the socket object. -/
  isOpen : Socket → Bool
  framingLog : List (Socket × FramingEvent)

namespace NetworkManager

def MAX_MESSAGES_PER_READ : Nat := 10

/-- The error document of the two overflow paths. -/
def oversizeError : Json :=
  .object [(str "header", .object [(str "eventType", .string (str "framing")),
      (str "message", .string kErrOversize)]),
    (str "body", .object [])]

def log (nm : NetworkManager) (clientSocket : Socket) (e : FramingEvent) : NetworkManager :=
  { nm with framingLog := nm.framingLog ++ [(clientSocket, e)] }

def close (nm : NetworkManager) (clientSocket : Socket) : NetworkManager :=
  { nm with isOpen := Function.update nm.isOpen clientSocket false }

def setBuffer (nm : NetworkManager) (clientSocket : Socket) (entry : Option Bytes) :
    NetworkManager :=
  { nm with socketBuffers := Function.update nm.socketBuffers clientSocket entry }

def reapSocket (nm : NetworkManager) (clientSocket : Socket) : NetworkManager :=
  let nm := nm.setBuffer clientSocket none
  let nm := { nm with activeSockets := Function.update nm.activeSockets clientSocket false }
  nm.close clientSocket

/-- The loop of `extractV2Messages`, with the messages still allowed in this read.
`none` is the exit that sends the oversize error, reaps the socket and returns. -/
def extractLoop (clientSocket : Socket) :
    Nat → NetworkManager → Bytes → NetworkManager × Option Bytes
  | 0, nm, accumulatedData => (nm, some accumulatedData)
  | k + 1, nm, accumulatedData =>
    match accumulatedData with
    | b0 :: b1 :: b2 :: b3 :: _ =>
      let n := frameLength b0 b1 b2 b3
      if n.toNat > kMaxFrameBytes then
        let nm := nm.log clientSocket (.sendResponse (str "error") oversizeError)
        (nm.reapSocket clientSocket, none)
      else if accumulatedData.length < (4 + n).toNat then
        (nm, some accumulatedData)
      else
        let nm := nm.log clientSocket (.processMessage ((accumulatedData.drop 4).take n.toNat))
        extractLoop clientSocket k nm (accumulatedData.drop (4 + n).toNat)
    | _ => (nm, some accumulatedData)

def extractV2Messages (nm : NetworkManager) (clientSocket : Socket) (accumulatedData : Bytes) :
    NetworkManager :=
  match extractLoop clientSocket MAX_MESSAGES_PER_READ nm accumulatedData with
  | (nm, none) => nm
  | (nm, some accumulatedData) =>
    if accumulatedData.isEmpty then nm
    else if accumulatedData.length > kMaxAccumulatedBytesV2 then
      let nm := nm.log clientSocket (.sendResponse (str "error") oversizeError)
      nm.setBuffer clientSocket (some [])
    else nm.setBuffer clientSocket (some accumulatedData)

def handleClientData (nm : NetworkManager) (clientSocket : Socket) (dataBuffer : Bytes) :
    NetworkManager :=
  let accumulatedData := (nm.socketBuffers clientSocket).getD []
  -- an entry that is there is moved out of and cleared
  let nm := nm.setBuffer clientSocket ((nm.socketBuffers clientSocket).map fun _ => [])
  if accumulatedData.length + dataBuffer.length > kMaxAccumulatedBytesV2 then
    let nm := nm.setBuffer clientSocket none
    (nm.log clientSocket .overCap).close clientSocket
  else nm.extractV2Messages clientSocket (accumulatedData ++ dataBuffer)

/-- The completion handler of `startReadingFromClient`, for a read of `dataBuffer`. -/
def readCompleted (nm : NetworkManager) (clientSocket : Socket) (dataBuffer : Bytes) :
    NetworkManager :=
  if nm.isOpen clientSocket then nm.handleClientData clientSocket dataBuffer
  else nm.reapSocket clientSocket

def readAll (nm : NetworkManager) (reads : List (Socket × Bytes)) : NetworkManager :=
  reads.foldl (fun nm r => nm.readCompleted r.1 r.2) nm

/-- Connections that were accepted and have not received anything. -/
def fresh : NetworkManager where
  socketBuffers _ := none
  activeSockets _ := true
  isOpen _ := true
  framingLog := []

/-! ## What is visible of one connection -/

def messageOf : FramingEvent → Option Bytes
  | .processMessage message => some message
  | _ => none

/-- The events of one connection, in order. -/
def eventsOf (nm : NetworkManager) (p : Socket) : List FramingEvent :=
  nm.framingLog.filterMap fun e => if e.1 = p then some e.2 else none

/-- The messages of connection `p` passed to `processMessage`, in order. -/
def delivered (nm : NetworkManager) (p : Socket) : List Bytes :=
  (nm.eventsOf p).filterMap messageOf

/-- The bytes kept for connection `p` in `socketBuffers`. -/
def kept (nm : NetworkManager) (p : Socket) : Bytes := (nm.socketBuffers p).getD []

def isOverCap : FramingEvent → Bool
  | .overCap => true
  | _ => false

/-- The overflow guard closed connection `p`. -/
def overflowed (nm : NetworkManager) (p : Socket) : Bool := (nm.eventsOf p).any isOverCap

theorem eventsOf_log (nm : NetworkManager) (p q : Socket) (e : FramingEvent) :
    (nm.log p e).eventsOf q = nm.eventsOf q ++ if p = q then [e] else [] := by
  by_cases h : p = q <;> simp [eventsOf, log, h]

@[simp] theorem delivered_log (nm : NetworkManager) (p q : Socket) (e : FramingEvent) :
    (nm.log p e).delivered q = nm.delivered q ++ if p = q then (messageOf e).toList else [] := by
  rw [delivered, eventsOf_log, List.filterMap_append, delivered]
  by_cases h : p = q
  · cases hm : messageOf e <;> simp [h, hm]
  · simp [h]

@[simp] theorem overflowed_log (nm : NetworkManager) (p q : Socket) (e : FramingEvent) :
    (nm.log p e).overflowed q = (nm.overflowed q || (p = q && isOverCap e)) := by
  rw [overflowed, eventsOf_log, List.any_append, overflowed]
  by_cases h : p = q <;> simp [h]

@[simp] theorem delivered_setBuffer (nm : NetworkManager) (p q : Socket) (entry : Option Bytes) :
    (nm.setBuffer p entry).delivered q = nm.delivered q := rfl

@[simp] theorem delivered_close (nm : NetworkManager) (p q : Socket) :
    (nm.close p).delivered q = nm.delivered q := rfl

@[simp] theorem delivered_reapSocket (nm : NetworkManager) (p q : Socket) :
    (nm.reapSocket p).delivered q = nm.delivered q := rfl

@[simp] theorem overflowed_setBuffer (nm : NetworkManager) (p q : Socket) (entry : Option Bytes) :
    (nm.setBuffer p entry).overflowed q = nm.overflowed q := rfl

@[simp] theorem overflowed_close (nm : NetworkManager) (p q : Socket) :
    (nm.close p).overflowed q = nm.overflowed q := rfl

@[simp] theorem overflowed_reapSocket (nm : NetworkManager) (p q : Socket) :
    (nm.reapSocket p).overflowed q = nm.overflowed q := rfl

@[simp] theorem kept_log (nm : NetworkManager) (p q : Socket) (e : FramingEvent) :
    (nm.log p e).kept q = nm.kept q := rfl

@[simp] theorem kept_close (nm : NetworkManager) (p q : Socket) :
    (nm.close p).kept q = nm.kept q := rfl

@[simp] theorem kept_setBuffer_self (nm : NetworkManager) (p : Socket) (entry : Option Bytes) :
    (nm.setBuffer p entry).kept p = entry.getD [] := by
  simp [kept, setBuffer]

@[simp] theorem kept_setBuffer_of_ne (nm : NetworkManager) {p q : Socket} (h : p ≠ q)
    (entry : Option Bytes) : (nm.setBuffer p entry).kept q = nm.kept q := by
  simp [kept, setBuffer, Function.update_of_ne h.symm]

@[simp] theorem kept_reapSocket_self (nm : NetworkManager) (p : Socket) :
    (nm.reapSocket p).kept p = [] := by
  simp [reapSocket, kept, setBuffer, close]

@[simp] theorem kept_reapSocket_of_ne (nm : NetworkManager) {p q : Socket} (h : p ≠ q) :
    (nm.reapSocket p).kept q = nm.kept q := by
  simp [reapSocket, kept, setBuffer, close, Function.update_of_ne h.symm]

@[simp] theorem isOpen_log (nm : NetworkManager) (p q : Socket) (e : FramingEvent) :
    (nm.log p e).isOpen q = nm.isOpen q := rfl

@[simp] theorem isOpen_setBuffer (nm : NetworkManager) (p q : Socket) (entry : Option Bytes) :
    (nm.setBuffer p entry).isOpen q = nm.isOpen q := rfl

@[simp] theorem isOpen_close_self (nm : NetworkManager) (p : Socket) :
    (nm.close p).isOpen p = false := by
  simp [close]

@[simp] theorem isOpen_close_of_ne (nm : NetworkManager) {p q : Socket} (h : p ≠ q) :
    (nm.close p).isOpen q = nm.isOpen q := by
  simp [close, Function.update_of_ne h.symm]

@[simp] theorem isOpen_reapSocket_self (nm : NetworkManager) (p : Socket) :
    (nm.reapSocket p).isOpen p = false := by
  simp [reapSocket]

@[simp] theorem isOpen_reapSocket_of_ne (nm : NetworkManager) {p q : Socket} (h : p ≠ q) :
    (nm.reapSocket p).isOpen q = nm.isOpen q := by
  simp [reapSocket, h, setBuffer]

end NetworkManager

end LoginServer
