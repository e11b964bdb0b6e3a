import LoginServer.Events.EventHandler
import LoginServer.Network.ClientVersion
import LoginServer.Utils.JSONParser

/-!
# `NetworkManager::processMessage`

From a frame to the events it pushes and the error responses it sends. Event types are
distinct strings, so at most one of the blocks of the source applies.
-/

namespace LoginServer

open JSONParser

/-- What one frame leads to. -/
structure Processed where
  events : List Event := []
  responses : List Json := []

/-- What the connection and the clock supply. -/
structure FrameContext where
  clientSocket : Socket
  /-- `remote_endpoint().address()`, which throws on a socket that is not connected. -/
  remoteAddress : Option Bytes
  currentTimestampMs : Int

def malformedError : Json :=
  .object [(str "header", .object [(str "eventType", .string (str "unknown")),
      (str "message", .string protocol.kErrMalformed)]),
    (str "body", .object [])]

def processEvent (ctx : FrameContext) (type : EventType) (data : ClientDataStruct)
    (timestamps : TimestampStruct) : Processed :=
  { events := [⟨type, data.clientId, .clientData data, some ctx.clientSocket, some timestamps⟩] }

/-- The version gate in front of an event. -/
def gated (limits : VersionLimits) (clientVersion eventType : Bytes) (pushed : Processed) :
    Processed :=
  match checkClientVersion limits clientVersion eventType with
  | some error => { responses := [error] }
  | none => pushed

def processRegistration (limits : VersionLimits) (ctx : FrameContext) (jsonData : Json)
    (timestamps : TimestampStruct) : Processed :=
  match ctx.remoteAddress with
  | none => { responses := [malformedError] }
  | some address =>
    let reg := { parseRegistration jsonData with
      socket := some ctx.clientSocket, registrationIp := address }
    gated limits reg.clientVersion (str "registerAccount")
      { events := [⟨.REGISTER_ACCOUNT, 0, .registration reg, some ctx.clientSocket,
          some timestamps⟩] }

def processJson (limits : VersionLimits) (ctx : FrameContext) (jsonData : Json) : Processed :=
  let eventType := parseEventType jsonData
  let clientData := parseClientData jsonData
  let characterData := parseCharacterData jsonData
  let timestamps := parseTimestampsFromHeader jsonData ctx.currentTimestampMs
  let hasSession := clientData.hash ≠ [] ∧ clientData.clientId ≠ 0
  let onSocket := { clientData with socket := some ctx.clientSocket }
  let withCharacter := { onSocket with characterData := characterData }
  if eventType = str "authentificationClient" ∧ clientData.login ≠ [] ∧
      clientData.password ≠ [] then
    gated limits clientData.clientVersion eventType
      (processEvent ctx .AUTH_CLIENT onSocket timestamps)
  else if eventType = str "getCharactersList" ∧ hasSession then
    processEvent ctx .GET_CHARACTERS_LIST onSocket timestamps
  else if eventType = str "createCharacter" ∧ hasSession then
    processEvent ctx .CREATE_CHARACTER withCharacter timestamps
  else if eventType = str "disconnectClient" ∧ hasSession then
    -- the payload of this event carries no socket
    processEvent ctx .DISCONNECT_CLIENT clientData timestamps
  else if eventType = str "pingClient" then processEvent ctx .PING_CLIENT onSocket timestamps
  else if eventType = str "registerAccount" then
    processRegistration limits ctx jsonData timestamps
  else if eventType = str "getCharacterCreationOptions" ∧ hasSession then
    processEvent ctx .GET_CHARACTER_CREATION_OPTIONS onSocket timestamps
  else if eventType = str "deleteCharacter" ∧ hasSession then
    processEvent ctx .DELETE_CHARACTER withCharacter timestamps
  else {}

def processMessage (p : Platform) (limits : VersionLimits) (ctx : FrameContext)
    (message : Bytes) : Processed :=
  match p.parse message with
  | none => { responses := [malformedError] }
  | some jsonData => processJson limits ctx jsonData

/-! ## The events that are pushed -/

/-- What every event built by `processMessage` satisfies: its two ids agree, its payload
is of the alternative that the handler of its type expects, and a registration can be
answered. -/
structure Event.WellFormed (event : Event) : Prop where
  clientID_eq : ∀ data, event.eventData = .clientData data → event.clientID = data.clientId
  payload : (∃ reg, event.eventData = .registration reg) ↔ event.type = .REGISTER_ACCOUNT
  socket : ∀ reg, event.eventData = .registration reg → reg.socket ≠ none

theorem processEvent_wellFormed {ctx : FrameContext} {type : EventType} {data : ClientDataStruct}
    {timestamps : TimestampStruct} (htype : type ≠ .REGISTER_ACCOUNT) :
    ∀ event ∈ (processEvent ctx type data timestamps).events, event.WellFormed := by
  intro event hevent
  obtain rfl := List.mem_singleton.mp hevent
  refine ⟨fun d hd => ?_, ?_, fun reg hreg => nomatch hreg⟩
  · cases hd
    rfl
  · simp [htype]

theorem gated_wellFormed {limits : VersionLimits} {clientVersion eventType : Bytes}
    {pushed : Processed} (h : ∀ event ∈ pushed.events, event.WellFormed) :
    ∀ event ∈ (gated limits clientVersion eventType pushed).events, event.WellFormed := by
  unfold gated
  split
  · simp
  · exact h

theorem processRegistration_wellFormed {limits : VersionLimits} {ctx : FrameContext}
    {jsonData : Json} {timestamps : TimestampStruct} :
    ∀ event ∈ (processRegistration limits ctx jsonData timestamps).events,
      event.WellFormed := by
  unfold processRegistration
  split
  · simp
  · refine gated_wellFormed fun event hevent => ?_
    obtain rfl := List.mem_singleton.mp hevent
    refine ⟨fun d hd => (nomatch hd), by simp, fun reg hreg => ?_⟩
    cases hreg
    simp

theorem processMessage_wellFormed (p : Platform) (limits : VersionLimits) (ctx : FrameContext)
    (message : Bytes) :
    ∀ event ∈ (processMessage p limits ctx message).events, event.WellFormed := by
  unfold processMessage
  split
  · simp
  · unfold processJson
    dsimp only
    split_ifs
    · exact gated_wellFormed (processEvent_wellFormed (by decide))
    · exact processEvent_wellFormed (by decide)
    · exact processEvent_wellFormed (by decide)
    · exact processEvent_wellFormed (by decide)
    · exact processEvent_wellFormed (by decide)
    · exact processRegistration_wellFormed
    · exact processEvent_wellFormed (by decide)
    · exact processEvent_wellFormed (by decide)
    · simp

/-! ## The responses that are sent -/

theorem gated_responses {limits : VersionLimits} {clientVersion eventType : Bytes}
    {pushed : Processed} (hpushed : pushed.responses = []) :
    ∀ message ∈ (gated limits clientVersion eventType pushed).responses,
      ∃ errorCode, message = versionError limits eventType errorCode := by
  intro message hmessage
  unfold gated at hmessage
  split at hmessage
  · rename_i herror
    obtain rfl := List.mem_singleton.mp hmessage
    exact checkClientVersion_eq_some herror
  · rw [hpushed] at hmessage
    cases hmessage

/-- Valid JSON is answered a version error or nothing, unless the socket is not connected. -/
theorem processJson_responses (limits : VersionLimits) (ctx : FrameContext) (jsonData : Json) :
    ∀ message ∈ (processJson limits ctx jsonData).responses,
      (∃ eventType errorCode, message = versionError limits eventType errorCode) ∨
        ctx.remoteAddress = none ∧ message = malformedError := by
  have hnone : ∀ message ∈ ([] : List Json),
      (∃ eventType errorCode, message = versionError limits eventType errorCode) ∨
        ctx.remoteAddress = none ∧ message = malformedError := by simp
  unfold processJson
  dsimp only
  split_ifs
  · exact fun message hmessage => Or.inl ⟨_, gated_responses rfl message hmessage⟩
  · exact hnone
  · exact hnone
  · exact hnone
  · exact hnone
  · unfold processRegistration
    split
    · rename_i hsocket
      exact fun message hmessage => Or.inr ⟨hsocket, List.mem_singleton.mp hmessage⟩
    · exact fun message hmessage => Or.inl ⟨_, gated_responses rfl message hmessage⟩
  · exact hnone
  · exact hnone
  · exact hnone

end LoginServer
