import LoginServer.Network.ErrorFrames
import LoginServer.Utils.RequestFields

/-!
# What is called malformed

`processMessage` answers `ERR_MALFORMED` to whatever its block throws. The block is written
here with all that could throw in it: the parse, the reads of the extractors, the address of
the socket and the `dump` of a version error. Only the parse does, on a connected socket
whose limits are UTF-8.
-/

namespace LoginServer

open JSONParser

/-! ## Documents that can be dumped -/

theorem Json.IsUtf8.setIn {j value : Json} (hj : j.IsUtf8) (key key' : String)
    (hvalue : value.IsUtf8) : (j.setIn (str key) (str key') value).IsUtf8 :=
  hj.set key ((hj.member _).set key' hvalue)

theorem isUtf8_mirrorErrorCode {status : Bytes} {response : Json} (h : response.IsUtf8) :
    (mirrorErrorCode status response).IsUtf8 := by
  unfold mirrorErrorCode
  have hcode : ((response.member (str "header")).member (str "message")).IsUtf8 :=
    (h.member _).member _
  have hobject : (response.set (str "body") (.object [])).IsUtf8 :=
    h.set "body" (.object (by simp) (by simp))
  dsimp only
  split
  · split
    · exact h.setIn "body" "errorCode" hcode
    · exact hobject.setIn "body" "errorCode" hcode
  · exact h

theorem isUtf8_responseDocument {currentTimestamp status : Bytes} {message : Json}
    (hmoment : IsText currentTimestamp) (hstatus : IsText status) (hmessage : message.IsUtf8) :
    (responseDocument currentTimestamp status message).IsUtf8 := by
  have hheader := Json.IsUtf8.null.set "header" (hmessage.member (str "header"))
  have hversion : IsText protocol.kProtocolVersion := isText_str _
  exact isUtf8_mirrorErrorCode <| Json.IsUtf8.set
    (((hheader.setIn "header" "status" (.string hstatus)).setIn "header" "timestamp"
      (.string hmoment)).setIn "header" "version" (.string hversion))
    "body" (hmessage.member _)

theorem isText_stringField {jsonData : Json} (h : jsonData.IsUtf8) (section_ key : String) :
    IsText (stringField jsonData section_ key) := by
  rw [stringField, field?_eq]
  cases hsection : jsonData.find? (str section_) with
  | none => exact isText_str ""
  | some section' =>
    rw [Option.bind_some]
    cases hkey : section'.find? (str key) with
    | none => exact isText_str ""
    | some v =>
      have hv := (h.find? hsection).find? hkey
      cases v with
      | string s => exact hv.text
      | _ => exact isText_str ""

/-! ## The block that is tried -/

namespace Throwing

/-- `sendResponse` of a generated error, which throws where `dump` does. -/
def sendError (dump : Dump) (currentTimestamp : Bytes) (error : Json) : Except Thrown Unit :=
  match generateResponseMessage dump currentTimestamp (str "error") error with
  | some _ => .ok ()
  | none => .error .type_error

/-- The error that has been sent, or `none` for true. -/
def checkClientVersion (dump : Dump) (currentTimestamp : Bytes) (limits : VersionLimits)
    (clientVersion eventType : Bytes) : Except Thrown (Option Json) := do
  match LoginServer.checkClientVersion limits clientVersion eventType with
  | some error =>
    sendError dump currentTimestamp error
    return some error
  | none => return none

/-- `if (body.contains(key) && body[key].is_string()) field = body[key].get<std::string>();` -/
def readMember (body : Json) (key : String) (initial : Bytes) : Except Thrown Bytes := do
  let guarded ←
    pure (body.contains (str key)) <&&> (return (← body.subscript (str key)).is_string)
  if guarded then (← body.subscript (str key)).getString
  else return initial

def readRegistration (jsonData : Json) (reg : RegistrationDataStruct) :
    Except Thrown RegistrationDataStruct := do
  let guarded ←
    pure (jsonData.contains (str "body")) <&&>
      (return (← jsonData.subscript (str "body")).is_object)
  if guarded then
    let body ← jsonData.subscript (str "body")
    let reg := { reg with login := ← readMember body "login" reg.login }
    let reg := { reg with password := ← readMember body "password" reg.password }
    let reg := { reg with email := ← readMember body "email" reg.email }
    let reg := { reg with clientVersion := ← readMember body "clientVersion" reg.clientVersion }
    return reg
  else return reg

def parse (p : Platform) (message : Bytes) : Except Thrown Json :=
  match p.parse message with
  | some jsonData => .ok jsonData
  | none => .error .parse_error

def remoteAddress (ctx : FrameContext) : Except Thrown Bytes :=
  match ctx.remoteAddress with
  | some address => .ok address
  | none => .error .system_error

/-- The tests for each type of event in turn; a failed version check ends the block. -/
def pushEvents (dump : Dump) (currentTimestamp : Bytes) (limits : VersionLimits)
    (ctx : FrameContext) (jsonData : Json) (eventType : Bytes) (clientData : ClientDataStruct)
    (characterData : CharacterDataStruct) (timestamps : TimestampStruct) :
    Except Thrown Processed := do
  let mut clientData := clientData
  let mut pushed : List Event := []
  if eventType = str "authentificationClient" ∧ clientData.login ≠ [] ∧
      clientData.password ≠ [] then
    clientData := { clientData with socket := some ctx.clientSocket }
    if let some error ←
        checkClientVersion dump currentTimestamp limits clientData.clientVersion eventType then
      return { events := pushed, responses := [error] }
    pushed := pushed ++ (processEvent ctx .AUTH_CLIENT clientData timestamps).events
  if eventType = str "getCharactersList" ∧ clientData.hash ≠ [] ∧ clientData.clientId ≠ 0 then
    clientData := { clientData with socket := some ctx.clientSocket }
    pushed := pushed ++ (processEvent ctx .GET_CHARACTERS_LIST clientData timestamps).events
  if eventType = str "createCharacter" ∧ clientData.hash ≠ [] ∧ clientData.clientId ≠ 0 then
    clientData :=
      { clientData with characterData := characterData, socket := some ctx.clientSocket }
    pushed := pushed ++ (processEvent ctx .CREATE_CHARACTER clientData timestamps).events
  if eventType = str "disconnectClient" ∧ clientData.hash ≠ [] ∧ clientData.clientId ≠ 0 then
    pushed := pushed ++ (processEvent ctx .DISCONNECT_CLIENT clientData timestamps).events
  if eventType = str "pingClient" then
    clientData := { clientData with socket := some ctx.clientSocket }
    pushed := pushed ++ (processEvent ctx .PING_CLIENT clientData timestamps).events
  if eventType = str "registerAccount" then
    let reg : RegistrationDataStruct := { socket := some ctx.clientSocket }
    let reg := { reg with registrationIp := ← remoteAddress ctx }
    let reg ← readRegistration jsonData reg
    if let some error ←
        checkClientVersion dump currentTimestamp limits reg.clientVersion eventType then
      return { events := pushed, responses := [error] }
    pushed := pushed ++ [⟨.REGISTER_ACCOUNT, 0, .registration reg, some ctx.clientSocket,
      some timestamps⟩]
  if eventType = str "getCharacterCreationOptions" ∧ clientData.hash ≠ [] ∧
      clientData.clientId ≠ 0 then
    clientData := { clientData with socket := some ctx.clientSocket }
    pushed :=
      pushed ++ (processEvent ctx .GET_CHARACTER_CREATION_OPTIONS clientData timestamps).events
  if eventType = str "deleteCharacter" ∧ clientData.hash ≠ [] ∧ clientData.clientId ≠ 0 then
    clientData :=
      { clientData with characterData := characterData, socket := some ctx.clientSocket }
    pushed := pushed ++ (processEvent ctx .DELETE_CHARACTER clientData timestamps).events
  return { events := pushed }

/-- What the block pushes and sends. -/
def tryBlock (p : Platform) (dump : Dump) (currentTimestamp : Bytes) (limits : VersionLimits)
    (ctx : FrameContext) (message : Bytes) : Except Thrown Processed := do
  let jsonData ← parse p message
  let eventType ← JSONParser.Throwing.parseEventType jsonData
  let clientData ← JSONParser.Throwing.parseClientData jsonData
  let characterData ← JSONParser.Throwing.parseCharacterData jsonData
  let _positionData ← JSONParser.Throwing.parsePositionData jsonData
  let _messageStruct ← JSONParser.Throwing.parseMessage jsonData
  let timestamps :=
    JSONParser.Throwing.parseTimestampsFromHeader jsonData ctx.currentTimestampMs
  pushEvents dump currentTimestamp limits ctx jsonData eventType clientData characterData
    timestamps

/-- What was pushed before a throw stays pushed, but no block throws after it has pushed. -/
def processMessage (p : Platform) (dump : Dump) (currentTimestamp : Bytes)
    (limits : VersionLimits) (ctx : FrameContext) (message : Bytes) : Processed :=
  match tryBlock p dump currentTimestamp limits ctx message with
  | .ok processed => processed
  | .error _ =>
    match sendError dump currentTimestamp malformedError with
    | .ok () => { responses := [malformedError] }
    | .error _ => {}

/-! ## Only the parse throws -/

theorem readMember_eq (body : Json) (key : String) :
    readMember body key [] = .ok (((body.find? (str key)).bind Json.string?).getD []) := by
  simp only [readMember, pure, Except.pure, bind, Except.bind, Json.andM_ok]
  cases hkey : body.find? (str key) with
  | none => simp [Json.contains_of_find?_none hkey]
  | some v =>
    simp only [Json.contains_of_find? hkey, Json.subscript_of_find? hkey, if_true]
    cases v <;> rfl

theorem readRegistration_eq (jsonData : Json) (socket : Option Socket) (address : Bytes) :
    readRegistration jsonData { socket := socket, registrationIp := address } =
      .ok { parseRegistration jsonData with socket := socket, registrationIp := address } := by
  simp only [readRegistration, pure, Except.pure, bind, Except.bind, Json.andM_ok,
    readMember_eq, parseRegistration, stringField, field?_eq]
  cases hbody : jsonData.find? (str "body") with
  | none => simp [Json.contains_of_find?_none hbody]
  | some body =>
    simp only [Json.contains_of_find? hbody, Json.subscript_of_find? hbody, if_true,
      Option.bind_some]
    cases hobject : body.is_object with
    | false => simp [Json.find?_of_not_object hobject]
    | true => simp

variable {p : Platform} {dump : Dump} {currentTimestamp : Bytes} {limits : VersionLimits}
  {ctx : FrameContext}

theorem sendError_eq (hdump : ∀ j : Json, j.IsUtf8 → (dump j).isSome)
    (hmoment : IsText currentTimestamp) {error : Json} (herror : error.IsUtf8) :
    sendError dump currentTimestamp error = .ok () := by
  obtain ⟨text, htext⟩ := Option.isSome_iff_exists.mp
    (hdump _ (isUtf8_responseDocument hmoment (isText_str "error") herror))
  simp [sendError, generateResponseMessage, htext]

theorem pushEvents_eq {jsonData : Json} {address : Bytes}
    (hconnected : ctx.remoteAddress = some address)
    (hcheck : ∀ clientVersion, checkClientVersion dump currentTimestamp limits clientVersion
      (parseEventType jsonData) =
        .ok (LoginServer.checkClientVersion limits clientVersion (parseEventType jsonData))) :
    pushEvents dump currentTimestamp limits ctx jsonData (parseEventType jsonData)
      (parseClientData jsonData) (parseCharacterData jsonData)
      (LoginServer.parseTimestampsFromHeader jsonData ctx.currentTimestampMs) =
        .ok (processJson limits ctx jsonData) := by
  unfold processJson
  generalize parseClientData jsonData = clientData
  generalize parseCharacterData jsonData = characterData
  generalize LoginServer.parseTimestampsFromHeader jsonData ctx.currentTimestampMs = timestamps
  generalize parseEventType jsonData = eventType at hcheck
  -- the types are distinct, so that at most one of the tests applies
  by_cases hauth : eventType = str "authentificationClient"
  · subst hauth
    simp only [pushEvents, hcheck]
    cases hversion : LoginServer.checkClientVersion limits clientData.clientVersion
        (str "authentificationClient") <;>
      simp [pure, Except.pure, bind, Except.bind, gated, hversion] <;> split_ifs <;> rfl
  by_cases hregister : eventType = str "registerAccount"
  · subst hregister
    cases hversion : LoginServer.checkClientVersion limits
        (parseRegistration jsonData).clientVersion (str "registerAccount") <;>
      simp [pushEvents, pure, Except.pure, bind, Except.bind, hcheck, hconnected, remoteAddress,
        readRegistration_eq, processRegistration, gated, hversion]
  by_cases hlist : eventType = str "getCharactersList"
  · subst hlist
    simp [pushEvents, pure, Except.pure]
    split_ifs <;> rfl
  by_cases hcreate : eventType = str "createCharacter"
  · subst hcreate
    simp [pushEvents, pure, Except.pure]
    split_ifs <;> rfl
  by_cases hdisconnect : eventType = str "disconnectClient"
  · subst hdisconnect
    simp [pushEvents, pure, Except.pure]
    split_ifs <;> rfl
  by_cases hping : eventType = str "pingClient"
  · subst hping
    simp [pushEvents, pure, Except.pure]
    rfl
  by_cases hoptions : eventType = str "getCharacterCreationOptions"
  · subst hoptions
    simp [pushEvents, pure, Except.pure]
    split_ifs <;> rfl
  by_cases hdelete : eventType = str "deleteCharacter"
  · subst hdelete
    simp [pushEvents, pure, Except.pure]
    split_ifs <;> rfl
  simp [pushEvents, pure, Except.pure, hauth, hregister, hlist, hcreate, hdisconnect, hping,
    hoptions, hdelete]

theorem tryBlock_eq {jsonData : Json} {message : Bytes} (hparse : p.parse message = some jsonData)
    {address : Bytes} (hconnected : ctx.remoteAddress = some address)
    (hcheck : ∀ clientVersion, checkClientVersion dump currentTimestamp limits clientVersion
      (parseEventType jsonData) =
        .ok (LoginServer.checkClientVersion limits clientVersion (parseEventType jsonData))) :
    tryBlock p dump currentTimestamp limits ctx message =
      .ok (processJson limits ctx jsonData) := by
  simp only [tryBlock, parse, hparse, bind, Except.bind, Throwing.parseEventType_eq,
    Throwing.parseClientData_eq, Throwing.parseCharacterData_eq, Throwing.parsePositionData_eq,
    Throwing.parseMessage_eq, Throwing.parseTimestampsFromHeader_eq]
  exact pushEvents_eq hconnected hcheck

theorem isUtf8_versionError {eventType : Bytes} (hmin : IsText limits.minClientVersion)
    (hmax : IsText limits.maxClientVersion) (htype : IsText eventType) (errorCode : String) :
    (versionError limits eventType errorCode).IsUtf8 := by
  have hheader : (Json.object [(str "eventType", .string eventType),
      (str "message", .string (str errorCode))]).IsUtf8 := by
    refine .object ?_ ?_ <;>
      simp only [List.mem_cons, List.not_mem_nil, or_false, forall_eq_or_imp, forall_eq]
    · exact ⟨isText_str _, isText_str _⟩
    · exact ⟨.string htype, .string (isText_str _)⟩
  have hbody : (Json.object [(str "serverVersion", .string protocol.kProtocolVersion),
      (str "minClientVersion", .string limits.minClientVersion),
      (str "maxClientVersion", .string limits.maxClientVersion)]).IsUtf8 := by
    refine .object ?_ ?_ <;>
      simp only [List.mem_cons, List.not_mem_nil, or_false, forall_eq_or_imp, forall_eq]
    · exact ⟨isText_str _, isText_str _, isText_str _⟩
    · exact ⟨.string (isText_str _), .string hmin, .string hmax⟩
  refine .object ?_ ?_ <;>
    simp only [List.mem_cons, List.not_mem_nil, or_false, forall_eq_or_imp, forall_eq]
  · exact ⟨isText_str _, isText_str _⟩
  · exact ⟨hheader, hbody⟩

theorem isUtf8_malformedError : malformedError.IsUtf8 := by
  refine .object ?_ ?_ <;>
    simp only [List.mem_cons, List.not_mem_nil, or_false, forall_eq_or_imp, forall_eq]
  · exact ⟨isText_str _, isText_str _⟩
  · refine ⟨.object ?_ ?_, .object (by simp) (by simp)⟩ <;>
      simp only [List.mem_cons, List.not_mem_nil, or_false, forall_eq_or_imp, forall_eq]
    · exact ⟨isText_str _, isText_str _⟩
    · exact ⟨.string (isText_str _), .string (isText_str _)⟩

theorem checkClientVersion_eq (hdump : ∀ j : Json, j.IsUtf8 → (dump j).isSome)
    (hmoment : IsText currentTimestamp) (hmin : IsText limits.minClientVersion)
    (hmax : IsText limits.maxClientVersion) {eventType : Bytes} (htype : IsText eventType)
    (clientVersion : Bytes) :
    checkClientVersion dump currentTimestamp limits clientVersion eventType =
      .ok (LoginServer.checkClientVersion limits clientVersion eventType) := by
  have hsend := fun errorCode =>
    sendError_eq hdump hmoment (isUtf8_versionError hmin hmax htype errorCode)
  unfold checkClientVersion
  cases herror : LoginServer.checkClientVersion limits clientVersion eventType with
  | none => rfl
  | some error =>
    obtain ⟨errorCode, rfl⟩ := checkClientVersion_eq_some herror
    simp [hsend, bind, Except.bind, pure, Except.pure]

/-- On a connected socket with UTF-8 limits the block that throws nothing but `parse_error`
is the `processMessage` of the model. -/
theorem processMessage_eq (hparse : ∀ text j, p.parse text = some j → j.IsUtf8)
    (hdump : ∀ j : Json, j.IsUtf8 → (dump j).isSome) (hmoment : IsText currentTimestamp)
    (hmin : IsText limits.minClientVersion) (hmax : IsText limits.maxClientVersion)
    (hconnected : ctx.remoteAddress.isSome) (message : Bytes) :
    processMessage p dump currentTimestamp limits ctx message =
      LoginServer.processMessage p limits ctx message := by
  obtain ⟨address, haddress⟩ := Option.isSome_iff_exists.mp hconnected
  unfold processMessage LoginServer.processMessage
  cases hjson : p.parse message with
  | none =>
    have hthrow : tryBlock p dump currentTimestamp limits ctx message = .error .parse_error := by
      simp [tryBlock, parse, hjson, bind, Except.bind]
    rw [hthrow, sendError_eq hdump hmoment isUtf8_malformedError]
  | some jsonData =>
    have htype : IsText (parseEventType jsonData) := isText_stringField (hparse _ _ hjson) _ _
    rw [tryBlock_eq hjson haddress (checkClientVersion_eq hdump hmoment hmin hmax htype)]

end Throwing

/-! ## The answers to valid JSON -/

theorem malformedError_not_mem_processJson {limits : VersionLimits} {ctx : FrameContext}
    (hconnected : ctx.remoteAddress.isSome) (jsonData : Json) :
    malformedError ∉ (processJson limits ctx jsonData).responses := by
  intro hmem
  rcases processJson_responses limits ctx jsonData _ hmem with
    ⟨eventType, errorCode, hversion⟩ | ⟨hsocket, -⟩
  · simp [malformedError, versionError] at hversion
  · rw [hsocket] at hconnected
    cases hconnected

/-- Every extractor returns what it has of the document. -/
structure ExtractorsReturn (jsonData : Json) : Prop where
  eventType : Throwing.parseEventType jsonData = .ok (parseEventType jsonData)
  clientData : Throwing.parseClientData jsonData = .ok (parseClientData jsonData)
  characterData : Throwing.parseCharacterData jsonData = .ok (parseCharacterData jsonData)
  positionData : Throwing.parsePositionData jsonData = .ok (parsePositionData jsonData)
  message : Throwing.parseMessage jsonData = .ok (parseMessage jsonData)
  timestamps : ∀ currentTimestampMs,
    Throwing.parseTimestampsFromHeader jsonData currentTimestampMs =
      parseTimestampsFromHeader jsonData currentTimestampMs

theorem extractorsReturn (jsonData : Json) : ExtractorsReturn jsonData where
  eventType := Throwing.parseEventType_eq jsonData
  clientData := Throwing.parseClientData_eq jsonData
  characterData := Throwing.parseCharacterData_eq jsonData
  positionData := Throwing.parsePositionData_eq jsonData
  message := Throwing.parseMessage_eq jsonData
  timestamps := Throwing.parseTimestampsFromHeader_eq jsonData

/-- A field of the checked type is the document's, a position to the nearest `float`; any
other field has its default. -/
structure FieldsRead (jsonData : Json) : Prop where
  integer : ∀ (field : IntegerField) n, field.inDocument jsonData = some (.number n) →
    IsInt32 n → field.parsed jsonData = n
  noInteger : ∀ field : IntegerField, (∀ n, field.inDocument jsonData ≠ some (.number n)) →
    field.parsed jsonData = 0
  string : ∀ (field : StringField) s, field.inDocument jsonData = some (.string s) →
    field.parsed jsonData = s
  noString : ∀ field : StringField, (∀ s, field.inDocument jsonData ≠ some (.string s)) →
    field.parsed jsonData = []
  positionInteger : ∀ (field : PositionField) n,
    field.inDocument jsonData = some (.number n) → field.parsed jsonData = .ofInt n
  positionFloat : ∀ (field : PositionField) bits,
    field.inDocument jsonData = some (.number_float bits) →
      field.parsed jsonData = Json.toFloat bits
  noPosition : ∀ field : PositionField, (∀ n, field.inDocument jsonData ≠ some (.number n)) →
    (∀ bits, field.inDocument jsonData ≠ some (.number_float bits)) →
      field.parsed jsonData = .ofInt 0

theorem fieldsRead (jsonData : Json) : FieldsRead jsonData where
  integer field n h hn := by
    rw [IntegerField.parsed_of_number h]
    exact bmod_eq_self_iff.mpr hn
  noInteger field h := IntegerField.parsed_of_not_number h
  string field s h := StringField.parsed_of_string h
  noString field h := StringField.parsed_of_not_string h
  positionInteger field n h := PositionField.parsed_of_number h
  positionFloat field bits h := PositionField.parsed_of_number_float h
  noPosition field hinteger hfloat := PositionField.parsed_of_not_number hinteger hfloat

/-- Two documents that agree in the place of a field agree in the field. -/
structure FieldsIndependent (jsonData jsonData' : Json) : Prop where
  integer : ∀ field : IntegerField, field.inDocument jsonData = field.inDocument jsonData' →
    field.parsed jsonData = field.parsed jsonData'
  string : ∀ field : StringField, field.inDocument jsonData = field.inDocument jsonData' →
    field.parsed jsonData = field.parsed jsonData'
  position : ∀ field : PositionField, field.inDocument jsonData = field.inDocument jsonData' →
    field.parsed jsonData = field.parsed jsonData'

theorem fieldsIndependent (jsonData jsonData' : Json) :
    FieldsIndependent jsonData jsonData' where
  integer field h := by rw [field.parsed_eq, field.parsed_eq, h]
  string field h := by rw [field.parsed_eq, field.parsed_eq, h]
  position field h := by rw [field.parsed_eq, field.parsed_eq, h]

/-- Every document is read without a throw, field by field, and only what `parse` rejects is
called malformed. -/
theorem valid_json_survived (p : Platform) (dump : Dump)
    (hparse : ∀ text j, p.parse text = some j → j.IsUtf8)
    (hdump : ∀ j : Json, j.IsUtf8 → (dump j).isSome) :
    (∀ jsonData, ExtractorsReturn jsonData ∧ FieldsRead jsonData ∧
      ∀ jsonData', FieldsIndependent jsonData jsonData') ∧
    ∀ (limits : VersionLimits) (ctx : FrameContext) (currentTimestamp message : Bytes),
      IsText limits.minClientVersion → IsText limits.maxClientVersion →
      IsText currentTimestamp → ctx.remoteAddress.isSome →
      (malformedError ∈
          (Throwing.processMessage p dump currentTimestamp limits ctx message).responses ↔
        p.parse message = none) := by
  refine ⟨fun jsonData =>
    ⟨extractorsReturn jsonData, fieldsRead jsonData, fieldsIndependent jsonData⟩, ?_⟩
  intro limits ctx currentTimestamp message hmin hmax hmoment hconnected
  rw [Throwing.processMessage_eq hparse hdump hmoment hmin hmax hconnected]
  unfold processMessage
  cases p.parse message with
  | none => exact iff_of_true (List.mem_singleton_self _) rfl
  | some jsonData =>
    refine iff_of_false (malformedError_not_mem_processJson hconnected jsonData) ?_
    exact Option.some_ne_none jsonData

/-! ### A scalar, and no JSON -/

theorem valid_json_survived_null :
    malformedError ∈ (Throwing.processMessage malformedPlatform (Nlohmann.dump fun _ => [])
        malformedMoment ⟨str "0.1.0", str "0.1.0"⟩ ⟨0, some (str "127.0.0.1"), 0⟩
        (str "x")).responses ∧
      malformedError ∉ (Throwing.processMessage malformedPlatform (Nlohmann.dump fun _ => [])
        malformedMoment ⟨str "0.1.0", str "0.1.0"⟩ ⟨0, some (str "127.0.0.1"), 0⟩
        (str "null")).responses := by
  have hparse : ∀ text j, malformedPlatform.parse text = some j → j.IsUtf8 :=
    fun _ _ h => (Nlohmann.wellFormed_of_parse h).1
  have hdump : ∀ j : Json, j.IsUtf8 → (Nlohmann.dump (fun _ => []) j).isSome :=
    fun _ h => Option.isSome_iff_exists.mpr (Nlohmann.exists_dump h)
  have hanswer := fun message =>
    (valid_json_survived malformedPlatform (Nlohmann.dump fun _ => []) hparse hdump).2
      ⟨str "0.1.0", str "0.1.0"⟩ ⟨0, some (str "127.0.0.1"), 0⟩ malformedMoment message
      (isText_str _) (isText_str _) (isText_str _) rfl
  constructor
  · rw [hanswer]
    rfl
  · rw [hanswer]
    have hnull : malformedPlatform.parse (str "null") = some .null := rfl
    simp [hnull]

/-- The first integer that no `float` is. -/
def farPosition : Json :=
  .object [(str "body", .object [(str "characterPosX", .number 16777217)])]

theorem farPosition_not_exact :
    PositionField.characterPosX.inDocument farPosition = some (.number 16777217) ∧
      floatValue (PositionField.characterPosX.parsed farPosition) = some 16777216 ∧
      floatValue (PositionField.characterPosX.parsed farPosition) ≠ some 16777217 := by
  have hplace : PositionField.characterPosX.inDocument farPosition =
      some (.number 16777217) := rfl
  have hvalue : floatValue (PositionField.characterPosX.parsed farPosition) =
      some 16777216 := by
    rw [PositionField.parsed_of_number hplace]
    decide +kernel
  refine ⟨hplace, hvalue, ?_⟩
  rw [hvalue]
  decide

end LoginServer
