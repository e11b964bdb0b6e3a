import LoginServer.Events.Event
import LoginServer.Services.Authenticator
import LoginServer.Services.CharacterManager
import LoginServer.Utils.ResponseBuilder
import LoginServer.Utils.WireFraming

/-!
# The event handlers

One program for each handler of `EventHandler`, and `dispatchEvent`. A handler only
catches `std::bad_variant_access` unless it says otherwise, so an exception from the
database leaves it; the pool task logs it and ends.
-/

namespace LoginServer

open Database

/-- What the server takes from outside its sources. -/
structure Platform extends SqlFunctions where
  /-- The SHA-256 digest, by OpenSSL. -/
  sha256 : Bytes → Bytes
  /-- `nlohmann::json::parse`; `none` when it throws. -/
  parse : Bytes → Option Json

def Platform.hashPassword (p : Platform) : Bytes → Bytes := AccountManager.hashPassword p.sha256

namespace EventHandler

/-- `setHeader("hash", hash)`, `setHeader("clientId", clientId)`, `setHeader("eventType",
eventType)` and `setBody("", "")` after the message, as most answers have them. -/
def answer (message : Bytes) (hash : Bytes) (clientId : Int) (eventType : String) : Json :=
  ({} : ResponseBuilder)
    |>.setHeader "message" (.string message)
    |>.setHeader "hash" (.string hash)
    |>.setHeader "clientId" (.number clientId)
    |>.setHeader "eventType" (.string (str eventType))
    |>.setBody "" (.string [])
    |>.build

/-- As `answer`, with one body member in place of the empty one. -/
def answerWith (message : Bytes) (hash : Bytes) (clientId : Int) (eventType : String)
    (key : String) (value : Json) : Json :=
  ({} : ResponseBuilder)
    |>.setHeader "message" (.string message)
    |>.setHeader "hash" (.string hash)
    |>.setHeader "clientId" (.number clientId)
    |>.setHeader "eventType" (.string (str eventType))
    |>.setBody key value
    |>.build

/-- The two guards that the list, create, delete and options handlers begin with.
`hash₀` and `clientId₀` are what the answer to a request without a session echoes. -/
def withSession (data : ClientDataStruct) (unauthorized : String) (hash₀ : Bytes)
    (clientId₀ : Int) (eventType : String) (body : M Unit) : M Unit := do
  if data.clientId = 0 || data.hash.isEmpty then
    sendResponse data.socket (str "error")
      (answer (str unauthorized) hash₀ clientId₀ eventType)
  else if !(← validateSession data.clientId data.hash) then
    sendResponse data.socket (str "error")
      (answer (str "ERR_SESSION_INVALID") data.hash data.clientId eventType)
  else body

/-! ## Authentication -/

def authError (data : ClientDataStruct) (code : String) (body : List (String × Json)) : Json :=
  body.foldl (fun b e => b.setBody e.1 e.2)
    (({} : ResponseBuilder)
      |>.setHeader "message" (.string (str code))
      |>.setHeader "hash" (.string data.hash)
      |>.setHeader "login" (.string data.login)
      |>.setHeader "clientId" (.number data.clientId)
      |>.setHeader "eventType" (.string (str "authentificationClient")))
    |>.build

def authFailureCode : AuthStatus → String
  | .LOCKED => "ERR_ACCOUNT_LOCKED"
  | .BANNED => "ERR_ACCOUNT_BANNED"
  | .DB_ERROR => "ERR_DB"
  | _ => "Authentication failed for user!"

/-- `std::to_string`. -/
def intToString (n : Int) : Bytes := str s!"{n}"

def authSuccess (current : ClientDataStruct) : Json :=
  ({} : ResponseBuilder)
    |>.setHeader "message" (.string (str "Authentication success for user!"))
    |>.setHeader "hash" (.string current.hash)
    |>.setHeader "login" (.string current.login)
    |>.setHeader "clientId" (.number current.clientId)
    |>.setHeader "role" (.string (intToString current.role))
    |>.setHeader "eventType" (.string (str "authentificationClient"))
    |>.setBody "framing" (.number protocol.kFramingV2)
    |>.setBody "" (.string [])
    |>.build

/-- The answer to a call of `authenticate` that ended with `outcome`. -/
def answerAuthentification (data : ClientDataStruct) (outcome : AuthOutcome) : M Unit := do
  if outcome.status ≠ .OK then
    sendResponse data.socket (str "error")
      (authError data (authFailureCode outcome.status)
        [("banReason", .string outcome.banReason), ("banExpiresAt", .string outcome.banExpiresAt)])
  else
    match outcome.userId, ← getClientData outcome.userId with
    | 0, _ | _, none =>
      -- the session vanished between store and get
      sendResponse data.socket (str "error") (authError data "ERR_INTERNAL" [("", .string [])])
    | _, some current => sendResponse data.socket (str "success") (authSuccess current)

def handleAuthentificateClientEvent (p : Platform) (event : Event) : M Unit :=
  match event.eventData with
  | .clientData data => do
    match ← tryCatch (do acquire; return true) fun _ => return false with
    | false =>
      sendResponse data.socket (str "error") (authError data "ERR_DB" [("", .string [])])
    | true =>
      let clientIp := (← remoteEndpoint data.socket).getD (str "127.0.0.1")
      let outcome ← Authenticator.authenticate p.hashPassword data.login data.password clientIp
        data.clientVersion
      answerAuthentification data outcome
  | _ => return

/-! ## Characters -/

def characterJson (character : CharacterDataStruct)
    (equip : List EquipmentPreviewItemStruct) : Json :=
  .object [(str "characterId", .number character.characterId),
    (str "characterName", .string character.characterName),
    (str "classSlug", .string character.characterClass),
    (str "raceSlug", .string character.characterRace),
    (str "genderSlug", .string character.characterGender),
    (str "characterLevel", .number character.characterLevel),
    (str "isOnline", .boolean character.isOnline),
    (str "equipment", .array (equip.map fun item =>
      .object [(str "slotId", .number item.slotId), (str "itemSlug", .string item.itemSlug)]))]

/-- The list handler after its guards. -/
def answerCharactersList (data : ClientDataStruct) (clientID : Int) : M Unit := do
  let _ ← touchSession data.clientId
  match ← getClientData data.clientId with
  | none =>
    sendResponse data.socket (str "error")
      (answer (str "ERR_SESSION_INVALID") data.hash data.clientId "getCharactersList")
  | some current =>
    acquire
    let charactersList ← CharacterManager.getCharactersList clientID
    let charactersListJson ← charactersList.mapM fun character => do
      let equip ← CharacterManager.getCharacterEquipmentPreview character.characterId
      return characterJson character equip
    sendResponse data.socket (str "success")
      (answerWith (str "Characters list retrieved successfully!") current.hash current.clientId
        "getCharactersList" "charactersList" (.array charactersListJson))

def handleGetCharactersListEvent (event : Event) : M Unit :=
  match event.eventData with
  | .clientData data =>
    withSession data "Authentication failed for user!" data.hash data.clientId
      "getCharactersList" (answerCharactersList data event.clientID)
  | _ => return

def createFailureCode (result : Int) : String :=
  if result = CharacterCreateResult.ERR_NAME_TAKEN then "ERR_CHAR_NAME_TAKEN"
  else if result = CharacterCreateResult.ERR_NAME_INVALID then "ERR_CHAR_NAME_INVALID"
  else if result = CharacterCreateResult.ERR_SLOT_FULL then "ERR_CHAR_SLOT_FULL"
  else if result = CharacterCreateResult.ERR_MISSING_FIELD then "ERR_CHAR_MISSING_FIELD"
  else "ERR_CHAR_CREATE_FAILED"

def handleCreateCharacterEvent (event : Event) : M Unit :=
  match event.eventData with
  | .clientData data =>
    withSession data "Unauthorized" data.hash data.clientId "createCharacter" do
      acquire
      let result ← CharacterManager.createCharacter data.clientId
        data.characterData.characterName data.characterData.characterClass
        data.characterData.characterRace data.characterData.characterGender
      if result ≤ 0 then
        sendResponse data.socket (str "error")
          (answer (str (createFailureCode result)) data.hash data.clientId "createCharacter")
      else
        sendResponse data.socket (str "success")
          (answerWith (str "Character created successfully") data.hash data.clientId
            "createCharacter" "characterId" (.number result))
  | _ => return

def handleDeleteCharacterEvent (event : Event) : M Unit :=
  match event.eventData with
  | .clientData data =>
    withSession data "Unauthorized" [] 0 "deleteCharacter" do
      let characterId := data.characterData.characterId
      if characterId ≤ 0 then
        sendResponse data.socket (str "error")
          (answer (str "ERR_INVALID_CHARACTER_ID") data.hash data.clientId "deleteCharacter")
      else
        acquire
        if !(← CharacterManager.deleteCharacter data.clientId characterId) then
          sendResponse data.socket (str "error")
            (answer (str "ERR_CHARACTER_NOT_FOUND") data.hash data.clientId "deleteCharacter")
        else
          sendResponse data.socket (str "success")
            (answerWith (str "Character deleted successfully") data.hash data.clientId
              "deleteCharacter" "characterId" (.number characterId))
  | _ => return

def creationOptions (data : ClientDataStruct) (classes races genders : List Json) : Json :=
  ({} : ResponseBuilder)
    |>.setHeader "message" (.string (str "Options retrieved successfully"))
    |>.setHeader "hash" (.string data.hash)
    |>.setHeader "clientId" (.number data.clientId)
    |>.setHeader "eventType" (.string (str "getCharacterCreationOptions"))
    |>.setBody "classes" (.array classes)
    |>.setBody "races" (.array races)
    |>.setBody "genders" (.array genders)
    |>.build

/-- The options handler after its guards. -/
def answerCreationOptions (data : ClientDataStruct) : M Unit := do
  acquire
  withWork do
    let classRows ← execPrepared .getCharacterClasses
    let raceRows ← execPrepared .getCharacterRaces
    let genderRows ← execPrepared .getCharacterGenders
    commitWork
    let classes ← classRows.mapM fun row => do
      let id ← asInt row.id
      return Json.object [(str "id", .number id), (str "name", .string row.name),
        (str "slug", .string (row.slug.getD [])),
        (str "description", .string (row.description.getD []))]
    let races ← raceRows.mapM fun row => do
      let id ← asInt row.id
      return Json.object [(str "id", .number id), (str "name", .string row.name),
        (str "slug", .string row.slug)]
    let genders ← genderRows.mapM fun row => do
      let id ← asInt row.id
      return Json.object [(str "id", .number id), (str "slug", .string row.name),
        (str "label", .string row.label)]
    sendResponse data.socket (str "success") (creationOptions data classes races genders)

/-- Catches `std::exception`. -/
def handleGetCharacterCreationOptionsEvent (event : Event) : M Unit :=
  match event.eventData with
  | .clientData data =>
    tryCatch
      (withSession data "Unauthorized" [] 0 "getCharacterCreationOptions"
        (answerCreationOptions data))
      fun _ => return
  | _ => return

/-! ## Sessions -/

/-- The session that the request names is not the stored one. -/
def disconnectMismatch (data : ClientDataStruct) : M Bool :=
  if data.clientId ≠ 0 && !data.hash.isEmpty then do
    return !(← validateSession data.clientId data.hash)
  else return false

def handleDisconnectClientEvent (event : Event) : M Unit :=
  match event.eventData with
  | .clientData data => do
    if !(← disconnectMismatch data) then
      let _ ← removeClientData data.clientId
    let response := answer (str "Client disconnected!") [] data.clientId "disconnectClient"
    (← getClientsDataMap).forM fun client => sendResponse client.socket (str "success") response
  | _ => return

/-- `pong` with the members that `setTimestamps` adds to the header. -/
def pong (timestamps : Option TimestampStruct) : Json :=
  let b := ({} : ResponseBuilder)
    |>.setHeader "message" (.string (str "Pong!"))
    |>.setHeader "eventType" (.string (str "pingClient"))
  let b := match timestamps with
    | some timestamps => b
      |>.setHeader "serverRecvMs" (.number timestamps.serverRecvMs)
      |>.setHeader "serverSendMs" (.number timestamps.serverSendMs)
      |>.setHeader "clientSendMsEcho" (.number timestamps.clientSendMsEcho)
      |>.setHeader "requestId" (.string timestamps.requestId)
    | none => b
  (b.setBody "" (.string [])).build

def handlePingClientEvent (event : Event) : M Unit :=
  match event.eventData with
  | .clientData data => sendResponse data.socket (str "success") (pong event.timestamps)
  | _ => return

/-! ## Registration -/

def registerFailureCode : AccountRegisterResult → String
  | .ERR_LOGIN_TAKEN => "ERR_LOGIN_TAKEN"
  | .ERR_LOGIN_INVALID => "ERR_LOGIN_INVALID"
  | .ERR_PASSWORD_SHORT => "ERR_PASSWORD_TOO_SHORT"
  | .ERR_PASSWORD_LONG => "ERR_PASSWORD_TOO_LONG"
  | .ERR_EMAIL_INVALID => "ERR_EMAIL_INVALID"
  | _ => "ERR_REGISTER_FAILED"

def registerSuccess (sessionHash : Bytes) (userId : Int) (login : Bytes) : Json :=
  ({} : ResponseBuilder)
    |>.setHeader "message" (.string (str "Registration successful"))
    |>.setHeader "hash" (.string sessionHash)
    |>.setHeader "clientId" (.number userId)
    |>.setHeader "login" (.string login)
    |>.setHeader "eventType" (.string (str "registerAccount"))
    |>.setBody "" (.string [])
    |>.build

/-- Catches `std::exception` and answers ERR_INTERNAL when there is a socket. -/
def handleRegisterAccountEvent (p : Platform) (event : Event) : M Unit :=
  match event.eventData with
  | .registration reg =>
    tryCatch
      (do
        acquire
        let (result, userId, sessionHash) ← AccountManager.registerAccount p.hashPassword
          reg.login reg.password reg.email reg.registrationIp reg.clientVersion
        if result ≠ .OK then
          sendResponse reg.socket (str "error")
            (answer (str (registerFailureCode result)) [] 0 "registerAccount")
        else
          sendResponse reg.socket (str "success") (registerSuccess sessionHash userId reg.login))
      fun _ =>
        if reg.socket.isSome then
          sendResponse reg.socket (str "error") (answer (str "ERR_INTERNAL") [] 0 "registerAccount")
        else return
  | _ => return

def dispatchEvent (p : Platform) (event : Event) : M Unit :=
  match event.type with
  | .PING_CLIENT => handlePingClientEvent event
  | .AUTH_CLIENT => handleAuthentificateClientEvent p event
  | .REGISTER_ACCOUNT => handleRegisterAccountEvent p event
  | .GET_CHARACTERS_LIST => handleGetCharactersListEvent event
  | .CREATE_CHARACTER => handleCreateCharacterEvent event
  | .DELETE_CHARACTER => handleDeleteCharacterEvent event
  | .GET_CHARACTER_CREATION_OPTIONS => handleGetCharacterCreationOptionsEvent event
  | .DISCONNECT_CLIENT => handleDisconnectClientEvent event

end EventHandler

end LoginServer
