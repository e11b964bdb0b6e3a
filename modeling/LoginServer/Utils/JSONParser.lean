import LoginServer.Data.DataStructs
import LoginServer.Utils.Json

/-!
# `JSONParser` and `parseTimestampsFromHeader`

Each extractor reads its fields one by one; a field that is absent or of another type
keeps its default.
-/

namespace LoginServer

namespace JSONParser

/-- `jsonData[section][key]` behind the four tests that guard every read. -/
def field? (jsonData : Json) (section_ key : String) : Option Json :=
  match jsonData.find? (str section_) with
  | some (.object members) => (Json.object members).find? (str key)
  | _ => none

def intField (jsonData : Json) (section_ key : String) : Int :=
  ((field? jsonData section_ key).bind Json.int?).getD 0

def stringField (jsonData : Json) (section_ key : String) : Bytes :=
  ((field? jsonData section_ key).bind Json.string?).getD []

def parseCharacterData (jsonData : Json) : CharacterDataStruct where
  characterId := intField jsonData "body" "characterId"
  characterLevel := intField jsonData "body" "characterLevel"
  characterExperiencePoints := intField jsonData "body" "characterExp"
  characterCurrentHealth := intField jsonData "body" "characterCurrentHealth"
  characterCurrentMana := intField jsonData "body" "characterCurrentMana"
  characterName := stringField jsonData "body" "characterName"
  characterClass := stringField jsonData "body" "characterClass"
  characterRace := stringField jsonData "body" "characterRace"
  characterGender := stringField jsonData "body" "characterGender"

def parseClientData (jsonData : Json) : ClientDataStruct where
  clientId := intField jsonData "header" "clientId"
  hash := stringField jsonData "header" "hash"
  login := stringField jsonData "body" "login"
  password := stringField jsonData "body" "password"
  clientVersion := stringField jsonData "body" "clientVersion"

def parseEventType (jsonData : Json) : Bytes := stringField jsonData "header" "eventType"

/-- The registration fields that `processMessage` reads from the body. -/
def parseRegistration (jsonData : Json) : RegistrationDataStruct where
  login := stringField jsonData "body" "login"
  password := stringField jsonData "body" "password"
  email := stringField jsonData "body" "email"
  clientVersion := stringField jsonData "body" "clientVersion"

end JSONParser

/-- The client's fields of the time stamps; `none` when a `get` throws. -/
def clientTimestamps (header : Json) : Option TimestampStruct := do
  let clientSendMsEcho ←
    match header.find? (str "clientSendMs") with
    | some v => v.longLong?
    | none => some 0
  let requestId ←
    match header.find? (str "requestId") with
    | some v => v.string?
    | none => some []
  return { clientSendMsEcho := clientSendMsEcho, requestId := requestId }

def parseTimestampsFromHeader (jsonData : Json) (currentTimestampMs : Int) : TimestampStruct :=
  let timestamps :=
    match jsonData.find? (str "header") with
    | some header => (clientTimestamps header).getD {}
    | none => {}
  { timestamps with serverRecvMs := currentTimestampMs }

end LoginServer
