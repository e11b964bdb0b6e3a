import LoginServer.Utils.JSONParser
import LoginServer.Utils.JsonAccess

/-!
# The extractors as they read

The extractors of `JSONParser` once more, with every `operator[]` and `get` that could
throw. None does: each is the pure extractor, whatever the document is. What a field holds
depends on nothing but its own place in the document.
-/

namespace LoginServer

namespace JSONParser

def parsePositionField (jsonData : Json) (key : String) : Float32.Model :=
  match field? jsonData "body" key with
  | some (.number n) => .ofInt n
  | some (.number_float bits) => Json.toFloat bits
  | _ => .ofInt 0

def parsePositionData (jsonData : Json) : PositionStruct where
  positionX := parsePositionField jsonData "characterPosX"
  positionY := parsePositionField jsonData "characterPosY"
  positionZ := parsePositionField jsonData "characterPosZ"

def parseMessage (jsonData : Json) : MessageStruct where
  status := stringField jsonData "header" "status"
  message := stringField jsonData "header" "message"

theorem field?_eq (jsonData : Json) (section_ key : String) :
    field? jsonData section_ key =
      (jsonData.find? (str section_)).bind (Json.find? · (str key)) := by
  unfold field?
  cases jsonData.find? (str section_) with
  | none => rfl
  | some section' => cases section' <;> rfl

/-! ## Every access written out -/

namespace Throwing

def readInt (jsonData : Json) (section_ key : String) (initial : Int) : Except Thrown Int :=
  jsonData.readField section_ key Json.is_number_integer Json.getInt initial

def readString (jsonData : Json) (section_ key : String) (initial : Bytes) :
    Except Thrown Bytes :=
  jsonData.readField section_ key Json.is_string Json.getString initial

def readFloat (jsonData : Json) (section_ key : String) (initial : Float32.Model) :
    Except Thrown Float32.Model :=
  jsonData.readField section_ key (fun j => j.is_number_float || j.is_number_integer)
    Json.getFloat initial

def parseCharacterData (jsonData : Json) : Except Thrown CharacterDataStruct := do
  let data : CharacterDataStruct := {}
  let data := { data with
    characterId := ← readInt jsonData "body" "characterId" data.characterId }
  let data := { data with
    characterLevel := ← readInt jsonData "body" "characterLevel" data.characterLevel }
  let data := { data with
    characterExperiencePoints :=
      ← readInt jsonData "body" "characterExp" data.characterExperiencePoints }
  let data := { data with
    characterCurrentHealth :=
      ← readInt jsonData "body" "characterCurrentHealth" data.characterCurrentHealth }
  let data := { data with
    characterCurrentMana :=
      ← readInt jsonData "body" "characterCurrentMana" data.characterCurrentMana }
  let data := { data with
    characterName := ← readString jsonData "body" "characterName" data.characterName }
  let data := { data with
    characterClass := ← readString jsonData "body" "characterClass" data.characterClass }
  let data := { data with
    characterRace := ← readString jsonData "body" "characterRace" data.characterRace }
  let data := { data with
    characterGender := ← readString jsonData "body" "characterGender" data.characterGender }
  return data

def parsePositionData (jsonData : Json) : Except Thrown PositionStruct := do
  let data : PositionStruct := {}
  let data := { data with
    positionX := ← readFloat jsonData "body" "characterPosX" data.positionX }
  let data := { data with
    positionY := ← readFloat jsonData "body" "characterPosY" data.positionY }
  let data := { data with
    positionZ := ← readFloat jsonData "body" "characterPosZ" data.positionZ }
  return data

def parseClientData (jsonData : Json) : Except Thrown ClientDataStruct := do
  let data : ClientDataStruct := {}
  let data := { data with clientId := ← readInt jsonData "header" "clientId" data.clientId }
  let data := { data with hash := ← readString jsonData "header" "hash" data.hash }
  let data := { data with login := ← readString jsonData "body" "login" data.login }
  let data := { data with password := ← readString jsonData "body" "password" data.password }
  let data := { data with
    clientVersion := ← readString jsonData "body" "clientVersion" data.clientVersion }
  return data

def parseMessage (jsonData : Json) : Except Thrown MessageStruct := do
  let message : MessageStruct := {}
  let message := { message with
    status := ← readString jsonData "header" "status" message.status }
  let message := { message with
    message := ← readString jsonData "header" "message" message.message }
  return message

def parseEventType (jsonData : Json) : Except Thrown Bytes :=
  readString jsonData "header" "eventType" []

/-- The block that `parseTimestampsFromHeader` tries. -/
def headerTimestamps (jsonData : Json) : Except Thrown TimestampStruct := do
  let timestamps : TimestampStruct := {}
  if jsonData.contains (str "header") then
    let header ← jsonData.subscript (str "header")
    let timestamps ←
      if header.contains (str "clientSendMs") then
        pure { timestamps with
          clientSendMsEcho := ← (← header.subscript (str "clientSendMs")).getLongLong }
      else pure timestamps
    if header.contains (str "requestId") then
      return { timestamps with
        requestId := ← (← header.subscript (str "requestId")).getString }
    else return timestamps
  else return timestamps

def parseTimestampsFromHeader (jsonData : Json) (currentTimestampMs : Int) : TimestampStruct :=
  let timestamps :=
    match headerTimestamps jsonData with
    | .ok timestamps => timestamps
    | .error _ => {}
  { timestamps with serverRecvMs := currentTimestampMs }

/-! ## None of them throws -/

theorem readInt_eq (jsonData : Json) (section_ key : String) :
    readInt jsonData section_ key 0 = .ok (intField jsonData section_ key) := by
  rw [readInt, Json.readField_eq, ← field?_eq, intField]
  cases field? jsonData section_ key with
  | none => rfl
  | some v => cases v <;> rfl

theorem readString_eq (jsonData : Json) (section_ key : String) :
    readString jsonData section_ key [] = .ok (stringField jsonData section_ key) := by
  rw [readString, Json.readField_eq, ← field?_eq, stringField]
  cases field? jsonData section_ key with
  | none => rfl
  | some v => cases v <;> rfl

theorem readFloat_eq (jsonData : Json) (key : String) :
    readFloat jsonData "body" key (.ofInt 0) = .ok (parsePositionField jsonData key) := by
  rw [readFloat, Json.readField_eq, ← field?_eq, parsePositionField]
  cases field? jsonData "body" key with
  | none => rfl
  | some v => cases v <;> rfl

variable (jsonData : Json)

theorem parseCharacterData_eq :
    parseCharacterData jsonData = .ok (JSONParser.parseCharacterData jsonData) := by
  simp only [parseCharacterData, readInt_eq, readString_eq, bind, Except.bind, pure, Except.pure]
  rfl

theorem parsePositionData_eq :
    parsePositionData jsonData = .ok (JSONParser.parsePositionData jsonData) := by
  simp only [parsePositionData, readFloat_eq, bind, Except.bind, pure, Except.pure]
  rfl

theorem parseClientData_eq :
    parseClientData jsonData = .ok (JSONParser.parseClientData jsonData) := by
  simp only [parseClientData, readInt_eq, readString_eq, bind, Except.bind, pure, Except.pure]
  rfl

theorem parseMessage_eq : parseMessage jsonData = .ok (JSONParser.parseMessage jsonData) := by
  simp only [parseMessage, readString_eq, bind, Except.bind, pure, Except.pure]
  rfl

theorem parseEventType_eq :
    parseEventType jsonData = .ok (JSONParser.parseEventType jsonData) :=
  readString_eq jsonData "header" "eventType"

/-- Here a `get` can throw, and the block loses what it has read. -/
theorem headerTimestamps_eq :
    headerTimestamps jsonData =
      match jsonData.find? (str "header") with
      | some header =>
        match clientTimestamps header with
        | some timestamps => .ok timestamps
        | none => .error .type_error
      | none => .ok {} := by
  unfold headerTimestamps
  simp only [pure, Except.pure, bind, Except.bind]
  cases hheader : jsonData.find? (str "header") with
  | none => simp [Json.contains_of_find?_none hheader]
  | some header =>
    simp only [Json.contains_of_find? hheader, Json.subscript_of_find? hheader, if_true,
      clientTimestamps]
    cases hsent : header.find? (str "clientSendMs") with
    | none =>
      simp only [Json.contains_of_find?_none hsent, if_false, Bool.false_eq_true]
      cases hid : header.find? (str "requestId") with
      | none => simp [Json.contains_of_find?_none hid]
      | some v =>
        simp only [Json.contains_of_find? hid, Json.subscript_of_find? hid, if_true]
        cases v <;> rfl
    | some sent =>
      simp only [Json.contains_of_find? hsent, Json.subscript_of_find? hsent, if_true,
        Json.getLongLong]
      cases hlong : sent.longLong? with
      | none => simp
      | some n =>
        cases hid : header.find? (str "requestId") with
        | none => simp [Json.contains_of_find?_none hid]
        | some v =>
          simp only [Json.contains_of_find? hid, Json.subscript_of_find? hid, if_true]
          cases v <;> simp [Json.getString, Json.string?]

theorem parseTimestampsFromHeader_eq (currentTimestampMs : Int) :
    parseTimestampsFromHeader jsonData currentTimestampMs =
      LoginServer.parseTimestampsFromHeader jsonData currentTimestampMs := by
  unfold parseTimestampsFromHeader LoginServer.parseTimestampsFromHeader
  rw [headerTimestamps_eq]
  cases jsonData.find? (str "header") with
  | none => rfl
  | some header =>
    cases hread : clientTimestamps header <;> simp [hread]

end Throwing

end JSONParser

end LoginServer
