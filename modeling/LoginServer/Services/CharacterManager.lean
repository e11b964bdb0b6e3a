import LoginServer.Services.AccountManager

/-!
# `CharacterManager`
-/

namespace LoginServer

namespace CharacterCreateResult

def ERR_MISSING_FIELD : Int := -1

def ERR_NAME_INVALID : Int := -2

def ERR_NAME_TAKEN : Int := -3

def ERR_SLOT_FULL : Int := -4

def ERR_DB : Int := -5

end CharacterCreateResult

def MAX_CHARS_PER_ACCOUNT : Int := 4

namespace CharacterManager

open AccountManager (isLetter)

/-- `[A-Za-z ']`. -/
def isNameChar (c : UInt8) : Bool := isLetter c || c = 32 || c = 39

/-- `^[A-Za-z][A-Za-z ']{0,18}[A-Za-z]$|^[A-Za-z]{1,20}$`. -/
def matchesNameRegex (name : Bytes) : Bool :=
  (2 ≤ name.length && name.length ≤ 20 && (name.head?.any isLetter) && (name.getLast?.any isLetter)
    && (name.tail.dropLast.all isNameChar)) ||
  (1 ≤ name.length && name.length ≤ 20 && name.all isLetter)

/-- `find("  ") != npos`. -/
def hasDoubleSpace : Bytes → Bool
  | a :: b :: rest => (a = 32 && b = 32) || hasDoubleSpace (b :: rest)
  | _ => false

def getCharactersListRow (row : Database.CharacterListRow) : M CharacterDataStruct := do
  let characterId ← asInt row.characterId
  let characterLevel ← asInt row.characterLvl
  let characterClass ← asString row.classSlug
  let experiencePoints ← asInt row.experiencePoints
  let currentHealth ← asInt row.currentHealth
  let currentMana ← asInt row.currentMana
  return {
    characterId := characterId, characterLevel := characterLevel,
    characterName := row.characterName, characterClass := characterClass,
    characterRace := row.raceSlug, characterGender := row.genderSlug.getD [],
    characterExperiencePoints := experiencePoints, isOnline := row.isOnline,
    characterCurrentHealth := currentHealth, characterCurrentMana := currentMana }

/-- The loop over the result; a conversion error leaves it with the characters so far. -/
def getCharactersListLoop (charactersList : List CharacterDataStruct) :
    List Database.CharacterListRow → M (List CharacterDataStruct × Bool)
  | [] => return (charactersList, true)
  | row :: rows => do
    match ← tryCatch (do return some (← getCharactersListRow row)) fun _ => return none with
    | some character => getCharactersListLoop (charactersList ++ [character]) rows
    | none => return (charactersList, false)

/-- On any exception the characters collected so far are returned. -/
def getCharactersList (accountId : Int) : M (List CharacterDataStruct) :=
  tryCatch
    (withWork do
      match ← execPrepared (.getCharactersList accountId) with
      | [] =>
        abortWork
        return []
      | rows =>
        let (charactersList, complete) ← getCharactersListLoop [] rows
        if complete then
          tryCatch commitWork fun _ => unwindWork
          return charactersList
        else
          unwindWork
          return charactersList)
    fun _ => return []

/-- The statements after the insert of the character row, up to the commit. -/
def initCharacter (newCharacterId : Int) (characterClass : Bytes) : M Int := do
  let classResult ← execPrepared (.getClassIdBySlug characterClass)
  let classId := classResult.headD 0
  execPrepared (.initCharacterState newCharacterId)
  execPrepared (.initCharacterPosition newCharacterId)
  if classId > 0 then
    execPrepared (.initCharacterDefaultSkills newCharacterId classId)
    execPrepared (.initCharacterStarterItems newCharacterId classId)
    execPrepared (.initCharacterStarterCurrencies newCharacterId classId)
  commitWork
  return newCharacterId

/-- From the insert of the character row on. -/
def insertCharacter (accountId : Int)
    (characterName characterClass characterRace characterGender : Bytes) :
    M Int := do
  match ← execPrepared
      (.createCharacter accountId characterName characterClass characterRace characterGender) with
  | [] =>
    abortWork
    return CharacterCreateResult.ERR_DB
  | id :: _ =>
    let newCharacterId ← asInt id
    initCharacter newCharacterId characterClass

/-- The part of `createCharacter` inside its try block. -/
def tryCreate (accountId : Int)
    (characterName characterClass characterRace characterGender : Bytes) :
    M Int :=
  withWork do
    let slotResult ← execPrepared (.getCharacterSlotCount accountId)
    let slotCount ← asInt (slotResult.headD 0)
    if slotCount ≥ MAX_CHARS_PER_ACCOUNT then
      abortWork
      return CharacterCreateResult.ERR_SLOT_FULL
    else
      let nameCheck ← execPrepared (.checkCharacterNameExists characterName)
      if !nameCheck.isEmpty then
        abortWork
        return CharacterCreateResult.ERR_NAME_TAKEN
      else insertCharacter accountId characterName characterClass characterRace characterGender

/-- The id of the new character, or a negative code. -/
def createCharacter (accountId : Int)
    (characterName characterClass characterRace characterGender : Bytes) :
    M Int :=
  if characterName.isEmpty || characterClass.isEmpty || characterRace.isEmpty ||
      characterGender.isEmpty then
    return CharacterCreateResult.ERR_MISSING_FIELD
  else if !matchesNameRegex characterName then return CharacterCreateResult.ERR_NAME_INVALID
  else if hasDoubleSpace characterName then return CharacterCreateResult.ERR_NAME_INVALID
  else
    tryCatch (tryCreate accountId characterName characterClass characterRace characterGender)
      fun _ => return CharacterCreateResult.ERR_DB

def deleteCharacter (accountId characterId : Int) : M Bool :=
  tryCatch
    (withWork do
      let result ← execPrepared (.deleteCharacter characterId accountId)
      commitWork
      return !result.isEmpty)
    fun _ => return false

/-- The items of the loop over the result; a conversion error leaves it with those so
far. -/
def equipmentItems : List (Int × Bytes) → List EquipmentPreviewItemStruct
  | [] => []
  | row :: rows =>
    match Database.integer row.1 with
    | some slotId => { slotId := slotId, itemSlug := row.2 } :: equipmentItems rows
    | none => []

def getCharacterEquipmentPreview (characterId : Int) : M (List EquipmentPreviewItemStruct) :=
  tryCatch
    (withWork do
      let rows ← execPrepared (.getCharacterEquipmentPreview characterId)
      commitWork
      return equipmentItems rows)
    fun _ => return []

end CharacterManager

end LoginServer
