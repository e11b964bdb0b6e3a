import LoginServer.Transactions.Store
import LoginServer.Utils.Bytes

/-!
# The database

The tables of the dump that the server's statements read or write, with the columns
they use. An `integer` or `bigint` column is an integer, a nullable column an option,
a time stamp counts microseconds. The sequences are ahead of every stored id.

A `Write` is one row inserted, updated or deleted. An update names the row by its
primary key and carries what the statement computed for it.
-/

namespace LoginServer

/-- `timestamp with time zone`, in microseconds. -/
abbrev Time := Int

def minutes (n : Int) : Time := n * 60 * 1000000

def days (n : Int) : Time := n * 24 * 60 * 60 * 1000000

namespace Database

structure UserRow where
  id : Int
  login : Bytes
  password : Bytes
  lastLogin : Time
  email : Option Bytes := none
  role : Int := 0
  isActive : Bool := true
  failedLoginAttempts : Int := 0
  lockedUntil : Option Time := none
  lastLoginIp : Option Bytes := none
  registrationIp : Option Bytes := none
  clientVersion : Option Bytes := none
deriving DecidableEq

structure UserSessionRow where
  id : Int
  userId : Int
  tokenHash : Bytes
  clientVersion : Option Bytes
  createdAt : Time
  expiresAt : Time
  revokedAt : Option Time := none
deriving DecidableEq

structure UserBanRow where
  id : Int
  userId : Int
  reason : Bytes
  expiresAt : Option Time := none
  isActive : Bool := true
deriving DecidableEq

structure CharacterRow where
  id : Int
  name : Bytes
  ownerId : Int
  classId : Int
  raceId : Int
  experiencePoints : Int := 0
  level : Int := 0
  gender : Int
  accountSlot : Int
  deletedAt : Option Time := none
  isOnline : Bool := false
deriving DecidableEq

structure CharacterClassRow where
  id : Int
  name : Bytes
  slug : Option Bytes
  description : Option Bytes := none
deriving DecidableEq

structure RaceRow where
  id : Int
  name : Bytes
  slug : Bytes
deriving DecidableEq

structure CharacterGenderRow where
  id : Int
  name : Bytes
  label : Bytes
deriving DecidableEq

structure CharacterStateRow where
  characterId : Int
  currentHealth : Int
  currentMana : Int
deriving DecidableEq

structure CharacterPositionRow where
  id : Int
  characterId : Int
  x : Int
  y : Int
  z : Int
  zoneId : Int
deriving DecidableEq

structure CharacterSkillRow where
  id : Int
  characterId : Int
  skillId : Int
  currentLevel : Int
deriving DecidableEq

structure ClassSkillRow where
  classId : Int
  skillId : Int
  isDefault : Bool
deriving DecidableEq

structure ItemRow where
  id : Int
  slug : Bytes
  durabilityMax : Int
deriving DecidableEq

structure InventoryRow where
  id : Int
  characterId : Option Int
  itemId : Int
  quantity : Int
  slotIndex : Option Int
  durabilityCurrent : Option Int
deriving DecidableEq

structure StarterItemRow where
  classId : Int
  itemId : Int
  quantity : Int
  slotIndex : Option Int
  durabilityCurrent : Option Int
deriving DecidableEq

structure CharacterCurrencyRow where
  characterId : Int
  currencyId : Int
  amount : Int
deriving DecidableEq

structure StarterCurrencyRow where
  classId : Int
  currencyId : Int
  amount : Int
deriving DecidableEq

structure EquipmentRow where
  characterId : Int
  equipSlotId : Int
  inventoryItemId : Int
deriving DecidableEq

/-- `nextval` of the sequences behind the `id` columns. -/
structure Sequences where
  users : Int := 1
  userSessions : Int := 1
  characters : Int := 1
  characterPosition : Int := 1
  characterSkills : Int := 1
  playerInventory : Int := 1
deriving DecidableEq

end Database

open Database

structure Database where
  users : List UserRow := []
  userSessions : List UserSessionRow := []
  userBans : List UserBanRow := []
  characters : List CharacterRow := []
  characterClass : List CharacterClassRow := []
  race : List RaceRow := []
  characterGenders : List CharacterGenderRow := []
  characterCurrentState : List CharacterStateRow := []
  characterPosition : List CharacterPositionRow := []
  characterSkills : List CharacterSkillRow := []
  classSkillTree : List ClassSkillRow := []
  items : List ItemRow := []
  playerInventory : List InventoryRow := []
  classStarterItems : List StarterItemRow := []
  characterCurrencies : List CharacterCurrencyRow := []
  classStarterCurrencies : List StarterCurrencyRow := []
  characterEquipment : List EquipmentRow := []
  /-- The ids of `zones`. -/
  zones : List Int := []

namespace Database

inductive Write where
  | insertUser (row : UserRow)
  | setFailedLogins (id attempts : Int) (lockedUntil : Option Time)
  | resetFailedLogins (id : Int) (now : Time) (ip clientVersion : Bytes)
  | insertSession (row : UserSessionRow)
  | revokeSession (id : Int) (now : Time)
  | deleteSession (id : Int)
  | insertCharacter (row : CharacterRow)
  | softDelete (id ownerId : Int) (now : Time)
  | insertState (row : CharacterStateRow)
  | insertPosition (row : CharacterPositionRow)
  | insertSkill (row : CharacterSkillRow)
  | insertItem (row : InventoryRow)
  | insertCurrency (row : CharacterCurrencyRow)
  | addCurrency (characterId currencyId amount : Int)

/-- What a write locks: the row that it updates or deletes, or the unique key that it
inserts. -/
inductive RowLock where
  | user (id : Int)
  | session (id : Int)
  | token (tokenHash : Bytes)
  | character (id : Int)
  | currency (characterId currencyId : Int)
deriving DecidableEq

/-- The rows for which `p` holds are replaced by `f`. -/
def updateWhere {ρ : Type} (p : ρ → Bool) (f : ρ → ρ) (rows : List ρ) : List ρ :=
  rows.map fun r => if p r then f r else r

def updateUser (db : Database) (id : Int) (f : UserRow → UserRow) : Database :=
  { db with users := updateWhere (fun r => r.id = id) f db.users }

def applyWrite (db : Database) : Write → Database
  | .insertUser row => { db with users := db.users ++ [row] }
  | .setFailedLogins id attempts lockedUntil =>
    db.updateUser id fun r =>
      { r with failedLoginAttempts := attempts, lockedUntil := lockedUntil }
  | .resetFailedLogins id now ip clientVersion =>
    db.updateUser id fun r =>
      { r with
        failedLoginAttempts := 0, lockedUntil := none, lastLogin := now,
        lastLoginIp := some ip, clientVersion := some clientVersion }
  | .insertSession row => { db with userSessions := db.userSessions ++ [row] }
  | .revokeSession id now =>
    { db with
      userSessions := updateWhere (fun r => r.id = id)
        (fun r => { r with revokedAt := some now }) db.userSessions }
  | .deleteSession id =>
    { db with userSessions := db.userSessions.filter fun r => r.id ≠ id }
  | .insertCharacter row => { db with characters := db.characters ++ [row] }
  | .softDelete id ownerId now =>
    { db with
      characters := updateWhere (fun r => r.id = id ∧ r.ownerId = ownerId)
        (fun r => { r with deletedAt := some now }) db.characters }
  | .insertState row => { db with characterCurrentState := db.characterCurrentState ++ [row] }
  | .insertPosition row => { db with characterPosition := db.characterPosition ++ [row] }
  | .insertSkill row => { db with characterSkills := db.characterSkills ++ [row] }
  | .insertItem row => { db with playerInventory := db.playerInventory ++ [row] }
  | .insertCurrency row => { db with characterCurrencies := db.characterCurrencies ++ [row] }
  | .addCurrency characterId currencyId amount =>
    { db with
      characterCurrencies :=
        updateWhere (fun r => r.characterId = characterId ∧ r.currencyId = currencyId)
          (fun r => { r with amount := r.amount + amount }) db.characterCurrencies }

def Write.lock : Write → Option RowLock
  | .insertUser _ => none
  | .setFailedLogins id _ _ => some (.user id)
  | .resetFailedLogins id _ _ _ => some (.user id)
  | .insertSession row => some (.token row.tokenHash)
  | .revokeSession id _ => some (.session id)
  | .deleteSession id => some (.session id)
  | .insertCharacter _ => none
  | .softDelete id _ _ => some (.character id)
  | .insertState _ => none
  | .insertPosition _ => none
  | .insertSkill _ => none
  | .insertItem _ => none
  | .insertCurrency _ => none
  | .addCurrency characterId currencyId _ => some (.currency characterId currencyId)

def writes : Transactions.WriteModel Database Write RowLock := ⟨applyWrite, Write.lock⟩

abbrev Store := Transactions.Store Database Write RowLock

end Database

end LoginServer
