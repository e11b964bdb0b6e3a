import Mathlib.Data.List.Sort
import Mathlib.Data.List.TakeWhile
import LoginServer.Database.Schema

/-!
# The prepared statements

One constructor of `Query` for each statement of `kQueries` that the handlers execute,
with its parameters. `Query.run` gives the rows that it returns, the rows that it
writes and the sequence values it uses up, from the data its transaction sees; `now`
is the start of that transaction. An SQL error is `none`.

The parameters go to the database in the text format, as C strings: of a string that has
NUL bytes in it (a `\u0000` of the JSON request gives one) the database reads what comes
before the first (`upToNul`). `$6::inet` and `$2::inet` are taken to accept every address
that `remote_endpoint` prints; an IPv6 address with a scope, which `inet` refuses, is an
error of the statement like any other, and the step that executes it may fail.
-/

namespace LoginServer

/-- The functions of the database that the statements call. -/
structure SqlFunctions where
  lower : Bytes → Bytes
  /-- `expires_at::text`. -/
  timestampText : Time → Bytes

namespace Database

/-! ## Text parameters -/

/-- What a text parameter says: the bytes before its first NUL. -/
def upToNul (s : Bytes) : Bytes := s.takeWhile (· ≠ 0)

theorem zero_notMem_upToNul (s : Bytes) : 0 ∉ upToNul s := by
  intro h
  simpa using List.mem_takeWhile_imp h

@[simp] theorem upToNul_eq_self {s : Bytes} : upToNul s = s ↔ 0 ∉ s := by
  rw [upToNul, List.takeWhile_eq_self_iff]
  constructor
  · intro h hmem
    simpa using h 0 hmem
  · intro h b hb
    exact decide_eq_true fun hzero => h (hzero ▸ hb)

/-! ## Column types -/

def isContinuationByte (b : UInt8) : Bool := b &&& 0xC0 = 0x80

/-- The first `n` characters of a UTF-8 text, and the rest. -/
def splitCharacters : Nat → Bytes → Bytes × Bytes
  | _, [] => ([], [])
  | n, b :: bs =>
    if isContinuationByte b then
      (b :: (splitCharacters n bs).1, (splitCharacters n bs).2)
    else
      match n with
      | 0 => ([], b :: bs)
      | n + 1 => (b :: (splitCharacters n bs).1, (splitCharacters n bs).2)

/-- Assignment to `character varying(n)`: characters in excess must be blanks, and are
dropped. -/
def varchar (n : Nat) (s : Bytes) : Option Bytes :=
  if (splitCharacters n s).2.all (fun b => b = 32) then some (splitCharacters n s).1 else none

theorem splitCharacters_of_length_le {n : Nat} {s : Bytes} (h : s.length ≤ n) :
    splitCharacters n s = (s, []) := by
  induction s generalizing n with
  | nil => cases n <;> rfl
  | cons b bs ih =>
    obtain ⟨m, rfl⟩ : ∃ m, n = m + 1 := ⟨n - 1, by simp at h; omega⟩
    have hbs : bs.length ≤ m := by simpa using h
    unfold splitCharacters
    split
    · rw [ih (Nat.le_succ_of_le hbs)]
    · dsimp only
      rw [ih hbs]

/-- A text with no more bytes than the column has characters is stored as it is. -/
theorem varchar_of_length_le {n : Nat} {s : Bytes} (h : s.length ≤ n) :
    varchar n s = some s := by
  rw [varchar, splitCharacters_of_length_le h]
  rfl

/-- At most `n` bytes and no NUL: a column of `n` characters stores the text as it is. -/
def Verbatim (n : Nat) (s : Bytes) : Prop := s.length ≤ n ∧ 0 ∉ s

theorem Verbatim.upToNul {n : Nat} {s : Bytes} (h : Verbatim n s) : upToNul s = s :=
  upToNul_eq_self.mpr h.2

theorem Verbatim.varchar {n m : Nat} {s : Bytes} (h : Verbatim n s) (hle : n ≤ m) :
    varchar m s = some s :=
  varchar_of_length_le (Nat.le_trans h.1 hle)

def smallint (n : Int) : Option Int := if -32768 ≤ n ∧ n ≤ 32767 then some n else none

def integer (n : Int) : Option Int :=
  if -2147483648 ≤ n ∧ n ≤ 2147483647 then some n else none

theorem smallint_eq_some {n m : Int} (h : smallint n = some m) : m = n := by
  unfold smallint at h
  split_ifs at h
  exact (Option.some.inj h).symm

theorem integer_eq_some {n m : Int} (h : integer n = some m) : m = n := by
  unfold integer at h
  split_ifs at h
  exact (Option.some.inj h).symm

/-- `NULLIF(s, '')`. -/
def nullIfEmpty (s : Bytes) : Option Bytes := if s.isEmpty then none else some s

/-! ## The statements -/

structure UserAuthRow where
  id : Int
  password : Bytes
  role : Option Int
deriving DecidableEq

structure CharacterListRow where
  characterId : Int
  characterLvl : Int
  characterName : Bytes
  classSlug : Option Bytes
  raceSlug : Bytes
  genderSlug : Option Bytes
  experiencePoints : Int
  accountSlot : Int
  isOnline : Bool
  currentHealth : Int
  currentMana : Int
deriving DecidableEq

inductive Query where
  | searchUser (login : Bytes)
  | probeUserStatus (login : Bytes)
  | checkActiveBan (userId : Int)
  | incrementFailedLogins (login : Bytes)
  | resetFailedLogins (userId : Int) (ip clientVersion : Bytes)
  | createUserSession (userId : Int) (tokenHash clientVersion : Bytes)
  | cleanupExpiredSessions
  | revokeUserSessions (userId : Int)
  | getCharactersList (accountId : Int)
  | getCharacterEquipmentPreview (characterId : Int)
  | createCharacter (accountId : Int) (name classSlug raceSlug genderSlug : Bytes)
  | initCharacterState (characterId : Int)
  | initCharacterPosition (characterId : Int)
  | initCharacterDefaultSkills (characterId classId : Int)
  | getClassIdBySlug (slug : Bytes)
  | initCharacterStarterItems (characterId classId : Int)
  | initCharacterStarterCurrencies (characterId classId : Int)
  | checkCharacterNameExists (name : Bytes)
  | getCharacterSlotCount (accountId : Int)
  | deleteCharacter (characterId accountId : Int)
  | getCharacterClasses
  | getCharacterRaces
  | getCharacterGenders
  | checkLoginAvailable (login : Bytes)
  | registerUser (login password email ip clientVersion : Bytes)

/-- What the code reads of the result: its rows, or nothing. -/
def Query.Rows : Query → Type
  | .searchUser _ => List UserAuthRow
  | .probeUserStatus _ => List (Bool × Option Time)
  | .checkActiveBan _ => List (Bytes × Bytes)
  | .incrementFailedLogins _ => Unit
  | .resetFailedLogins _ _ _ => Unit
  | .createUserSession _ _ _ => Unit
  | .cleanupExpiredSessions => Unit
  | .revokeUserSessions _ => Unit
  | .getCharactersList _ => List CharacterListRow
  | .getCharacterEquipmentPreview _ => List (Int × Bytes)
  | .createCharacter _ _ _ _ _ => List Int
  | .initCharacterState _ => Unit
  | .initCharacterPosition _ => Unit
  | .initCharacterDefaultSkills _ _ => Unit
  | .getClassIdBySlug _ => List Int
  | .initCharacterStarterItems _ _ => Unit
  | .initCharacterStarterCurrencies _ _ => Unit
  | .checkCharacterNameExists _ => List Unit
  | .getCharacterSlotCount _ => List Int
  | .deleteCharacter _ _ => List Int
  | .getCharacterClasses => List CharacterClassRow
  | .getCharacterRaces => List RaceRow
  | .getCharacterGenders => List CharacterGenderRow
  | .checkLoginAvailable _ => List Unit
  | .registerUser _ _ _ _ _ => List Int

/-- Rows, writes and sequences after a statement; `none` is an SQL error. -/
abbrev Outcome (α : Type) := Option (α × List Write × Sequences)

variable (db : Database) (now : Time) (seq : Sequences)

/-- `locked_until IS NULL OR locked_until < now()`, with `is_active = true`. -/
def UserRow.mayLogIn (now : Time) (r : UserRow) : Bool :=
  r.isActive && r.lockedUntil.all (fun lockedUntil => lockedUntil < now)

def searchUser (login : Bytes) : List UserAuthRow :=
  ((db.users.filter fun r => r.login = login && r.mayLogIn now).take 1).map fun r =>
    ⟨r.id, r.password, some r.role⟩

def probeUserStatus (login : Bytes) : List (Bool × Option Time) :=
  ((db.users.filter fun r => r.login = login).take 1).map fun r => (r.isActive, r.lockedUntil)

def checkActiveBan (f : SqlFunctions) (userId : Int) : List (Bytes × Bytes) :=
  let bans := db.userBans.filter fun r =>
    r.userId = userId && r.isActive && r.expiresAt.all (fun expiresAt => expiresAt > now)
  ((bans.insertionSort fun a b => a.id ≥ b.id).take 1).map fun r =>
    (r.reason, (r.expiresAt.map f.timestampText).getD [])

def incrementFailedLogins (login : Bytes) : Outcome Unit :=
  ((db.users.filter fun r => r.login = login).mapM fun r =>
    (smallint (r.failedLoginAttempts + 1)).map fun attempts =>
      Write.setFailedLogins r.id attempts
        (if r.failedLoginAttempts + 1 ≥ 5 then some (now + minutes 15) else r.lockedUntil)).map
    fun ws => ((), ws, seq)

def resetFailedLogins (userId : Int) (ip clientVersion : Bytes) : Outcome Unit :=
  ((db.users.filter fun r => r.id = userId).mapM fun r =>
    (varchar 32 clientVersion).map fun clientVersion =>
      Write.resetFailedLogins r.id now ip clientVersion).map
    fun ws => ((), ws, seq)

def createUserSession (userId : Int) (tokenHash clientVersion : Bytes) : Outcome Unit :=
  match varchar 255 tokenHash, varchar 32 clientVersion with
  | some tokenHash, some clientVersion =>
    let next := { seq with userSessions := seq.userSessions + 1 }
    if db.userSessions.any fun r => r.tokenHash = tokenHash then some ((), [], next)
    else if db.users.any fun r => r.id = userId then
      some ((), [.insertSession
        { id := seq.userSessions, userId := userId, tokenHash := tokenHash,
          clientVersion := some clientVersion, createdAt := now,
          expiresAt := now + days 30 }], next)
    else none
  | _, _ => none

def cleanupExpiredSessions : Outcome Unit :=
  some ((), (db.userSessions.filter fun r => r.expiresAt < now && r.revokedAt.isNone).map
    fun r => .deleteSession r.id, seq)

/-- `revoked_at IS NULL AND expires_at > now`. -/
def UserSessionRow.isLive (now : Time) (r : UserSessionRow) : Bool :=
  r.revokedAt.isNone && r.expiresAt > now

def revokeUserSessions (userId : Int) : Outcome Unit :=
  some ((), (db.userSessions.filter fun r => r.userId = userId && r.isLive now).map
    fun r => .revokeSession r.id now, seq)

def getCharactersList (accountId : Int) : List CharacterListRow :=
  let rows := (db.characters.filter fun c => c.ownerId = accountId && c.deletedAt.isNone).flatMap
    fun c => (db.characterClass.filter fun cc => cc.id = c.classId).flatMap
    fun cc => (db.race.filter fun r => r.id = c.raceId).map
    fun r =>
      let state := db.characterCurrentState.find? fun ccs => ccs.characterId = c.id
      { characterId := c.id, characterLvl := c.level, characterName := c.name,
        classSlug := cc.slug, raceSlug := r.slug,
        genderSlug := (db.characterGenders.find? fun cg => cg.id = c.gender).map (·.name),
        experiencePoints := c.experiencePoints, accountSlot := c.accountSlot,
        isOnline := c.isOnline,
        currentHealth := (state.map (·.currentHealth)).getD 1,
        currentMana := (state.map (·.currentMana)).getD 1 }
  rows.insertionSort fun a b => a.accountSlot ≤ b.accountSlot

def getCharacterEquipmentPreview (characterId : Int) : List (Int × Bytes) :=
  let rows := (db.characterEquipment.filter fun ce => ce.characterId = characterId).flatMap
    fun ce => (db.playerInventory.filter fun pi => pi.id = ce.inventoryItemId).flatMap
    fun pi => (db.items.filter fun i => i.id = pi.itemId).map
    fun i => (ce.equipSlotId, i.slug)
  rows.insertionSort fun a b => a.1 ≤ b.1

/-- The characters of an account with `deleted_at IS NULL`. -/
def liveCharacters (accountId : Int) : List CharacterRow :=
  db.characters.filter fun c => c.ownerId = accountId && c.deletedAt.isNone

/-- `COALESCE((SELECT MAX(account_slot) + 1 ...), 1)`. -/
def nextAccountSlot (accountId : Int) : Int :=
  match ((db.liveCharacters accountId).map (·.accountSlot)).max? with
  | some slot => slot + 1
  | none => 1

/-- The class, race and gender ids that the slugs select. -/
def creationIds (classSlug raceSlug genderSlug : Bytes) : List (Int × Int × Int) :=
  (db.characterClass.filter fun cc => cc.slug = some classSlug).flatMap fun cc =>
    (db.race.filter fun r => r.slug = raceSlug).flatMap fun r =>
      (db.characterGenders.filter fun cg => cg.name = genderSlug).map fun cg =>
        (cc.id, r.id, cg.id)

def createCharacter (accountId : Int) (name classSlug raceSlug genderSlug : Bytes) :
    Outcome (List Int) :=
  match db.creationIds classSlug raceSlug genderSlug with
  | [] => some ([], [], seq)
  | ids =>
    match varchar 20 name, smallint (db.nextAccountSlot accountId) with
    | some name, some slot =>
      if db.users.any fun r => r.id = accountId then
        let rows : List CharacterRow := ids.zipIdx.map fun (x, i) =>
          { id := seq.characters + i, name := name, ownerId := accountId, classId := x.1,
            raceId := x.2.1, gender := x.2.2, accountSlot := slot, level := 1 }
        some (rows.map (·.id), rows.map .insertCharacter,
          { seq with characters := seq.characters + ids.length })
      else none
    | _, _ => none

def initCharacterState (characterId : Int) : Outcome Unit :=
  if db.characterCurrentState.any fun r => r.characterId = characterId then some ((), [], seq)
  else some ((), [.insertState ⟨characterId, 1, 1⟩], seq)

def initCharacterPosition (characterId : Int) : Outcome Unit :=
  if db.zones.contains 1 then
    some ((), [.insertPosition ⟨seq.characterPosition, characterId, 0, 0, 200, 1⟩],
      { seq with characterPosition := seq.characterPosition + 1 })
  else none

/-- The rows inserted for the skills in turn, `ON CONFLICT DO NOTHING`. -/
def newSkillRows (characterId : Int) (taken : List Int) (next : Int) :
    List Int → List CharacterSkillRow
  | [] => []
  | skillId :: skillIds =>
    if taken.contains skillId then newSkillRows characterId taken (next + 1) skillIds
    else ⟨next, characterId, skillId, 1⟩ ::
      newSkillRows characterId (skillId :: taken) (next + 1) skillIds

def initCharacterDefaultSkills (characterId classId : Int) : Outcome Unit :=
  let skillIds := (db.classSkillTree.filter fun r => r.classId = classId && r.isDefault).map
    (·.skillId)
  let taken := (db.characterSkills.filter fun r => r.characterId = characterId).map (·.skillId)
  some ((), (newSkillRows characterId taken seq.characterSkills skillIds).map .insertSkill,
    { seq with characterSkills := seq.characterSkills + skillIds.length })

def getClassIdBySlug (slug : Bytes) : List Int :=
  ((db.characterClass.filter fun r => r.slug = some slug).take 1).map (·.id)

def initCharacterStarterItems (characterId classId : Int) : Outcome Unit :=
  let joined := (db.classStarterItems.filter fun csi => csi.classId = classId).flatMap fun csi =>
    (db.items.filter fun i => i.id = csi.itemId).map fun i => (csi, i)
  match joined.mapM fun x => integer (x.1.durabilityCurrent.getD x.2.durabilityMax) with
  | none => none
  | some durabilities =>
    let rows : List InventoryRow := (joined.zip durabilities).zipIdx.map fun ((x, d), i) =>
      { id := seq.playerInventory + i, characterId := some characterId, itemId := x.1.itemId,
        quantity := x.1.quantity, slotIndex := x.1.slotIndex, durabilityCurrent := some d }
    let own := db.playerInventory.filter fun r => r.characterId = some characterId
    -- `uq_inventory_slot`
    let slots : List Int := (own ++ rows).filterMap (·.slotIndex)
    if slots.Nodup then
      some ((), rows.map .insertItem,
        { seq with playerInventory := seq.playerInventory + rows.length })
    else none

def initCharacterStarterCurrencies (characterId classId : Int) : Outcome Unit :=
  some ((), (db.classStarterCurrencies.filter fun csc => csc.classId = classId).map fun csc =>
    if db.characterCurrencies.any fun r =>
        r.characterId = characterId && r.currencyId = csc.currencyId then
      .addCurrency characterId csc.currencyId csc.amount
    else .insertCurrency ⟨characterId, csc.currencyId, csc.amount⟩, seq)

def checkCharacterNameExists (f : SqlFunctions) (name : Bytes) : List Unit :=
  ((db.characters.filter fun c => f.lower c.name = f.lower name && c.deletedAt.isNone).take 1).map
    fun _ => ()

def getCharacterSlotCount (accountId : Int) : List Int :=
  [((db.liveCharacters accountId).length : Int)]

def deleteCharacter (characterId accountId : Int) : Outcome (List Int) :=
  let rows := db.characters.filter fun c =>
    c.id = characterId && c.ownerId = accountId && c.deletedAt.isNone
  some (rows.map (·.id), rows.map fun c => .softDelete c.id c.ownerId now, seq)

def checkLoginAvailable (f : SqlFunctions) (login : Bytes) : List Unit :=
  ((db.users.filter fun r => f.lower r.login = f.lower login).take 1).map fun _ => ()

def registerUser (login password email ip clientVersion : Bytes) : Outcome (List Int) :=
  match varchar 50 login, varchar 100 password, (nullIfEmpty email).mapM (varchar 255),
    varchar 32 clientVersion with
  | some login, some password, some email, some clientVersion =>
    some ([seq.users], [.insertUser
      { id := seq.users, login := login, password := password, lastLogin := now,
        email := email, registrationIp := some ip, clientVersion := some clientVersion }],
      { seq with users := seq.users + 1 })
  | _, _, _, _ => none

def Query.run (f : SqlFunctions) : (q : Query) → Outcome q.Rows
  | .searchUser login => some (db.searchUser now (upToNul login), [], seq)
  | .probeUserStatus login => some (db.probeUserStatus (upToNul login), [], seq)
  | .checkActiveBan userId => some (db.checkActiveBan now f userId, [], seq)
  | .incrementFailedLogins login => db.incrementFailedLogins now seq (upToNul login)
  | .resetFailedLogins userId ip clientVersion =>
    db.resetFailedLogins now seq userId (upToNul ip) (upToNul clientVersion)
  | .createUserSession userId tokenHash clientVersion =>
    db.createUserSession now seq userId (upToNul tokenHash) (upToNul clientVersion)
  | .cleanupExpiredSessions => db.cleanupExpiredSessions now seq
  | .revokeUserSessions userId => db.revokeUserSessions now seq userId
  | .getCharactersList accountId => some (db.getCharactersList accountId, [], seq)
  | .getCharacterEquipmentPreview characterId =>
    some (db.getCharacterEquipmentPreview characterId, [], seq)
  | .createCharacter accountId name classSlug raceSlug genderSlug =>
    db.createCharacter seq accountId (upToNul name) (upToNul classSlug) (upToNul raceSlug)
      (upToNul genderSlug)
  | .initCharacterState characterId => db.initCharacterState seq characterId
  | .initCharacterPosition characterId => db.initCharacterPosition seq characterId
  | .initCharacterDefaultSkills characterId classId =>
    db.initCharacterDefaultSkills seq characterId classId
  | .getClassIdBySlug slug => some (db.getClassIdBySlug (upToNul slug), [], seq)
  | .initCharacterStarterItems characterId classId =>
    db.initCharacterStarterItems seq characterId classId
  | .initCharacterStarterCurrencies characterId classId =>
    db.initCharacterStarterCurrencies seq characterId classId
  | .checkCharacterNameExists name => some (db.checkCharacterNameExists f (upToNul name), [], seq)
  | .getCharacterSlotCount accountId => some (db.getCharacterSlotCount accountId, [], seq)
  | .deleteCharacter characterId accountId => db.deleteCharacter now seq characterId accountId
  | .getCharacterClasses =>
    some (db.characterClass.insertionSort fun a b => a.id ≤ b.id, [], seq)
  | .getCharacterRaces => some (db.race.insertionSort fun a b => a.id ≤ b.id, [], seq)
  | .getCharacterGenders =>
    some (db.characterGenders.insertionSort fun a b => a.id ≤ b.id, [], seq)
  | .checkLoginAvailable login => some (db.checkLoginAvailable f (upToNul login), [], seq)
  | .registerUser login password email ip clientVersion =>
    Database.registerUser now seq (upToNul login) (upToNul password) (upToNul email) (upToNul ip)
      (upToNul clientVersion)

end Database

end LoginServer
