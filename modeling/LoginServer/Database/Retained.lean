import LoginServer.Database.Schema
import LoginServer.Transactions.Growing

/-!
# What the statements leave in place

No statement of the server takes back what it has given to a player. `Retains db db'` is
the order of `Growing` on databases: accounts keep their id and credentials, characters
keep everything but that they may be marked as deleted, their states, positions, skills
and items stay as they are, a currency stays theirs, and the tables that describe the game
do not change. Sessions are left out: `cleanup_expired_sessions` deletes them.
-/

namespace LoginServer

open Transactions

namespace Database

/-- What every account keeps. -/
structure UserRow.Kept (r r' : UserRow) : Prop where
  id : r'.id = r.id
  login : r'.login = r.login
  password : r'.password = r.password
  email : r'.email = r.email
  role : r'.role = r.role
  isActive : r'.isActive = r.isActive
  registrationIp : r'.registrationIp = r.registrationIp

/-- A character changes in that it is deleted, and that for good. -/
structure CharacterRow.Kept (r r' : CharacterRow) : Prop where
  unchanged : r' = { r with deletedAt := r'.deletedAt }
  deleted : r.deletedAt.isSome → r'.deletedAt.isSome

structure CharacterCurrencyRow.Kept (r r' : CharacterCurrencyRow) : Prop where
  characterId : r'.characterId = r.characterId
  currencyId : r'.currencyId = r.currencyId

namespace UserRow.Kept

variable {r r' r'' : UserRow}

theorem refl (r : UserRow) : r.Kept r := ⟨rfl, rfl, rfl, rfl, rfl, rfl, rfl⟩

theorem trans (h : r.Kept r') (h' : r'.Kept r'') : r.Kept r'' where
  id := h'.id.trans h.id
  login := h'.login.trans h.login
  password := h'.password.trans h.password
  email := h'.email.trans h.email
  role := h'.role.trans h.role
  isActive := h'.isActive.trans h.isActive
  registrationIp := h'.registrationIp.trans h.registrationIp

end UserRow.Kept

namespace CharacterRow.Kept

variable {r r' r'' : CharacterRow}

theorem refl (r : CharacterRow) : r.Kept r := ⟨rfl, fun hdeleted => hdeleted⟩

theorem trans (h : r.Kept r') (h' : r'.Kept r'') : r.Kept r'' := by
  refine ⟨?_, fun hdeleted => h'.deleted (h.deleted hdeleted)⟩
  rw [h'.unchanged, h.unchanged]

end CharacterRow.Kept

namespace CharacterCurrencyRow.Kept

variable {r r' r'' : CharacterCurrencyRow}

theorem refl (r : CharacterCurrencyRow) : r.Kept r := ⟨rfl, rfl⟩

theorem trans (h : r.Kept r') (h' : r'.Kept r'') : r.Kept r'' :=
  ⟨h'.characterId.trans h.characterId, h'.currencyId.trans h.currencyId⟩

end CharacterCurrencyRow.Kept

/-- The tables that no statement of the server writes. -/
structure SameGame (db db' : Database) : Prop where
  userBans : db'.userBans = db.userBans
  characterClass : db'.characterClass = db.characterClass
  race : db'.race = db.race
  characterGenders : db'.characterGenders = db.characterGenders
  classSkillTree : db'.classSkillTree = db.classSkillTree
  items : db'.items = db.items
  classStarterItems : db'.classStarterItems = db.classStarterItems
  classStarterCurrencies : db'.classStarterCurrencies = db.classStarterCurrencies
  characterEquipment : db'.characterEquipment = db.characterEquipment
  zones : db'.zones = db.zones

theorem SameGame.refl (db : Database) : db.SameGame db :=
  ⟨rfl, rfl, rfl, rfl, rfl, rfl, rfl, rfl, rfl, rfl⟩

theorem SameGame.trans {db db' db'' : Database} (h : db.SameGame db') (h' : db'.SameGame db'') :
    db.SameGame db'' where
  userBans := h'.userBans.trans h.userBans
  characterClass := h'.characterClass.trans h.characterClass
  race := h'.race.trans h.race
  characterGenders := h'.characterGenders.trans h.characterGenders
  classSkillTree := h'.classSkillTree.trans h.classSkillTree
  items := h'.items.trans h.items
  classStarterItems := h'.classStarterItems.trans h.classStarterItems
  classStarterCurrencies := h'.classStarterCurrencies.trans h.classStarterCurrencies
  characterEquipment := h'.characterEquipment.trans h.characterEquipment
  zones := h'.zones.trans h.zones

structure Retains (db db' : Database) : Prop where
  users : Transactions.Kept UserRow.Kept db.users db'.users
  characters : Transactions.Kept CharacterRow.Kept db.characters db'.characters
  characterCurrentState : db.characterCurrentState <+: db'.characterCurrentState
  characterPosition : db.characterPosition <+: db'.characterPosition
  characterSkills : db.characterSkills <+: db'.characterSkills
  playerInventory : db.playerInventory <+: db'.playerInventory
  characterCurrencies :
    Transactions.Kept CharacterCurrencyRow.Kept db.characterCurrencies db'.characterCurrencies
  game : db.SameGame db'

theorem Retains.refl (db : Database) : db.Retains db where
  users := .refl UserRow.Kept.refl _
  characters := .refl CharacterRow.Kept.refl _
  characterCurrentState := List.prefix_refl _
  characterPosition := List.prefix_refl _
  characterSkills := List.prefix_refl _
  playerInventory := List.prefix_refl _
  characterCurrencies := .refl CharacterCurrencyRow.Kept.refl _
  game := .refl db

theorem Retains.trans {db db' db'' : Database} (h : db.Retains db') (h' : db'.Retains db'') :
    db.Retains db'' where
  users := h.users.trans (fun _ _ _ => UserRow.Kept.trans) h'.users
  characters := h.characters.trans (fun _ _ _ => CharacterRow.Kept.trans) h'.characters
  characterCurrentState := h.characterCurrentState.trans h'.characterCurrentState
  characterPosition := h.characterPosition.trans h'.characterPosition
  characterSkills := h.characterSkills.trans h'.characterSkills
  playerInventory := h.playerInventory.trans h'.playerInventory
  characterCurrencies :=
    h.characterCurrencies.trans (fun _ _ _ => CharacterCurrencyRow.Kept.trans)
      h'.characterCurrencies
  game := h.game.trans h'.game

/-- The rows that an update is for are changed as is permitted. -/
theorem kept_updateWhere {ρ : Type} {R : ρ → ρ → Prop} (hR : ∀ r, R r r) {p : ρ → Bool} {f : ρ → ρ}
    (hf : ∀ r, R r (f r)) (rows : List ρ) : Transactions.Kept R rows (updateWhere p f rows) := by
  refine Transactions.Kept.map (fun r => ?_) rows
  cases hp : p r with
  | true => exact hf r
  | false => exact hR r

theorem sameGame_applyWrite (db : Database) (w : Write) : db.SameGame (applyWrite db w) := by
  cases w <;> exact ⟨rfl, rfl, rfl, rfl, rfl, rfl, rfl, rfl, rfl, rfl⟩

theorem retains_applyWrite (db : Database) (w : Write) : db.Retains (applyWrite db w) := by
  have hgame := sameGame_applyWrite db w
  cases w with
  | insertUser row =>
    exact { Retains.refl db with users := .append UserRow.Kept.refl _ _, game := hgame }
  | setFailedLogins id attempts lockedUntil =>
    have husers : ∀ r : UserRow,
        r.Kept { r with failedLoginAttempts := attempts, lockedUntil := lockedUntil } :=
      fun r => ⟨rfl, rfl, rfl, rfl, rfl, rfl, rfl⟩
    exact { Retains.refl db with
      users := kept_updateWhere UserRow.Kept.refl husers db.users, game := hgame }
  | resetFailedLogins id now ip clientVersion =>
    have husers : ∀ r : UserRow, r.Kept { r with
        failedLoginAttempts := 0, lockedUntil := none, lastLogin := now,
        lastLoginIp := some ip, clientVersion := some clientVersion } :=
      fun r => ⟨rfl, rfl, rfl, rfl, rfl, rfl, rfl⟩
    exact { Retains.refl db with
      users := kept_updateWhere UserRow.Kept.refl husers db.users, game := hgame }
  | insertSession row => exact { Retains.refl db with game := hgame }
  | revokeSession id now => exact { Retains.refl db with game := hgame }
  | deleteSession id => exact { Retains.refl db with game := hgame }
  | insertCharacter row =>
    exact { Retains.refl db with
      characters := .append CharacterRow.Kept.refl _ _, game := hgame }
  | softDelete id ownerId now =>
    have hcharacters : ∀ r : CharacterRow, r.Kept { r with deletedAt := some now } :=
      fun r => ⟨rfl, fun _ => rfl⟩
    exact { Retains.refl db with
      characters := kept_updateWhere CharacterRow.Kept.refl hcharacters db.characters
      game := hgame }
  | insertState row =>
    exact { Retains.refl db with
      characterCurrentState := List.prefix_append _ _, game := hgame }
  | insertPosition row =>
    exact { Retains.refl db with characterPosition := List.prefix_append _ _, game := hgame }
  | insertSkill row =>
    exact { Retains.refl db with characterSkills := List.prefix_append _ _, game := hgame }
  | insertItem row =>
    exact { Retains.refl db with playerInventory := List.prefix_append _ _, game := hgame }
  | insertCurrency row =>
    exact { Retains.refl db with
      characterCurrencies := .append CharacterCurrencyRow.Kept.refl _ _, game := hgame }
  | addCurrency characterId currencyId amount =>
    have hcurrencies : ∀ r : CharacterCurrencyRow, r.Kept { r with amount := r.amount + amount } :=
      fun r => ⟨rfl, rfl⟩
    exact { Retains.refl db with
      characterCurrencies := kept_updateWhere CharacterCurrencyRow.Kept.refl hcurrencies _
      game := hgame }

theorem growing_retains : Growing writes Retains where
  refl := Retains.refl
  trans _ _ _ := Retains.trans
  apply := retains_applyWrite

/-! ## What a write leaves -/

namespace Write

/-- What a write has left is there: the row that it has inserted, or a character that it has
marked as deleted. Nothing is asked for a session, for a counter of failed logins and for an
amount, which later statements change or delete. -/
def StandsIn (db : Database) : Write → Prop
  | .insertUser row => ∃ r ∈ db.users, row.Kept r
  | .insertCharacter row => ∃ r ∈ db.characters, row.Kept r
  | .softDelete id ownerId _ =>
    ∃ r ∈ db.characters, r.id = id ∧ r.ownerId = ownerId ∧ r.deletedAt.isSome
  | .insertState row => row ∈ db.characterCurrentState
  | .insertPosition row => row ∈ db.characterPosition
  | .insertSkill row => row ∈ db.characterSkills
  | .insertItem row => row ∈ db.playerInventory
  | .insertCurrency row => ∃ r ∈ db.characterCurrencies, row.Kept r
  | .setFailedLogins _ _ _ | .resetFailedLogins _ _ _ _ | .insertSession _ | .revokeSession _ _
  | .deleteSession _ | .addCurrency _ _ _ => True

/-- The character that a write marks as deleted is there. -/
def FindsRow (db : Database) : Write → Prop
  | .softDelete id ownerId _ => ∃ r ∈ db.characters, r.id = id ∧ r.ownerId = ownerId
  | _ => True

variable {db db' : Database} {w : Write}

theorem StandsIn.retained (h : w.StandsIn db) (hretains : db.Retains db') : w.StandsIn db' := by
  cases w with
  | insertUser row =>
    obtain ⟨r, hr, hkept⟩ := h
    obtain ⟨r', hr', hkept'⟩ := hretains.users.exists_mem hr
    exact ⟨r', hr', hkept.trans hkept'⟩
  | insertCharacter row =>
    obtain ⟨r, hr, hkept⟩ := h
    obtain ⟨r', hr', hkept'⟩ := hretains.characters.exists_mem hr
    exact ⟨r', hr', hkept.trans hkept'⟩
  | softDelete id ownerId now =>
    obtain ⟨r, hr, hid, howner, hdeleted⟩ := h
    obtain ⟨r', hr', hkept⟩ := hretains.characters.exists_mem hr
    refine ⟨r', hr', ?_, ?_, hkept.deleted hdeleted⟩ <;> rw [hkept.unchanged]
    · exact hid
    · exact howner
  | insertState row => exact hretains.characterCurrentState.subset h
  | insertPosition row => exact hretains.characterPosition.subset h
  | insertSkill row => exact hretains.characterSkills.subset h
  | insertItem row => exact hretains.playerInventory.subset h
  | insertCurrency row =>
    obtain ⟨r, hr, hkept⟩ := h
    obtain ⟨r', hr', hkept'⟩ := hretains.characterCurrencies.exists_mem hr
    exact ⟨r', hr', hkept.trans hkept'⟩
  | _ => trivial

theorem FindsRow.retained (h : w.FindsRow db) (hretains : db.Retains db') : w.FindsRow db' := by
  cases w with
  | softDelete id ownerId now =>
    obtain ⟨r, hr, hid, howner⟩ := h
    obtain ⟨r', hr', hkept⟩ := hretains.characters.exists_mem hr
    refine ⟨r', hr', ?_, ?_⟩ <;> rw [hkept.unchanged]
    · exact hid
    · exact howner
  | _ => trivial

theorem standsIn_applyWrite (h : w.FindsRow db) : w.StandsIn (applyWrite db w) := by
  cases w with
  | insertUser row =>
    exact ⟨row, List.mem_append_right _ (List.mem_singleton_self _), .refl row⟩
  | insertCharacter row =>
    exact ⟨row, List.mem_append_right _ (List.mem_singleton_self _), .refl row⟩
  | softDelete id ownerId now =>
    obtain ⟨r, hr, hid, howner⟩ := h
    refine ⟨{ r with deletedAt := some now }, List.mem_map.mpr ⟨r, hr, ?_⟩, hid, howner, rfl⟩
    exact if_pos (decide_eq_true ⟨hid, howner⟩)
  | insertState row => exact List.mem_append_right _ (List.mem_singleton_self _)
  | insertPosition row => exact List.mem_append_right _ (List.mem_singleton_self _)
  | insertSkill row => exact List.mem_append_right _ (List.mem_singleton_self _)
  | insertItem row => exact List.mem_append_right _ (List.mem_singleton_self _)
  | insertCurrency row =>
    exact ⟨row, List.mem_append_right _ (List.mem_singleton_self _), .refl row⟩
  | _ => trivial

end Write

end Database

end LoginServer
