import LoginServer.Database.Constraints

/-!
# The rows of a new character

A creation inserts into six tables and changes nothing else: what its transaction sees is
always the database that it began with and some new rows (`insertRows`). One lemma for
each statement of `createCharacter` says which rows it adds when it does not fail.
-/

namespace LoginServer

namespace Database

open Transactions

structure CreationRows where
  characters : List CharacterRow := []
  characterCurrentState : List CharacterStateRow := []
  characterPosition : List CharacterPositionRow := []
  characterSkills : List CharacterSkillRow := []
  playerInventory : List InventoryRow := []
  characterCurrencies : List CharacterCurrencyRow := []

def insertRows (db : Database) (rows : CreationRows) : Database :=
  { db with
    characters := db.characters ++ rows.characters
    characterCurrentState := db.characterCurrentState ++ rows.characterCurrentState
    characterPosition := db.characterPosition ++ rows.characterPosition
    characterSkills := db.characterSkills ++ rows.characterSkills
    playerInventory := db.playerInventory ++ rows.playerInventory
    characterCurrencies := db.characterCurrencies ++ rows.characterCurrencies }

/-- The keys of the dump on the tables of a creation, under their names there, and the
identity column of `characters`, whose next value is above those given before. -/
structure CreationConstraints (db : Database) (seq : Sequences) : Prop where
  characters_id_seq : 1 ≤ seq.characters ∧ ∀ c ∈ db.characters, c.id < seq.characters
  fk_char_current_state :
    ∀ r ∈ db.characterCurrentState, ∃ c ∈ db.characters, c.id = r.characterId
  character_skills_character_id_fkey :
    ∀ r ∈ db.characterSkills, ∃ c ∈ db.characters, c.id = r.characterId
  character_currencies_character_id_fkey :
    ∀ r ∈ db.characterCurrencies, ∃ c ∈ db.characters, c.id = r.characterId
  items_pkey : (db.items.map (·.id)).Nodup
  class_starter_items_item_id_fkey :
    ∀ csi ∈ db.classStarterItems, ∃ i ∈ db.items, i.id = csi.itemId
  class_starter_currencies_pkey :
    (db.classStarterCurrencies.map fun csc => (csc.classId, csc.currencyId)).Nodup

/-- No row of the tables with a key on the character refers to it. -/
structure Unreferenced (db : Database) (characterId : Int) : Prop where
  characters : ∀ c ∈ db.characters, c.id ≠ characterId
  state : ∀ r ∈ db.characterCurrentState, r.characterId ≠ characterId
  skills : ∀ r ∈ db.characterSkills, r.characterId ≠ characterId
  currencies : ∀ r ∈ db.characterCurrencies, r.characterId ≠ characterId

theorem CreationConstraints.unreferenced {db : Database} {seq : Sequences}
    (h : db.CreationConstraints seq) : db.Unreferenced seq.characters := by
  have hrows : ∀ {ρ : Type} {rows : List ρ} {owner : ρ → Int},
      (∀ r ∈ rows, ∃ c ∈ db.characters, c.id = owner r) →
      ∀ r ∈ rows, owner r ≠ seq.characters := by
    intro ρ rows owner hfkey r hr
    obtain ⟨c, hc, hid⟩ := hfkey r hr
    have := h.characters_id_seq.2 c hc
    omega
  exact ⟨hrows fun c hc => ⟨c, hc, rfl⟩, hrows h.fk_char_current_state,
    hrows h.character_skills_character_id_fkey, hrows h.character_currencies_character_id_fkey⟩

/-! ## What a complete creation consists of -/

/-- The inventory row of a starter item. -/
def StarterItemOf (db : Database) (characterId : Int) (csi : StarterItemRow)
    (row : InventoryRow) : Prop :=
  row.characterId = some characterId ∧ row.itemId = csi.itemId ∧ row.quantity = csi.quantity ∧
    row.slotIndex = csi.slotIndex ∧ ∃ i ∈ db.items, i.id = csi.itemId ∧
      row.durabilityCurrent = some (csi.durabilityCurrent.getD i.durabilityMax)

/-- The rows that a class grants: one at level 1 for each default skill, one for each
starter item, one for each starter currency. -/
structure Granted (db : Database) (classId characterId : Int) (rows : CreationRows) : Prop where
  skill : ∀ skillId, (∃ r ∈ rows.characterSkills, r.skillId = skillId) ↔
    ∃ r ∈ db.classSkillTree, r.classId = classId ∧ r.isDefault = true ∧ r.skillId = skillId
  skill_nodup : (rows.characterSkills.map (·.skillId)).Nodup
  skill_level : ∀ r ∈ rows.characterSkills, r.characterId = characterId ∧ r.currentLevel = 1
  items : List.Forall₂ (StarterItemOf db characterId)
    (db.classStarterItems.filter fun csi => csi.classId = classId) rows.playerInventory
  currencies : rows.characterCurrencies =
    (db.classStarterCurrencies.filter fun csc => csc.classId = classId).map fun csc =>
      ⟨characterId, csc.currencyId, csc.amount⟩

structure NotGranted (rows : CreationRows) : Prop where
  skills : rows.characterSkills = []
  items : rows.playerInventory = []
  currencies : rows.characterCurrencies = []

/-- The rows of a new character of class `cc`, without what the class grants. -/
structure NewCharacter (db : Database) (accountId : Int)
    (name classSlug raceSlug genderSlug : Bytes) (characterId : Int) (cc : CharacterClassRow)
    (rows : CreationRows) : Prop where
  new_id : ∀ c ∈ db.characters, c.id ≠ characterId
  class_slug : cc ∈ db.characterClass ∧ cc.slug = some classSlug
  character : ∃ r ∈ db.race, r.slug = raceSlug ∧ ∃ cg ∈ db.characterGenders,
    cg.name = genderSlug ∧ ∃ slot, rows.characters = [
      { id := characterId, name := name, ownerId := accountId, classId := cc.id, raceId := r.id,
        gender := cg.id, accountSlot := slot, level := 1 }]
  state : rows.characterCurrentState = [⟨characterId, 1, 1⟩]
  position : ∃ id, rows.characterPosition = [⟨id, characterId, 0, 0, 200, 1⟩]

/-! ## The statements -/

section Statements

variable {f : SqlFunctions} {db : Database} {rows : CreationRows} {now : Time}
  {seq seq' : Sequences} {characterId classId : Int} {ws : List Write}

/-- Inserting rows one by one. -/
theorem foldl_insert {ρ : Type} {insert : ρ → Write} (add : Database → List ρ → Database)
    (hnil : ∀ db, add db [] = db)
    (hcons : ∀ db r rs, add (applyWrite db (insert r)) rs = add db (r :: rs)) (db : Database)
    (rs : List ρ) : (rs.map insert).foldl applyWrite db = add db rs := by
  induction rs generalizing db with
  | nil => exact (hnil db).symm
  | cons r rs ih => rw [List.map_cons, List.foldl_cons, ih, hcons]

theorem insertRows_character (row : CharacterRow) :
    [Write.insertCharacter row].foldl applyWrite db = db.insertRows { characters := [row] } := by
  simp [insertRows, applyWrite]

theorem insertRows_skills (hrows : rows.characterSkills = []) (skills : List CharacterSkillRow) :
    (skills.map Write.insertSkill).foldl applyWrite (db.insertRows rows) =
      db.insertRows { rows with characterSkills := skills } := by
  rw [foldl_insert (fun db rs => { db with characterSkills := db.characterSkills ++ rs })
    (by simp) (by simp [applyWrite])]
  simp [insertRows, hrows]

theorem insertRows_items (hrows : rows.playerInventory = []) (items : List InventoryRow) :
    (items.map Write.insertItem).foldl applyWrite (db.insertRows rows) =
      db.insertRows { rows with playerInventory := items } := by
  rw [foldl_insert (fun db rs => { db with playerInventory := db.playerInventory ++ rs })
    (by simp) (by simp [applyWrite])]
  simp [insertRows, hrows]

theorem insertRows_currencies (hrows : rows.characterCurrencies = [])
    (currencies : List CharacterCurrencyRow) :
    (currencies.map Write.insertCurrency).foldl applyWrite (db.insertRows rows) =
      db.insertRows { rows with characterCurrencies := currencies } := by
  rw [foldl_insert (fun db rs => { db with characterCurrencies := db.characterCurrencies ++ rs })
    (by simp) (by simp [applyWrite])]
  simp [insertRows, hrows]

theorem run_initCharacterState {u : Unit} (hnew : db.Unreferenced characterId)
    (hrows : rows.characterCurrentState = [])
    (h : (Query.initCharacterState characterId).run (db.insertRows rows) now seq f =
      some (u, ws, seq')) :
    ws.foldl applyWrite (db.insertRows rows) =
      db.insertRows { rows with characterCurrentState := [⟨characterId, 1, 1⟩] } := by
  have hfree : (db.insertRows rows).characterCurrentState.any
      (fun r => r.characterId = characterId) = false := by
    rw [insertRows, hrows, List.append_nil, List.any_eq_false]
    intro r hr
    simpa using hnew.state r hr
  simp only [Query.run, initCharacterState, hfree] at h
  cases h
  simp [insertRows, applyWrite, hrows]

theorem run_initCharacterPosition {u : Unit} (hrows : rows.characterPosition = [])
    (h : (Query.initCharacterPosition characterId).run (db.insertRows rows) now seq f =
      some (u, ws, seq')) :
    ∃ id, ws.foldl applyWrite (db.insertRows rows) =
      db.insertRows { rows with characterPosition := [⟨id, characterId, 0, 0, 200, 1⟩] } := by
  simp only [Query.run, initCharacterPosition] at h
  split_ifs at h
  cases h
  exact ⟨seq.characterPosition, by simp [insertRows, applyWrite, hrows]⟩

/-! ### The character and its class -/

theorem mem_creationIds {classSlug raceSlug genderSlug : Bytes} {x : Int × Int × Int}
    (h : x ∈ db.creationIds classSlug raceSlug genderSlug) :
    ∃ cc ∈ db.characterClass, cc.slug = some classSlug ∧ ∃ r ∈ db.race, r.slug = raceSlug ∧
      ∃ cg ∈ db.characterGenders, cg.name = genderSlug ∧ x = (cc.id, r.id, cg.id) := by
  simp only [creationIds, List.mem_flatMap, List.mem_map, List.mem_filter,
    decide_eq_true_eq] at h
  obtain ⟨cc, ⟨hcc, hclass⟩, r, ⟨hr, hrace⟩, cg, ⟨hcg, hgender⟩, rfl⟩ := h
  exact ⟨cc, hcc, hclass, r, hr, hrace, cg, hcg, hgender, rfl⟩

/-- With unique slugs `create_character` inserts one row, or none. -/
theorem run_createCharacter_row {accountId : Int} {name classSlug raceSlug genderSlug : Bytes}
    {ids : List Int} (hslugs : UniqueSlugs db) (hverbatim : Verbatim 20 name)
    (h : (Query.createCharacter accountId name classSlug raceSlug genderSlug).run db now seq f =
      some (ids, ws, seq')) :
    (ids = [] ∧ ws = []) ∨
    ∃ cc ∈ db.characterClass, cc.slug = some (upToNul classSlug) ∧
      ∃ r ∈ db.race, r.slug = upToNul raceSlug ∧
      ∃ cg ∈ db.characterGenders, cg.name = upToNul genderSlug ∧ ids = [seq.characters] ∧
      ws = [.insertCharacter {
        id := seq.characters, name := name, ownerId := accountId, classId := cc.id,
        raceId := r.id, gender := cg.id, accountSlot := db.nextAccountSlot accountId,
        level := 1 }] := by
  have hone := hslugs.creationIds (upToNul classSlug) (upToNul raceSlug) (upToNul genderSlug)
  simp only [Query.run, createCharacter, hverbatim.upToNul,
    hverbatim.varchar (Nat.le_refl 20)] at h
  split at h
  next =>
    cases h
    exact Or.inl ⟨rfl, rfl⟩
  next hselected =>
    obtain ⟨x, hx⟩ : ∃ x, db.creationIds (upToNul classSlug) (upToNul raceSlug)
        (upToNul genderSlug) = [x] := by
      refine List.length_eq_one_iff.mp (Nat.le_antisymm hone ?_)
      exact List.length_pos_iff.mpr hselected
    obtain ⟨cc, hcc, hclass, r, hr, hrace, cg, hcg, hgender, heq⟩ :=
      mem_creationIds (hx ▸ List.mem_singleton_self x)
    subst heq
    rw [hx] at h
    split at h
    next slot hname hslot =>
      cases hname
      obtain rfl := smallint_eq_some hslot
      split_ifs at h
      cases h
      refine Or.inr ⟨cc, hcc, hclass, r, hr, hrace, cg, hcg, hgender, ?_, ?_⟩ <;> simp
    next => cases h

theorem getClassIdBySlug_eq (db : Database) {classSlug : Bytes} {cc : CharacterClassRow}
    (hslugs : UniqueSlugs db) (hcc : cc ∈ db.characterClass) (hclass : cc.slug = some classSlug) :
    db.getClassIdBySlug classSlug = [cc.id] := by
  have hone := length_filter_some_le_one hslugs.classes classSlug
  have hmem : cc ∈ db.characterClass.filter fun r => r.slug = some classSlug :=
    List.mem_filter.mpr ⟨hcc, by simpa using hclass⟩
  obtain ⟨x, hx⟩ := List.length_eq_one_iff.mp
    (Nat.le_antisymm hone (List.length_pos_of_mem hmem))
  rw [hx] at hmem
  rw [getClassIdBySlug, hx, List.mem_singleton.mp hmem]
  rfl

theorem run_getClassIdBySlug {classSlug : Bytes} {cc : CharacterClassRow} {ids : List Int}
    (hslugs : UniqueSlugs db) (hcc : cc ∈ db.characterClass)
    (hclass : cc.slug = some (upToNul classSlug))
    (h : (Query.getClassIdBySlug classSlug).run (db.insertRows rows) now seq f =
      some (ids, ws, seq')) :
    ids = [cc.id] ∧ ws.foldl applyWrite (db.insertRows rows) = db.insertRows rows := by
  cases h
  exact ⟨getClassIdBySlug_eq (db.insertRows rows) ⟨hslugs.1, hslugs.2, hslugs.3⟩ hcc hclass, rfl⟩

/-! ### Default skills -/

theorem mem_newSkillRows {taken skillIds : List Int} {next : Int} {r : CharacterSkillRow}
    (h : r ∈ newSkillRows characterId taken next skillIds) :
    r.characterId = characterId ∧ r.currentLevel = 1 ∧ r.skillId ∉ taken := by
  induction skillIds generalizing taken next with
  | nil => cases h
  | cons skillId skillIds ih =>
    unfold newSkillRows at h
    split at h
    next => exact ih h
    next hfree =>
      rcases List.mem_cons.mp h with rfl | h
      · exact ⟨rfl, rfl, by simpa using hfree⟩
      · obtain ⟨hid, hlevel, htaken⟩ := ih h
        exact ⟨hid, hlevel, fun hmem => htaken (List.mem_cons_of_mem _ hmem)⟩

theorem exists_newSkillRows {taken skillIds : List Int} {next skillId : Int} :
    (∃ r ∈ newSkillRows characterId taken next skillIds, r.skillId = skillId) ↔
      skillId ∈ skillIds ∧ skillId ∉ taken := by
  constructor
  · rintro ⟨r, hr, rfl⟩
    refine ⟨?_, (mem_newSkillRows hr).2.2⟩
    induction skillIds generalizing taken next with
    | nil => cases hr
    | cons skillId skillIds ih =>
      unfold newSkillRows at hr
      split at hr
      · exact List.mem_cons_of_mem _ (ih hr)
      · rcases List.mem_cons.mp hr with rfl | hr
        · exact List.mem_cons_self
        · exact List.mem_cons_of_mem _ (ih hr)
  · rintro ⟨hmem, hfree⟩
    induction skillIds generalizing taken next with
    | nil => cases hmem
    | cons skillId' skillIds ih =>
      unfold newSkillRows
      by_cases heq : skillId = skillId'
      · subst heq
        rw [if_neg (by simpa using hfree)]
        exact ⟨_, List.mem_cons_self, rfl⟩
      · have hmem := (List.mem_cons.mp hmem).resolve_left heq
        split
        · exact ih hmem hfree
        · have hlater : ∃ r ∈ newSkillRows characterId (skillId' :: taken) (next + 1) skillIds,
              r.skillId = skillId := ih hmem (by simpa [heq] using hfree)
          obtain ⟨r, hr, hskill⟩ := hlater
          exact ⟨r, List.mem_cons_of_mem _ hr, hskill⟩

theorem nodup_newSkillRows (characterId : Int) (taken skillIds : List Int) (next : Int) :
    ((newSkillRows characterId taken next skillIds).map (·.skillId)).Nodup := by
  induction skillIds generalizing taken next with
  | nil => exact List.nodup_nil
  | cons skillId skillIds ih =>
    unfold newSkillRows
    split
    · exact ih taken (next + 1)
    · refine List.nodup_cons.mpr ⟨?_, ih (skillId :: taken) (next + 1)⟩
      intro hmem
      obtain ⟨r, hr, heq⟩ := List.mem_map.mp hmem
      refine (mem_newSkillRows hr).2.2 ?_
      rw [heq]
      exact List.mem_cons_self

theorem run_initCharacterDefaultSkills {u : Unit} (hnew : db.Unreferenced characterId)
    (hrows : rows.characterSkills = [])
    (h : (Query.initCharacterDefaultSkills characterId classId).run (db.insertRows rows) now seq f =
      some (u, ws, seq')) :
    ∃ skills : List CharacterSkillRow,
      ws.foldl applyWrite (db.insertRows rows) =
        db.insertRows { rows with characterSkills := skills } ∧
      (∀ skillId, (∃ r ∈ skills, r.skillId = skillId) ↔ ∃ r ∈ db.classSkillTree,
        r.classId = classId ∧ r.isDefault = true ∧ r.skillId = skillId) ∧
      (skills.map (·.skillId)).Nodup ∧
      ∀ r ∈ skills, r.characterId = characterId ∧ r.currentLevel = 1 := by
  have hfree : (db.insertRows rows).characterSkills.filter
      (fun r => r.characterId = characterId) = [] := by
    rw [insertRows, hrows, List.append_nil, List.filter_eq_nil_iff]
    intro r hr
    simpa using hnew.skills r hr
  simp only [Query.run, initCharacterDefaultSkills, hfree, List.map_nil] at h
  cases h
  refine ⟨_, insertRows_skills hrows _, fun skillId => ?_, nodup_newSkillRows .., fun r hr => ?_⟩
  · rw [exists_newSkillRows]
    simp [insertRows, and_assoc]
  · exact ⟨(mem_newSkillRows hr).1, (mem_newSkillRows hr).2.1⟩

/-! ### Starter items -/

/-- The join of the starter items with their items. -/
theorem forall₂_starterItems (hkeys : db.CreationConstraints seq) (classId : Int) :
    List.Forall₂ (fun csi (x : StarterItemRow × ItemRow) =>
        x.1 = csi ∧ x.2 ∈ db.items ∧ x.2.id = csi.itemId)
      (db.classStarterItems.filter fun csi => csi.classId = classId)
      ((db.classStarterItems.filter fun csi => csi.classId = classId).flatMap fun csi =>
        (db.items.filter fun i => i.id = csi.itemId).map fun i => (csi, i)) := by
  refine forall₂_flatMap fun csi hcsi => ?_
  obtain ⟨i, hi, hid⟩ := hkeys.class_starter_items_item_id_fkey csi (List.mem_of_mem_filter hcsi)
  refine ⟨(csi, i), ?_, rfl, hi, hid⟩
  rw [← hid, filter_key hkeys.items_pkey hi, List.map_singleton]

/-- Numbering the rows of a statement from `nextval`. -/
theorem forall₂_numbered {α β : Type} {as : List α} {P : α → β → Prop}
    {number : α × Nat → β} (hnumber : ∀ a i, P a (number (a, i))) (n : Nat) :
    List.Forall₂ P as ((as.zipIdx n).map number) := by
  induction as generalizing n with
  | nil => exact .nil
  | cons a as ih => exact .cons (hnumber a n) (ih (n + 1))

theorem forall₂_zip_self {α β : Type} {P : α → β → Prop} {as : List α} {bs : List β}
    (h : List.Forall₂ P as bs) :
    List.Forall₂ (fun a (x : α × β) => x.1 = a ∧ P a x.2) as (as.zip bs) := by
  induction h with
  | nil => exact .nil
  | cons hab _ ih => exact .cons ⟨rfl, hab⟩ ih

/-- The inventory row of a starter item with the durability `x.2`. -/
def ItemRowOf (characterId : Int) (x : (StarterItemRow × ItemRow) × Int) (row : InventoryRow) :
    Prop :=
  row.characterId = some characterId ∧ row.itemId = x.1.1.itemId ∧
    row.quantity = x.1.1.quantity ∧ row.slotIndex = x.1.1.slotIndex ∧
    row.durabilityCurrent = some x.2

theorem run_initCharacterStarterItems {u : Unit} {seq₀ : Sequences}
    (hkeys : db.CreationConstraints seq₀) (hrows : rows.playerInventory = [])
    (h : (Query.initCharacterStarterItems characterId classId).run (db.insertRows rows) now seq f =
      some (u, ws, seq')) :
    ∃ items : List InventoryRow,
      ws.foldl applyWrite (db.insertRows rows) =
        db.insertRows { rows with playerInventory := items } ∧
      List.Forall₂ (StarterItemOf db characterId)
        (db.classStarterItems.filter fun csi => csi.classId = classId) items := by
  simp only [Query.run, initCharacterStarterItems] at h
  split at h
  next => cases h
  next durabilities hdurabilities =>
    split_ifs at h
    cases h
    refine ⟨_, insertRows_items hrows _, ?_⟩
    have hjoin := forall₂_starterItems hkeys classId
    have hdurability := forall₂_zip_self (forall₂_of_mapM hdurabilities)
    refine forall₂_trans ?_ hjoin (forall₂_trans (R := fun x row => ∃ d,
        integer (x.1.durabilityCurrent.getD x.2.durabilityMax) = some d ∧
          ItemRowOf characterId (x, d) row)
      (fun x y row hxy hrow => ⟨y.2, hxy.2, hxy.1 ▸ hrow⟩) hdurability
      (forall₂_numbered (fun x n => ?_) 0))
    swap
    · exact ⟨rfl, rfl, rfl, rfl, rfl⟩
    rintro csi x row ⟨rfl, hi, hid⟩ ⟨d, hd, hcharacter, hitem, hquantity, hslot, hcurrent⟩
    refine ⟨hcharacter, hitem, hquantity, hslot, x.2, hi, hid, ?_⟩
    rw [hcurrent, integer_eq_some hd]

/-! ### Starter currencies -/

theorem run_initCharacterStarterCurrencies {u : Unit} (hnew : db.Unreferenced characterId)
    (hrows : rows.characterCurrencies = [])
    (h : (Query.initCharacterStarterCurrencies characterId classId).run (db.insertRows rows) now
      seq f = some (u, ws, seq')) :
    ws.foldl applyWrite (db.insertRows rows) =
      db.insertRows { rows with
        characterCurrencies :=
          (db.classStarterCurrencies.filter fun csc => csc.classId = classId).map fun csc =>
            ⟨characterId, csc.currencyId, csc.amount⟩ } := by
  have hfree : ∀ currencyId, (db.insertRows rows).characterCurrencies.any
      (fun r => r.characterId = characterId && r.currencyId = currencyId) = false := by
    intro currencyId
    rw [insertRows, hrows, List.append_nil, List.any_eq_false]
    intro r hr
    simpa using fun heq => absurd heq (hnew.currencies r hr)
  simp only [Query.run, initCharacterStarterCurrencies, hfree] at h
  cases h
  have hmap : ∀ rs : List StarterCurrencyRow,
      (rs.map fun csc => Write.insertCurrency ⟨characterId, csc.currencyId, csc.amount⟩) =
        (rs.map fun csc => (⟨characterId, csc.currencyId, csc.amount⟩ :
          CharacterCurrencyRow)).map Write.insertCurrency := by
    intro rs
    rw [List.map_map]
    rfl
  simp only [Bool.false_eq_true, if_false]
  rw [hmap]
  exact insertRows_currencies hrows _

end Statements

end Database

end LoginServer
