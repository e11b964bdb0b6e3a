import LoginServer.Database.Queries
import LoginServer.Transactions.Tables

/-!
# The keys of the schema

`Constraints` are the primary, foreign and unique keys of the dump on the tables behind
the characters. Under them the joins of `get_characters_list` and of
`get_character_equipment_preview` give one row for each character and for each piece of
equipment.
-/

namespace LoginServer

namespace Database

open Transactions

/-- The keys of the dump, under their names there. -/
structure Constraints (db : Database) : Prop where
  characters_pkey : (db.characters.map (·.id)).Nodup
  character_class_pkey : (db.characterClass.map (·.id)).Nodup
  race_pkey : (db.race.map (·.id)).Nodup
  player_inventory_pkey : (db.playerInventory.map (·.id)).Nodup
  items_pkey : (db.items.map (·.id)).Nodup
  characters_class_id_fkey : ∀ c ∈ db.characters, ∃ cc ∈ db.characterClass, cc.id = c.classId
  characters_race_id_fkey : ∀ c ∈ db.characters, ∃ r ∈ db.race, r.id = c.raceId
  character_equipment_inventory_item_id_fkey :
    ∀ ce ∈ db.characterEquipment, ∃ pi ∈ db.playerInventory, pi.id = ce.inventoryItemId
  player_inventory_item_id_fkey :
    ∀ pi ∈ db.playerInventory, ∃ i ∈ db.items, i.id = pi.itemId

/-- What a row of `get_characters_list` says of its character. -/
structure ListRowOf (db : Database) (c : CharacterRow) (row : CharacterListRow) : Prop where
  characterId : row.characterId = c.id
  characterLvl : row.characterLvl = c.level
  characterName : row.characterName = c.name
  accountSlot : row.accountSlot = c.accountSlot
  isOnline : row.isOnline = c.isOnline
  classSlug : ∃ cc ∈ db.characterClass, cc.id = c.classId ∧ row.classSlug = cc.slug
  raceSlug : ∃ r ∈ db.race, r.id = c.raceId ∧ row.raceSlug = r.slug
  genderSlug : row.genderSlug = (db.characterGenders.find? fun cg => cg.id = c.gender).map (·.name)

/-- The keys behind the joins of `get_characters_list`. -/
structure ListKeys (db : Database) : Prop where
  character_class_pkey : (db.characterClass.map (·.id)).Nodup
  race_pkey : (db.race.map (·.id)).Nodup
  characters_class_id_fkey : ∀ c ∈ db.characters, ∃ cc ∈ db.characterClass, cc.id = c.classId
  characters_race_id_fkey : ∀ c ∈ db.characters, ∃ r ∈ db.race, r.id = c.raceId

/-- The list has one row for each live character of the account, in slot order. -/
theorem ListKeys.getCharactersList_rows {db : Database} (hkeys : db.ListKeys) (accountId : Int) :
    ∃ cs : List CharacterRow, cs.Perm (db.liveCharacters accountId) ∧
      cs.Pairwise (fun c c' => c.accountSlot ≤ c'.accountSlot) ∧
      List.Forall₂ (ListRowOf db) cs (db.getCharactersList accountId) := by
  let bySlot := fun a b : CharacterListRow => a.accountSlot ≤ b.accountSlot
  have hsorted : ∀ g : CharacterRow → List CharacterListRow,
      (∀ c ∈ db.liveCharacters accountId, ∃ row, g c = [row] ∧ ListRowOf db c row) →
      ∃ cs : List CharacterRow, cs.Perm (db.liveCharacters accountId) ∧
        cs.Pairwise (fun c c' => c.accountSlot ≤ c'.accountSlot) ∧
        List.Forall₂ (ListRowOf db) cs
          (((db.liveCharacters accountId).flatMap g).insertionSort bySlot) := by
    intro g hg
    obtain ⟨cs, hperm, hcs⟩ := exists_perm_of_sort (forall₂_flatMap hg) bySlot
    have htotal : Std.Total bySlot := ⟨fun a b => le_total a.accountSlot b.accountSlot⟩
    have htrans : IsTrans _ bySlot := ⟨fun a b c => le_trans⟩
    refine ⟨cs, hperm, pairwise_of_forall₂ ?_ hcs (List.pairwise_insertionSort bySlot _), hcs⟩
    intro c c' row row' hrow hrow' hle
    rw [← hrow.accountSlot, ← hrow'.accountSlot]
    exact hle
  refine hsorted _ fun c hc => ?_
  have hc := List.mem_of_mem_filter hc
  obtain ⟨cc, hcc, hclass⟩ := hkeys.characters_class_id_fkey c hc
  obtain ⟨r, hr, hrace⟩ := hkeys.characters_race_id_fkey c hc
  rw [← hclass, ← hrace, filter_key hkeys.character_class_pkey hcc,
    filter_key hkeys.race_pkey hr]
  exact ⟨_, rfl, rfl, rfl, rfl, rfl, rfl, ⟨cc, hcc, hclass, rfl⟩, ⟨r, hr, hrace, rfl⟩, rfl⟩

theorem getCharactersList_rows {db : Database} (hkeys : db.Constraints) (accountId : Int) :
    ∃ cs : List CharacterRow, cs.Perm (db.liveCharacters accountId) ∧
      cs.Pairwise (fun c c' => c.accountSlot ≤ c'.accountSlot) ∧
      List.Forall₂ (ListRowOf db) cs (db.getCharactersList accountId) :=
  ListKeys.getCharactersList_rows ⟨hkeys.character_class_pkey, hkeys.race_pkey,
    hkeys.characters_class_id_fkey, hkeys.characters_race_id_fkey⟩ accountId

/-- The rows of `character_equipment` of a character. -/
def equipmentRows (db : Database) (characterId : Int) : List EquipmentRow :=
  db.characterEquipment.filter fun ce => ce.characterId = characterId

/-- What a row of `get_character_equipment_preview` says of a piece of equipment. -/
def PreviewOf (db : Database) (ce : EquipmentRow) (row : Int × Bytes) : Prop :=
  row.1 = ce.equipSlotId ∧ ∃ pi ∈ db.playerInventory, pi.id = ce.inventoryItemId ∧
    ∃ i ∈ db.items, i.id = pi.itemId ∧ row.2 = i.slug

/-- The preview has one row for each piece of equipment. -/
theorem getCharacterEquipmentPreview_rows {db : Database} (hkeys : db.Constraints)
    (characterId : Int) :
    ∃ ces : List EquipmentRow, ces.Perm (db.equipmentRows characterId) ∧
      List.Forall₂ (PreviewOf db) ces (db.getCharacterEquipmentPreview characterId) := by
  refine exists_perm_of_sort (forall₂_flatMap fun ce hce => ?_) _
  have hce := List.mem_of_mem_filter hce
  obtain ⟨pi, hpi, hinventory⟩ := hkeys.character_equipment_inventory_item_id_fkey ce hce
  obtain ⟨i, hi, hitem⟩ := hkeys.player_inventory_item_id_fkey pi hpi
  rw [← hinventory, filter_key hkeys.player_inventory_pkey hpi, List.flatMap_singleton, ← hitem,
    filter_key hkeys.items_pkey hi]
  exact ⟨_, rfl, rfl, pi, hpi, hinventory, i, hi, hitem, rfl⟩

end Database

/-! ## Slugs -/

open Database

/-- The slugs by which a creation selects its class, race and gender are unique. A class
may have none. -/
structure UniqueSlugs (db : Database) : Prop where
  classes : (db.characterClass.filterMap (·.slug)).Nodup
  races : (db.race.map (·.slug)).Nodup
  genders : (db.characterGenders.map (·.name)).Nodup

theorem length_filter_le_one {ρ κ : Type} [DecidableEq κ] {rows : List ρ} {key : ρ → κ}
    (h : (rows.map key).Nodup) (k : κ) : (rows.filter fun r => key r = k).length ≤ 1 := by
  have hcount := List.nodup_iff_count_le_one.mp h k
  rw [List.count_eq_countP, List.countP_map, List.countP_eq_length_filter] at hcount
  exact hcount

theorem length_filter_some_le_one {ρ κ : Type} [DecidableEq κ] {rows : List ρ}
    {key : ρ → Option κ} (h : (rows.filterMap key).Nodup) (k : κ) :
    (rows.filter fun r => key r = some k).length ≤ 1 := by
  have hcount := List.nodup_iff_count_le_one.mp h k
  rw [List.count_eq_countP, List.countP_filterMap, List.countP_eq_length_filter] at hcount
  refine le_trans (le_of_eq (congrArg List.length (List.filter_congr fun r _ => ?_))) hcount
  cases key r with
  | none => rfl
  | some k' => simp [beq_eq_decide]

theorem length_flatMap_le_one {α β : Type} {as : List α} {g : α → List β} (has : as.length ≤ 1)
    (hg : ∀ a, (g a).length ≤ 1) : (as.flatMap g).length ≤ 1 := by
  cases as with
  | nil => simp
  | cons a as =>
    obtain rfl : as = [] := List.eq_nil_of_length_eq_zero (by simpa using has)
    simpa using hg a

theorem UniqueSlugs.creationIds {db : Database} (h : UniqueSlugs db)
    (classSlug raceSlug genderSlug : Bytes) :
    (db.creationIds classSlug raceSlug genderSlug).length ≤ 1 := by
  refine length_flatMap_le_one (length_filter_some_le_one h.classes classSlug) fun cc => ?_
  refine length_flatMap_le_one (length_filter_le_one h.races raceSlug) fun r => ?_
  rw [List.length_map]
  exact length_filter_le_one h.genders genderSlug

/-- No write touches the tables that the slugs select from. -/
theorem UniqueSlugs.applyWrite {db : Database} (h : UniqueSlugs db) (w : Write) :
    UniqueSlugs (db.applyWrite w) := by
  cases w <;> exact ⟨h.classes, h.races, h.genders⟩

theorem UniqueSlugs.foldl {db : Database} (h : UniqueSlugs db) (ws : List Write) :
    UniqueSlugs (ws.foldl Database.applyWrite db) := by
  induction ws generalizing db with
  | nil => exact h
  | cons w ws ih => exact ih (h.applyWrite w)

end LoginServer
