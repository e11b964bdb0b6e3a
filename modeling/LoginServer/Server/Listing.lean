import LoginServer.Database.Constraints
import LoginServer.Events.EventHandler

/-!
# What a list of characters shows

`shownEntries` is what the list handler answers when some of its transactions have
delivered their rows and the others have failed: it cannot tell a failure from an empty
result, and a row that does not convert ends its loop. `listsExactly_iff` says when the
answer is nevertheless the list of the account.
-/

namespace LoginServer

open Database CharacterManager Transactions

/-! ## Loops that end at the first conversion error -/

section Convert

variable {α β : Type} {f : α → Option β} {as : List α}

def convertWhile (f : α → Option β) : List α → List β
  | [] => []
  | a :: as =>
    match f a with
    | some b => b :: convertWhile f as
    | none => []

/-- Nothing is missing only if everything converts. -/
theorem isSome_of_length_convertWhile (hlength : (convertWhile f as).length = as.length) :
    ∀ a ∈ as, (f a).isSome := by
  induction as with
  | nil => exact fun a ha => absurd ha List.not_mem_nil
  | cons a as ih =>
    unfold convertWhile at hlength
    split at hlength
    · rename_i b hb
      exact List.forall_mem_cons.mpr ⟨Option.isSome_of_eq_some hb, ih (Nat.succ.inj hlength)⟩
    · cases hlength

theorem forall₂_convertWhile (hsome : ∀ a ∈ as, (f a).isSome) :
    List.Forall₂ (fun a b => f a = some b) as (convertWhile f as) := by
  induction as with
  | nil => exact .nil
  | cons a as ih =>
    obtain ⟨ha, hsome⟩ := List.forall_mem_cons.mp hsome
    obtain ⟨b, hb⟩ := Option.isSome_iff_exists.mp ha
    rw [convertWhile, hb]
    exact .cons hb (ih hsome)

theorem map_convertWhile_sublist {γ : Type} {g : β → γ} {k : α → γ}
    (hf : ∀ a b, f a = some b → g b = k a) :
    ((convertWhile f as).map g).Sublist (as.map k) := by
  induction as with
  | nil => exact List.Sublist.refl _
  | cons a as ih =>
    unfold convertWhile
    split
    · rename_i b hb
      rw [List.map_cons, List.map_cons, hf a b hb]
      exact ih.cons_cons _
    · exact List.nil_sublist _

end Convert

/-- The conversions of a row of the list. -/
def convertRow (row : CharacterListRow) : Option CharacterDataStruct := do
  let characterId ← integer row.characterId
  let characterLevel ← integer row.characterLvl
  let characterClass ← row.classSlug
  let experiencePoints ← integer row.experiencePoints
  let currentHealth ← integer row.currentHealth
  let currentMana ← integer row.currentMana
  return {
    characterId := characterId, characterLevel := characterLevel,
    characterName := row.characterName, characterClass := characterClass,
    characterRace := row.raceSlug, characterGender := row.genderSlug.getD [],
    characterExperiencePoints := experiencePoints, isOnline := row.isOnline,
    characterCurrentHealth := currentHealth, characterCurrentMana := currentMana }

theorem convertRow_characterId {row : CharacterListRow} {character : CharacterDataStruct}
    (hconvert : convertRow row = some character) : character.characterId = row.characterId := by
  simp only [convertRow, Option.bind_eq_bind, Option.bind_eq_some_iff] at hconvert
  obtain ⟨characterId, hid, level, -, classSlug, -, points, -, health, -, mana, -, heq⟩ := hconvert
  cases heq
  exact integer_eq_some hid

theorem getCharactersListRow_eq (row : CharacterListRow) :
    getCharactersListRow row = orThrow (convertRow row) := by
  unfold getCharactersListRow convertRow asInt asString
  cases integer row.characterId <;> try rfl
  cases integer row.characterLvl <;> try rfl
  cases row.classSlug <;> try rfl
  cases integer row.experiencePoints <;> try rfl
  cases integer row.currentHealth <;> try rfl
  cases integer row.currentMana <;> rfl

theorem getCharactersListLoop_eq (charactersList : List CharacterDataStruct)
    (rows : List CharacterListRow) :
    ∃ complete, getCharactersListLoop charactersList rows =
      pure (charactersList ++ convertWhile convertRow rows, complete) := by
  induction rows generalizing charactersList with
  | nil => exact ⟨true, by rw [convertWhile, List.append_nil]; rfl⟩
  | cons row rows ih =>
    unfold getCharactersListLoop convertWhile
    rw [getCharactersListRow_eq]
    cases convertRow row with
    | none => exact ⟨false, by rw [List.append_nil]; rfl⟩
    | some character =>
      obtain ⟨complete, heq⟩ := ih (charactersList ++ [character])
      refine ⟨complete, ?_⟩
      rw [List.append_assoc] at heq
      exact heq

theorem equipmentItems_eq (rows : List (Int × Bytes)) :
    equipmentItems rows =
      convertWhile (fun row => (integer row.1).map fun slotId => ⟨slotId, row.2⟩) rows := by
  induction rows with
  | nil => rfl
  | cons row rows ih =>
    unfold equipmentItems convertWhile
    cases integer row.1 with
    | none => rfl
    | some slotId => exact congrArg (List.cons _) ih

/-! ## The answer -/

/-- The items are the equipment of the character, row by row. -/
def EquipmentExact (db : Database) (characterId : Int) (equip : List EquipmentPreviewItemStruct) :
    Prop :=
  ∃ ces : List EquipmentRow, ces.Perm (db.equipmentRows characterId) ∧
    List.Forall₂ (fun ce item => PreviewOf db ce (item.slotId, item.itemSlug)) ces equip

/-- The entry is that of the character. -/
def Shows (db : Database) (c : CharacterRow) (entry : Json) : Prop :=
  ∃ character equip, entry = EventHandler.characterJson character equip ∧
    character.characterId = c.id ∧ character.characterName = c.name ∧
    character.characterLevel = c.level ∧ character.isOnline = c.isOnline ∧
    (∃ cc ∈ db.characterClass, cc.id = c.classId ∧ cc.slug = some character.characterClass) ∧
    (∃ r ∈ db.race, r.id = c.raceId ∧ r.slug = character.characterRace) ∧
    EquipmentExact db c.id equip

/-- The entries are exactly the account's characters with `deleted_at IS NULL`, in
`account_slot` order. -/
def ListsExactly (db : Database) (accountId : Int) (entries : List Json) : Prop :=
  ∃ cs : List CharacterRow, cs.Perm (db.liveCharacters accountId) ∧
    cs.Pairwise (fun c c' => c.accountSlot ≤ c'.accountSlot) ∧ List.Forall₂ (Shows db) cs entries

/-- What `getCharactersList` returns, if its statement has delivered the rows or not. -/
def shownCharacters (db : Database) (accountId : Int) (listed : Bool) :
    List CharacterDataStruct :=
  if listed then convertWhile convertRow (db.getCharactersList accountId) else []

/-- What `getCharacterEquipmentPreview` returns. -/
def shownEquipment (db : Database) (delivered : List Int) (characterId : Int) :
    List EquipmentPreviewItemStruct :=
  if characterId ∈ delivered then equipmentItems (db.getCharacterEquipmentPreview characterId)
  else []

def shownEntries (db : Database) (accountId : Int) (listed : Bool) (delivered : List Int) :
    List Json :=
  (shownCharacters db accountId listed).map fun character =>
    EventHandler.characterJson character (shownEquipment db delivered character.characterId)

/-- Every failure has lost nothing: the list was delivered or is empty, every row of it
converts, and so it is with the equipment of each character. -/
structure NothingLost (db : Database) (accountId : Int) (listed : Bool) (delivered : List Int) :
    Prop where
  listed : listed = true ∨ db.liveCharacters accountId = []
  converts : ∀ row ∈ db.getCharactersList accountId, (convertRow row).isSome
  delivered : ∀ c ∈ db.liveCharacters accountId, c.id ∈ delivered ∨ db.equipmentRows c.id = []
  slots : ∀ c ∈ db.liveCharacters accountId, ∀ ce ∈ db.equipmentRows c.id,
    (integer ce.equipSlotId).isSome

section Exact

variable {db : Database} {accountId : Int} {listed : Bool} {delivered : List Int}

theorem characterJson_inj {character character' : CharacterDataStruct}
    {equip equip' : List EquipmentPreviewItemStruct}
    (h : EventHandler.characterJson character equip =
      EventHandler.characterJson character' equip') :
    character.characterId = character'.characterId ∧ equip = equip' := by
  simp only [EventHandler.characterJson, Json.object.injEq, List.cons.injEq, Prod.mk.injEq,
    Json.number.injEq, Json.array.injEq, true_and, and_true] at h
  obtain ⟨hid, -, -, -, -, -, -, hequip⟩ := h
  refine ⟨hid, List.map_injective_iff.mpr (fun item item' hitem => ?_) hequip⟩
  simp only [Json.object.injEq, List.cons.injEq, Prod.mk.injEq, Json.number.injEq,
    Json.string.injEq, true_and, and_true] at hitem
  cases item
  cases item'
  simp only [EquipmentPreviewItemStruct.mk.injEq]
  exact hitem

/-- No character is shown twice. -/
theorem shownCharacters_nodup (hkeys : db.Constraints) :
    ((shownCharacters db accountId listed).map (·.characterId)).Nodup := by
  obtain ⟨cs, hperm, -, hcs⟩ := getCharactersList_rows hkeys accountId
  have hrows : (db.getCharactersList accountId).map (·.characterId) = cs.map (·.id) := by
    rw [← List.forall₂_eq_eq_eq, List.forall₂_map_left_iff, List.forall₂_map_right_iff]
    exact hcs.flip.imp fun row c hrow => hrow.characterId
  have hnodup : (cs.map (·.id)).Nodup := by
    refine ((hperm.map _).nodup_iff).mpr ?_
    exact hkeys.characters_pkey.sublist (List.filter_sublist.map _)
  rw [← hrows] at hnodup
  cases listed with
  | false => exact List.nodup_nil
  | true => exact hnodup.sublist (map_convertWhile_sublist fun row character hconvert =>
      (convertRow_characterId hconvert))

theorem previewConverts {ce : EquipmentRow} {row : Int × Bytes} (hrow : PreviewOf db ce row) :
    ((integer row.1).map fun slotId => EquipmentPreviewItemStruct.mk slotId row.2).isSome =
      (integer ce.equipSlotId).isSome := by
  rw [Option.isSome_map, hrow.1]

/-- Equipment is shown as it is if it was delivered, with all its slots, or if there is
none. -/
theorem equipmentExact_iff (hkeys : db.Constraints) (characterId : Int) :
    EquipmentExact db characterId (shownEquipment db delivered characterId) ↔
      (characterId ∈ delivered ∨ db.equipmentRows characterId = []) ∧
        ∀ ce ∈ db.equipmentRows characterId, (integer ce.equipSlotId).isSome := by
  obtain ⟨ces, hperm, hces⟩ := getCharacterEquipmentPreview_rows hkeys characterId
  have hlength := hperm.length_eq.symm.trans hces.length_eq
  by_cases hdelivered : characterId ∈ delivered
  · rw [shownEquipment, if_pos hdelivered, equipmentItems_eq]
    constructor
    · rintro ⟨ces', hperm', hces'⟩
      have hall := isSome_of_length_convertWhile
        (hces'.length_eq.symm.trans (hperm'.length_eq.trans hlength))
      refine ⟨Or.inl hdelivered, fun ce hce => ?_⟩
      obtain ⟨row, hrow, hpreview⟩ := forall₂_exists hces (hperm.mem_iff.mpr hce)
      rw [← previewConverts hpreview]
      exact hall row hrow
    · rintro ⟨-, hslots⟩
      have hall : ∀ row ∈ db.getCharacterEquipmentPreview characterId, ((integer row.1).map
          fun slotId => EquipmentPreviewItemStruct.mk slotId row.2).isSome := by
        intro row hrow
        obtain ⟨ce, hce, hpreview⟩ := forall₂_exists hces.flip hrow
        rw [previewConverts hpreview]
        exact hslots ce (hperm.mem_iff.mp hce)
      refine ⟨ces, hperm, forall₂_trans ?_ hces (forall₂_convertWhile hall)⟩
      intro ce row item hpreview hitem
      obtain ⟨slotId, hslot, rfl⟩ := Option.map_eq_some_iff.mp hitem
      rw [integer_eq_some hslot]
      exact hpreview
  · rw [shownEquipment, if_neg hdelivered]
    constructor
    · rintro ⟨ces', hperm', hces'⟩
      cases hces'
      rw [← hperm'.nil_eq]
      exact ⟨Or.inr rfl, fun ce hce => absurd hce List.not_mem_nil⟩
    · rintro ⟨hnone, -⟩
      exact ⟨[], (hnone.resolve_left hdelivered) ▸ List.Perm.nil, .nil⟩

theorem convertRow_shows {c : CharacterRow} {row : CharacterListRow}
    {character : CharacterDataStruct} (hrow : ListRowOf db c row)
    (hconvert : convertRow row = some character)
    (hequip : EquipmentExact db c.id (shownEquipment db delivered c.id)) :
    Shows db c (EventHandler.characterJson character
      (shownEquipment db delivered character.characterId)) := by
  simp only [convertRow, Option.bind_eq_bind, Option.bind_eq_some_iff] at hconvert
  obtain ⟨characterId, hid, level, hlevel, classSlug, hclassSlug, points, -, health, -, mana, -,
    heq⟩ := hconvert
  cases heq
  obtain rfl : characterId = c.id := (integer_eq_some hid).trans hrow.characterId
  obtain ⟨cc, hcc, hclass, hslug⟩ := hrow.classSlug
  refine ⟨_, shownEquipment db delivered c.id, rfl, rfl, hrow.characterName,
    (integer_eq_some hlevel).trans hrow.characterLvl, hrow.isOnline, ⟨cc, hcc, hclass, ?_⟩,
    hrow.raceSlug.imp fun r hr => ⟨hr.1, hr.2.1, hr.2.2.symm⟩, hequip⟩
  rw [← hslug, hclassSlug]

/-- The answer is the list of the account just when nothing was lost on the way. -/
theorem listsExactly_iff (hkeys : db.Constraints) :
    ListsExactly db accountId (shownEntries db accountId listed delivered) ↔
      NothingLost db accountId listed delivered := by
  obtain ⟨cs, hperm, hsorted, hcs⟩ := getCharactersList_rows hkeys accountId
  have hlength := hperm.length_eq.symm.trans hcs.length_eq
  constructor
  · rintro ⟨cs', hperm', -, hshows⟩
    have hshown : (shownCharacters db accountId listed).length =
        (db.liveCharacters accountId).length := by
      rw [← hperm'.length_eq, hshows.length_eq, shownEntries, List.length_map]
    have hequip : ∀ c ∈ db.liveCharacters accountId,
        EquipmentExact db c.id (shownEquipment db delivered c.id) := by
      intro c hc
      obtain ⟨entry, hentry, character', equip', heq', hid', -, -, -, -, -, hexact⟩ :=
        forall₂_exists hshows (hperm'.mem_iff.mpr hc)
      obtain ⟨character, -, heq⟩ := List.mem_map.mp hentry
      obtain ⟨hid, hshown⟩ := characterJson_inj (heq.trans heq')
      rw [← hid', ← hid, hshown, hid, hid']
      exact hexact
    have hequip := fun c hc => (equipmentExact_iff hkeys c.id).mp (hequip c hc)
    have hlisted : listed = true ∨ db.liveCharacters accountId = [] := by
      cases listed with
      | true => exact Or.inl rfl
      | false => exact Or.inr (List.length_eq_zero_iff.mp hshown.symm)
    refine ⟨hlisted, ?_, fun c hc => (hequip c hc).1, fun c hc => (hequip c hc).2⟩
    rcases hlisted with rfl | hnone
    · exact isSome_of_length_convertWhile (hshown.trans hlength)
    · rw [hnone] at hlength
      rw [List.length_eq_zero_iff.mp hlength.symm]
      exact fun row hrow => absurd hrow List.not_mem_nil
  · intro hnothing
    have hcharacters : List.Forall₂ (fun row character => convertRow row = some character)
        (db.getCharactersList accountId) (shownCharacters db accountId listed) := by
      rcases hnothing.listed with rfl | hnone
      · exact forall₂_convertWhile hnothing.converts
      · rw [hnone] at hlength
        have hrows := List.length_eq_zero_iff.mp hlength.symm
        rw [shownCharacters, hrows, convertWhile, ite_self]
        exact .nil
    have hlive : List.Forall₂ (fun c row => c ∈ db.liveCharacters accountId ∧ ListRowOf db c row) cs
        (db.getCharactersList accountId) :=
      (List.forall₂_and_left cs _).mpr ⟨fun c hc => hperm.mem_iff.mp hc, hcs⟩
    refine ⟨cs, hperm, hsorted, List.forall₂_map_right_iff.mpr ?_⟩
    refine forall₂_trans ?_ hlive hcharacters
    rintro c row character ⟨hc, hrow⟩ hconvert
    refine convertRow_shows hrow hconvert ((equipmentExact_iff hkeys c.id).mpr ?_)
    exact ⟨hnothing.delivered c hc, hnothing.slots c hc⟩

end Exact

end LoginServer
