import LoginServer.Database.Creation

/-!
# What a creation needs

Besides a valid, free name, room and slugs that exist, an insert of a character needs more of
the data: `Provided`, a slot that fits its column (`SlotLeft`) and values left in the sequences
(`SequencesLeft`). One lemma for each statement of `createCharacter` that can be refused says
when it is.
-/

namespace LoginServer

namespace Database

open Transactions

/-- `MAXVALUE` of the sequences behind the `id` columns; `nextval` fails above it. -/
def maxSequenceId : Int := 99999999

/-- The starter items of the class can be given to the character. -/
structure StarterItemsFit (db : Database) (classId characterId : Int) : Prop where
  durability : ∀ csi ∈ db.classStarterItems, csi.classId = classId → ∀ i ∈ db.items,
    i.id = csi.itemId → (integer (csi.durabilityCurrent.getD i.durabilityMax)).isSome
  slots : ((db.playerInventory.filter fun r => r.characterId = some characterId).filterMap
      (·.slotIndex) ++
    (db.classStarterItems.filter fun csi => csi.classId = classId).filterMap (·.slotIndex)).Nodup

/-- What the statements after the insert need. -/
structure Grantable (db : Database) (classId characterId : Int) : Prop where
  zone : db.zones.contains 1 = true
  items : 0 < classId → db.StarterItemsFit classId characterId

/-- What an insert of a character with the id `characterId` needs, the sequences and the slot
apart. -/
structure Provided (db : Database) (accountId characterId : Int)
    (classSlug raceSlug genderSlug : Bytes) : Prop where
  account : (db.users.any fun r => r.id = accountId) = true
  given : classSlug ≠ [] ∧ raceSlug ≠ [] ∧ genderSlug ≠ []
  grantable : ∀ cc ∈ db.characterClass, cc.slug = some (upToNul classSlug) →
    db.Grantable cc.id characterId

/-- `MAX(account_slot) + 1` is a `smallint`. -/
def SlotLeft (db : Database) (accountId : Int) : Prop :=
  (smallint (db.nextAccountSlot accountId)).isSome = true

/-- The sequences have as many values left as a creation for the class draws. That `nextval`
fails above `MAXVALUE` is left to the environment, which may let any statement fail. -/
structure SequencesLeft (db : Database) (seq : Sequences) (classId : Int) : Prop where
  characters : seq.characters ≤ maxSequenceId
  position : seq.characterPosition ≤ maxSequenceId
  skills : seq.characterSkills +
    (db.classSkillTree.filter fun r => r.classId = classId && r.isDefault).length ≤ 2 ^ 31
  inventory : seq.playerInventory +
    (db.classStarterItems.filter fun csi => csi.classId = classId).length ≤ maxSequenceId + 1

/-! ## Refused statements -/

variable {f : SqlFunctions} {db : Database} {rows : CreationRows} {now : Time}
  {seq seq₀ seq' : Sequences} {characterId classId : Int} {ws : List Write}

theorem run_createCharacter_none {accountId : Int} {name classSlug raceSlug genderSlug : Bytes}
    (hverbatim : Verbatim 20 name)
    (h : (Query.createCharacter accountId name classSlug raceSlug genderSlug).run db now seq f =
      none) : ¬ (db.SlotLeft accountId ∧ (db.users.any fun r => r.id = accountId) = true) := by
  rintro ⟨hslot, haccount⟩
  obtain ⟨slot, hslot⟩ := Option.isSome_iff_exists.mp hslot
  simp only [Query.run, createCharacter, hverbatim.upToNul, hverbatim.varchar (Nat.le_refl 20),
    hslot, haccount, if_true] at h
  split at h
  · cases h
  · cases h

/-- An insert has found a slot and the account. -/
theorem slotLeft_of_createCharacter {accountId : Int}
    {name classSlug raceSlug genderSlug : Bytes} {id : Int} {ids : List Int}
    (h : (Query.createCharacter accountId name classSlug raceSlug genderSlug).run db now seq f =
      some (id :: ids, ws, seq')) :
    db.SlotLeft accountId ∧ (db.users.any fun r => r.id = accountId) = true := by
  simp only [Query.run, createCharacter] at h
  split at h
  · cases h
  · split at h
    · rename_i slot _ hslot
      split_ifs at h with haccount
      exact ⟨Option.isSome_of_eq_some hslot, haccount⟩
    · cases h

/-- Only slugs that select nothing insert nothing. -/
theorem creationIds_of_createCharacter {accountId : Int}
    {name classSlug raceSlug genderSlug : Bytes}
    (h : (Query.createCharacter accountId name classSlug raceSlug genderSlug).run db now seq f =
      some ([], ws, seq')) :
    db.creationIds (upToNul classSlug) (upToNul raceSlug) (upToNul genderSlug) = [] := by
  simp only [Query.run, createCharacter] at h
  split at h
  next hnone => exact hnone
  next =>
    split at h
    · split_ifs at h
      have hids := congrArg Prod.fst (Option.some.inj h)
      simpa using hids
    · cases h

theorem integer_of_le_maxSequenceId {id : Int} (hpos : 1 ≤ id) (hle : id ≤ maxSequenceId) :
    integer id = some id := by
  rw [maxSequenceId] at hle
  exact if_pos ⟨by omega, by omega⟩

theorem run_initCharacterState_ne_none :
    (Query.initCharacterState characterId).run db now seq f ≠ none := by
  simp only [Query.run, initCharacterState]
  split_ifs <;> exact Option.some_ne_none _

theorem run_initCharacterPosition_isSome :
    ((Query.initCharacterPosition characterId).run (db.insertRows rows) now seq f).isSome ↔
      db.zones.contains 1 = true := by
  have hrun : (Query.initCharacterPosition characterId).run (db.insertRows rows) now seq f =
      if db.zones.contains 1 then
        some ((), [.insertPosition ⟨seq.characterPosition, characterId, 0, 0, 200, 1⟩],
          { seq with characterPosition := seq.characterPosition + 1 })
      else none := rfl
  rw [hrun]
  split_ifs with hzone
  · exact iff_of_true rfl hzone
  · exact iff_of_false Bool.false_ne_true hzone

theorem isSome_mapM {α β : Type} {g : α → Option β} {as : List α} :
    (as.mapM g).isSome ↔ ∀ a ∈ as, (g a).isSome := by
  induction as with
  | nil => simp
  | cons a as ih =>
    rw [List.mapM_cons, List.forall_mem_cons, ← ih]
    cases g a with
    | none => simp
    | some b => cases as.mapM g <;> simp

theorem filterMap_of_forall₂ {α β γ : Type} {g : α → Option γ} {k : β → Option γ} {as : List α}
    {bs : List β} (h : List.Forall₂ (fun a b => g a = k b) as bs) :
    as.filterMap g = bs.filterMap k := by
  induction h with
  | nil => rfl
  | cons hab _ ih => rw [List.filterMap_cons, List.filterMap_cons, hab, ih]

theorem filterMap_numbered {α γ : Type} (k : α → Option γ) (as : List α) (n : Nat) :
    (as.zipIdx n).filterMap (fun x => k x.1) = as.filterMap k := by
  conv_rhs => rw [← List.zipIdx_map_fst n as, List.filterMap_map]
  rfl

/-- The slots taken once the numbered rows are inserted. -/
theorem slots_numbered {own : List InventoryRow} {xs : List ((StarterItemRow × ItemRow) × Int)}
    {number : ((StarterItemRow × ItemRow) × Int) × Nat → InventoryRow}
    (hnumber : ∀ x, (number x).slotIndex = x.1.1.1.slotIndex) :
    (own ++ xs.zipIdx.map number).filterMap (·.slotIndex) =
      own.filterMap (·.slotIndex) ++ xs.filterMap (fun x => x.1.1.slotIndex) := by
  rw [List.filterMap_append, List.filterMap_map]
  have hslot : ((·.slotIndex) ∘ number : _ → Option Int) = fun x => x.1.1.1.slotIndex :=
    funext hnumber
  rw [hslot]
  congr 1
  exact filterMap_numbered (fun x : (StarterItemRow × ItemRow) × Int => x.1.1.slotIndex) _ 0

theorem run_initCharacterStarterItems_isSome (hkeys : db.CreationConstraints seq₀)
    (hrows : rows.playerInventory = []) :
    ((Query.initCharacterStarterItems characterId classId).run (db.insertRows rows) now seq
      f).isSome ↔ db.StarterItemsFit classId characterId := by
  have hjoin := forall₂_starterItems hkeys classId
  have hmem : ∀ x, x ∈ (db.classStarterItems.filter fun csi => csi.classId = classId).flatMap
      (fun csi => (db.items.filter fun i => i.id = csi.itemId).map fun i => (csi, i)) ↔
      x.1 ∈ db.classStarterItems ∧ x.1.classId = classId ∧ x.2 ∈ db.items ∧
        x.2.id = x.1.itemId := by
    rintro ⟨csi, i⟩
    simp [and_assoc]
  simp only [Query.run, initCharacterStarterItems, insertRows, hrows, List.append_nil]
  generalize (db.classStarterItems.filter fun csi => csi.classId = classId).flatMap
    (fun csi => (db.items.filter fun i => i.id = csi.itemId).map fun i => (csi, i)) =
      joined at hjoin hmem ⊢
  have hdurable : (joined.mapM fun x =>
      integer (x.1.durabilityCurrent.getD x.2.durabilityMax)).isSome ↔
      ∀ csi ∈ db.classStarterItems, csi.classId = classId → ∀ i ∈ db.items,
        i.id = csi.itemId → (integer (csi.durabilityCurrent.getD i.durabilityMax)).isSome := by
    rw [isSome_mapM]
    constructor
    · intro hall csi hcsi hclass i hi hid
      exact hall (csi, i) ((hmem _).mpr ⟨hcsi, hclass, hi, hid⟩)
    · intro hall x hx
      obtain ⟨hcsi, hclass, hi, hid⟩ := (hmem x).mp hx
      exact hall _ hcsi hclass _ hi hid
  cases hdurabilities : joined.mapM fun x =>
      integer (x.1.durabilityCurrent.getD x.2.durabilityMax) with
  | none =>
    rw [hdurabilities] at hdurable
    exact iff_of_false Bool.false_ne_true fun hfit =>
      Bool.false_ne_true (hdurable.mpr hfit.durability)
  | some durabilities =>
    rw [hdurabilities] at hdurable
    dsimp only
    have hlength : joined.length ≤ durabilities.length :=
      le_of_eq (forall₂_of_mapM hdurabilities).length_eq
    -- the slots of the rows are those of the starter items
    have hsame : (joined.zip durabilities).filterMap (fun x => x.1.1.slotIndex) =
        (db.classStarterItems.filter fun csi => csi.classId = classId).filterMap
          (·.slotIndex) := by
      have hitems : joined.filterMap (fun x => x.1.slotIndex) =
          (db.classStarterItems.filter fun csi => csi.classId = classId).filterMap
            (·.slotIndex) :=
        (filterMap_of_forall₂ (hjoin.imp fun csi x hx => by rw [hx.1])).symm
      rw [← hitems]
      conv_rhs => rw [← List.map_fst_zip hlength, List.filterMap_map]
      rfl
    rw [slots_numbered fun _ => rfl, hsame]
    split_ifs with hnodup
    · exact iff_of_true rfl ⟨hdurable.mp rfl, hnodup⟩
    · exact iff_of_false Bool.false_ne_true fun hfit => hnodup hfit.slots

/-! ## The sequence of the characters -/

/-- The statement that draws ids of characters. -/
def Query.drawsCharacterIds : Query → Bool
  | .createCharacter _ _ _ _ _ => true
  | _ => false

theorem characters_of_other {q : Query} {answer : q.Rows} (hq : q.drawsCharacterIds = false)
    (h : q.run db now seq f = some (answer, ws, seq')) : seq'.characters = seq.characters := by
  cases q with
  | createUserSession userId tokenHash clientVersion =>
    simp only [Query.run, createUserSession] at h
    split at h
    · split_ifs at h <;> cases h <;> rfl
    · cases h
  | incrementFailedLogins login =>
    obtain ⟨ws', -, heq⟩ := Option.map_eq_some_iff.mp h
    cases heq
    rfl
  | resetFailedLogins userId ip clientVersion =>
    obtain ⟨ws', -, heq⟩ := Option.map_eq_some_iff.mp h
    cases heq
    rfl
  | createCharacter accountId name classSlug raceSlug genderSlug => cases hq
  | initCharacterState characterId =>
    simp only [Query.run, initCharacterState] at h
    split_ifs at h <;> cases h <;> rfl
  | initCharacterPosition characterId =>
    simp only [Query.run, initCharacterPosition] at h
    split_ifs at h
    cases h
    rfl
  | initCharacterStarterItems characterId classId =>
    simp only [Query.run, initCharacterStarterItems] at h
    split at h
    · cases h
    · split_ifs at h
      cases h
      rfl
  | registerUser login password email ip clientVersion =>
    simp only [Query.run, registerUser] at h
    split at h
    · cases h
      rfl
    · cases h
  | _ =>
    cases h
    rfl

theorem characters_of_createCharacter {accountId : Int} {name classSlug raceSlug genderSlug : Bytes}
    {ids : List Int} (h : (Query.createCharacter accountId name classSlug raceSlug
      genderSlug).run db now seq f = some (ids, ws, seq')) :
    seq'.characters = seq.characters + ids.length := by
  simp only [Query.run, createCharacter] at h
  split at h
  · cases h
    exact (Int.add_zero _).symm
  · split at h
    · split_ifs at h
      cases h
      simp
    · cases h

/-- No statement takes an id back. -/
theorem characters_of_run {q : Query} {answer : q.Rows}
    (h : q.run db now seq f = some (answer, ws, seq')) : seq.characters ≤ seq'.characters := by
  cases hq : q.drawsCharacterIds with
  | false => exact (characters_of_other hq h).ge
  | true =>
    cases q with
    | createCharacter accountId name classSlug raceSlug genderSlug =>
      rw [characters_of_createCharacter h]
      exact Int.le_add_of_nonneg_right (Int.natCast_nonneg _)
    | _ => cases hq

end Database

end LoginServer
