import LoginServer.Server.CharacterCreation
import LoginServer.Server.SlotOrder
import LoginServer.Services.Calls

/-!
# Creating and deleting characters, one after the other

A run is a sequence of calls of `createCharacter` and `deleteCharacter`, with any pauses. Its
data stay in order (`CharactersReady`): the slots of an account increase in the order of
creation, and `get_characters_list` shows them so.

A slot is never below one that is in use, and the column is a `smallint`. So an account that
always keeps a character runs out of slots, with three places free.
-/

namespace LoginServer

open Database Interleaving

/-! ## A deletion -/

/-- The statement `delete_character` on the data. -/
def Database.deleted (db : Database) (accountId characterId : Int) (now : Time) : Database :=
  ((db.characters.filter fun c =>
    c.id = characterId && c.ownerId = accountId && c.deletedAt.isNone).map fun c =>
      Write.softDelete c.id c.ownerId now).foldl applyWrite db

section Deletion

variable {p : Platform} {cfg : ServerConfig} {t : Nat} {allow : Choice → Prop}
  {clientData : ClientData} {uuids : List Bytes} {sequences : Sequences} {now : Time}
  {db : Database} {s : Server} {h : Hist}

/-- Only the column `deleted_at` changes. -/
theorem softDeletes_eq (rows : List CharacterRow) (now : Time) (db : Database) :
    ∃ deletedAt : CharacterRow → Option Time,
      (rows.map fun c => Write.softDelete c.id c.ownerId now).foldl applyWrite db =
        { db with
          characters := db.characters.map fun c => { c with deletedAt := deletedAt c } } := by
  induction rows generalizing db with
  | nil => exact ⟨(·.deletedAt), by rw [List.map_id']; rfl⟩
  | cons row rows ih =>
    obtain ⟨deletedAt, heq⟩ := ih (applyWrite db (.softDelete row.id row.ownerId now))
    rw [List.map_cons, List.foldl_cons, heq]
    refine ⟨fun c => if decide (c.id = row.id ∧ c.ownerId = row.ownerId) then
      deletedAt { c with deletedAt := some now } else deletedAt c, ?_⟩
    simp only [applyWrite, updateWhere, List.map_map]
    congr 2
    funext c
    simp only [Function.comp_apply]
    split_ifs <;> rfl

theorem deleted_eq (db : Database) (accountId characterId : Int) (now : Time) :
    ∃ deletedAt : CharacterRow → Option Time, db.deleted accountId characterId now =
      { db with
        characters := db.characters.map fun c => { c with deletedAt := deletedAt c } } :=
  softDeletes_eq _ now db

theorem live_deletedFrom (db : Database) (accountId characterId : Int) (now : Time) :
    (db.deleted accountId characterId now).live =
      db.live.filter fun c => !(c.id = characterId && c.ownerId = accountId) := by
  rw [Database.deleted, live_softDeletes]
  refine List.filter_congr fun c hc => ?_
  obtain ⟨hmem, hlive⟩ := List.mem_filter.mp hc
  congr 1
  rw [Bool.eq_iff_iff]
  simp only [List.any_eq_true, List.mem_filter, Bool.and_eq_true, decide_eq_true_eq]
  constructor
  · rintro ⟨row, ⟨-, ⟨hid, howner⟩, -⟩, hid', howner'⟩
    exact ⟨hid'.trans hid, howner'.trans howner⟩
  · rintro ⟨hid, howner⟩
    exact ⟨c, ⟨hmem, ⟨hid, howner⟩, hlive⟩, rfl, rfl⟩

/-- A deletion changes nothing if the environment lets it fail; otherwise it is committed. -/
theorem deleteCharacter_went {accountId characterId : Int}
    (hs : Solo s (.idle db) clientData uuids sequences now) :
    ((loginServer p cfg).alone t allow).SatE
      (fun _ s' _ => (s'.store = .idle db ∧ FailsIn allow) ∨ (s'.sequences = sequences ∧
        ∃ start, s'.store = .idle (db.deleted accountId characterId start)))
      (fun _ _ _ => False) h s (CharacterManager.deleteCharacter accountId characterId) := by
  refine Machine.satE_tryCatch.mpr (Machine.SatE.mono
    (E := fun _ s' _ => s'.store = .idle db ∧ FailsIn allow) ?_ (fun _ _ _ hwent => hwent)
    fun h' s' _ hfailed => Machine.satE_pure.mpr (Or.inl hfailed))
  refine satE_withWork hs (fun s₁ hfails hs₁ => ⟨hs₁.1, hfails⟩) fun s₁ hs₁ => ?_
  have hleaves : ∀ {s' : Server}, SoloWithin t s' db clientData uuids s.clock → FailsIn allow →
      ∃ db' clientData' uuids', SoloWithin t s' db' clientData' uuids' s.clock ∧
        ∀ seq' s'', Solo s'' (.idle db') clientData' uuids' seq' s.clock →
          s''.store = .idle db ∧ FailsIn allow :=
    fun hwithin hfails => ⟨db, _, _, hwithin, fun _ s'' hs'' => ⟨hs''.1, hfails⟩⟩
  refine Machine.satE_bind.mpr (satE_execPrepared hs₁ (fun ids ws seq' s₂ hrun hs₂ => ?_)
    fun s₂ hfails hs₂ => hleaves hs₂.within_alone (hfails.resolve_right fun hnone => ?_))
  · cases hrun
    refine Machine.satE_bind.mpr (satE_commitWork hs₂ (fun s₃ hs₃ => ?_) fun s₃ hfails hs₃ => ?_)
    · exact Machine.satE_pure.mpr (Or.inr ⟨hs₃.4, s.clock, hs₃.1⟩)
    · exact hleaves hs₃.within_idle hfails
  · cases hnone

end Deletion

/-! ## The data stay in order -/

/-- The keys of the schema on the tables of a creation and of the list, with the slots in the
order of the table. -/
structure CharactersReady (db : Database) (seq : Sequences) : Prop where
  keys : db.CreationConstraints seq
  characters_pkey : (db.characters.map (·.id)).Nodup
  slugs : UniqueSlugs db
  list_keys : db.ListKeys
  slot_order : SlotOrder db.live

namespace CharactersReady

variable {db : Database} {seq seq' : Sequences}

theorem later (h : CharactersReady db seq) (hle : seq.characters ≤ seq'.characters) :
    CharactersReady db seq' where
  keys := by
    obtain ⟨hpos, hlt⟩ := h.keys.characters_id_seq
    exact { h.keys with
      characters_id_seq := ⟨hpos.trans hle, fun c hc => (hlt c hc).trans_le hle⟩ }
  characters_pkey := h.characters_pkey
  slugs := h.slugs
  list_keys := h.list_keys
  slot_order := h.slot_order

theorem deleted (h : CharactersReady db seq) (accountId characterId : Int) (now : Time) :
    CharactersReady (db.deleted accountId characterId now) seq := by
  have hlive := live_deletedFrom db accountId characterId now
  obtain ⟨deletedAt, heq⟩ := deleted_eq db accountId characterId now
  rw [heq] at hlive ⊢
  have hids : (db.characters.map fun c => { c with deletedAt := deletedAt c }).map (·.id) =
      db.characters.map (·.id) := by
    rw [List.map_map]
    rfl
  have hkept : ∀ {P : CharacterRow → Prop}, (∀ c at', P c → P { c with deletedAt := at' }) →
      (∀ c ∈ db.characters, P c) →
      ∀ c ∈ db.characters.map fun c => { c with deletedAt := deletedAt c }, P c := by
    intro P hP hall c hc
    obtain ⟨c, hmem, rfl⟩ := List.mem_map.mp hc
    exact hP c _ (hall c hmem)
  have hfkey : ∀ {id : Int}, (∃ c ∈ db.characters, c.id = id) →
      ∃ c ∈ db.characters.map fun c => { c with deletedAt := deletedAt c }, c.id = id := by
    rintro id ⟨c, hc, hid⟩
    exact ⟨_, List.mem_map.mpr ⟨c, hc, rfl⟩, hid⟩
  refine ⟨⟨⟨h.keys.characters_id_seq.1, hkept (fun _ _ hlt => hlt) h.keys.characters_id_seq.2⟩,
    fun r hr => hfkey (h.keys.fk_char_current_state r hr),
    fun r hr => hfkey (h.keys.character_skills_character_id_fkey r hr),
    fun r hr => hfkey (h.keys.character_currencies_character_id_fkey r hr),
    h.keys.items_pkey, h.keys.class_starter_items_item_id_fkey,
    h.keys.class_starter_currencies_pkey⟩, hids ▸ h.characters_pkey,
    ⟨h.slugs.classes, h.slugs.races, h.slugs.genders⟩,
    ⟨h.list_keys.character_class_pkey, h.list_keys.race_pkey,
      hkept (fun _ _ hclass => hclass) h.list_keys.characters_class_id_fkey,
      hkept (fun _ _ hrace => hrace) h.list_keys.characters_race_id_fkey⟩, ?_⟩
  rw [hlive]
  exact h.slot_order.sublist List.filter_sublist

variable {accountId result : Int}
  {characterName characterClass characterRace characterGender : Bytes}

/-- A new row of `table` belongs to the new character. -/
theorem owned_append {ρ : Type} {table new : List ρ} {owner : ρ → Int} {cs : List CharacterRow}
    {row : CharacterRow} (htable : ∀ r ∈ table, ∃ c ∈ cs, c.id = owner r)
    (hnew : ∀ r ∈ new, owner r = row.id) :
    ∀ r ∈ table ++ new, ∃ c ∈ cs ++ [row], c.id = owner r := by
  intro r hr
  rcases List.mem_append.mp hr with hr | hr
  · obtain ⟨c, hc, hid⟩ := htable r hr
    exact ⟨c, List.mem_append_left _ hc, hid⟩
  · exact ⟨row, List.mem_append_right _ List.mem_cons_self, (hnew r hr).symm⟩

theorem inserted {cc : CharacterClassRow} {rows : CreationRows} (h : CharactersReady db seq)
    (hnew : NewCharacter db accountId characterName characterClass characterRace characterGender
      seq.characters cc rows) (hgrants : ClassGrants db cc.id seq.characters rows)
    (hslot : ∀ row ∈ rows.characters, row.accountSlot = db.nextAccountSlot accountId)
    (hnext : seq'.characters = seq.characters + 1) :
    CharactersReady (db.insertRows rows) seq' := by
  obtain ⟨r, hr, -, cg, -, -, slot, hrows⟩ := hnew.character
  obtain ⟨hcc, -⟩ := hnew.class_slug
  obtain ⟨hpos, hlt⟩ := h.keys.characters_id_seq
  have hskills : ∀ r ∈ rows.characterSkills, r.characterId = seq.characters := by
    intro r hr
    unfold ClassGrants at hgrants
    split_ifs at hgrants with hid
    · exact (hgrants.skill_level r hr).1
    · rw [hgrants.skills] at hr
      cases hr
  have hcurrencies : ∀ r ∈ rows.characterCurrencies, r.characterId = seq.characters := by
    intro r hr
    unfold ClassGrants at hgrants
    split_ifs at hgrants with hid
    · rw [hgrants.currencies] at hr
      obtain ⟨csc, -, rfl⟩ := List.mem_map.mp hr
      rfl
    · rw [hgrants.currencies] at hr
      cases hr
  have hstate : ∀ r ∈ rows.characterCurrentState, r.characterId = seq.characters := by
    intro r hr
    rw [hnew.state] at hr
    rw [List.mem_singleton.mp hr]
  have hforall : ∀ {P : CharacterRow → Prop}, (∀ c ∈ db.characters, P c) →
      (∀ c ∈ rows.characters, P c) → ∀ c ∈ db.characters ++ rows.characters, P c :=
    fun hold hone => List.forall_mem_append.mpr ⟨hold, hone⟩
  rw [hrows] at hforall hslot
  simp only [List.forall_mem_singleton] at hforall hslot
  refine ⟨⟨⟨by omega, ?_⟩, ?_, ?_, ?_, h.keys.items_pkey,
    h.keys.class_starter_items_item_id_fkey, h.keys.class_starter_currencies_pkey⟩, ?_,
    ⟨h.slugs.classes, h.slugs.races, h.slugs.genders⟩,
    ⟨h.list_keys.character_class_pkey, h.list_keys.race_pkey, ?_, ?_⟩, ?_⟩ <;>
    simp only [insertRows, hrows]
  · exact hforall (fun c hc => by have := hlt c hc; omega) (by simp only; omega)
  · exact owned_append h.keys.fk_char_current_state hstate
  · exact owned_append h.keys.character_skills_character_id_fkey hskills
  · exact owned_append h.keys.character_currencies_character_id_fkey hcurrencies
  · rw [List.map_append]
    refine h.characters_pkey.append (List.nodup_singleton _) ?_
    rw [List.map_singleton, List.disjoint_singleton]
    intro hmem
    obtain ⟨c, hc, hid⟩ := List.mem_map.mp hmem
    exact hnew.new_id c hc hid
  · exact hforall h.list_keys.characters_class_id_fkey ⟨cc, hcc, rfl⟩
  · exact hforall h.list_keys.characters_race_id_fkey ⟨r, hr, rfl⟩
  · rw [Database.live, List.filter_append]
    refine h.slot_order.append fun c hc => ?_
    rw [hslot]
    exact lt_nextAccountSlot (liveCharacters_eq db accountId ▸ hc)

end CharactersReady

/-! ## Runs -/

/-- The arguments of `createCharacter`. -/
structure CreationRequest where
  accountId : Int
  characterName : Bytes
  characterClass : Bytes
  characterRace : Bytes
  characterGender : Bytes

/-- A call of `createCharacter`, with the server before and after it. -/
structure Creation where
  request : CreationRequest
  /-- The database may let something fail during the call. -/
  faulty : Bool
  before : Server
  hist : Hist
  result : Int
  after : Server

def CreationRequest.call (r : CreationRequest) : M Int :=
  CharacterManager.createCharacter r.accountId r.characterName r.characterClass r.characterRace
    r.characterGender

namespace Creation

def data (c : Creation) : Database := c.before.store.committed

def allow (c : Creation) (x : Choice) : Prop := c.faulty = true ∨ noFault x

def Runs (p : Platform) (cfg : ServerConfig) (t : Nat) (c : Creation) : Prop :=
  ((loginServer p cfg).alone t c.allow).Runs [] c.before c.request.call.run c.hist c.after
    (.ok c.result)

/-- The account has room, the name is valid and free and the slugs exist. -/
def IsPromised (f : SqlFunctions) (c : Creation) : Prop :=
  Promised f c.data c.request.accountId c.request.characterName c.request.characterClass
    c.request.characterRace c.request.characterGender

/-- The client has done its part, nothing fails and no sequence has come to its end. -/
structure Expected (f : SqlFunctions) (c : Creation) : Prop where
  faultless : c.faulty = false
  promised : c.IsPromised f
  sequences : ∀ cc ∈ c.data.characterClass, cc.slug = some (upToNul c.request.characterClass) →
    c.data.SequencesLeft c.before.sequences cc.id

/-- The data have what the creation needs besides, a slot among it. -/
structure Accommodated (c : Creation) : Prop where
  provided : c.data.Provided c.request.accountId c.before.sequences.characters
    c.request.characterClass c.request.characterRace c.request.characterGender
  slot : c.data.SlotLeft c.request.accountId

end Creation

/-- Calls one after the other, with any pauses. The creations are kept, the latest first. -/
inductive CharacterRun (p : Platform) (cfg : ServerConfig) (t : Nat) (s₀ : Server) :
    List Creation → Server → Prop where
  | nil : CharacterRun p cfg t s₀ [] s₀
  | wait {creations : List Creation} {s s' : Server} (h : CharacterRun p cfg t s₀ creations s)
    (henv : ((loginServer p cfg).alone t noFault).env s s') : CharacterRun p cfg t s₀ creations s'
  | create {creations : List Creation} {c : Creation}
    (h : CharacterRun p cfg t s₀ creations c.before) (hruns : c.Runs p cfg t) :
    CharacterRun p cfg t s₀ (c :: creations) c.after
  | delete {creations : List Creation} {s s' : Server} {accountId characterId : Int}
    {allow : Choice → Prop} {hist : Hist} {deleted : Bool}
    (h : CharacterRun p cfg t s₀ creations s)
    (hruns : ((loginServer p cfg).alone t allow).Runs [] s
      (CharacterManager.deleteCharacter accountId characterId).run hist s' (.ok deleted)) :
    CharacterRun p cfg t s₀ creations s'

/-- The ids of the characters created, in the order of creation. -/
def createdIds (creations : List Creation) : List Int :=
  ((creations.map (·.result)).filter fun id => 0 < id).reverse

section Runs

variable {p : Platform} {cfg : ServerConfig} {t : Nat} {s₀ s : Server}
  {creations : List Creation} {c : Creation}

theorem createdIds_cons (c : Creation) (creations : List Creation) :
    createdIds (c :: creations) =
      createdIds creations ++ if 0 < c.result then [c.result] else [] := by
  unfold createdIds
  split_ifs with hpos <;> simp [hpos]

theorem Creation.not_failsIn (hfaultless : c.faulty = false) : ¬ FailsIn c.allow := by
  rintro ⟨x, hfaulty | hnoFault, hfails⟩
  · rw [hfaultless] at hfaulty
    cases hfaulty
  · exact not_failsIn_noFault ⟨x, hnoFault, hfails⟩

theorem Creation.Runs.went {db : Database} (hruns : c.Runs p cfg t)
    (hstore : c.before.store = .idle db) (hready : CharactersReady db c.before.sequences) :
    CreationWent p.toSqlFunctions c.allow db c.before.sequences c.request.accountId
      c.request.characterName c.request.characterClass c.request.characterRace
      c.request.characterGender c.after c.result := by
  have hs := solo_of_store hstore
  exact Machine.sat_iff_runs.mp (createCharacter_went hready.keys hready.slugs hs) _ _ _ hruns

/-- What holds after every call. -/
structure CharacterRunState (s₀ : Server) (creations : List Creation) (s : Server) : Prop where
  idle : s.store = .idle s.store.committed
  ready : CharactersReady s.store.committed s.sequences
  ids : s.store.committed.characters.map (·.id) =
    s₀.store.committed.characters.map (·.id) ++ createdIds creations

theorem CharacterRunState.created (h : CharacterRunState s₀ creations c.before)
    (hruns : c.Runs p cfg t) : CharacterRunState s₀ (c :: creations) c.after := by
  rcases hruns.went h.idle h.ready with ⟨hneg, hstore, -⟩ | hdone
  · have hle := Machine.sat_iff_runs.mp (sat_sequences c.request.call) _ _ _ hruns
    have hids : createdIds (c :: creations) = createdIds creations := by
      rw [createdIds_cons, if_neg (by omega), List.append_nil]
    refine ⟨?_, ?_, ?_⟩ <;> rw [hstore]
    · rfl
    · exact h.ready.later hle
    · rw [hids]
      exact h.ids
  · obtain ⟨cc, rows, hnew, hgrants, hstore, hslot⟩ := hdone.rows
    have hnext := hdone.next
    have hpos := h.ready.keys.characters_id_seq.1
    rw [hdone.id] at hnew hgrants hnext
    have hids : createdIds (c :: creations) =
        createdIds creations ++ [c.before.sequences.characters] := by
      rw [createdIds_cons, hdone.id, if_pos (by omega)]
    obtain ⟨r, -, -, cg, -, -, slot, hrows⟩ := hnew.character
    refine ⟨?_, ?_, ?_⟩ <;> rw [hstore]
    · rfl
    · exact h.ready.inserted hnew hgrants hslot hnext
    · change (c.before.store.committed.characters ++ rows.characters).map (·.id) = _
      rw [List.map_append, h.ids, hrows, hids, List.append_assoc]
      rfl

theorem CharacterRunState.deleted {s' : Server} {accountId characterId : Int}
    {allow : Choice → Prop} {hist : Hist} {deleted : Bool}
    (h : CharacterRunState s₀ creations s)
    (hruns : ((loginServer p cfg).alone t allow).Runs [] s
      (CharacterManager.deleteCharacter accountId characterId).run hist s' (.ok deleted)) :
    CharacterRunState s₀ creations s' := by
  have hs := solo_of_store h.idle
  have hle := Machine.sat_iff_runs.mp
    (sat_sequences (CharacterManager.deleteCharacter accountId characterId)) _ _ _ hruns
  rcases Machine.sat_iff_runs.mp (deleteCharacter_went hs) _ _ _ hruns with
    ⟨hstore, -⟩ | ⟨-, start, hstore⟩
  · refine ⟨?_, ?_, ?_⟩ <;> rw [hstore]
    · rfl
    · exact h.ready.later hle
    · exact h.ids
  · refine ⟨?_, ?_, ?_⟩ <;> rw [hstore]
    · rfl
    · exact (h.ready.deleted accountId characterId start).later hle
    · change (s.store.committed.deleted accountId characterId start).characters.map (·.id) = _
      obtain ⟨deletedAt, heq⟩ := deleted_eq s.store.committed accountId characterId start
      rw [heq, ← h.ids, List.map_map]
      rfl

theorem CharacterRunState.later {s' : Server} (h : CharacterRunState s₀ creations s)
    (henv : ((loginServer p cfg).alone t noFault).env s s') :
    CharacterRunState s₀ creations s' := by
  obtain ⟨hs', -⟩ := (solo_of_store h.idle).later henv
  refine ⟨?_, ?_, ?_⟩ <;> rw [hs'.store_eq]
  · rfl
  · rw [hs'.sequences_eq]
    exact h.ready
  · exact h.ids

theorem CharacterRun.state (hidle : s₀.store = .idle s₀.store.committed)
    (hready : CharactersReady s₀.store.committed s₀.sequences)
    (h : CharacterRun p cfg t s₀ creations s) : CharacterRunState s₀ creations s := by
  induction h with
  | nil => exact ⟨hidle, hready, (List.append_nil _).symm⟩
  | wait _ henv ih => exact ih.later henv
  | create _ hruns ih => exact ih.created hruns
  | delete _ hruns ih => exact ih.deleted hruns

/-- An expected creation goes well just if the data accommodate it. -/
theorem Creation.Runs.pos_iff (hruns : c.Runs p cfg t) (h : CharacterRunState s₀ creations c.before)
    (hexpected : c.Expected p.toSqlFunctions) : 0 < c.result ↔ c.Accommodated := by
  rcases hruns.went h.idle h.ready with ⟨hneg, -, hwhy⟩ | hdone
  · refine iff_of_false (by omega) fun hroom => ?_
    have hrefused := hwhy.resolve_left (Creation.not_failsIn hexpected.faultless)
    obtain ⟨cc, hcc, hclass⟩ := hexpected.promised.class_slug
    exact hrefused ⟨hexpected.promised, hroom.provided, hroom.slot,
      (hexpected.sequences cc hcc hclass).characters⟩
  · have hpos := h.ready.keys.characters_id_seq.1
    refine iff_of_true (by rw [hdone.id]; omega) ⟨?_, hdone.slot⟩
    have hprovided := hdone.provided
    rw [hdone.id] at hprovided
    exact hprovided

theorem CharacterRun.mem (hidle : s₀.store = .idle s₀.store.committed)
    (hready : CharactersReady s₀.store.committed s₀.sequences)
    (h : CharacterRun p cfg t s₀ creations s) (hc : c ∈ creations) :
    ∃ earlier, c.Runs p cfg t ∧ CharacterRunState s₀ earlier c.before := by
  induction h with
  | nil => cases hc
  | wait _ _ ih => exact ih hc
  | @create earlier c' h hruns ih =>
    rcases List.mem_cons.mp hc with rfl | hc
    · exact ⟨earlier, hruns, h.state hidle hready⟩
    · exact ih hc
  | delete _ _ ih => exact ih hc

/-- Selecting rows by their key. -/
theorem filter_ids {rows : List CharacterRow} (hkey : (rows.map (·.id)).Nodup)
    (q : CharacterRow → Bool) :
    (rows.map (·.id)).filter (fun id => (rows.filter q).any fun c => c.id = id) =
      (rows.filter q).map (·.id) := by
  rw [List.filter_map]
  congr 1
  refine List.filter_congr fun c hc => ?_
  rw [Bool.eq_iff_iff]
  simp only [Function.comp_apply, List.any_eq_true, List.mem_filter, decide_eq_true_eq]
  constructor
  · rintro ⟨c', ⟨hc', hq⟩, hid⟩
    rwa [← List.inj_on_of_nodup_map hkey hc' hc hid]
  · intro hq
    exact ⟨c, ⟨hc, hq⟩, rfl⟩

/-- A creation always comes to an end. -/
theorem CharacterRunState.exists_creation (p : Platform) (cfg : ServerConfig) (t : Nat)
    (h : CharacterRunState s₀ creations s) (request : CreationRequest) :
    ∃ c : Creation, c.request = request ∧ c.faulty = false ∧ c.before = s ∧ c.Runs p cfg t := by
  have hmakes : Makes (fun c : Cmd => c ≠ .randomUuid) False request.call := by
    have htokenless : IsTokenless False request.call := createCharacter_tokenless _ _ _ _ _
    refine htokenless.mono ?_ id
    rintro c hc rfl
    cases hc
  obtain ⟨h', s', r, hruns⟩ : ∃ h' s' r, ((loginServer p cfg).alone t fun x =>
      false = true ∨ noFault x).Runs [] s request.call.run h' s' r :=
    exists_runs_of_makes (Or.inr rfl) hmakes h.idle
  have hs := solo_of_store h.idle
  have hwent := Machine.sat_iff_runs.mp (createCharacter_went h.ready.keys h.ready.slugs hs) _ _ _
    hruns
  cases r with
  | error e => exact hwent.elim
  | ok result => exact ⟨⟨request, false, s, h', result, s'⟩, rfl, rfl, rfl, hruns⟩

/-- In every run the live characters of an account have their slots to themselves, and the list
shows them in the order of creation. Every creation ends; one that a client may count on goes
well just if the data accommodate it, with `MAX(account_slot) + 1` in the range of the column. -/
theorem character_runs (hidle : s₀.store = .idle s₀.store.committed)
    (hready : CharactersReady s₀.store.committed s₀.sequences)
    (h : CharacterRun p cfg t s₀ creations s) :
    (∀ accountId,
      ((s.store.committed.liveCharacters accountId).map (·.accountSlot)).Nodup ∧
      (s.store.committed.getCharactersList accountId).map (·.characterId) =
        (s₀.store.committed.characters.map (·.id) ++ createdIds creations).filter fun id =>
          (s.store.committed.liveCharacters accountId).any fun c => c.id = id) ∧
    (∀ c ∈ creations, c.Expected p.toSqlFunctions → (0 < c.result ↔ c.Accommodated)) ∧
    ∀ request, ∃ c : Creation, c.request = request ∧ c.faulty = false ∧ c.before = s ∧
      c.Runs p cfg t := by
  have hstate := h.state hidle hready
  refine ⟨fun accountId => ⟨?_, ?_⟩, fun c hc hexpected => ?_, hstate.exists_creation p cfg t⟩
  · rw [liveCharacters_eq]
    exact hstate.ready.slot_order.nodup accountId
  · rw [hstate.ready.slot_order.getCharactersList hstate.ready.list_keys, ← hstate.ids,
      ← liveCharacters_eq]
    exact (filter_ids hstate.ready.characters_pkey _).symm
  · obtain ⟨earlier, hruns, hbefore⟩ := h.mem hidle hready hc
    exact hruns.pos_iff hbefore hexpected

end Runs

/-! ## Running out of slots -/

section Overflow

open Sample Schedule

/-- One class, one race, one gender and an account without characters. -/
def noCharacters : Database := { threeCharacters with characters := [] }

theorem noCharacters_ready : CharactersReady noCharacters {} where
  keys :=
    { characters_id_seq := by simp [noCharacters]
      fk_char_current_state := by simp [noCharacters, threeCharacters]
      character_skills_character_id_fkey := by simp [noCharacters, threeCharacters]
      character_currencies_character_id_fkey := by simp [noCharacters, threeCharacters]
      items_pkey := by simp [noCharacters, threeCharacters]
      class_starter_items_item_id_fkey := by simp [noCharacters, threeCharacters]
      class_starter_currencies_pkey := by simp [noCharacters, threeCharacters] }
  characters_pkey := List.nodup_nil
  slugs := ⟨by decide, by decide, by decide⟩
  list_keys := ⟨by decide, by decide, by simp [noCharacters], by simp [noCharacters]⟩
  slot_order := SlotOrder.nil

/-- `noCharacters`, with some characters. -/
structure Grown (db : Database) : Prop where
  users : db.users = [anna]
  characterClass : db.characterClass = threeCharacters.characterClass
  race : db.race = threeCharacters.race
  characterGenders : db.characterGenders = threeCharacters.characterGenders
  items : db.items = []
  classStarterItems : db.classStarterItems = []
  zones : db.zones = [1]
  playerInventory : db.playerInventory = []

theorem Grown.deleted {db : Database} (h : Grown db) (accountId characterId : Int) (now : Time) :
    Grown (db.deleted accountId characterId now) := by
  obtain ⟨deletedAt, heq⟩ := deleted_eq db accountId characterId now
  rw [heq]
  exact ⟨h.users, h.characterClass, h.race, h.characterGenders, h.items, h.classStarterItems,
    h.zones, h.playerInventory⟩

theorem Grown.inserted {db : Database} (h : Grown db) {classId characterId : Int}
    {rows : CreationRows} (hgrants : ClassGrants db classId characterId rows) :
    Grown (db.insertRows rows) := by
  have hitems : rows.playerInventory = [] := by
    unfold ClassGrants at hgrants
    split_ifs at hgrants with hid
    · have hjoin := hgrants.items
      rw [h.classStarterItems, List.filter_nil] at hjoin
      exact List.forall₂_nil_left_iff.mp hjoin
    · exact hgrants.items
  refine ⟨h.users, h.characterClass, h.race, h.characterGenders, h.items, h.classStarterItems,
    h.zones, ?_⟩
  rw [insertRows, hitems, h.playerInventory]
  rfl

/-- Anna wants a mage. -/
def mageNamed (name : Bytes) : CreationRequest :=
  ⟨1, name, str "mage", str "human", str "male"⟩

theorem Grown.provided {db : Database} (h : Grown db) (characterId : Int) :
    db.Provided 1 characterId (str "mage") (str "human") (str "male") := by
  refine ⟨by rw [h.users]; decide, by decide, fun cc _ _ => ⟨by rw [h.zones]; decide, fun _ => ?_⟩⟩
  refine ⟨by simp [h.classStarterItems], ?_⟩
  rw [h.classStarterItems, h.playerInventory]
  exact List.nodup_nil

theorem Grown.promised {db : Database} (h : Grown db) {f : SqlFunctions} {name : Bytes}
    (hname : CharacterManager.matchesNameRegex name = true ∧
      CharacterManager.hasDoubleSpace name = false)
    (hfree : ∀ row ∈ db.live, f.lower row.name ≠ f.lower name)
    (hroom : ((db.liveCharacters 1).length : Int) < MAX_CHARS_PER_ACCOUNT) :
    Promised f db 1 name (str "mage") (str "human") (str "male") := by
  refine ⟨hroom, hname, hfree, ?_, ?_, ?_⟩
  · rw [h.characterClass]
    decide
  · rw [h.race]
    decide
  · rw [h.characterGenders]
    decide

variable {p : Platform} {cfg : ServerConfig} {s₀ s : Server} {creations : List Creation}

theorem exists_created (cfg : ServerConfig) (hstate : CharacterRunState s₀ creations s)
    (hgrown : Grown s.store.committed) {name : Bytes}
    (hpromised : Promised p.toSqlFunctions s.store.committed 1 name (str "mage") (str "human")
      (str "male"))
    (hslot : s.store.committed.SlotLeft 1) (hid : s.sequences.characters ≤ maxSequenceId) :
    ∃ c : Creation, c.before = s ∧ c.Runs p cfg 0 ∧ c.result = s.sequences.characters ∧
      Grown c.after.store.committed ∧
      c.after.sequences.characters = s.sequences.characters + 1 ∧
      ∃ row : CharacterRow, c.after.store.committed.live = s.store.committed.live ++ [row] ∧
        row.id = s.sequences.characters ∧ row.ownerId = 1 ∧ row.name = name ∧
        row.accountSlot = s.store.committed.nextAccountSlot 1 := by
  obtain ⟨c, hrequest, hfaulty, rfl, hruns⟩ := hstate.exists_creation p cfg 0
    (mageNamed name)
  have hwent := hruns.went hstate.idle hstate.ready
  rw [hrequest] at hwent
  rcases hwent with ⟨-, -, hwhy⟩ | hdone
  · have hrefused := hwhy.resolve_left (Creation.not_failsIn hfaulty)
    exact absurd ⟨hpromised, hgrown.provided _, hslot, hid⟩ hrefused
  · obtain ⟨cc, rows, hnew, hgrants, hstore, hslots⟩ := hdone.rows
    obtain ⟨r, -, -, cg, -, -, slot, hrows⟩ := hnew.character
    rw [hrows, List.forall_mem_singleton] at hslots
    have hcommitted : c.after.store.committed = c.data.insertRows rows := by
      rw [hstore]
      rfl
    refine ⟨c, rfl, hruns, hdone.id, hcommitted ▸ hgrown.inserted hgrants, ?_, _, ?_, hdone.id, rfl,
      rfl, hslots⟩
    · rw [hdone.next, hdone.id]
    · rw [hcommitted, Database.live, insertRows, hrows, List.filter_append]
      rfl

theorem exists_deleted {t : Nat} (hstate : CharacterRunState s₀ creations s)
    (h : CharacterRun p cfg t s₀ creations s) (hgrown : Grown s.store.committed)
    (accountId characterId : Int) :
    ∃ s', CharacterRun p cfg t s₀ creations s' ∧ Grown s'.store.committed ∧
      s'.sequences = s.sequences ∧ s'.store.committed.live =
        s.store.committed.live.filter fun c => !(c.id = characterId && c.ownerId = accountId) := by
  have hmakes : Makes (fun c : Cmd => c ≠ .randomUuid) False
      (CharacterManager.deleteCharacter accountId characterId) :=
    deleteCharacter_makes (by simp) (by simp) (by simp) (by simp)
  obtain ⟨h', s', r, hruns⟩ : ∃ h' s' r, ((loginServer p cfg).alone t noFault).Runs [] s
      (CharacterManager.deleteCharacter accountId characterId).run h' s' r :=
    exists_runs_of_makes rfl hmakes hstate.idle
  have hs := solo_of_store hstate.idle
  have hwent := Machine.sat_iff_runs.mp (deleteCharacter_went hs) _ _ _ hruns
  cases r with
  | error e => exact hwent.elim
  | ok deleted =>
    obtain ⟨hseq, start, hstore⟩ := hwent.resolve_left fun hfailed =>
      not_failsIn_noFault hfailed.2
    have hcommitted : s'.store.committed =
        s.store.committed.deleted accountId characterId start := by
      rw [hstore]
      rfl
    refine ⟨s', h.delete hruns, ?_, hseq, ?_⟩ <;> rw [hcommitted]
    · exact hgrown.deleted accountId characterId start
    · exact live_deletedFrom s.store.committed accountId characterId start

/-- Two names in turn. -/
def nameInTurn (n : Nat) : Bytes := if n % 2 = 0 then str "Anna" else str "Bea"

theorem nameInTurn_valid (n : Nat) : CharacterManager.matchesNameRegex (nameInTurn n) = true ∧
    CharacterManager.hasDoubleSpace (nameInTurn n) = false := by
  unfold nameInTurn
  split_ifs <;> decide

theorem nameInTurn_free (n : Nat) :
    (Platform.ofTables [] []).toSqlFunctions.lower (nameInTurn n) ≠
      (Platform.ofTables [] []).toSqlFunctions.lower (nameInTurn (n + 1)) := by
  unfold nameInTurn
  rcases Nat.mod_two_eq_zero_or_one n with heven | hodd
  · rw [if_pos heven, if_neg (by omega)]
    decide
  · rw [if_neg (by omega), if_pos (by omega)]
    decide

/-- The account has one character, in the slot `n + 1`. -/
structure OneLeft (n : Nat) (s : Server) (row : CharacterRow) : Prop where
  grown : Grown s.store.committed
  characters : s.sequences.characters = n + 2
  live : s.store.committed.live = [row]
  owner : row.ownerId = 1
  id : row.id < n + 2
  name : row.name = nameInTurn n
  slot : row.accountSlot = n + 1

theorem OneLeft.liveCharacters {n : Nat} {row : CharacterRow} (h : OneLeft n s row) :
    s.store.committed.liveCharacters 1 = [row] := by
  rw [liveCharacters_eq, h.live, ownedBy, List.filter_cons_of_pos (by simpa using h.owner)]
  rfl

theorem OneLeft.nextAccountSlot {n : Nat} {row : CharacterRow} (h : OneLeft n s row) :
    s.store.committed.nextAccountSlot 1 = n + 2 := by
  rw [Database.nextAccountSlot, h.liveCharacters, List.map_singleton, h.slot]
  simp only [List.max?_singleton]
  omega

/-- The other name is free. -/
theorem OneLeft.promised {n : Nat} {row : CharacterRow} (h : OneLeft n s row) :
    Promised (Platform.ofTables [] []).toSqlFunctions s.store.committed 1 (nameInTurn (n + 1))
      (str "mage") (str "human") (str "male") := by
  refine h.grown.promised (nameInTurn_valid (n + 1)) ?_ ?_
  · rw [h.live, List.forall_mem_singleton, h.name]
    exact nameInTurn_free n
  · rw [h.liveCharacters, List.length_singleton]
    decide

theorem noCharacters_grown : Grown noCharacters := ⟨rfl, rfl, rfl, rfl, rfl, rfl, rfl, rfl⟩

/-- The first creation. -/
theorem exists_first_creation : ∃ c row,
    CharacterRun (.ofTables [] []) config 0 (Server.over noCharacters) [c] c.after ∧
      c.result = 1 ∧ row.id = 1 ∧ OneLeft 0 c.after row := by
  have hstate : CharacterRunState (Server.over noCharacters) [] (Server.over noCharacters) :=
    ⟨rfl, noCharacters_ready, rfl⟩
  have hpromised : Promised (Platform.ofTables [] []).toSqlFunctions noCharacters 1 (nameInTurn 0)
      (str "mage") (str "human") (str "male") :=
    noCharacters_grown.promised (nameInTurn_valid 0) (fun row hrow => by cases hrow) (by decide)
  obtain ⟨c, hbefore, hruns, hresult, hgrown, hseq, row, hlive, hid, howner, hname, hslot⟩ :=
    exists_created config hstate noCharacters_grown hpromised rfl (by decide)
  have hstart : CharacterRun (.ofTables [] []) config 0 (Server.over noCharacters) [] c.before := by
    rw [hbefore]
    exact .nil
  refine ⟨c, row, hstart.create hruns, hresult, hid, hgrown, hseq, hlive, howner, ?_, hname, hslot⟩
  rw [hid]
  decide

/-- Another character is created, and the one before it is deleted. -/
theorem exists_oneLeft_succ {n : Nat} {row : CharacterRow} (hn : n < 32766)
    (h : CharacterRun (.ofTables [] []) config 0 (Server.over noCharacters) creations s)
    (hone : OneLeft n s row) : ∃ creations' s' row',
      CharacterRun (.ofTables [] []) config 0 (Server.over noCharacters) creations' s' ∧
        OneLeft (n + 1) s' row' := by
  have hstate := h.state rfl noCharacters_ready
  have hleft : s.store.committed.SlotLeft 1 := by
    rw [SlotLeft, hone.nextAccountSlot, smallint, if_pos ⟨by omega, by omega⟩]
    rfl
  have hmax : s.sequences.characters ≤ maxSequenceId := by
    rw [hone.characters, maxSequenceId]
    omega
  obtain ⟨c, rfl, hruns, -, hgrown, hseq, row', hlive, hid, howner, hname, hslot⟩ :=
    exists_created config hstate hone.grown hone.promised hleft hmax
  have hcreated := h.create hruns
  obtain ⟨s', hdeleted, hgrown', hseq', hlive'⟩ :=
    exists_deleted (hcreated.state rfl noCharacters_ready) hcreated hgrown 1 row.id
  have hnew : row'.id = n + 2 := hid.trans hone.characters
  refine ⟨_, s', row', hdeleted, hgrown', ?_, ?_, howner, ?_, hname, ?_⟩
  · rw [hseq', hseq, hone.characters]
    omega
  · have hkept : row'.id ≠ row.id := by
      have := hone.id
      omega
    rw [hlive', hlive, hone.live]
    simp [hone.owner, hkept]
  · omega
  · rw [hslot, hone.nextAccountSlot]
    omega

theorem exists_oneLeft {n : Nat} (hn : n ≤ 32766) : ∃ creations s row,
    CharacterRun (.ofTables [] []) config 0 (Server.over noCharacters) creations s ∧
      OneLeft n s row := by
  induction n with
  | zero =>
    obtain ⟨c, row, h, -, -, hone⟩ := exists_first_creation
    exact ⟨_, _, row, h, hone⟩
  | succ n ih =>
    obtain ⟨creations, s, row, h, hone⟩ := ih (by omega)
    exact exists_oneLeft_succ (by omega) h hone

/-- One character at a time is kept, and after 32767 creations its slot is the last. With three
places free on the account, nothing can be created any more. -/
theorem creations_run_out_of_slots : CharactersReady noCharacters {} ∧
    ∃ (creations : List Creation) (c : Creation),
      CharacterRun (.ofTables [] []) config 0 (Server.over noCharacters) creations c.before ∧
      c.Runs (.ofTables [] []) config 0 ∧ c.faulty = false ∧
      c.IsPromised (Platform.ofTables [] []).toSqlFunctions ∧
      (c.data.liveCharacters c.request.accountId).length = 1 ∧
      c.before.sequences.characters ≤ maxSequenceId ∧ c.result < 0 := by
  refine ⟨noCharacters_ready, ?_⟩
  obtain ⟨creations, s, row, h, hone⟩ := exists_oneLeft (n := 32766) le_rfl
  have hstate := h.state rfl noCharacters_ready
  obtain ⟨c, hrequest, hfaulty, rfl, hruns⟩ := hstate.exists_creation
    (.ofTables [] []) config 0 (mageNamed (nameInTurn 32767))
  refine ⟨creations, c, h, hruns, hfaulty, ?_, ?_, ?_, ?_⟩
  · rw [Creation.IsPromised, hrequest]
    exact hone.promised
  · rw [hrequest]
    exact congrArg List.length hone.liveCharacters
  · rw [hone.characters, maxSequenceId]
    omega
  · rcases hruns.went hstate.idle hstate.ready with ⟨hneg, -⟩ | hdone
    · exact hneg
    · have hslot := hdone.slot
      rw [hrequest, SlotLeft] at hslot
      change (smallint (c.before.store.committed.nextAccountSlot 1)).isSome = true at hslot
      rw [hone.nextAccountSlot] at hslot
      cases hslot

theorem character_runs_first : ∃ c : Creation,
    CharacterRun (.ofTables [] []) config 0 (Server.over noCharacters) [c] c.after ∧
    c.result = 1 ∧ (c.after.store.committed.getCharactersList 1).map (·.characterId) = [1] := by
  obtain ⟨c, row, h, hresult, hid, hone⟩ := exists_first_creation
  refine ⟨c, h, hresult, ?_⟩
  obtain ⟨hlisted, -, -⟩ := @character_runs (.ofTables [] []) config 0 (Server.over noCharacters) _
    _ rfl noCharacters_ready h
  rw [(hlisted 1).2, createdIds_cons, hresult, hone.liveCharacters]
  simp [createdIds, hid, Server.over, Transactions.Store.idle, noCharacters]

end Overflow

end LoginServer
