import LoginServer.Database.Creation
import LoginServer.Server.Alone
import LoginServer.Server.CharacterLimits

/-!
# A creation is all or nothing

The statements of `createCharacter` lie in one transaction. `initCharacter_result` follows
them from the insert of the character to the commit: as long as none fails, the
transaction sees the database that it began with and the rows inserted so far. A
statement that fails leaves through the scope of the transaction.
-/

namespace LoginServer

open Database Interleaving

variable {p : Platform} {cfg : ServerConfig} {t : Nat} {allow : Choice → Prop}
  {clientData : ClientData} {uuids : List Bytes} {sequences : Sequences} {now start : Time}
  {db : Database} {log : List Write} {s : Server} {h : Hist}

/-- A statement inside the transaction, which sees `view`. If it throws, nothing is
committed, and the environment has let it fail or the data do not allow it. -/
theorem satE_statement {q : Query} {view : Database} {Q : Hist → Server → q.Rows → Prop}
    {refused : Prop} (hs : Solo s (.alone writes db t start log) clientData uuids sequences now)
    (hview : log.foldl applyWrite db = view)
    (hok : ∀ rows ws seq' log' h' s',
      q.run view start sequences p.toSqlFunctions = some (rows, ws, seq') →
      log'.foldl applyWrite db = ws.foldl applyWrite view →
      Solo s' (.alone writes db t start log') clientData uuids seq' now → Q h' s' rows)
    (hrefused : q.run view start sequences p.toSqlFunctions = none → refused) :
    ((loginServer p cfg).alone t allow).SatE Q
      (fun _ s' _ => SoloWithin t s' db clientData uuids now ∧ (FailsIn allow ∨ refused)) h s
      (execPrepared q) := by
  refine satE_execPrepared hs (fun rows ws seq' s' hrun hs' => ?_) fun s' hfails hs' => ?_
  · rw [hview] at hrun
    refine hok rows ws seq' (log ++ ws) _ s' hrun ?_ hs'
    rw [List.foldl_append, hview]
  · rw [hview] at hfails
    exact ⟨hs'.within_alone, hfails.imp_right hrefused⟩

/-- What a class with a proper id grants; nothing goes with one that the code takes for
no class. -/
def ClassGrants (db : Database) (classId characterId : Int) (rows : CreationRows) : Prop :=
  if 0 < classId then Granted db classId characterId rows else NotGranted rows

/-- The transaction has committed these rows and nothing else. -/
structure Initialised (db : Database) (classId characterId : Int)
    (characters : List CharacterRow) (rows : CreationRows) : Prop where
  characters : rows.characters = characters
  state : rows.characterCurrentState = [⟨characterId, 1, 1⟩]
  position : ∃ id, rows.characterPosition = [⟨id, characterId, 0, 0, 200, 1⟩]
  grants : ClassGrants db classId characterId rows

theorem initCharacter_result {characterId : Int} {cs : List CharacterRow} {classSlug : Bytes}
    {cc : CharacterClassRow} {seq₀ : Sequences} (hkeys : db.CreationConstraints seq₀)
    (hslugs : UniqueSlugs db) (hnew : db.Unreferenced characterId)
    (hcc : cc ∈ db.characterClass) (hclass : cc.slug = some (upToNul classSlug))
    (hs : Solo s (.alone writes db t start log) clientData uuids sequences now)
    (hview : log.foldl applyWrite db = db.insertRows { characters := cs }) :
    ((loginServer p cfg).alone t allow).SatE
      (fun _ s' result => (result = characterId ∧ ∃ rows,
        Initialised db cc.id characterId cs rows ∧ s'.store = .idle (db.insertRows rows)) ∧
        db.Grantable cc.id characterId ∧ s'.sequences.characters = sequences.characters)
      (fun _ s' _ => SoloWithin t s' db clientData uuids now ∧
        (FailsIn allow ∨ ¬ db.Grantable cc.id characterId)) h s
      (CharacterManager.initCharacter characterId classSlug) := by
  unfold CharacterManager.initCharacter
  refine Machine.satE_bind.mpr (satE_statement hs hview ?_ fun hnone => by cases hnone)
  intro ids ws seq₁ log₁ h₁ s₁ hrun hview₁ hs₁
  have hseq₁ : seq₁.characters = sequences.characters := characters_of_other rfl hrun
  obtain ⟨rfl, hsame⟩ := run_getClassIdBySlug hslugs hcc hclass hrun
  rw [hsame] at hview₁
  refine Machine.satE_bind.mpr (satE_statement hs₁ hview₁ ?_ fun hnone =>
    absurd hnone run_initCharacterState_ne_none)
  intro _ ws seq₂ log₂ h₂ s₂ hrun hview₂ hs₂
  have hseq₂ := (characters_of_other rfl hrun).trans hseq₁
  rw [run_initCharacterState hnew rfl hrun] at hview₂
  refine Machine.satE_bind.mpr (satE_statement hs₂ hview₂ ?_ fun hnone hgrant =>
    Option.not_isSome_iff_eq_none.mpr hnone (run_initCharacterPosition_isSome.mpr hgrant.zone))
  intro _ ws seq₃ log₃ h₃ s₃ hrun hview₃ hs₃
  have hseq₃ := (characters_of_other rfl hrun).trans hseq₂
  have hzone := run_initCharacterPosition_isSome.mp (Option.isSome_of_eq_some hrun)
  obtain ⟨positionId, hposition⟩ := run_initCharacterPosition rfl hrun
  rw [hposition] at hview₃
  have hcommit : ∀ {h' : Hist} {s' : Server} {log' : List Write} {seq' : Sequences}
      {rows : CreationRows}, Solo s' (.alone writes db t start log') clientData uuids seq' now →
      log'.foldl applyWrite db = db.insertRows rows →
      Initialised db cc.id characterId cs rows → db.Grantable cc.id characterId →
      seq'.characters = sequences.characters →
      ((loginServer p cfg).alone t allow).SatE
        (fun _ s' result => (result = characterId ∧ ∃ rows,
          Initialised db cc.id characterId cs rows ∧ s'.store = .idle (db.insertRows rows)) ∧
          db.Grantable cc.id characterId ∧ s'.sequences.characters = sequences.characters)
        (fun _ s' _ => SoloWithin t s' db clientData uuids now ∧
          (FailsIn allow ∨ ¬ db.Grantable cc.id characterId)) h' s'
        (do commitWork; return characterId) := by
    intro h' s' log' seq' rows hs' hview' hrows hgrant hseq'
    refine Machine.satE_bind.mpr (satE_commitWork hs' (fun s₁ hs₁ => ?_) fun s₁ hfails hs₁ => ?_)
    · rw [hview'] at hs₁
      refine Machine.satE_pure.mpr ⟨⟨rfl, rows, hrows, hs₁.1⟩, hgrant, ?_⟩
      rw [hs₁.sequences_eq, hseq']
    · exact ⟨hs₁.within_idle, Or.inl hfails⟩
  by_cases hid : 0 < cc.id
  · simp only [List.headD_cons, gt_iff_lt, hid, if_true]
    refine Machine.satE_bind.mpr (satE_statement hs₃ hview₃ ?_ fun hnone => by cases hnone)
    intro _ ws seq₄ log₄ h₄ s₄ hrun hview₄ hs₄
    have hseq₄ := (characters_of_other rfl hrun).trans hseq₃
    obtain ⟨skills, hskills, hskill, hnodup, hlevel⟩ :=
      run_initCharacterDefaultSkills hnew rfl hrun
    rw [hskills] at hview₄
    refine Machine.satE_bind.mpr (satE_statement hs₄ hview₄ ?_ fun hnone hgrant =>
      Option.not_isSome_iff_eq_none.mpr hnone
        ((run_initCharacterStarterItems_isSome hkeys rfl).mpr (hgrant.items hid)))
    intro _ ws seq₅ log₅ h₅ s₅ hrun hview₅ hs₅
    have hseq₅ := (characters_of_other rfl hrun).trans hseq₄
    have hfit := (run_initCharacterStarterItems_isSome hkeys rfl).mp
      (Option.isSome_of_eq_some hrun)
    obtain ⟨items, hitems, hitem⟩ := run_initCharacterStarterItems hkeys rfl hrun
    rw [hitems] at hview₅
    refine Machine.satE_bind.mpr (satE_statement hs₅ hview₅ ?_ fun hnone => by cases hnone)
    intro _ ws seq₆ log₆ h₆ s₆ hrun hview₆ hs₆
    have hseq₆ := (characters_of_other rfl hrun).trans hseq₅
    rw [run_initCharacterStarterCurrencies hnew rfl hrun] at hview₆
    refine hcommit hs₆ hview₆ ⟨rfl, rfl, ⟨positionId, rfl⟩, ?_⟩ ⟨hzone, fun _ => hfit⟩ hseq₆
    rw [ClassGrants, if_pos hid]
    exact ⟨hskill, hnodup, hlevel, hitem, rfl⟩
  · simp only [List.headD_cons, gt_iff_lt, hid, if_false]
    refine hcommit hs₃ hview₃ ⟨rfl, rfl, ⟨positionId, rfl⟩, ?_⟩ ⟨hzone, fun hpos => absurd hpos hid⟩
      hseq₃
    rw [ClassGrants, if_neg hid]
    exact ⟨rfl, rfl, rfl⟩

/-! ## The whole call -/

/-- What `createCharacter` comes to: the committed data are as before, or they have the
rows of a complete creation besides. -/
def CreationEnded (db : Database) (accountId : Int)
    (characterName characterClass characterRace characterGender : Bytes) (store : Database.Store)
    (result : Int) : Prop :=
  (result < 0 ∧ store = .idle db) ∨
  (0 < result ∧ ∃ cc rows,
    NewCharacter db accountId characterName (upToNul characterClass) (upToNul characterRace)
      (upToNul characterGender) result cc rows ∧
    ClassGrants db cc.id result rows ∧ store = .idle (db.insertRows rows))

/-- What the client can see to: room, a valid name that is free, slugs that exist. -/
structure Promised (f : SqlFunctions) (db : Database) (accountId : Int)
    (characterName characterClass characterRace characterGender : Bytes) : Prop where
  room : ((db.liveCharacters accountId).length : Int) < MAX_CHARS_PER_ACCOUNT
  name : CharacterManager.matchesNameRegex characterName = true ∧
    CharacterManager.hasDoubleSpace characterName = false
  free : ∀ row ∈ db.live, f.lower row.name ≠ f.lower characterName
  class_slug : ∃ cc ∈ db.characterClass, cc.slug = some (upToNul characterClass)
  race_slug : ∃ r ∈ db.race, r.slug = upToNul characterRace
  gender_slug : ∃ cg ∈ db.characterGenders, cg.name = upToNul characterGender

/-- Nothing stands against the creation. -/
structure Acceptable (f : SqlFunctions) (db : Database) (seq : Sequences) (accountId : Int)
    (characterName characterClass characterRace characterGender : Bytes) : Prop where
  promised : Promised f db accountId characterName characterClass characterRace characterGender
  provided : db.Provided accountId seq.characters characterClass characterRace characterGender
  slot : db.SlotLeft accountId
  /-- `MAXVALUE` is below the limit of the conversion to `int`. -/
  id : seq.characters ≤ maxSequenceId

/-- A creation that has gone well, and what it has found. -/
structure CreationDone (db : Database) (seq : Sequences) (accountId : Int)
    (characterName characterClass characterRace characterGender : Bytes) (s' : Server)
    (result : Int) : Prop where
  id : result = seq.characters
  next : s'.sequences.characters = result + 1
  provided : db.Provided accountId result characterClass characterRace characterGender
  slot : db.SlotLeft accountId
  rows : ∃ cc rows,
    NewCharacter db accountId characterName (upToNul characterClass) (upToNul characterRace)
      (upToNul characterGender) result cc rows ∧
    ClassGrants db cc.id result rows ∧ s'.store = .idle (db.insertRows rows) ∧
    ∀ row ∈ rows.characters, row.accountSlot = db.nextAccountSlot accountId

/-- The two ends of a creation: it is refused for a reason, or it has gone well. -/
def CreationWent (f : SqlFunctions) (allow : Choice → Prop) (db : Database) (seq : Sequences)
    (accountId : Int) (characterName characterClass characterRace characterGender : Bytes)
    (s' : Server) (result : Int) : Prop :=
  (result < 0 ∧ s'.store = .idle db ∧ (FailsIn allow ∨ ¬ Acceptable f db seq accountId
    characterName characterClass characterRace characterGender)) ∨
  CreationDone db seq accountId characterName characterClass characterRace characterGender s' result

variable {accountId : Int} {characterName characterClass characterRace characterGender : Bytes}

theorem Promised.creationIds_ne_nil {f : SqlFunctions}
    (h : Promised f db accountId characterName characterClass characterRace characterGender) :
    db.creationIds (upToNul characterClass) (upToNul characterRace) (upToNul characterGender) ≠
      [] := by
  obtain ⟨cc, hcc, hclass⟩ := h.class_slug
  obtain ⟨r, hr, hrace⟩ := h.race_slug
  obtain ⟨cg, hcg, hgender⟩ := h.gender_slug
  refine List.ne_nil_of_mem (a := (cc.id, r.id, cg.id)) ?_
  simp only [creationIds, List.mem_flatMap, List.mem_map, List.mem_filter, decide_eq_true_eq]
  exact ⟨cc, ⟨hcc, hclass⟩, r, ⟨hr, hrace⟩, cg, ⟨hcg, hgender⟩, rfl⟩

theorem insertCharacter_result (hkeys : db.CreationConstraints sequences)
    (hslugs : UniqueSlugs db) (hverbatim : Verbatim 20 characterName)
    (hgiven : characterClass ≠ [] ∧ characterRace ≠ [] ∧ characterGender ≠ [])
    (hs : Solo s (.alone writes db t start log) clientData uuids sequences now)
    (hview : log.foldl applyWrite db = db) :
    ((loginServer p cfg).alone t allow).SatE
      (fun _ s' result => CreationWent p.toSqlFunctions allow db sequences accountId characterName
        characterClass characterRace characterGender s' result)
      (fun _ s' _ => SoloWithin t s' db clientData uuids now ∧ (FailsIn allow ∨
        ¬ Acceptable p.toSqlFunctions db sequences accountId characterName characterClass
          characterRace characterGender)) h s
      (CharacterManager.insertCharacter accountId characterName characterClass characterRace
        characterGender) := by
  unfold CharacterManager.insertCharacter
  refine Machine.satE_bind.mpr (satE_statement hs hview ?_ fun hnone hacc =>
    run_createCharacter_none hverbatim hnone ⟨hacc.slot, hacc.provided.account⟩)
  intro ids ws seq₁ log₁ h₁ s₁ hrun hview₁ hs₁
  rcases run_createCharacter_row hslugs hverbatim hrun with ⟨rfl, rfl⟩ |
    ⟨cc, hcc, hclass, r, hr, hrace, cg, hcg, hgender, rfl, rfl⟩
  · refine Machine.satE_bind.mpr (satE_abortWork hs₁ fun s₂ hs₂ => ?_)
    refine Machine.satE_pure.mpr (Or.inl ⟨by decide, hs₂.1, Or.inr fun hacc => ?_⟩)
    exact hacc.promised.creationIds_ne_nil (creationIds_of_createCharacter hrun)
  · have hpos := hkeys.characters_id_seq.1
    refine Machine.satE_bind.mpr (satE_orThrow (fun id hid => ?_) fun hnone => ?_)
    swap
    · refine ⟨hs₁.within_alone, Or.inr fun hacc => ?_⟩
      rw [integer_of_le_maxSequenceId hpos hacc.id] at hnone
      cases hnone
    obtain rfl := integer_eq_some hid
    have hnew := hkeys.unreferenced
    have hnext := characters_of_createCharacter hrun
    obtain ⟨hslot, haccount⟩ := slotLeft_of_createCharacter hrun
    rw [insertRows_character] at hview₁
    refine (initCharacter_result hkeys hslugs hnew hcc hclass hs₁ hview₁).mono ?_ ?_
    · rintro h₂ s₂ result ⟨⟨rfl, rows, hrows, hstore⟩, hgrant, hseq⟩
      refine Or.inr ⟨rfl, hseq.trans hnext, ⟨haccount, hgiven, fun cc' hcc' hclass' => ?_⟩,
        hslot, cc, rows, ⟨hnew.characters, ⟨hcc, hclass⟩,
          ⟨r, hr, hrace, cg, hcg, hgender, _, hrows.characters⟩, hrows.state, hrows.position⟩,
        hrows.grants, hstore, ?_⟩
      · -- the slug belongs to one class
        have hids := getClassIdBySlug_eq db hslugs hcc' hclass'
        rw [getClassIdBySlug_eq db hslugs hcc hclass] at hids
        exact List.singleton_inj.mp hids ▸ hgrant
      · rw [hrows.characters]
        intro row hrow
        rw [List.mem_singleton.mp hrow]
    · rintro h₂ s₂ e ⟨hwithin, hwhy⟩
      refine ⟨hwithin, hwhy.imp_right fun hgrant hacc => ?_⟩
      exact hgrant (hacc.provided.grantable cc hcc hclass)

theorem tryCreate_result (hkeys : db.CreationConstraints sequences)
    (hslugs : UniqueSlugs db) (hverbatim : Verbatim 20 characterName)
    (hgiven : characterClass ≠ [] ∧ characterRace ≠ [] ∧ characterGender ≠ [])
    (hs : Solo s (.idle db) clientData uuids sequences now) :
    ((loginServer p cfg).alone t allow).SatE
      (fun _ s' result => CreationWent p.toSqlFunctions allow db sequences accountId characterName
        characterClass characterRace characterGender s' result)
      (fun _ s' _ => s'.store = .idle db ∧ (FailsIn allow ∨
        ¬ Acceptable p.toSqlFunctions db sequences accountId characterName characterClass
          characterRace characterGender)) h s
      (CharacterManager.tryCreate accountId characterName characterClass characterRace
        characterGender) := by
  unfold CharacterManager.tryCreate
  refine satE_withWork hs (fun s₁ hfails hs₁ => ⟨hs₁.1, Or.inl hfails⟩) fun s₁ hs₁ => ?_
  -- an exception in the scope leaves the committed data alone
  refine Machine.SatE.mono (E := fun _ s' _ => SoloWithin t s' db clientData uuids s.clock ∧
      (FailsIn allow ∨ ¬ Acceptable p.toSqlFunctions db sequences accountId characterName
        characterClass characterRace characterGender)) ?_
    (fun _ _ _ hwent => hwent)
    fun h' s' _ hended => ⟨db, clientData, uuids, hended.1, fun _ s'' hs'' => ⟨hs''.1, hended.2⟩⟩
  refine Machine.satE_bind.mpr (satE_statement hs₁ (List.foldl_nil ..) ?_ fun hnone => by
    cases hnone)
  intro slotResult ws seq₂ log₂ h₂ s₂ hrun hview₂ hs₂
  cases hrun
  refine Machine.satE_bind.mpr (satE_orThrow (fun slotCount hcount => ?_) fun hnone => ?_)
  swap
  · refine ⟨hs₂.within_alone, Or.inr fun hacc => ?_⟩
    have hroom := hacc.promised.room
    rw [MAX_CHARS_PER_ACCOUNT] at hroom
    have hcount : integer ((db.liveCharacters accountId).length : Int) = none := hnone
    rw [integer, if_pos ⟨by omega, by omega⟩] at hcount
    cases hcount
  obtain rfl := integer_eq_some hcount
  split_ifs with hfull
  · refine Machine.satE_bind.mpr (satE_abortWork hs₂ fun s₃ hs₃ => ?_)
    exact Machine.satE_pure.mpr (.inl ⟨by decide, hs₃.1, .inr fun hacc =>
      absurd hacc.promised.room (not_lt.mpr hfull)⟩)
  · refine Machine.satE_bind.mpr (satE_statement hs₂ hview₂ ?_ fun hnone => by cases hnone)
    intro nameCheck ws seq₃ log₃ h₃ s₃ hrun hview₃ hs₃
    cases hrun
    split_ifs with htaken
    · refine Machine.satE_bind.mpr (satE_abortWork hs₃ fun s₄ hs₄ => ?_)
      refine Machine.satE_pure.mpr (.inl ⟨by decide, hs₄.1, .inr fun hacc => ?_⟩)
      rw [List.foldl_nil, hverbatim.upToNul,
        checkCharacterNameExists_eq_nil.mpr hacc.promised.free] at htaken
      cases htaken
    · exact insertCharacter_result hkeys hslugs hverbatim hgiven hs₃ hview₃

/-- What a call comes to, and why. -/
theorem createCharacter_went (hkeys : db.CreationConstraints sequences)
    (hslugs : UniqueSlugs db) (hs : Solo s (.idle db) clientData uuids sequences now) :
    ((loginServer p cfg).alone t allow).SatE
      (fun _ s' result => CreationWent p.toSqlFunctions allow db sequences accountId characterName
        characterClass characterRace characterGender s' result)
      (fun _ _ _ => False) h s
      (CharacterManager.createCharacter accountId characterName characterClass characterRace
        characterGender) := by
  unfold CharacterManager.createCharacter
  split_ifs with hmissing hname hspace
  · refine Machine.satE_pure.mpr (.inl ⟨by decide, hs.1, .inr fun hacc => ?_⟩)
    have hgiven := hacc.provided.given
    have hvalid := hacc.promised.name.1
    cases characterName with
    | nil => exact absurd hvalid (by decide)
    | cons b bs => simp [hgiven] at hmissing
  · refine Machine.satE_pure.mpr (.inl ⟨by decide, hs.1, .inr fun hacc => ?_⟩)
    rw [hacc.promised.name.1] at hname
    cases hname
  · refine Machine.satE_pure.mpr (.inl ⟨by decide, hs.1, .inr fun hacc => ?_⟩)
    rw [hacc.promised.name.2] at hspace
    cases hspace
  · have hverbatim : Verbatim 20 characterName :=
      CharacterManager.verbatim_of_matchesNameRegex (by simpa using hname)
    have hgiven : characterClass ≠ [] ∧ characterRace ≠ [] ∧ characterGender ≠ [] := by
      simp only [Bool.or_eq_true, List.isEmpty_iff, not_or] at hmissing
      exact ⟨hmissing.1.1.2, hmissing.1.2, hmissing.2⟩
    refine Machine.satE_tryCatch.mpr ((tryCreate_result hkeys hslugs hverbatim hgiven hs).mono
      (fun _ _ _ hwent => hwent) fun h' s' _ hended => ?_)
    exact Machine.satE_pure.mpr (.inl ⟨by decide, hended⟩)

theorem CreationWent.ended {f : SqlFunctions} {s' : Server} {result : Int}
    (h : CreationWent f allow db sequences accountId characterName characterClass characterRace
      characterGender s' result) (hpos : 0 < sequences.characters) :
    CreationEnded db accountId characterName characterClass characterRace characterGender s'.store
      result := by
  rcases h with ⟨hneg, hstore, -⟩ | hcreated
  · exact Or.inl ⟨hneg, hstore⟩
  · obtain ⟨cc, rows, hnew, hgrants, hstore, -⟩ := hcreated.rows
    exact Or.inr ⟨hcreated.id ▸ hpos, cc, rows, hnew, hgrants, hstore⟩

theorem createCharacter_result (hkeys : db.CreationConstraints sequences)
    (hslugs : UniqueSlugs db) (hs : Solo s (.idle db) clientData uuids sequences now) :
    ((loginServer p cfg).alone t allow).SatE
      (fun _ s' result => CreationEnded db accountId characterName characterClass characterRace
        characterGender s'.store result)
      (fun _ _ _ => False) h s
      (CharacterManager.createCharacter accountId characterName characterClass characterRace
        characterGender) :=
  (createCharacter_went hkeys hslugs hs).mono
    (fun _ _ _ hwent => hwent.ended hkeys.characters_id_seq.1) fun _ _ _ hfalse => hfalse

/-- Without an id in the answer the data are as before. For slugs without a NUL,
`createCharacter` answers with an id exactly when a complete character with that id is
committed. -/
theorem createCharacter_all_or_nothing {h' : Hist} {s' : Server} {r : Except StdException Int}
    (hstore : s.store = .idle db) (hkeys : db.CreationConstraints s.sequences)
    (hslugs : UniqueSlugs db)
    (hruns : ((loginServer p cfg).alone t fun _ => True).Runs h s
      (CharacterManager.createCharacter accountId characterName characterClass characterRace
        characterGender).run h' s' r) :
    ∃ result, r = .ok result ∧
      (0 ∉ characterClass → 0 ∉ characterRace → 0 ∉ characterGender → (0 < result ↔ ∃ cc rows,
        NewCharacter db accountId characterName characterClass characterRace characterGender result
          cc rows ∧
        ClassGrants db cc.id result rows ∧ s'.store.committed = db.insertRows rows)) ∧
      (¬ 0 < result → s'.store.committed = db) := by
  have hs := solo_of_store hstore
  have hended := Machine.sat_iff_runs.mp (createCharacter_result hkeys hslugs hs) h' s' r hruns
  cases r with
  | error e => exact hended.elim
  | ok result =>
    refine ⟨result, rfl, ?_⟩
    rcases hended with ⟨hneg, hsame⟩ | ⟨hpos, cc, rows, hnew, hgrants, hcommitted⟩
    · refine ⟨fun _ _ _ => ⟨fun hpos => by omega, ?_⟩, fun _ => by rw [hsame]; rfl⟩
      rintro ⟨cc, rows, hnew, -, hcommitted⟩
      -- the new row would be in the data from before
      obtain ⟨_, -, -, _, -, -, _, hcharacter⟩ := hnew.character
      have hlength : db.characters = db.characters ++ rows.characters := by
        rw [hsame] at hcommitted
        exact congrArg Database.characters hcommitted
      rw [hcharacter] at hlength
      simp at hlength
    · refine ⟨fun hclass hrace hgender => ?_, fun hneg => absurd hpos hneg⟩
      rw [upToNul_eq_self.mpr hclass, upToNul_eq_self.mpr hrace,
        upToNul_eq_self.mpr hgender] at hnew
      exact ⟨fun _ => ⟨cc, rows, hnew, hgrants, by rw [hcommitted]; rfl⟩, fun _ => hpos⟩

open Sample Schedule

/-- A mage, and what the class with this id grants. -/
def mages (classId : Int) : Database where
  users := [anna]
  characterClass := [{ id := classId, name := str "Mage", slug := some (str "mage") }]
  race := [{ id := 1, name := str "Human", slug := str "human" }]
  characterGenders := [{ id := 0, name := str "male", label := str "Male" }]
  classSkillTree := [⟨classId, 1, true⟩, ⟨classId, 9, false⟩]
  items := [⟨7, str "staff", 100⟩]
  classStarterItems := [⟨classId, 7, 1, some 0, none⟩]
  classStarterCurrencies := [⟨classId, 1, 20⟩]
  zones := [1]

theorem mages_constraints (classId : Int) : (mages classId).CreationConstraints {} where
  characters_id_seq := by simp [mages]
  fk_char_current_state := by simp [mages]
  character_skills_character_id_fkey := by simp [mages]
  character_currencies_character_id_fkey := by simp [mages]
  items_pkey := by simp [mages]
  class_starter_items_item_id_fkey := by simp [mages]
  class_starter_currencies_pkey := by simp [mages]

theorem mages_uniqueSlugs (classId : Int) : UniqueSlugs (mages classId) := by
  constructor <;> simp [mages]

/-- Anna creates a mage. -/
def createDora : M Int :=
  CharacterManager.createCharacter 1 (str "Dora") (str "mage") (str "human") (str "male")

def createdId : Except StdException Int → Int
  | .ok id => id
  | .error _ => 0

theorem createCharacter_all_or_nothing_dora : ∃ h' s',
    ((loginServer (.ofTables [] []) config).alone 0 fun _ => True).Runs []
      (Server.over (mages 1)) createDora.run h' s' (.ok 1) ∧
    ∃ cc rows,
      NewCharacter (mages 1) 1 (str "Dora") (str "mage") (str "human") (str "male") 1 cc rows ∧
      ClassGrants (mages 1) cc.id 1 rows ∧ s'.store.committed = (mages 1).insertRows rows := by
  obtain ⟨h', s', r, hruns, hr⟩ := exists_run_alone (.ofTables [] []) config 0 (fun _ => True)
    (Server.over (mages 1)) createDora [] (fun _ _ => trivial)
    (P := fun _ _ r => createdId r = 1) (by decide +kernel)
  obtain ⟨result, rfl, hcreated, -⟩ := createCharacter_all_or_nothing rfl (mages_constraints 1)
    (mages_uniqueSlugs 1) hruns
  obtain rfl : result = 1 := hr
  exact ⟨h', s', hruns, (hcreated (by decide) (by decide) (by decide)).mp (by decide)⟩

/-- A class with the id 0 is taken for no class: the character has no skill, although its
class has a default skill. -/
theorem class_zero_not_granted :
    (mages 0).CreationConstraints {} ∧ UniqueSlugs (mages 0) ∧ ∃ h' s',
    ((loginServer (.ofTables [] []) config).alone 0 fun _ => True).Runs []
      (Server.over (mages 0)) createDora.run h' s' (.ok 1) ∧
    ¬ ∃ cc rows,
      NewCharacter (mages 0) 1 (str "Dora") (str "mage") (str "human") (str "male") 1 cc rows ∧
      Granted (mages 0) cc.id 1 rows ∧ s'.store.committed = (mages 0).insertRows rows := by
  obtain ⟨h', s', r, hruns, hr, hskills⟩ := exists_run_alone (.ofTables [] []) config 0
    (fun _ => True) (Server.over (mages 0)) createDora [] (fun _ _ => trivial)
    (P := fun _ s' r => createdId r = 1 ∧ s'.store.committed.characterSkills = [])
    (by decide +kernel)
  cases r with
  | error e => cases hr
  | ok result =>
    obtain rfl : result = 1 := hr
    refine ⟨mages_constraints 0, mages_uniqueSlugs 0, h', s', hruns, ?_⟩
    rintro ⟨cc, rows, hnew, hgranted, hcommitted⟩
    rw [hcommitted] at hskills
    have hnone : rows.characterSkills = [] := (List.append_eq_nil_iff.mp hskills).2
    have hid : cc.id = 0 := by
      have := hnew.class_slug.1
      simp only [mages, List.mem_singleton] at this
      rw [this]
    obtain ⟨row, hrow, -⟩ := (hgranted.skill 1).mpr
      ⟨⟨0, 1, true⟩, by simp [mages], hid.symm, rfl, rfl⟩
    rw [hnone] at hrow
    cases hrow

end LoginServer
