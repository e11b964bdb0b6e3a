import LoginServer.Server.CharacterLimits
import LoginServer.Server.Ownership
import LoginServer.Server.RegisteredAccounts

/-!
# From a creation to the list of characters

A character that a client was told to have been created is in every later list of its
account, with the name, class, race and gender that were asked for, until a deletion of
it has been committed.

The row of the character lasts (`Server.reach_durable`) in all but its time of deletion,
and a row is deleted by a committed `delete_character` only (`Server.reach_deletions`).
-/

namespace LoginServer

open Database Interleaving Transactions

variable {p : Platform} {cfg : ServerConfig} {c : ServerState} {h : Hist} {s₀ : Server}
  {meets : ServerState → ServerLabel → Prop}

/-! ## What a creation has committed when it answers -/

/-- `create_character` has returned this id, and what it inserted is committed. -/
def Commits.Character (accountId : Int) (name classSlug raceSlug genderSlug : Bytes)
    (characterId : Int) (h : Hist) : Prop :=
  Verbatim 20 name ∧ ∃ ids,
    HasCommitted (.createCharacter accountId name classSlug raceSlug genderSlug)
      (characterId :: ids) h

/-- A further statement stays in the transaction. -/
theorem mem_current_exec {e : Σ c, Cmd.Reply c} (hmem : e ∈ current h) (q : Query)
    (r : Option q.Rows) : e ∈ current (⟨.execPrepared q, r⟩ :: h) :=
  List.mem_cons_of_mem _ hmem

namespace CharacterManager

/-- The statements on a new character stay in the transaction that has inserted it, and the
commit comes last. -/
theorem initCharacter_commits {q : Query} {rows : q.Rows} (characterId : Int) (classSlug : Bytes)
    (hmem : ⟨.execPrepared q, some rows⟩ ∈ current h) :
    Returns (fun h' r => r = characterId ∧ HasCommitted q rows h') h
      (initCharacter characterId classSlug) := by
  have hcommit : ∀ h', ⟨.execPrepared q, some rows⟩ ∈ current h' →
      Returns (fun h'' r => r = characterId ∧ HasCommitted q rows h'') h'
        (do commitWork; return characterId) := fun h' hmem' =>
    returns_commit (obeysE_pure.mpr ⟨rfl, [], h', rfl, hmem'⟩)
  unfold initCharacter
  refine returns_exec fun classResult => returns_exec fun _ => returns_exec fun _ => ?_
  have hbasics := mem_current_exec (mem_current_exec (mem_current_exec hmem
    (.getClassIdBySlug classSlug) (some classResult)) (.initCharacterState characterId) (some ()))
    (.initCharacterPosition characterId) (some ())
  dsimp only
  split_ifs with hclass
  · refine returns_exec fun _ => returns_exec fun _ => returns_exec fun _ => hcommit _ ?_
    exact mem_current_exec (mem_current_exec (mem_current_exec hbasics _ _) _ _) _ _
  · exact hcommit _ hbasics

variable (accountId : Int) (characterName characterClass characterRace characterGender : Bytes)

theorem insertCharacter_commits (hverbatim : Verbatim 20 characterName) :
    Returns
      (fun h' r => 0 < r → Commits.Character accountId characterName characterClass characterRace
        characterGender r h')
      h (insertCharacter accountId characterName characterClass characterRace characterGender) := by
  refine returns_exec fun rows => ?_
  cases rows with
  | nil =>
    refine returns_call (c := .abortWork) fun _ => obeysE_pure.mpr fun hpos => ?_
    exact absurd hpos (by decide)
  | cons id ids =>
    refine returns_orThrow fun characterId hid => ?_
    obtain rfl := integer_eq_some hid
    refine (initCharacter_commits characterId characterClass List.mem_cons_self).mono ?_
      fun _ _ ht => ht
    rintro h' r ⟨rfl, hcommitted⟩ -
    exact ⟨hverbatim, ids, hcommitted⟩

theorem createCharacter_commits :
    ObeysE (fun _ _ => True)
      (fun h' r => 0 < r → Commits.Character accountId characterName characterClass characterRace
        characterGender r h')
      (fun _ _ => False) h
      (createCharacter accountId characterName characterClass characterRace characterGender) := by
  have hrefused : ∀ {E : Hist → StdException → Prop} {h' : Hist} {code : Int}, code < 0 →
      ObeysE (fun _ _ => True)
        (fun h' r => 0 < r → Commits.Character accountId characterName characterClass
          characterRace characterGender r h') E h' (pure code : M Int) := fun hneg =>
    obeysE_pure.mpr fun hpos => absurd hpos (by omega)
  unfold createCharacter
  split_ifs with hmissing hregex hspaces
  · exact hrefused (by decide)
  · exact hrefused (by decide)
  · exact hrefused (by decide)
  · refine obeysE_catch (returns_withWork ?_) fun h' _ => hrefused (by decide)
    refine returns_exec fun slotResult => returns_orThrow fun slotCount _ => ?_
    split_ifs with hfull
    · exact returns_call (c := .abortWork) fun _ => hrefused (by decide)
    · refine returns_exec fun nameCheck => ?_
      split_ifs with htaken
      · exact returns_call (c := .abortWork) fun _ => hrefused (by decide)
      · refine insertCharacter_commits _ _ _ _ _ (verbatim_of_matchesNameRegex ?_)
        simpa using hregex

end CharacterManager

/-- What the answer of a creation says. -/
def creationAnswer (data : ClientDataStruct) (characterId : Int) : Json :=
  EventHandler.answerWith (str "Character created successfully") data.hash data.clientId
    "createCharacter" "characterId" (.number characterId)

theorem creationAnswer_inj {data : ClientDataStruct} {characterId characterId' : Int}
    (h : creationAnswer data characterId = creationAnswer data characterId') :
    characterId = characterId' := by
  simpa [creationAnswer, EventHandler.answerWith, ResponseBuilder.build, ResponseBuilder.setHeader,
    ResponseBuilder.setBody, Json.setMember] using h

/-- What the creation that `data` asks for has committed. -/
abbrev CommitsFor (data : ClientDataStruct) (characterId : Int) (h : Hist) : Prop :=
  Commits.Character data.clientId data.characterData.characterName
    data.characterData.characterClass data.characterData.characterRace
    data.characterData.characterGender characterId h

def KeepsCreation (data : ClientDataStruct) (h : Hist) : Prop :=
  SuccessOnly (fun message h' => ∃ characterId,
    message = creationAnswer data characterId ∧ CommitsFor data characterId h') h

theorem handleCreateCharacterEvent_commits {event : Event} {data : ClientDataStruct}
    (hdata : event.eventData = .clientData data) :
    ObeysE (fun _ _ => True) (fun h' _ => KeepsCreation data h') (fun h' _ => KeepsCreation data h')
      [] (EventHandler.handleCreateCharacterEvent event) := by
  unfold EventHandler.handleCreateCharacterEvent
  rw [hdata]
  dsimp only
  unfold EventHandler.withSession
  split_ifs with hmissing
  · exact successOnly_error trivial
  refine obeysE_bind.mpr ((obeysE_call (c := .validateSession _ _)).mpr
    ⟨trivial, fun valid => ?_⟩)
  split_ifs with hvalid
  · exact successOnly_error trivial
  refine obeysE_bind.mpr (obeysE_acquire trivial ?_ ?_)
  · refine obeysE_bind.mpr ((CharacterManager.createCharacter_commits _ _ _ _ _).mono ?_ ?_)
    · intro h₁ result hcreated
      split_ifs with hfailed
      · exact successOnly_error trivial
      · obtain ⟨hverbatim, ids, hcommitted⟩ := hcreated (by omega)
        exact successOnly_success trivial ⟨result, rfl, hverbatim, ids, hcommitted.cons _⟩
    · exact fun _ _ hfalse => hfalse.elim
  · intro socket message h' heq
    cases heq

/-! ## Deletions -/

theorem HasCommitted.update {q : Query} {rows : q.Rows} {hist : Nat → Hist} {t' : Nat}
    (hc : HasCommitted q rows (hist t')) (t : Nat) (e : Σ c, Cmd.Reply c) :
    HasCommitted q rows (Function.update hist t (e :: hist t) t') :=
  hc.suffix (suffix_update hist t t' e)

/-- A character that is deleted was so at first, or its deletion has been committed. -/
def DeletionsCommitted (s₀ : Server) (hist : Nat → Hist) (store : Database.Store) : Prop :=
  ∀ row ∈ store.committed.characters, row.deletedAt ≠ none →
    row ∈ s₀.store.committed.characters ∨
      ∃ t ids, HasCommitted (.deleteCharacter row.id row.ownerId) ids (hist t)

theorem Server.reach_deletions (h₀ : s₀.Initial)
    (h : (loginServer p cfg).Reach meets s₀.boot c) :
    DeletionsCommitted s₀ c.hist c.shared.store := by
  refine Server.reach_callInvariant (I := DeletionsCommitted s₀) ?_ ?_ h
  · exact fun row hrow _ => Or.inl hrow
  intro c c' t x job cmd r hreach hI _ hcall row hrow hdeleted
  have hkeep : row ∈ c.shared.store.committed.characters →
      row ∈ s₀.store.committed.characters ∨ ∃ t' ids,
        HasCommitted (.deleteCharacter row.id row.ownerId) ids
          (Function.update c.hist t (⟨cmd, r⟩ :: c.hist t) t') := fun hold =>
    (hI row hold hdeleted).imp_right fun ⟨t', ids, hc⟩ => ⟨t', ids, hc.update t _⟩
  rcases (exec_store hcall.exec).committed with hsame | ⟨hcommit, -, hview⟩
  · rw [hsame] at hrow
    exact hkeep hrow
  · -- the log of the transaction comes from its statements
    rw [hview] at hrow
    have hledger := Server.reach_ledger h₀ hreach
    rcases mem_characters_foldl hrow hdeleted with hold | hinsert | ⟨now, hdelete⟩
    · exact hkeep hold
    · obtain ⟨q, rows, hmem, hfrom⟩ := hledger t _ hinsert
      cases q <;> simp only [Write.From] at hfrom
      exact absurd hfrom.2.2 hdeleted
    · obtain ⟨q, rows, hmem, hfrom⟩ := hledger t _ hdelete
      cases q <;> simp only [Write.From] at hfrom
      obtain ⟨rfl, rfl⟩ := hfrom
      refine Or.inr ⟨t, rows, ?_⟩
      rw [Function.update_self, hcommit]
      exact ⟨[], c.hist t, rfl, hmem⟩

/-! ## What has become of it -/

theorem Database.SameGame.creationIds {db db' : Database} (h : db.SameGame db')
    (classSlug raceSlug genderSlug : Bytes) :
    db'.creationIds classSlug raceSlug genderSlug =
      db.creationIds classSlug raceSlug genderSlug := by
  simp only [Database.creationIds, h.characterClass, h.race, h.characterGenders]

/-- The row behind the first id that `create_character` returns. -/
theorem first_of_createCharacter {f : SqlFunctions} {db : Database} {now : Time}
    {seq seq' : Sequences} {ws : List Write} {accountId characterId : Int}
    {name classSlug raceSlug genderSlug : Bytes} {ids : List Int} (hverbatim : Verbatim 20 name)
    (h : (Query.createCharacter accountId name classSlug raceSlug genderSlug).run db now seq f =
      some (characterId :: ids, ws, seq')) :
    ∃ classId raceId genderId slot,
      (classId, raceId, genderId) ∈
        db.creationIds (upToNul classSlug) (upToNul raceSlug) (upToNul genderSlug) ∧
      characterId = seq.characters ∧ .insertCharacter {
        id := characterId, name := name, ownerId := accountId, classId := classId,
        raceId := raceId, gender := genderId, accountSlot := slot, level := 1 } ∈ ws := by
  simp only [Query.run, createCharacter, hverbatim.upToNul,
    hverbatim.varchar (Nat.le_refl 20)] at h
  split at h
  · cases h
  · rename_i hselected
    split at h
    · rename_i name' slot hname hslot
      cases hname
      split_ifs at h with hexists
      generalize hcreation : db.creationIds (upToNul classSlug) (upToNul raceSlug)
        (upToNul genderSlug) = selected at h hselected
      cases selected with
      | nil => exact absurd rfl hselected
      | cons first selected =>
        cases h
        refine ⟨first.1, first.2.1, first.2.2, slot, List.mem_cons_self, ?_, List.mem_cons_self⟩
        exact Int.add_zero _
    · cases h

/-- Task `t`, the creation that `data` asks for, has ended with the answer that its character
has this id. -/
def CreatedAs (c : ServerState) (t : Nat) (data : ClientDataStruct) (characterId : Int) : Prop :=
  ∃ event h, event.type = .CREATE_CHARACTER ∧ event.eventData = .clientData data ∧
    c.threads t = some ⟨.event event, ⟨.sendResponse data.socket (str "success")
      (creationAnswer data characterId), ()⟩ :: h, .pure ()⟩

section Runs

variable {t : Nat} {data : ClientDataStruct} {characterId : Int}

theorem CreatedAs.commits (hcreated : CreatedAs c t data characterId)
    (hreach : (loginServer p cfg).Reach meets s₀.boot c) :
    CommitsFor data characterId (c.hist t) := by
  obtain ⟨event, h, htype, hdata, hthread⟩ := hcreated
  have hprogram : ObeysE (fun _ _ => True) (fun h' _ => KeepsCreation data h')
      (fun h' _ => KeepsCreation data h') [] (EventHandler.dispatchEvent p event) := by
    rw [EventHandler.dispatchEvent, htype]
    exact handleCreateCharacterEvent_commits hdata
  obtain ⟨characterId', hmessage, hcommits⟩ := SuccessOnly.of_ended hprogram hreach hthread
  obtain rfl := creationAnswer_inj hmessage
  rw [Config.hist_of_threads hthread]
  exact hcommits

/-- The row that a creation has inserted, in every state since. -/
theorem Server.reach_created (h₀ : s₀.Initial) (h : (loginServer p cfg).Reach meets s₀.boot c)
    (hcreated : CreatedAs c t data characterId) :
    ∃ row ∈ c.shared.store.committed.characters, row.id = characterId ∧
      s₀.sequences.characters ≤ characterId ∧
      row.name = data.characterData.characterName ∧ row.ownerId = data.clientId ∧
      row.level = 1 ∧ row.experiencePoints = 0 ∧
      (row.classId, row.raceId, row.gender) ∈
        c.shared.store.committed.creationIds (upToNul data.characterData.characterClass)
          (upToNul data.characterData.characterRace)
          (upToNul data.characterData.characterGender) := by
  obtain ⟨hverbatim, ids, hcommitted⟩ := hcreated.commits h
  obtain ⟨db, now, seq, seq', ws, hdb, hseq, hrun, hstands⟩ :=
    (Server.reach_durable h₀ h).committed t _ _ hcommitted
  obtain ⟨classId, raceId, genderId, slot, hslugs, hid, hinsert⟩ :=
    first_of_createCharacter hverbatim hrun
  obtain ⟨row, hrow, hkept⟩ := hstands _ hinsert
  refine ⟨row, hrow, ?_⟩
  rw [hkept.unchanged]
  refine ⟨rfl, ?_, rfl, rfl, rfl, rfl, ?_⟩
  · rw [hid]
    exact hseq.characters
  · rw [(Server.reach_retains h).game.creationIds]
    rw [hdb.game.creationIds] at hslugs
    exact hslugs

/-- The list of an account has a row for each of its live characters whose class and race
exist. -/
theorem mem_getCharactersList {db : Database} {row : CharacterRow} {cc : CharacterClassRow}
    {r : RaceRow} (hrow : row ∈ db.characters) (hlive : row.deletedAt = none)
    (hcc : cc ∈ db.characterClass) (hclass : cc.id = row.classId) (hr : r ∈ db.race)
    (hrace : r.id = row.raceId) :
    ∃ listed ∈ db.getCharactersList row.ownerId, listed.characterId = row.id ∧
      listed.characterName = row.name ∧ listed.characterLvl = row.level ∧
      listed.experiencePoints = row.experiencePoints ∧ listed.classSlug = cc.slug ∧
      listed.raceSlug = r.slug ∧
      listed.genderSlug =
        (db.characterGenders.find? fun cg => cg.id = row.gender).map (·.name) := by
  unfold Database.getCharactersList
  simp only [List.mem_insertionSort, List.mem_flatMap, List.mem_map, List.mem_filter]
  refine ⟨_, ⟨row, ⟨hrow, by simp [hlive]⟩, cc, ⟨hcc, by simpa using hclass⟩, r,
    ⟨hr, by simpa using hrace⟩, rfl⟩, rfl, rfl, rfl, rfl, rfl, rfl, rfl⟩

theorem find_gender {genders : List CharacterGenderRow} {cg : CharacterGenderRow}
    (hunique : (genders.map (·.id)).Nodup) (hcg : cg ∈ genders) :
    genders.find? (fun r => r.id = cg.id) = some cg := by
  have hone := Transactions.filter_key hunique hcg
  rw [← List.head?_filter, hone]
  rfl

/-- A character that was reported as created is listed until it is deleted. In every later
state, whatever other tasks have done and whatever has failed, a deletion of it by its owner
has been committed, or the list of the account has it, at level 1, with the name of the request
and with its class, race and gender, each up to its first NUL. -/
theorem created_character_listed (h₀ : s₀.Initial)
    (hids : ∀ row ∈ s₀.store.committed.characters, row.id < s₀.sequences.characters)
    (hgenders : (s₀.store.committed.characterGenders.map (·.id)).Nodup)
    (h : (loginServer p cfg).Reach meets s₀.boot c)
    (hcreated : CreatedAs c t data characterId) :
    (∃ t' ids, HasCommitted (.deleteCharacter characterId data.clientId) ids (c.hist t')) ∨
    ∃ listed ∈ c.shared.store.committed.getCharactersList data.clientId,
      listed.characterId = characterId ∧
      listed.characterName = data.characterData.characterName ∧
      listed.characterLvl = 1 ∧ listed.experiencePoints = 0 ∧
      listed.classSlug = some (upToNul data.characterData.characterClass) ∧
      listed.raceSlug = upToNul data.characterData.characterRace ∧
      listed.genderSlug = some (upToNul data.characterData.characterGender) := by
  obtain ⟨row, hrow, rfl, hnew, hname, howner, hlevel, hpoints, hslugs⟩ :=
    Server.reach_created h₀ h hcreated
  by_cases hlive : row.deletedAt = none
  · obtain ⟨cc, hcc, hclass, r, hr, hrace, cg, hcg, hgender, heq⟩ := mem_creationIds hslugs
    simp only [Prod.mk.injEq] at heq
    obtain ⟨hclassId, hraceId, hgenderId⟩ := heq
    obtain ⟨listed, hlisted, hid, hname', hlevel', hpoints', hclass', hrace', hgender'⟩ :=
      mem_getCharactersList hrow hlive hcc hclassId.symm hr hraceId.symm
    rw [howner] at hlisted
    have hunique : (c.shared.store.committed.characterGenders.map (·.id)).Nodup := by
      rw [(Server.reach_retains h).game.characterGenders]
      exact hgenders
    refine Or.inr ⟨listed, hlisted, hid, hname'.trans hname, hlevel'.trans hlevel,
      hpoints'.trans hpoints, hclass'.trans hclass, hrace'.trans hrace, ?_⟩
    rw [hgender', hgenderId, find_gender hunique hcg, Option.map_some, hgender]
  · rcases Server.reach_deletions h₀ h row hrow hlive with hold | hdeleted
    · exact absurd (hids row hold) (Int.not_lt.mpr hnew)
    · rw [howner] at hdeleted
      exact Or.inl hdeleted

end Runs

namespace Sample

def isDeletion : (Σ c, Cmd.Reply c) → Bool
  | ⟨.execPrepared (.deleteCharacter _ _), _⟩ => true
  | _ => false

theorem isDeletion_of_hasCommitted {characterId accountId : Int} {ids : List Int}
    (hc : HasCommitted (.deleteCharacter characterId accountId) ids h) :
    h.any isDeletion = true := by
  obtain ⟨h₂, h₁, rfl, hmem⟩ := hc
  have hmem' : ⟨.execPrepared (.deleteCharacter characterId accountId), some ids⟩ ∈
      h₂ ++ ⟨.commitWork, some ()⟩ :: h₁ :=
    List.mem_append_right _ (List.mem_cons_of_mem _ ((prefix_current h₁).subset hmem))
  exact List.any_eq_true.mpr ⟨_, hmem', rfl⟩

/-- Task 1 has created a character, and no task has deleted one. -/
def doraCreated (c : ServerState) : Bool :=
  (match c.threads 1 with
    | some ⟨.event event, ⟨.sendResponse socket status _, _⟩ :: _, .pure ()⟩ =>
      match event.eventData with
      | .clientData data =>
        event.type = .CREATE_CHARACTER && data.clientId = 1 &&
          data.characterData.characterName = str "Dora" && socket = data.socket &&
          status = str "success"
      | .registration _ => false
    | _ => false) &&
  !(c.hist 0).any isDeletion && !(c.hist 1).any isDeletion

end Sample

open Sample Schedule

theorem created_character_listed_dora : ∃ c data characterId,
    (loginServer creationPlatform config).Reach (fun _ _ => True)
      (Server.over threeCharacters).boot c ∧
    CreatedAs c 1 data characterId ∧
    ∃ listed ∈ c.shared.store.committed.getCharactersList 1,
      listed.characterId = characterId ∧ listed.characterName = str "Dora" := by
  have h₀ : (Server.over threeCharacters).Initial := Server.over_initial rfl
  obtain ⟨c, hreach, hnone, hcreated⟩ : ∃ c,
      (loginServer creationPlatform config).Reach (fun _ _ => True)
        (Server.over threeCharacters).boot c ∧
      (∀ t, 2 ≤ t → c.threads t = none) ∧ doraCreated c = true :=
    exists_reach_below creationPlatform config (.over threeCharacters) 2
      (fun _ _ (_ : true = true) _ _ => trivial)
      ([frame 1 loginText, frame 1 createText, .spawn 0 .dispatch] ++ login 0 tokenA ++
        calls 0 2 ++ [.spawn 1 .dispatch] ++ insertCharacter 1 ++ initCharacter 1 ++ calls 1 1)
      (by decide) (by decide +kernel)
  simp only [doraCreated, Bool.and_eq_true, Bool.not_eq_true'] at hcreated
  obtain ⟨⟨hfinished, hkept₀⟩, hkept₁⟩ := hcreated
  have hkept : ∀ t ids characterId,
      ¬ HasCommitted (.deleteCharacter characterId 1) ids (c.hist t) := by
    intro t ids characterId hc
    have hany := isDeletion_of_hasCommitted hc
    obtain rfl | rfl | hlater : t = 0 ∨ t = 1 ∨ 2 ≤ t := by omega
    · exact absurd (hkept₀.symm.trans hany) (by simp)
    · exact absurd (hkept₁.symm.trans hany) (by simp)
    · rw [Config.hist, hnone t hlater] at hany
      cases hany
  split at hfinished
  · rename_i event socket status message r h hthread
    split at hfinished
    · rename_i data hdata
      simp only [Bool.and_eq_true, decide_eq_true_eq] at hfinished
      obtain ⟨⟨⟨⟨htype, hclient⟩, hname⟩, rfl⟩, rfl⟩ := hfinished
      have hprogram : ObeysE (fun _ _ => True) (fun h' _ => KeepsCreation data h')
          (fun h' _ => KeepsCreation data h') []
          (EventHandler.dispatchEvent creationPlatform event) := by
        rw [EventHandler.dispatchEvent, htype]
        exact handleCreateCharacterEvent_commits hdata
      obtain ⟨characterId, rfl, -⟩ := SuccessOnly.of_ended hprogram hreach hthread
      have hcreated : CreatedAs c 1 data characterId := ⟨event, h, htype, hdata, hthread⟩
      refine ⟨c, data, characterId, hreach, hcreated, ?_⟩
      rcases created_character_listed h₀ (by decide) (by decide) hreach hcreated with
        ⟨t, ids, hdeleted⟩ | ⟨listed, hlisted, hid, hlistedName, -⟩
      · rw [hclient] at hdeleted
        exact absurd hdeleted (hkept t ids characterId)
      · rw [hclient] at hlisted
        exact ⟨listed, hlisted, hid, hlistedName.trans hname⟩
    · cases hfinished
  · cases hfinished

end LoginServer
