import LoginServer.Server.Alone
import LoginServer.Server.CharacterLimits
import LoginServer.Server.Listing

/-!
# Failures of the database in the answers about characters

The list and delete handlers answer as if a failed statement, conversion or commit had
found nothing. The handlers are run with any failure anywhere; what they have been told
is read off the history (`listed`, `delivered`), and the answer is right just when what
failed would have found nothing.
-/

namespace LoginServer

open Database Interleaving

/-! ## What the database has delivered, and what was answered -/

structure Response where
  socket : Option Socket
  status : Bytes
  message : Json

def response? : (Σ c, Cmd.Reply c) → Option Response
  | ⟨.sendResponse socket status message, _⟩ => some ⟨socket, status, message⟩
  | _ => none

def responses (h : Hist) : List Response := h.filterMap response?

def isListed : (Σ c, Cmd.Reply c) → Bool
  | ⟨.execPrepared (.getCharactersList _), some _⟩ => true
  | _ => false

/-- The statement of the list has returned its rows. -/
def listed (h : Hist) : Bool := h.any isListed

/-- The characters whose equipment was read by a transaction that then committed. -/
def delivered : Hist → List Int
  | [] => []
  | ⟨.commitWork, some ()⟩ ::
      ⟨.execPrepared (.getCharacterEquipmentPreview characterId), some _⟩ :: h =>
    characterId :: delivered h
  | _ :: h => delivered h

/-- Calls that deliver no list and no equipment, and answer nothing. -/
def Cmd.isQuiet : Cmd → Bool
  | .commitWork | .sendResponse _ _ _ | .execPrepared (.getCharactersList _) => false
  | _ => true

/-- What the handler knows before it answers. -/
structure Gathered (h : Hist) (list : Bool) (ids : List Int) : Prop where
  listed : listed h = list
  delivered : delivered h = ids
  responses : responses h = []

section Gathering

variable {h : Hist} {list : Bool} {ids : List Int}

theorem delivered_cons {c : Cmd} (hc : c ≠ .commitWork) (r : c.Reply) :
    delivered (⟨c, r⟩ :: h) = delivered h := by
  cases c with
  | commitWork => exact absurd rfl hc
  | _ => rfl

theorem Gathered.cons (hg : Gathered h list ids) {c : Cmd} (hc : c.isQuiet = true)
    (r : c.Reply) : Gathered (⟨c, r⟩ :: h) list ids := by
  have hlisted : isListed ⟨c, r⟩ = false := by
    unfold isListed
    split
    · rename_i heq
      cases heq
      cases hc
    · rfl
  have hresponse : response? ⟨c, r⟩ = none := by
    unfold response?
    split
    · rename_i heq
      cases heq
      cases hc
    · rfl
  have hcommit : c ≠ .commitWork := by
    rintro rfl
    cases hc
  refine ⟨?_, (delivered_cons hcommit r).trans hg.delivered, ?_⟩
  · rw [LoginServer.listed, List.any_cons, hlisted]
    exact hg.listed
  · rw [LoginServer.responses, List.filterMap_cons_none hresponse]
    exact hg.responses

theorem Gathered.commitFailed (hg : Gathered h list ids) :
    Gathered (⟨.commitWork, none⟩ :: h) list ids :=
  ⟨hg.listed, hg.delivered, hg.responses⟩

theorem Gathered.listFailed (hg : Gathered h list ids) (accountId : Int) :
    Gathered (⟨.execPrepared (.getCharactersList accountId), none⟩ :: h) list ids :=
  ⟨hg.listed, hg.delivered, hg.responses⟩

theorem Gathered.listDelivered (hg : Gathered h list ids) (accountId : Int)
    (rows : List CharacterListRow) :
    Gathered (⟨.execPrepared (.getCharactersList accountId), some rows⟩ :: h) true ids :=
  ⟨rfl, hg.delivered, hg.responses⟩

theorem Gathered.listCommitted {accountId : Int} {rows : List CharacterListRow}
    (hg : Gathered (⟨.execPrepared (.getCharactersList accountId), some rows⟩ :: h) list ids) :
    Gathered (⟨.commitWork, some ()⟩ ::
      ⟨.execPrepared (.getCharactersList accountId), some rows⟩ :: h) list ids :=
  ⟨hg.listed, hg.delivered, hg.responses⟩

theorem Gathered.preview (hg : Gathered h list ids) (characterId : Int)
    (rows : List (Int × Bytes)) :
    Gathered (⟨.commitWork, some ()⟩ ::
      ⟨.execPrepared (.getCharacterEquipmentPreview characterId), some rows⟩ :: h) list
      (characterId :: ids) :=
  ⟨hg.listed, congrArg _ hg.delivered, hg.responses⟩

end Gathering

/-! ## The transactions of the list -/

section Parts

open CharacterManager

variable {p : Platform} {cfg : ServerConfig} {t : Nat} {allow : Choice → Prop} {db : Database}
  {s : Server} {h : Hist} {list : Bool} {ids : List Int} {E : Hist → Server → StdException → Prop}

theorem getCharactersList_shown (accountId : Int)
    {Q : Hist → Server → List CharacterDataStruct → Prop}
    (hstore : s.store = .idle db) (hg : Gathered h false ids)
    (hQ : ∀ list h' s', s'.store = .idle db → Gathered h' list ids →
      Q h' s' (shownCharacters db accountId list)) :
    ((loginServer p cfg).alone t allow).SatE Q E h s (getCharactersList accountId) := by
  refine Machine.satE_tryCatch.mpr (satE_withWork (solo_of_store hstore) ?_ fun s₁ hs₁ => ?_)
  · intro s₁ _ hs₁
    exact hQ false _ s₁ hs₁.store_eq (hg.cons rfl _)
  have hbegin := hg.cons (c := .beginWork) rfl (some ())
  refine Machine.satE_bind.mpr (satE_execPrepared hs₁ (fun rows ws seq' s₂ hrun hs₂ => ?_) ?_)
  · cases hrun
    have hlist := hbegin.listDelivered accountId (db.getCharactersList accountId)
    have hshown : shownCharacters db accountId true =
      convertWhile convertRow (db.getCharactersList accountId) := if_pos rfl
    simp only [List.foldl_nil]
    cases hrows : db.getCharactersList accountId with
    | nil =>
      refine Machine.satE_bind.mpr (satE_abortWork hs₂ fun s₃ hs₃ => Machine.satE_pure.mpr ?_)
      rw [hrows] at hlist hshown
      rw [← show _ = ([] : List CharacterDataStruct) from hshown]
      exact hQ true _ s₃ hs₃.store_eq (hlist.cons rfl _)
    | cons row rows =>
      obtain ⟨complete, hloop⟩ := getCharactersListLoop_eq [] (row :: rows)
      rw [hrows] at hlist hshown
      simp only [hloop, pure_bind]
      rw [List.nil_append, ← hshown]
      cases complete with
      | true =>
        refine Machine.satE_bind.mpr (Machine.satE_tryCatch.mpr (satE_commitWork hs₂ ?_ ?_))
        · intro s₃ hs₃
          exact hQ true _ s₃ hs₃.store_eq hlist.listCommitted
        · intro s₃ _ hs₃
          refine satE_unwindWork hs₃.within_idle fun seq' s₄ hs₄ => ?_
          exact hQ true _ s₄ hs₄.store_eq (hlist.commitFailed.cons rfl _)
      | false =>
        refine Machine.satE_bind.mpr (satE_unwindWork hs₂.within_alone fun seq' s₃ hs₃ => ?_)
        exact hQ true _ s₃ hs₃.store_eq (hlist.cons rfl _)
  · rintro s₂ - hs₂
    refine ⟨db, _, _, hs₂.within_alone, fun seq' s₃ hs₃ => ?_⟩
    exact hQ false _ s₃ hs₃.store_eq ((hbegin.listFailed accountId).cons rfl _)

theorem shownEquipment_congr {ids ids' : List Int} {characterId : Int}
    (hids : characterId ∈ ids' ↔ characterId ∈ ids) :
    shownEquipment db ids' characterId = shownEquipment db ids characterId := by
  simp only [shownEquipment, hids]

theorem getCharacterEquipmentPreview_shown {characterId : Int}
    {Q : Hist → Server → List EquipmentPreviewItemStruct → Prop}
    (hstore : s.store = .idle db) (hg : Gathered h list ids) (hnew : characterId ∉ ids)
    (hQ : ∀ ids' h' s', (∀ id, id ≠ characterId → (id ∈ ids' ↔ id ∈ ids)) →
      s'.store = .idle db → Gathered h' list ids' →
      Q h' s' (shownEquipment db ids' characterId)) :
    ((loginServer p cfg).alone t allow).SatE Q E h s
      (getCharacterEquipmentPreview characterId) := by
  have hlost : ∀ h' s', s'.store = .idle db → Gathered h' list ids → Q h' s' [] := by
    intro h' s' hstore' hg'
    have hshown : shownEquipment db ids characterId = [] := if_neg hnew
    rw [← hshown]
    exact hQ ids h' s' (fun _ _ => Iff.rfl) hstore' hg'
  refine Machine.satE_tryCatch.mpr (satE_withWork (solo_of_store hstore) ?_ fun s₁ hs₁ => ?_)
  · intro s₁ _ hs₁
    exact hlost _ s₁ hs₁.store_eq (hg.cons rfl _)
  have hbegin := hg.cons (c := .beginWork) rfl (some ())
  refine Machine.satE_bind.mpr (satE_execPrepared hs₁ (fun rows ws seq' s₂ hrun hs₂ => ?_) ?_)
  · cases hrun
    refine Machine.satE_bind.mpr (satE_commitWork hs₂ (fun s₃ hs₃ => ?_) fun s₃ _ hs₃ => ?_)
    · have hshown : shownEquipment db (characterId :: ids) characterId =
        equipmentItems (db.getCharacterEquipmentPreview characterId) := if_pos List.mem_cons_self
      refine Machine.satE_pure.mpr ?_
      rw [List.foldl_nil, ← hshown]
      refine hQ _ _ s₃ (fun id hid => ?_) hs₃.store_eq (hbegin.preview characterId _)
      rw [List.mem_cons, or_iff_right hid]
    · refine ⟨db, _, _, hs₃.within_idle, fun seq' s₄ hs₄ => ?_⟩
      exact hlost _ s₄ hs₄.store_eq (((hbegin.cons rfl _).commitFailed).cons rfl _)
  · rintro s₂ - hs₂
    refine ⟨db, _, _, hs₂.within_alone, fun seq' s₃ hs₃ => ?_⟩
    exact hlost _ s₃ hs₃.store_eq ((hbegin.cons rfl _).cons rfl _)

/-- The loop over the characters. No id comes twice, so what was delivered for one
character is not taken for another. -/
theorem previews_shown {characters : List CharacterDataStruct}
    {Q : Hist → Server → List Json → Prop}
    (hnodup : (characters.map (·.characterId)).Nodup) (hstore : s.store = .idle db)
    (hg : Gathered h list ids) (hnew : ∀ id ∈ characters.map (·.characterId), id ∉ ids)
    (hQ : ∀ ids' h' s',
      (∀ id, id ∉ characters.map (·.characterId) → (id ∈ ids' ↔ id ∈ ids)) →
      s'.store = .idle db → Gathered h' list ids' →
      Q h' s' (characters.map fun character =>
        EventHandler.characterJson character (shownEquipment db ids' character.characterId))) :
    ((loginServer p cfg).alone t allow).SatE Q E h s (characters.mapM fun character => do
      let equip ← getCharacterEquipmentPreview character.characterId
      return EventHandler.characterJson character equip) := by
  induction characters generalizing h s ids Q with
  | nil =>
    rw [List.mapM_nil]
    exact Machine.satE_pure.mpr (hQ ids h s (fun _ _ => Iff.rfl) hstore hg)
  | cons character characters ih =>
    rw [List.map_cons, List.nodup_cons] at hnodup
    rw [List.map_cons, List.forall_mem_cons] at hnew
    rw [List.mapM_cons]
    refine Machine.satE_bind.mpr (Machine.satE_bind.mpr ?_)
    refine getCharacterEquipmentPreview_shown hstore hg hnew.1 ?_
    intro ids₁ h₁ s₁ hids₁ hstore₁ hg₁
    refine Machine.satE_pure.mpr (Machine.satE_bind.mpr ?_)
    refine ih hnodup.2 hstore₁ hg₁ (fun id hid => ?_) fun ids₂ h₂ s₂ hids₂ hstore₂ hg₂ => ?_
    · have hne : id ≠ character.characterId := fun heq => hnodup.1 (heq ▸ hid)
      rw [hids₁ id hne]
      exact hnew.2 id hid
    · rw [← shownEquipment_congr (hids₂ _ hnodup.1)]
      refine Machine.satE_pure.mpr (hQ ids₂ h₂ s₂ (fun id hid => ?_) hstore₂ hg₂)
      rw [List.map_cons, List.mem_cons, not_or] at hid
      rw [hids₂ id hid.2, hids₁ id hid.1]

theorem withSession_valid {data : ClientDataStruct} {unauthorized eventType : String}
    {hash₀ : Bytes} {clientId₀ : Int} {body : M Unit} {Q : Hist → Server → Unit → Prop}
    (hstore : s.store = .idle db)
    (hvalid : s.clientData.validateSession data.clientId data.hash = true)
    (hbody : ∀ s', s'.store = .idle db → s'.clientData = s.clientData →
      ((loginServer p cfg).alone t allow).SatE Q E
        (⟨.validateSession data.clientId data.hash, true⟩ :: h) s' body) :
    ((loginServer p cfg).alone t allow).SatE Q E h s
      (EventHandler.withSession data unauthorized hash₀ clientId₀ eventType body) := by
  obtain ⟨hid, hhash, -⟩ := ClientData.validateSession_iff.mp hvalid
  unfold EventHandler.withSession
  rw [if_neg (by simp [hid, hhash])]
  refine Machine.satE_bind.mpr (satE_validateSession (solo_of_store hstore) fun s₁ hs₁ => ?_)
  rw [hvalid]
  exact hbody s₁ hs₁.store_eq hs₁.clientData_eq

/-! ## The list handler -/

/-- The answer with which a list is sent. -/
def listResponse (data current : ClientDataStruct) (entries : List Json) : Response where
  socket := data.socket
  status := str "success"
  message := EventHandler.answerWith (str "Characters list retrieved successfully!") current.hash
    current.clientId "getCharactersList" "charactersList" (.array entries)

theorem handleGetCharactersListEvent_shown {event : Event} {data : ClientDataStruct}
    (hdata : event.eventData = .clientData data) (hkeys : db.Constraints)
    (hstore : s.store = .idle db)
    (hvalid : s.clientData.validateSession data.clientId data.hash = true) :
    ((loginServer p cfg).alone t allow).SatE
      (fun h' _ _ => ∃ current, responses h' = [listResponse data current
        (shownEntries db event.clientID (listed h') (delivered h'))])
      (fun h' _ _ => ⟨.acquire, none⟩ ∈ h') [] s
      (EventHandler.handleGetCharactersListEvent event) := by
  obtain ⟨hid, -, entry, hentry, -⟩ := ClientData.validateSession_iff.mp hvalid
  unfold EventHandler.handleGetCharactersListEvent
  rw [hdata]
  refine withSession_valid hstore hvalid fun s₁ hstore₁ hclientData₁ => ?_
  have hg : Gathered [] false [] := ⟨rfl, rfl, rfl⟩
  have hg₁ := hg.cons (c := .validateSession data.clientId data.hash) rfl true
  refine Machine.satE_bind.mpr (satE_touchSession (solo_of_store hstore₁) ?_)
  intro nowMs touched s₂ hs₂
  have hg₂ := (hg₁.cons (c := .nowMs) rfl nowMs).cons (c := .touchSession data.clientId nowMs) rfl
    touched
  refine Machine.satE_bind.mpr (satE_getClientData hs₂ fun s₃ hs₃ => ?_)
  rw [hclientData₁]
  have hkeeps := SessionOp.keeps_touchSession s.clientData data.clientId 0 nowMs
  obtain ⟨current, hcurrent, -⟩ := hkeeps.find_some data.clientId entry hentry
  rw [ClientData.getClientData, if_neg hid, hcurrent]
  have hg₃ := hg₂.cons (c := .getClientData data.clientId) rfl (some current)
  refine Machine.satE_bind.mpr (satE_acquire hs₃ (fun s₄ hs₄ => ?_) fun s₄ _ _ => ?_)
  · have hg₄ := hg₃.cons (c := .acquire) rfl (some ())
    refine Machine.satE_bind.mpr ?_
    refine getCharactersList_shown event.clientID hs₄.store_eq hg₄ fun list h₅ s₅ hstore₅ hg₅ => ?_
    refine Machine.satE_bind.mpr (previews_shown (shownCharacters_nodup hkeys) hstore₅ hg₅ ?_ ?_)
    · exact fun id _ => List.not_mem_nil
    intro ids h₆ s₆ _ hstore₆ hg₆
    refine satE_sendResponse (solo_of_store hstore₆) fun s₇ hs₇ => ⟨current, ?_⟩
    have hlisted : ∀ m, listed (⟨.sendResponse data.socket (str "success") m, ()⟩ :: h₆) = list :=
      fun _ => hg₆.listed
    have hdelivered : ∀ m,
        delivered (⟨.sendResponse data.socket (str "success") m, ()⟩ :: h₆) = ids :=
      fun _ => hg₆.delivered
    rw [hlisted, hdelivered]
    exact congrArg (List.cons _) hg₆.responses
  · exact List.mem_cons_self

/-! ## The delete handler -/

/-- Nothing has been committed or answered. -/
structure Pending (h : Hist) : Prop where
  responses : responses h = []
  uncommitted : ⟨.commitWork, some ()⟩ ∉ h

theorem Pending.cons (hp : Pending h) {c : Cmd} (hc : c.isQuiet = true) (r : c.Reply) :
    Pending (⟨c, r⟩ :: h) := by
  have hg : Gathered h (listed h) (delivered h) := ⟨rfl, rfl, hp.responses⟩
  refine ⟨(hg.cons hc r).responses, fun hmem => ?_⟩
  rcases List.mem_cons.mp hmem with heq | hmem
  · cases heq
    cases hc
  · exact hp.uncommitted hmem

theorem Pending.commitFailed (hp : Pending h) : Pending (⟨.commitWork, none⟩ :: h) := by
  refine ⟨hp.responses, fun hmem => ?_⟩
  rcases List.mem_cons.mp hmem with heq | hmem
  · cases heq
  · exact hp.uncommitted hmem

theorem live_deleted {accountId : Int} {now : Time} {rows : List CharacterRow} {c : CharacterRow}
    (hc : c ∈ (((rows.map fun c => Write.softDelete c.id c.ownerId now).foldl applyWrite
      db).liveCharacters accountId)) :
    c ∈ db.liveCharacters accountId ∧
      ∀ row ∈ rows, ¬ (c.id = row.id ∧ c.ownerId = row.ownerId) := by
  rw [liveCharacters_eq, live_softDeletes] at hc
  obtain ⟨hlive, howner⟩ := List.mem_filter.mp hc
  obtain ⟨hlive, hrows⟩ := List.mem_filter.mp hlive
  refine ⟨?_, by simpa using hrows⟩
  rw [liveCharacters_eq]
  exact List.mem_filter.mpr ⟨hlive, howner⟩

theorem deleteCharacter_ended {accountId characterId : Int} {Q : Hist → Server → Bool → Prop}
    (hstore : s.store = .idle db) (hp : Pending h)
    (hgone : ∀ h' s', responses h' = [] → ⟨.commitWork, some ()⟩ ∈ h' →
      (∃ c ∈ db.liveCharacters accountId, c.id = characterId) →
      (∀ c ∈ s'.store.committed.liveCharacters accountId, c.id ≠ characterId) → Q h' s' true)
    (hnone : ∀ h' s', responses h' = [] → ⟨.commitWork, some ()⟩ ∈ h' →
      (∀ c ∈ db.liveCharacters accountId, c.id ≠ characterId) → Q h' s' false)
    (hfailed : ∀ h' s', Pending h' → Q h' s' false) :
    ((loginServer p cfg).alone t allow).SatE Q E h s (deleteCharacter accountId characterId) := by
  refine Machine.satE_tryCatch.mpr (satE_withWork (solo_of_store hstore) ?_ fun s₁ hs₁ => ?_)
  · intro s₁ _ _
    exact hfailed _ s₁ (hp.cons rfl _)
  have hbegin := hp.cons (c := .beginWork) rfl (some ())
  refine Machine.satE_bind.mpr (satE_execPrepared hs₁ (fun ids ws seq' s₂ hrun hs₂ => ?_) ?_)
  · cases hrun
    rw [List.foldl_nil, List.nil_append] at hs₂
    have hexec := fun ids : List Int =>
      hbegin.cons (c := .execPrepared (.deleteCharacter characterId accountId)) rfl (some ids)
    have hresponses : ∀ ids : List Int, responses (⟨.commitWork, some ()⟩ ::
        ⟨.execPrepared (.deleteCharacter characterId accountId), some ids⟩ ::
        ⟨.beginWork, some ()⟩ :: h) = [] := fun ids => (hexec ids).responses
    refine Machine.satE_bind.mpr (satE_commitWork hs₂ (fun s₃ hs₃ => ?_) fun s₃ _ hs₃ => ?_)
    · refine Machine.satE_pure.mpr ?_
      have hselected : ∀ c, c ∈ (db.characters.filter fun c =>
          c.id = characterId && c.ownerId = accountId && c.deletedAt.isNone) ↔
          c ∈ db.liveCharacters accountId ∧ c.id = characterId := by
        intro c
        simp only [liveCharacters, List.mem_filter, Bool.and_eq_true, decide_eq_true_eq]
        tauto
      by_cases hlive : ∃ c ∈ db.liveCharacters accountId, c.id = characterId
      · obtain ⟨c, hc⟩ := hlive
        have hid := List.mem_map_of_mem (f := CharacterRow.id) ((hselected c).mpr hc)
        have hne := List.ne_nil_of_mem hid
        rw [List.foldl_nil, List.isEmpty_eq_false_iff.mpr hne]
        refine hgone _ s₃ (hresponses _) List.mem_cons_self ⟨c, hc⟩ fun c' hc' hid => ?_
        rw [hs₃.store_eq] at hc'
        obtain ⟨hlive', hnot⟩ := live_deleted hc'
        exact hnot c' ((hselected c').mpr ⟨hlive', hid⟩) ⟨rfl, rfl⟩
      · have hnil : (db.characters.filter fun c =>
            c.id = characterId && c.ownerId = accountId && c.deletedAt.isNone) = [] :=
          List.eq_nil_iff_forall_not_mem.mpr fun c hc => hlive ⟨c, (hselected c).mp hc⟩
        rw [List.foldl_nil, hnil]
        exact hnone _ s₃ (hresponses _) List.mem_cons_self fun c hc hid => hlive ⟨c, hc, hid⟩
    · refine ⟨db, _, _, hs₃.within_idle, fun seq' s₄ _ => ?_⟩
      exact hfailed _ s₄ ((hexec _).commitFailed.cons rfl _)
  · rintro s₂ - hs₂
    refine ⟨db, _, _, hs₂.within_alone, fun seq' s₃ _ => ?_⟩
    exact hfailed _ s₃ ((hbegin.cons rfl _).cons rfl _)

/-! ## Definite answers -/

/-- `header.message` of a response. -/
def headerMessage (message : Json) : Option Json :=
  (message.member (str "header")).find? (str "message")

/-- `body.charactersList` of a response. -/
def charactersListOf (message : Json) : Option Json :=
  (message.member (str "body")).find? (str "charactersList")

/-- The response says that the request has failed. -/
def SaysFailed (response : Response) : Prop :=
  response.status = str "error" ∧ ∃ code,
    headerMessage response.message = some (.string code) ∧ str "ERR_" <+: code ∧
    code ≠ str "ERR_CHARACTER_NOT_FOUND"

/-- One answer: the list of the account, or that the request has failed. -/
def DefiniteList (db : Database) (accountId : Int) (h : Hist) : Prop :=
  ∃ response, responses h = [response] ∧
    ((response.status = str "success" ∧ ∃ entries,
      charactersListOf response.message = some (.array entries) ∧
      ListsExactly db accountId entries) ∨
    SaysFailed response)

/-- One answer: the character was there and is gone, there is no such character, or the
request has failed. -/
def DefiniteDelete (db after : Database) (accountId characterId : Int) (h : Hist) : Prop :=
  ∃ response, responses h = [response] ∧
    ((response.status = str "success" ∧
      (∃ c ∈ db.liveCharacters accountId, c.id = characterId) ∧
      ∀ c ∈ after.liveCharacters accountId, c.id ≠ characterId) ∨
    (response.status = str "error" ∧
      headerMessage response.message = some (.string (str "ERR_CHARACTER_NOT_FOUND")) ∧
      ∀ c ∈ db.liveCharacters accountId, c.id ≠ characterId) ∨
    SaysFailed response)

theorem definiteList_iff {data current : ClientDataStruct} {accountId : Int}
    (hkeys : db.Constraints)
    (hresponses : responses h =
      [listResponse data current (shownEntries db accountId (listed h) (delivered h))]) :
    DefiniteList db accountId h ↔ NothingLost db accountId (listed h) (delivered h) := by
  rw [← listsExactly_iff hkeys, DefiniteList, hresponses]
  constructor
  · rintro ⟨response, heq, hlist | ⟨herror, -⟩⟩
    · obtain rfl := (List.cons.inj heq).1
      obtain ⟨-, entries, hentries, hexact⟩ := hlist
      cases hentries
      exact hexact
    · obtain rfl := (List.cons.inj heq).1
      exact absurd herror success_ne_error
  · intro hexact
    exact ⟨_, rfl, Or.inl ⟨rfl, _, rfl, hexact⟩⟩

theorem handleDeleteCharacterEvent_definite {event : Event} {data : ClientDataStruct}
    (hdata : event.eventData = .clientData data) (hstore : s.store = .idle db)
    (hvalid : s.clientData.validateSession data.clientId data.hash = true) :
    ((loginServer p cfg).alone t allow).SatE
      (fun h' s' _ => DefiniteDelete db s'.store.committed data.clientId
          data.characterData.characterId h' ↔
        data.characterData.characterId ≤ 0 ∨ ⟨.commitWork, some ()⟩ ∈ h' ∨
          ∀ c ∈ db.liveCharacters data.clientId, c.id ≠ data.characterData.characterId)
      (fun h' _ _ => ⟨.acquire, none⟩ ∈ h') [] s
      (EventHandler.handleDeleteCharacterEvent event) := by
  unfold EventHandler.handleDeleteCharacterEvent
  rw [hdata]
  refine withSession_valid hstore hvalid fun s₁ hstore₁ _ => ?_
  have hp : Pending [] := ⟨rfl, List.not_mem_nil⟩
  have hp₁ := hp.cons (c := .validateSession data.clientId data.hash) rfl true
  dsimp only
  by_cases hid : data.characterData.characterId ≤ 0
  · rw [if_pos hid]
    refine satE_sendResponse (solo_of_store hstore₁) fun s₂ _ => ?_
    refine iff_of_true ⟨_, congrArg (List.cons _) hp₁.responses, Or.inr (Or.inr ?_)⟩ (Or.inl hid)
    exact ⟨rfl, _, rfl, by decide, by decide⟩
  rw [if_neg hid]
  refine Machine.satE_bind.mpr (satE_acquire (solo_of_store hstore₁) (fun s₂ hs₂ => ?_) ?_)
  · have hp₂ := hp₁.cons (c := .acquire) rfl (some ())
    refine Machine.satE_bind.mpr (deleteCharacter_ended hs₂.store_eq hp₂ ?_ ?_ ?_)
    · intro h₃ s₃ hresponses hcommitted hlive hgone
      refine satE_sendResponse (solo_of_store rfl) fun s₄ hs₄ => ?_
      refine iff_of_true ⟨_, congrArg (List.cons _) hresponses, Or.inl ⟨rfl, hlive, ?_⟩⟩ ?_
      · rw [hs₄.store_eq]
        exact hgone
      · exact Or.inr (Or.inl (List.mem_cons_of_mem _ hcommitted))
    · intro h₃ s₃ hresponses hcommitted hnone
      refine satE_sendResponse (solo_of_store rfl) fun s₄ _ => ?_
      refine iff_of_true ⟨_, congrArg (List.cons _) hresponses, Or.inr (Or.inl ?_)⟩ ?_
      · exact ⟨rfl, rfl, hnone⟩
      · exact Or.inr (Or.inl (List.mem_cons_of_mem _ hcommitted))
    · intro h₃ s₃ hp₃
      refine satE_sendResponse (solo_of_store rfl) fun s₄ _ => ⟨?_, ?_⟩
      · rintro ⟨response, heq, hanswer⟩
        obtain rfl := (List.cons.inj heq).1
        rcases hanswer with ⟨hsuccess, -⟩ | ⟨-, -, hnone⟩ | ⟨-, code, hcode, -, hne⟩
        · exact absurd hsuccess.symm success_ne_error
        · exact Or.inr (Or.inr hnone)
        · cases hcode
          exact absurd rfl hne
      · rintro (hle | hmem | hnone)
        · exact absurd hle hid
        · rcases List.mem_cons.mp hmem with heq | hmem
          · cases heq
          · exact absurd hmem hp₃.uncommitted
        · exact ⟨_, congrArg (List.cons _) hp₃.responses, Or.inr (Or.inl ⟨rfl, rfl, hnone⟩)⟩
  · intro s₂ _ _
    exact List.mem_cons_self

end Parts

section Definite

variable {p : Platform} {cfg : ServerConfig} {t : Nat} {event : Event} {data : ClientDataStruct}
  {db : Database} {s s' : Server} {h' : Hist} {r : Except StdException Unit}

theorem runs_definiteList_iff (hdata : event.eventData = .clientData data)
    (hclient : event.clientID = data.clientId) (hkeys : db.Constraints)
    (hstore : s.store = .idle db)
    (hvalid : s.clientData.validateSession data.clientId data.hash = true)
    (hacquired : ⟨.acquire, none⟩ ∉ h')
    (hruns : ((loginServer p cfg).alone t fun _ => True).Runs [] s
      (EventHandler.handleGetCharactersListEvent event).run h' s' r) :
    DefiniteList db data.clientId h' ↔ NothingLost db data.clientId (listed h') (delivered h') := by
  have hends := Machine.sat_iff_runs.mp
    (handleGetCharactersListEvent_shown hdata hkeys hstore hvalid) h' s' r hruns
  cases r with
  | error e => exact absurd hends hacquired
  | ok u =>
    obtain ⟨current, hresponses⟩ := hends
    rw [hclient] at hresponses
    exact definiteList_iff hkeys hresponses

theorem runs_definiteDelete_iff (hdata : event.eventData = .clientData data)
    (hstore : s.store = .idle db)
    (hvalid : s.clientData.validateSession data.clientId data.hash = true)
    (hacquired : ⟨.acquire, none⟩ ∉ h')
    (hruns : ((loginServer p cfg).alone t fun _ => True).Runs [] s
      (EventHandler.handleDeleteCharacterEvent event).run h' s' r) :
    DefiniteDelete db s'.store.committed data.clientId data.characterData.characterId h' ↔
      data.characterData.characterId ≤ 0 ∨ ⟨.commitWork, some ()⟩ ∈ h' ∨
        ∀ c ∈ db.liveCharacters data.clientId, c.id ≠ data.characterData.characterId := by
  have hends := Machine.sat_iff_runs.mp
    (handleDeleteCharacterEvent_definite hdata hstore hvalid) h' s' r hruns
  cases r with
  | error e => exact absurd hends hacquired
  | ok u => exact hends

/-- With a valid session and a connection: a list is answered as it is if and only if
nothing was lost on the way, and a deletion is answered as it went if and only if it was
committed or there was nothing to delete. -/
theorem answers_definite_iff (p : Platform) (cfg : ServerConfig) (t : Nat)
    (hdata : event.eventData = .clientData data) (hwf : event.WellFormed)
    (hkeys : db.Constraints) (hstore : s.store = .idle db)
    (hvalid : s.clientData.validateSession data.clientId data.hash = true)
    (hacquired : ⟨.acquire, none⟩ ∉ h') :
    (((loginServer p cfg).alone t fun _ => True).Runs [] s
        (EventHandler.handleGetCharactersListEvent event).run h' s' r →
      (DefiniteList db data.clientId h' ↔
        NothingLost db data.clientId (listed h') (delivered h'))) ∧
    (((loginServer p cfg).alone t fun _ => True).Runs [] s
        (EventHandler.handleDeleteCharacterEvent event).run h' s' r →
      (DefiniteDelete db s'.store.committed data.clientId data.characterData.characterId h' ↔
        data.characterData.characterId ≤ 0 ∨ ⟨.commitWork, some ()⟩ ∈ h' ∨
          ∀ c ∈ db.liveCharacters data.clientId, c.id ≠ data.characterData.characterId)) :=
  ⟨runs_definiteList_iff hdata (hwf.clientID_eq data hdata) hkeys hstore hvalid hacquired,
    runs_definiteDelete_iff hdata hstore hvalid hacquired⟩

end Definite

section Runs

open Schedule Sample

/-- Anna has one character, with a sword in its hand. -/
def equipped : Database where
  users := [anna]
  characters := [{
    id := 1, name := str "Anna", ownerId := 1, classId := 1, raceId := 1, level := 1, gender := 0,
    accountSlot := 1 }]
  characterClass := [{ id := 1, name := str "Mage", slug := some (str "mage") }]
  race := [{ id := 1, name := str "Human", slug := str "human" }]
  characterGenders := [{ id := 0, name := str "male", label := str "Male" }]
  items := [{ id := 1, slug := str "sword", durabilityMax := 10 }]
  playerInventory := [{
    id := 1, characterId := some 1, itemId := 1, quantity := 1, slotIndex := none,
    durabilityCurrent := some 10 }]
  characterEquipment := [{ characterId := 1, equipSlotId := 1, inventoryItemId := 1 }]

theorem equipped_constraints : equipped.Constraints := by
  constructor <;> decide

def annaRequest : ClientDataStruct :=
  { clientId := 1, hash := tokenA, socket := some 1, characterData := { characterId := 1 } }

/-- Her session is stored. -/
def equippedServer : Server :=
  (Server.over equipped).withClientData (ClientData.empty.storeClientData annaRequest 0)

def requestOf (type : EventType) : Event where
  type := type
  clientID := 1
  eventData := .clientData annaRequest
  currentClientSocket := some 1
  timestamps := none

theorem requestOf_wellFormed {type : EventType} (htype : type ≠ .REGISTER_ACCOUNT) :
    (requestOf type).WellFormed := by
  refine ⟨fun data hdata => ?_, ?_, fun reg hreg => nomatch hreg⟩
  · cases hdata
    rfl
  · exact ⟨fun ⟨reg, hreg⟩ => (nomatch hreg), fun heq => absurd heq htype⟩

theorem equippedServer_valid :
    equippedServer.clientData.validateSession annaRequest.clientId annaRequest.hash = true := by
  decide +kernel

def isLostAcquire : (Σ c, Cmd.Reply c) → Bool
  | ⟨.acquire, none⟩ => true
  | _ => false

theorem not_mem_of_any {f : (Σ c, Cmd.Reply c) → Bool} {e : Σ c, Cmd.Reply c} (hf : f e = true)
    {h : Hist} (hnone : h.any f = false) : e ∉ h :=
  fun hmem => List.any_eq_false.mp hnone e hmem hf

def plainPlatform : Platform := .ofTables [] []

/-- A complete run of the handler for Anna, alone and with a connection. -/
structure Handled (handler : Event → M Unit) (type : EventType) (h : Hist) (s : Server) : Prop where
  runs : ∃ r, ((loginServer plainPlatform config).alone 0 fun _ => True).Runs [] equippedServer
    (handler (requestOf type)).run h s r
  acquired : ⟨.acquire, none⟩ ∉ h

theorem exists_handled (handler : Event → M Unit) (type : EventType) (xs : List Choice)
    {P : Hist → Prop} [DecidablePred P]
    (h : (((loginServer plainPlatform config).alone 0 fun _ => True).play {} xs []
      equippedServer (handler (requestOf type)).run).any
      (fun x => decide (x.1.any isLostAcquire = false ∧ P x.1)) = true) :
    ∃ h' s', Handled handler type h' s' ∧ P h' := by
  obtain ⟨h', s', r, hruns, hacquired, hP⟩ := exists_run_alone plainPlatform config 0
    (fun _ => True) equippedServer (handler (requestOf type)) xs (fun _ _ => trivial)
    (P := fun h _ _ => h.any isLostAcquire = false ∧ P h) h
  exact ⟨h', s', ⟨⟨r, hruns⟩, not_mem_of_any rfl hacquired⟩, hP⟩

open EventHandler

/-- Both handlers when nothing fails. -/
theorem answers_definite_iff_equipped : ∃ h₁ s₁ h₂ s₂,
    Handled handleGetCharactersListEvent .GET_CHARACTERS_LIST h₁ s₁ ∧
    (DefiniteList equipped 1 h₁ ↔ NothingLost equipped 1 (listed h₁) (delivered h₁)) ∧
    Handled handleDeleteCharacterEvent .DELETE_CHARACTER h₂ s₂ ∧
    (DefiniteDelete equipped s₂.store.committed 1 1 h₂ ↔
      (1 : Int) ≤ 0 ∨ ⟨.commitWork, some ()⟩ ∈ h₂ ∨ ∀ c ∈ equipped.liveCharacters 1, c.id ≠ 1) := by
  obtain ⟨h₁, s₁, hh₁, -⟩ := exists_handled handleGetCharactersListEvent .GET_CHARACTERS_LIST []
    (P := fun h => listed h = true) (by decide +kernel)
  obtain ⟨h₂, s₂, hh₂, -⟩ := exists_handled handleDeleteCharacterEvent .DELETE_CHARACTER []
    (P := fun h => (responses h).length = 1) (by decide +kernel)
  obtain ⟨r₁, hruns₁⟩ := hh₁.runs
  obtain ⟨r₂, hruns₂⟩ := hh₂.runs
  refine ⟨h₁, s₁, h₂, s₂, hh₁, ?_, hh₂, ?_⟩
  · exact (answers_definite_iff plainPlatform config 0 rfl (requestOf_wellFormed (by decide))
      equipped_constraints rfl equippedServer_valid hh₁.acquired).1 hruns₁
  · exact (answers_definite_iff plainPlatform config 0 rfl (requestOf_wellFormed (by decide))
      equipped_constraints rfl equippedServer_valid hh₂.acquired).2 hruns₂

/-- The statement of the list throws, and Anna is told that she has no characters; the
commit of the deletion throws, and she is told that there is no such character. -/
theorem failures_answered_as_absence : ∃ h₁ s₁ h₂ s₂,
    Handled handleGetCharactersListEvent .GET_CHARACTERS_LIST h₁ s₁ ∧
    ¬ DefiniteList equipped 1 h₁ ∧
    Handled handleDeleteCharacterEvent .DELETE_CHARACTER h₂ s₂ ∧
    ¬ DefiniteDelete equipped s₂.store.committed 1 1 h₂ := by
  obtain ⟨h₁, s₁, hh₁, hlost⟩ := exists_handled handleGetCharactersListEvent
    .GET_CHARACTERS_LIST (List.replicate 5 ({} : Choice) ++ [{ fails := true }])
    (P := fun h => listed h = false) (by decide +kernel)
  obtain ⟨h₂, s₂, hh₂, hopen⟩ := exists_handled handleDeleteCharacterEvent .DELETE_CHARACTER
    (List.replicate 4 ({} : Choice) ++ [{ fails := true }])
    (P := fun h => h.any isCommit = false) (by decide +kernel)
  obtain ⟨r₁, hruns₁⟩ := hh₁.runs
  obtain ⟨r₂, hruns₂⟩ := hh₂.runs
  refine ⟨h₁, s₁, h₂, s₂, hh₁, fun hdefinite => ?_, hh₂, fun hdefinite => ?_⟩
  · have hiff := runs_definiteList_iff rfl rfl
      equipped_constraints rfl equippedServer_valid hh₁.acquired hruns₁
    rcases (hiff.mp hdefinite).listed with hlisted | hnone
    · rw [hlost] at hlisted
      cases hlisted
    · exact absurd hnone (by decide)
  · have hiff := runs_definiteDelete_iff rfl rfl
      equippedServer_valid hh₂.acquired hruns₂
    rcases hiff.mp hdefinite with hle | hcommitted | hnone
    · exact absurd hle (by decide)
    · exact not_mem_of_any rfl hopen hcommitted
    · exact absurd hnone (by decide)

end Runs

end LoginServer
