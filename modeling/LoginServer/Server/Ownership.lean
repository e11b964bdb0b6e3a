import LoginServer.Server.Schedule

/-!
# Account data and sessions

Two ids travel with a request: `clientID` of the event and `clientId` of its payload.
They agree from `processMessage` on (`EventsWellFormed`), so what the discipline says
about the payload holds of the list handler too, which queries by the former.

A character row changes its `deleted_at` only when a transaction commits, and the
ledger leads from there to the statement and the session behind it.
-/

namespace LoginServer

open Database Interleaving

variable {p : Platform} {cfg : ServerConfig} {c c' : ServerState} {l : ServerLabel}

/-! ## Statements on behalf of an account -/

/-- The account whose data a statement reads or writes. -/
def Database.Query.account : Query → Option Int
  | .getCharactersList accountId => some accountId
  | .createCharacter accountId _ _ _ _ => some accountId
  | .deleteCharacter _ accountId => some accountId
  | _ => none

/-- The new character that a statement sets up. -/
def Database.Query.newCharacter : Query → Option Int
  | .initCharacterState characterId => some characterId
  | .initCharacterPosition characterId => some characterId
  | .initCharacterDefaultSkills characterId _ => some characterId
  | .initCharacterStarterItems characterId _ => some characterId
  | .initCharacterStarterCurrencies characterId _ => some characterId
  | _ => none

/-- In the history `h` of a task, the session that its request names for the account was
found valid. -/
def HoldsSession (job : Job) (accountId : Int) (h : Hist) : Prop :=
  ∃ data, job.request = some data ∧ data.clientId = accountId ∧
    ⟨.validateSession accountId data.hash, true⟩ ∈ h

/-- Every statement on behalf of an account comes after the validation of its session,
and every statement on a new character after its insertion for such an account. -/
def AccountsGuarded (c : ServerState) : Prop :=
  ∀ t th, c.threads t = some th → ∀ h₂ q r h₁, th.hist = h₂ ++ ⟨.execPrepared q, r⟩ :: h₁ →
    (∀ accountId, q.account = some accountId → HoldsSession th.job accountId h₁) ∧
    ∀ characterId, q.newCharacter = some characterId →
      ∃ accountId, HoldsSession th.job accountId h₁ ∧ Created accountId characterId h₁

theorem holdsSession_of_mayExec {job : Job} {h : Hist} {q : Query} {accountId : Int}
    (hjob : ∀ event, job = .event event → event.WellFormed) (hmay : mayExec job h q)
    (hq : q.account = some accountId) : HoldsSession job accountId h := by
  cases q with
  | getCharactersList a =>
    cases hq
    obtain ⟨data, hrequest, hvalid, event, rfl, rfl⟩ := hmay
    have hid : event.clientID = data.clientId :=
      (hjob event rfl).clientID_eq data (Job.request_event.mp hrequest)
    exact ⟨data, hrequest, hid.symm, by rw [hid]; exact hvalid⟩
  | createCharacter a name classSlug raceSlug genderSlug =>
    cases hq
    obtain ⟨data, hrequest, hvalid, rfl, -⟩ := hmay
    exact ⟨data, hrequest, rfl, hvalid⟩
  | deleteCharacter characterId a =>
    cases hq
    obtain ⟨data, hrequest, hvalid, rfl⟩ := hmay
    exact ⟨data, hrequest, rfl, hvalid⟩
  | _ => cases hq

theorem created_of_mayExec {job : Job} {h : Hist} {q : Query} {characterId : Int}
    (hmay : mayExec job h q) (hq : q.newCharacter = some characterId) :
    ∃ accountId, HoldsSession job accountId h ∧ Created accountId characterId h := by
  have hown : OnBehalf job h fun data => Created data.clientId characterId h := by
    cases q <;> simp only [Query.newCharacter, Option.some.injEq, reduceCtorEq] at hq <;>
      subst hq <;> exact hmay
  obtain ⟨data, hrequest, hvalid, hcreated⟩ := hown
  exact ⟨data.clientId, ⟨data, hrequest, rfl, hvalid⟩, hcreated⟩

/-! ## Deleted characters -/

/-- Where a deleted row comes from after some writes. -/
theorem mem_characters_foldl {ws : List Write} {db : Database} {row : CharacterRow}
    (hmem : row ∈ (ws.foldl applyWrite db).characters) (hdeleted : row.deletedAt ≠ none) :
    row ∈ db.characters ∨ .insertCharacter row ∈ ws ∨
      ∃ now, .softDelete row.id row.ownerId now ∈ ws := by
  induction ws generalizing db with
  | nil => exact Or.inl hmem
  | cons w ws ih =>
    rcases ih hmem with hold | hinsert | ⟨now, hdelete⟩
    · cases w with
      | insertCharacter row' =>
        rcases List.mem_append.mp hold with hdb | hnew
        · exact Or.inl hdb
        · obtain rfl := List.mem_singleton.mp hnew
          exact Or.inr (Or.inl List.mem_cons_self)
      | softDelete id ownerId now =>
        obtain ⟨old, hdb, heq⟩ := List.mem_map.mp hold
        split_ifs at heq with hmatch
        · subst heq
          simp only [decide_eq_true_eq] at hmatch
          obtain ⟨rfl, rfl⟩ := hmatch
          exact Or.inr (Or.inr ⟨now, List.mem_cons_self⟩)
        · subst heq
          exact Or.inl hdb
      | _ => exact Or.inl hold
    · exact Or.inr (Or.inl (List.mem_cons_of_mem _ hinsert))
    · exact Or.inr (Or.inr ⟨now, List.mem_cons_of_mem _ hdelete⟩)

/-- A character that this step deletes in the committed data is deleted by a request that
carried a valid session of its owner. -/
def DeletesGuarded (c : ServerState) (l : ServerLabel) (c' : ServerState) : Prop :=
  ∀ row ∈ c'.shared.store.committed.characters, row.deletedAt ≠ none →
    row ∉ c.shared.store.committed.characters →
    ∃ t x th, l = .run t x ∧ c.threads t = some th ∧ HoldsSession th.job row.ownerId th.hist ∧
      ∃ rows : List Int, ⟨.execPrepared (.deleteCharacter row.id row.ownerId), some rows⟩ ∈ th.hist

theorem deletes_guarded {s₀ : Server} {meets : ServerState → ServerLabel → Prop}
    (h₀ : s₀.Initial) (h : (loginServer p cfg).Reach meets s₀.boot c)
    (hstep : (loginServer p cfg).Step c l c') (hguard : AccountsGuarded c) :
    DeletesGuarded c l c' := by
  intro row hrow hdeleted hnew
  rcases step_cases hstep with ⟨t, x, job, cmd, r, rfl, hcall⟩ | ⟨-, hsame⟩
  · obtain ⟨k, hthread⟩ := hcall.thread
    have hledger := Server.reach_ledger h₀ h
    have heffect := exec_store hcall.exec
    generalize c'.shared.store = store at hrow heffect
    cases heffect with
    | @commit txn hactive hok =>
      rcases mem_characters_foldl hrow hdeleted with hold | hinsert | ⟨now, hdelete⟩
      · exact absurd hold hnew
      · obtain ⟨q, rows, hmem, hfrom⟩ := hledger t _ hinsert
        cases q <;> simp only [Write.From] at hfrom
        exact absurd hfrom.2.2 hdeleted
      · obtain ⟨q, rows, hmem, hfrom⟩ := hledger t _ hdelete
        cases q <;> simp only [Write.From] at hfrom
        obtain ⟨rfl, rfl⟩ := hfrom
        have hmem := (prefix_current _).subset hmem
        refine ⟨t, x, _, rfl, hthread, ?_, rows, hmem⟩
        obtain ⟨h₂, h₁, heq⟩ := List.append_of_mem hmem
        obtain ⟨data, hrequest, hid, hvalid⟩ := (hguard t _ hthread h₂ _ _ h₁ heq).1 _ rfl
        refine ⟨data, hrequest, hid, ?_⟩
        rw [heq]
        exact List.mem_append_right _ (List.mem_cons_of_mem _ hvalid)
    | _ => exact absurd hrow hnew
  · rw [hsame.store] at hrow
    exact absurd hrow hnew

/-- No data of an account is touched without a valid session of that account. -/
theorem accounts_touched_with_session {s₀ : Server} {meets : ServerState → ServerLabel → Prop}
    (h₀ : s₀.Initial) (h : (loginServer p cfg).Reach meets s₀.boot c) :
    AccountsGuarded c ∧ ∀ l c', (loginServer p cfg).Step c l c' → DeletesGuarded c l c' := by
  have hguard : AccountsGuarded c := by
    intro t th ht h₂ q r h₁ heq
    have hlawful := (Server.reach_obedient h t th ht).lawful
    rw [heq] at hlawful
    have hmay : mayExec th.job h₁ q := hlawful.may_of_append.2
    exact ⟨fun accountId => holdsSession_of_mayExec
      ((Server.reach_eventsWellFormed h₀ h).jobs t th ht) hmay,
      fun characterId => created_of_mayExec hmay⟩
  exact ⟨hguard, fun l c' hstep => deletes_guarded h₀ h hstep hguard⟩

namespace Sample

/-- `deleteCharacter` of character 7 by account 1 with the first token. -/
def deleteText : Bytes :=
  messageText ("\"eventType\":\"deleteCharacter\",\"clientId\":1," ++
    "\"hash\":\"11111111-1111-4111-8111-111111111111\"") "\"characterId\":7"

def deleteJson : Json :=
  messageJson [(str "eventType", .string (str "deleteCharacter")), (str "clientId", .number 1),
    (str "hash", .string tokenA)] [(str "characterId", .number 7)]

/-- The account has one character. -/
def serverWithCharacter : Server :=
  .over {
    users := [anna]
    characters := [{
      id := 7, name := str "Anna", ownerId := 1, classId := 1, raceId := 1, gender := 0,
      accountSlot := 1 }] }

end Sample

open Sample Schedule

theorem accounts_touched_with_session_delete : ∃ c,
    (loginServer (.ofTables [(loginText, loginJson), (deleteText, deleteJson)] digests)
      config).Reach (fun _ _ => True) serverWithCharacter.boot c ∧
    (c.shared.store.committed.characters.any fun row => row.deletedAt.isSome) = true ∧
    AccountsGuarded c ∧ ∀ l c',
      (loginServer (.ofTables [(loginText, loginJson), (deleteText, deleteJson)] digests)
        config).Step c l c' → DeletesGuarded c l c' := by
  obtain ⟨c, hreach, hdeleted⟩ := exists_reach
    (.ofTables [(loginText, loginJson), (deleteText, deleteJson)] digests) config
    serverWithCharacter
    (P := fun c => (c.shared.store.committed.characters.any fun row => row.deletedAt.isSome) = true)
    ([frame 1 loginText, frame 1 deleteText, .spawn 0 .dispatch] ++ login 0 tokenA ++
      [.spawn 1 .dispatch] ++ calls 1 5) (by decide +kernel)
  exact ⟨c, hreach, hdeleted, accounts_touched_with_session (Server.over_initial rfl) hreach⟩

end LoginServer
