import LoginServer.Database.Queries

/-!
# The writes to `user_sessions`

What a transaction leaves of the sessions of a user: a session that is not inserted was
there before, and one that it has revoked is not live. `liveSessions_foldl` is the case
of a login, which revokes every live session and inserts one.
-/

namespace LoginServer

open Database

/-- The sessions of the user that are neither revoked nor expired. -/
def liveSessions (userId : Int) (now : Time) (db : Database) : List UserSessionRow :=
  db.userSessions.filter fun row => row.userId = userId && row.isLive now

theorem mem_liveSessions {userId : Int} {now : Time} {db : Database} {row : UserSessionRow} :
    row ∈ liveSessions userId now db ↔
      row ∈ db.userSessions ∧ row.userId = userId ∧ row.isLive now = true := by
  simp [liveSessions]

theorem isLive_iff {row : UserSessionRow} {now : Time} :
    row.isLive now = true ↔ row.revokedAt = none ∧ now < row.expiresAt := by
  simp [UserSessionRow.isLive]

/-- A session that is live was so at any earlier time. -/
theorem mem_liveSessions_of_le {userId : Int} {now now' : Time} {db : Database}
    {row : UserSessionRow} (h : row ∈ liveSessions userId now' db) (hle : now ≤ now') :
    row ∈ liveSessions userId now db := by
  rw [mem_liveSessions, isLive_iff] at h ⊢
  exact ⟨h.1, h.2.1, h.2.2.1, lt_of_le_of_lt hle h.2.2.2⟩

def Database.Write.onSessions : Write → Bool
  | .insertSession _ | .revokeSession _ _ | .deleteSession _ => true
  | _ => false

/-- The writes insert no session. -/
def NoInsert (ws : List Write) : Prop := ∀ row, .insertSession row ∉ ws

theorem userSessions_foldl_of_none {ws : List Write} (hws : ∀ w ∈ ws, w.onSessions = false)
    (db : Database) : (ws.foldl applyWrite db).userSessions = db.userSessions := by
  induction ws generalizing db with
  | nil => rfl
  | cons w ws ih =>
    obtain ⟨hw, hws⟩ := List.forall_mem_cons.mp hws
    rw [List.foldl_cons, ih hws]
    cases w <;> first | rfl | cases hw

/-- The writes to `user_sessions` leave the other tables alone. -/
theorem foldl_of_onSessions {ws : List Write} (hws : ∀ w ∈ ws, w.onSessions = true)
    (db : Database) :
    ws.foldl applyWrite db = { db with userSessions := (ws.foldl applyWrite db).userSessions } := by
  induction ws generalizing db with
  | nil => rfl
  | cons w ws ih =>
    obtain ⟨hw, hws⟩ := List.forall_mem_cons.mp hws
    rw [List.foldl_cons, ih hws]
    cases w <;> first | rfl | cases hw

theorem userSessions_applyWrite {db : Database} {w : Write} {row : UserSessionRow}
    (hw : ∀ row, w ≠ .insertSession row) (hrow : row ∈ (applyWrite db w).userSessions) :
    ∃ row₀ ∈ db.userSessions, row₀.tokenHash = row.tokenHash ∧
      (row.revokedAt = none → row₀ = row ∧ ∀ now, w ≠ .revokeSession row.id now) := by
  cases w with
  | insertSession row' => exact absurd rfl (hw row')
  | revokeSession id now =>
    obtain ⟨row₀, hrow₀, rfl⟩ := List.mem_map.mp hrow
    refine ⟨row₀, hrow₀, ?_⟩
    by_cases hid : row₀.id = id
    · simp [hid]
    · simp [hid, Ne.symm hid]
  | deleteSession id =>
    refine ⟨row, (List.mem_filter.mp hrow).1, rfl, fun _ => ⟨rfl, fun _ heq => nomatch heq⟩⟩
  | _ => exact ⟨row, hrow, rfl, fun _ => ⟨rfl, fun _ heq => nomatch heq⟩⟩

/-- Where a session comes from when none is inserted; if it is not revoked, nothing has
revoked it. -/
theorem userSessions_foldl {ws : List Write} (hws : NoInsert ws) {db : Database}
    {row : UserSessionRow} (hrow : row ∈ (ws.foldl applyWrite db).userSessions) :
    ∃ row₀ ∈ db.userSessions, row₀.tokenHash = row.tokenHash ∧
      (row.revokedAt = none → row₀ = row ∧ ∀ now, .revokeSession row.id now ∉ ws) := by
  induction ws generalizing db with
  | nil => exact ⟨row, hrow, rfl, fun _ => ⟨rfl, fun _ => List.not_mem_nil⟩⟩
  | cons w ws ih =>
    obtain ⟨row₁, hrow₁, htoken₁, hkept₁⟩ :=
      ih (fun row' hmem => hws row' (List.mem_cons_of_mem _ hmem)) hrow
    obtain ⟨row₀, hrow₀, htoken₀, hkept₀⟩ := userSessions_applyWrite
      (fun row' heq => hws row' (heq ▸ List.mem_cons_self)) hrow₁
    refine ⟨row₀, hrow₀, htoken₀.trans htoken₁, fun hrevoked => ?_⟩
    obtain ⟨rfl, hws₁⟩ := hkept₁ hrevoked
    obtain ⟨rfl, hw⟩ := hkept₀ hrevoked
    refine ⟨rfl, fun now hmem => ?_⟩
    rcases List.mem_cons.mp hmem with heq | hmem
    · exact hw now heq.symm
    · exact hws₁ now hmem

/-- What a transaction leaves that has revoked every live session and inserted one. -/
theorem liveSessions_foldl {ws : List Write} (hws : NoInsert ws) {db : Database} {userId : Int}
    {now : Time} {row : UserSessionRow} (hid : row.userId = userId)
    (hrevoked : ∀ row' ∈ liveSessions userId now db, ∃ time, .revokeSession row'.id time ∈ ws) :
    liveSessions userId now ((ws ++ [Write.insertSession row]).foldl applyWrite db) =
      [row].filter fun row => row.isLive now := by
  rw [List.foldl_append, liveSessions]
  change ((ws.foldl applyWrite db).userSessions ++ [row]).filter _ = _
  have hnone : (ws.foldl applyWrite db).userSessions.filter
      (fun row => row.userId = userId && row.isLive now) = [] := by
    refine List.filter_eq_nil_iff.mpr fun row' hrow' hlive => ?_
    obtain ⟨row₀, hrow₀, -, hkept⟩ := userSessions_foldl hws hrow'
    simp only [Bool.and_eq_true, decide_eq_true_eq] at hlive
    obtain ⟨rfl, hnot⟩ := hkept (isLive_iff.mp hlive.2).1
    obtain ⟨time, hmem⟩ := hrevoked row₀ (mem_liveSessions.mpr ⟨hrow₀, hlive⟩)
    exact hnot time hmem
  rw [List.filter_append, hnone, List.nil_append]
  refine List.filter_congr fun row' hrow' => ?_
  obtain rfl := List.mem_singleton.mp hrow'
  simp [hid]

/-- With a token that is not there yet, `create_user_session` inserts a session. -/
theorem run_createUserSession {f : SqlFunctions} {db : Database} {now : Time}
    {seq seq' : Sequences} {userId : Int} {tokenHash clientVersion : Bytes} {rows : Unit}
    {ws : List Write} (htoken : IsUuidText tokenHash)
    (hfresh : ∀ row ∈ db.userSessions, row.tokenHash ≠ tokenHash)
    (h : (Query.createUserSession userId tokenHash clientVersion).run db now seq f =
      some (rows, ws, seq')) :
    ∃ row, ws = [.insertSession row] ∧ row.userId = userId ∧ row.tokenHash = tokenHash ∧
      row.revokedAt = none ∧ row.createdAt = now ∧ row.expiresAt = now + days 30 := by
  have hvarchar : varchar 255 tokenHash = some tokenHash := varchar_of_length_le (by omega)
  simp only [Query.run, createUserSession, upToNul_eq_self.mpr htoken.2, hvarchar] at h
  split at h
  · rename_i tokenHash' _ heq _
    cases heq
    split_ifs at h with htaken hexists
    · obtain ⟨row, hrow, heq⟩ := List.any_eq_true.mp htaken
      exact absurd (of_decide_eq_true heq) (hfresh row hrow)
    · cases h
      exact ⟨_, rfl, rfl, rfl, rfl, rfl, rfl⟩
  · cases h

/-! ## Sessions as they were created -/

/-- The row as `create_user_session` has inserted it. -/
def Database.UserSessionRow.issued (row : UserSessionRow) : UserSessionRow :=
  { row with revokedAt := none }

theorem same_of_issued {row row' : UserSessionRow} (h : row.issued = row'.issued) :
    row.id = row'.id ∧ row.createdAt = row'.createdAt ∧ row.expiresAt = row'.expiresAt :=
  ⟨congrArg (·.id) h, congrArg (·.createdAt) h, congrArg (·.expiresAt) h⟩

def Database.issuedSessions (db : Database) : List UserSessionRow :=
  db.userSessions.map UserSessionRow.issued

/-- The sessions that the writes insert. -/
def insertedSessions (ws : List Write) : List UserSessionRow :=
  ws.filterMap fun
    | .insertSession row => some row
    | _ => none

theorem mem_insertedSessions {ws : List Write} {row : UserSessionRow} :
    row ∈ insertedSessions ws ↔ .insertSession row ∈ ws := by
  constructor
  · intro h
    obtain ⟨w, hw, heq⟩ := List.mem_filterMap.mp h
    cases w <;> cases heq
    exact hw
  · intro h
    exact List.mem_filterMap.mpr ⟨_, h, rfl⟩

theorem insertedSessions_append (ws ws' : List Write) :
    insertedSessions (ws ++ ws') = insertedSessions ws ++ insertedSessions ws' :=
  List.filterMap_append

theorem issuedSessions_revoke (db : Database) (id : Int) (now : Time) :
    (applyWrite db (.revokeSession id now)).issuedSessions = db.issuedSessions := by
  change (List.map _ db.userSessions).map UserSessionRow.issued = _
  rw [List.map_map]
  refine List.map_congr_left fun row _ => ?_
  by_cases hid : row.id = id
  · simp [hid, UserSessionRow.issued]
  · simp [hid]

/-- Apart from revocations, sessions are only appended and deleted. -/
theorem issuedSessions_foldl (ws : List Write) (db : Database) :
    (ws.foldl applyWrite db).issuedSessions.Sublist
      (db.issuedSessions ++ (insertedSessions ws).map UserSessionRow.issued) := by
  induction ws generalizing db with
  | nil =>
    rw [List.foldl_nil, insertedSessions, List.filterMap_nil, List.map_nil, List.append_nil]
  | cons w ws ih =>
    have hstep : (applyWrite db w).issuedSessions.Sublist
        (db.issuedSessions ++ (insertedSessions [w]).map UserSessionRow.issued) := by
      cases w with
      | insertSession row =>
        change (List.map _ (db.userSessions ++ [row])).Sublist _
        rw [List.map_append]
        exact List.Sublist.refl _
      | revokeSession id now =>
        rw [issuedSessions_revoke]
        exact List.sublist_append_left _ _
      | deleteSession id =>
        exact (List.filter_sublist.map _).trans (List.sublist_append_left _ _)
      | _ => exact List.sublist_append_left _ _
    rw [List.foldl_cons]
    refine (ih (applyWrite db w)).trans ?_
    rw [← List.singleton_append, insertedSessions_append, List.map_append, ← List.append_assoc]
    exact hstep.append_right _

/-- A write that may change the row of a session that is there. -/
def Database.Write.session : Write → Option Int
  | .revokeSession id _ => some id
  | .deleteSession id => some id
  | _ => none

theorem mem_applyWrite_of_ne {db : Database} {w : Write} {row : UserSessionRow}
    (hrow : row ∈ db.userSessions) (hw : w.session ≠ some row.id) :
    row ∈ (applyWrite db w).userSessions := by
  cases w with
  | insertSession row' => exact List.mem_append_left _ hrow
  | revokeSession id now =>
    refine List.mem_map.mpr ⟨row, hrow, if_neg fun hid => hw ?_⟩
    rw [of_decide_eq_true hid]
    rfl
  | deleteSession id =>
    refine List.mem_filter.mpr ⟨hrow, decide_eq_true fun hid => hw ?_⟩
    rw [hid]
    rfl
  | _ => exact hrow

/-- A session that no write names is still there. -/
theorem mem_foldl_of_untouched {ws : List Write} {db : Database} {row : UserSessionRow}
    (hrow : row ∈ db.userSessions) (hws : ∀ w ∈ ws, w.session ≠ some row.id) :
    row ∈ (ws.foldl applyWrite db).userSessions := by
  induction ws generalizing db with
  | nil => exact hrow
  | cons w ws ih =>
    obtain ⟨hw, hws⟩ := List.forall_mem_cons.mp hws
    exact ih (mem_applyWrite_of_ne hrow hw) hws

/-- A session that is not deleted is still there, and stays revoked if it was. -/
theorem exists_issued_foldl {ws : List Write} {db : Database} {row : UserSessionRow}
    (hrow : row ∈ db.userSessions) (hws : .deleteSession row.id ∉ ws) :
    ∃ row' ∈ (ws.foldl applyWrite db).userSessions, row'.issued = row.issued ∧
      (row.revokedAt ≠ none → row'.revokedAt ≠ none) := by
  induction ws generalizing db row with
  | nil => exact ⟨row, hrow, rfl, id⟩
  | cons w ws ih =>
    obtain ⟨hw, hws⟩ := not_or.mp (mt List.mem_cons.mpr hws)
    have hstep : ∃ row₁ ∈ (applyWrite db w).userSessions, row₁.issued = row.issued ∧
        (row.revokedAt ≠ none → row₁.revokedAt ≠ none) := by
      cases w with
      | revokeSession id now =>
        refine ⟨_, List.mem_map_of_mem hrow, ?_⟩
        by_cases hid : row.id = id
        · simp [hid, UserSessionRow.issued]
        · simp [hid]
      | deleteSession id' =>
        refine ⟨row, mem_applyWrite_of_ne hrow fun hid => hw ?_, rfl, id⟩
        rw [Option.some.inj hid]
      | _ => exact ⟨row, mem_applyWrite_of_ne hrow (fun hid => by cases hid), rfl, id⟩
    obtain ⟨row₁, hrow₁, hissued₁, hrevoked₁⟩ := hstep
    rw [← (same_of_issued hissued₁).1] at hws
    obtain ⟨row', hrow', hissued, hrevoked⟩ := ih hrow₁ hws
    exact ⟨row', hrow', hissued.trans hissued₁, fun hr => hrevoked (hrevoked₁ hr)⟩

/-- A deleted session is gone, unless its id is inserted again. -/
theorem ne_of_deleted {ws : List Write} {id : Int} (hdeleted : .deleteSession id ∈ ws)
    (hws : ∀ row ∈ insertedSessions ws, row.id ≠ id) {db : Database} :
    ∀ row ∈ (ws.foldl applyWrite db).userSessions, row.id ≠ id := by
  obtain ⟨ws₁, ws₂, rfl⟩ := List.append_of_mem hdeleted
  rw [List.foldl_append, List.foldl_cons]
  intro row hrow
  have hissued := (issuedSessions_foldl ws₂ _).subset (List.mem_map_of_mem hrow)
  rcases List.mem_append.mp hissued with hold | hnew
  · obtain ⟨row₀, hrow₀, heq⟩ := List.mem_map.mp hold
    have hkept := of_decide_eq_true (List.mem_filter.mp hrow₀).2
    rwa [(same_of_issued heq).1] at hkept
  · obtain ⟨row₀, hrow₀, heq⟩ := List.mem_map.mp hnew
    have hne := hws row₀ (mem_insertedSessions.mpr ?_)
    · rwa [(same_of_issued heq).1] at hne
    · exact List.mem_append_right _ (List.mem_cons_of_mem _ (mem_insertedSessions.mp hrow₀))

/-- Where a session comes from, and whether a write has revoked it. -/
theorem exists_origin {ws : List Write} {db : Database} {row : UserSessionRow}
    (hrow : row ∈ (ws.foldl applyWrite db).userSessions) :
    ∃ row₀, (row₀ ∈ db.userSessions ∨ row₀ ∈ insertedSessions ws) ∧ row₀.issued = row.issued ∧
      (row₀ = row ∨ row.revokedAt ≠ none ∧ ∃ now, .revokeSession row.id now ∈ ws) := by
  induction ws generalizing db with
  | nil => exact ⟨row, Or.inl hrow, rfl, Or.inl rfl⟩
  | cons w ws ih =>
    obtain ⟨row₁, hrow₁, hissued₁, hkept₁⟩ := ih hrow
    have hrevoked₁ : row₁ = row ∨ row.revokedAt ≠ none ∧
        ∃ now, .revokeSession row.id now ∈ w :: ws :=
      hkept₁.imp_right (And.imp_right fun ⟨now, hmem⟩ => ⟨now, List.mem_cons_of_mem _ hmem⟩)
    rcases hrow₁ with hold | hnew
    · cases w with
      | insertSession row' =>
        rcases List.mem_append.mp hold with hold | hlast
        · exact ⟨row₁, Or.inl hold, hissued₁, hrevoked₁⟩
        · obtain rfl := List.mem_singleton.mp hlast
          exact ⟨row₁, Or.inr (mem_insertedSessions.mpr List.mem_cons_self), hissued₁, hrevoked₁⟩
      | revokeSession id now =>
        obtain ⟨row₀, hrow₀, rfl⟩ := List.mem_map.mp hold
        by_cases hid : row₀.id = id
        · have hif : (if decide (row₀.id = id) = true then { row₀ with revokedAt := some now }
              else row₀) = { row₀ with revokedAt := some now } := if_pos (decide_eq_true hid)
          rw [hif] at hissued₁ hrevoked₁
          refine ⟨row₀, Or.inl hrow₀, hissued₁, Or.inr ?_⟩
          rcases hrevoked₁ with rfl | hrevoked
          · refine ⟨Option.some_ne_none now, now, ?_⟩
            dsimp only
            rw [hid]
            exact List.mem_cons_self
          · exact hrevoked
        · have hif : (if decide (row₀.id = id) = true then { row₀ with revokedAt := some now }
              else row₀) = row₀ := if_neg (by simpa using hid)
          rw [hif] at hissued₁ hrevoked₁
          exact ⟨row₀, Or.inl hrow₀, hissued₁, hrevoked₁⟩
      | deleteSession id =>
        exact ⟨row₁, Or.inl (List.mem_filter.mp hold).1, hissued₁, hrevoked₁⟩
      | _ => exact ⟨row₁, Or.inl hold, hissued₁, hrevoked₁⟩
    · refine ⟨row₁, Or.inr (mem_insertedSessions.mpr ?_), hissued₁, hrevoked₁⟩
      exact List.mem_cons_of_mem _ (mem_insertedSessions.mp hnew)

end LoginServer
