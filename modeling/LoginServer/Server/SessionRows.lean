import LoginServer.Database.Users
import LoginServer.Database.UserSessions
import LoginServer.Server.Authentication
import LoginServer.Transactions.Sequence

/-!
# The rows of `user_sessions` in every run

`SessionRows` is what every run keeps, whatever interleaves: the ids are drawn from the
sequence, a session expires thirty days after its creation, and what an open transaction
has revoked or deleted is locked, so no other one can have changed it. A revocation is of
a session that has not expired, and a deletion of one that is not revoked.
-/

namespace LoginServer

open Database Interleaving Transactions

/-! ## What a statement does to the sessions -/

section Query

variable {f : SqlFunctions} {db : Database} {now : Time} {seq seq' : Sequences} {q : Query}
  {rows : q.Rows} {ws : List Write}

/-- A write to the row of a session deletes one that has expired, or revokes one that has
not; it was not revoked before. -/
theorem touched_of_run (h : q.run db now seq f = some (rows, ws, seq')) {w : Write} (hw : w ∈ ws)
    {id : Int} (hid : w.session = some id) :
    ∃ row ∈ db.userSessions, row.id = id ∧ row.revokedAt = none ∧
      (w = .deleteSession id ∧ row.expiresAt < now ∨
        w = .revokeSession id now ∧ now < row.expiresAt) := by
  have hfrom := from_of_run h w hw
  cases w with
  | revokeSession id' time =>
    cases hid
    cases q with
    | revokeUserSessions userId =>
      cases h
      obtain ⟨row, hrow, heq⟩ := List.mem_map.mp hw
      cases heq
      obtain ⟨hmem, hlive⟩ := List.mem_filter.mp hrow
      rw [Bool.and_eq_true] at hlive
      obtain ⟨hnone, hexpires⟩ := isLive_iff.mp hlive.2
      exact ⟨row, hmem, rfl, hnone, Or.inr ⟨rfl, hexpires⟩⟩
    | _ => exact hfrom.elim
  | deleteSession id' =>
    cases hid
    cases q with
    | cleanupExpiredSessions =>
      cases h
      obtain ⟨row, hrow, heq⟩ := List.mem_map.mp hw
      cases heq
      obtain ⟨hmem, hexpired⟩ := List.mem_filter.mp hrow
      simp only [Bool.and_eq_true, decide_eq_true_eq, Option.isNone_iff_eq_none] at hexpired
      exact ⟨row, hmem, rfl, hexpired.2, Or.inl ⟨rfl, hexpired.1⟩⟩
    | _ => exact hfrom.elim
  | _ => cases hid

theorem insertedSessions_of_from (hfrom : ∀ w ∈ ws, w.From q)
    (hq : ∀ userId tokenHash clientVersion, q ≠ .createUserSession userId tokenHash clientVersion) :
    insertedSessions ws = [] := by
  refine List.eq_nil_iff_forall_not_mem.mpr fun row hrow => ?_
  have hrow := hfrom _ (mem_insertedSessions.mp hrow)
  cases q with
  | createUserSession userId tokenHash clientVersion => exact hq _ _ _ rfl
  | _ => exact hrow.elim

/-- No other statement draws an id of `user_sessions`. -/
theorem sequence_of_run (h : q.run db now seq f = some (rows, ws, seq'))
    (hq : ∀ userId tokenHash clientVersion, q ≠ .createUserSession userId tokenHash clientVersion) :
    seq'.userSessions = seq.userSessions := by
  have hsequences := sequences_of_run h
  cases q with
  | createUserSession userId tokenHash clientVersion => exact absurd rfl (hq _ _ _)
  | _ => exact hsequences.2

/-- A statement inserts no session, or one with the next id. -/
theorem insertedSessions_of_run (h : q.run db now seq f = some (rows, ws, seq')) :
    (insertedSessions ws = [] ∧ seq.userSessions ≤ seq'.userSessions) ∨
    ∃ row, insertedSessions ws = [row] ∧ row.id = seq.userSessions ∧ row.createdAt = now ∧
      row.expiresAt = now + days 30 ∧ row.revokedAt = none ∧
      seq'.userSessions = seq.userSessions + 1 := by
  by_cases hq : ∀ userId tokenHash clientVersion,
      q ≠ .createUserSession userId tokenHash clientVersion
  · exact Or.inl ⟨insertedSessions_of_from (from_of_run h) hq, (sequence_of_run h hq).ge⟩
  · simp only [not_forall, not_not] at hq
    obtain ⟨userId, tokenHash, clientVersion, rfl⟩ := hq
    simp only [Query.run, createUserSession] at h
    split at h
    · split_ifs at h
      · cases h
        exact Or.inl ⟨rfl, by dsimp only; omega⟩
      · cases h
        exact Or.inr ⟨_, rfl, rfl, rfl, rfl, rfl, rfl⟩
    · cases h

end Query

variable {p : Platform} {cfg : ServerConfig} {c c' : ServerState} {l : ServerLabel}
  {f : SqlFunctions} {t : Nat} {x : Choice} {s s' : Server}

theorem log_of_active {store : Database.Store} {txn : Txn Write}
    (h : store.active t = some txn) : store.log t = txn.log := by
  rw [Store.log, h]
  rfl

/-! ## The invariant -/

/-- The ids of the committed sessions, and of those that each transaction has inserted. -/
def sessionIds (store : Database.Store) : Option Nat → List Int
  | none => store.committed.userSessions.map (·.id)
  | some t => (insertedSessions (store.log t)).map (·.id)

theorem sessionIds_eq (store : Database.Store) :
    sessionIds store = store.numbers (fun db => db.userSessions.map (·.id))
      (fun ws => (insertedSessions ws).map (·.id)) := by
  funext i
  cases i <;> rfl

theorem id_of_view {row : UserSessionRow}
    (hrow : row ∈ (s.store.view writes t).userSessions) :
    row.id ∈ sessionIds s.store none ∨ row.id ∈ sessionIds s.store (some t) := by
  obtain ⟨row₀, hrow₀, hissued, -⟩ := exists_origin hrow
  rw [← (same_of_issued hissued).1]
  exact hrow₀.imp List.mem_map_of_mem List.mem_map_of_mem

structure SessionRows (s : Server) : Prop where
  locks : Store.LocksHeld writes s.store
  ids : Drawn (sessionIds s.store) s.sequences.userSessions
  lifetime : ∀ row ∈ s.store.committed.userSessions, row.expiresAt = row.createdAt + days 30
  inserted : ∀ t txn, s.store.active t = some txn → ∀ row ∈ insertedSessions txn.log,
    row.createdAt = txn.start ∧ row.expiresAt = txn.start + days 30 ∧ row.revokedAt = none
  touched : ∀ t, ∀ w ∈ s.store.log t, ∀ id, w.session = some id →
    id ∈ sessionIds s.store none ∨ id ∈ sessionIds s.store (some t)
  revokes : ∀ t txn, s.store.active t = some txn → ∀ id now, .revokeSession id now ∈ txn.log →
    ∀ row ∈ s.store.committed.userSessions, row.id = id → txn.start < row.expiresAt
  deletes : ∀ t id, .deleteSession id ∈ s.store.log t →
    ∀ row ∈ s.store.committed.userSessions, row.id = id → row.revokedAt = none

namespace SessionRows

theorem eq_of_id (hI : SessionRows s) {row row' : UserSessionRow}
    (hrow : row ∈ s.store.committed.userSessions) (hrow' : row' ∈ s.store.committed.userSessions)
    (hid : row.id = row'.id) : row = row' :=
  List.inj_on_of_nodup_map (hI.ids.nodup none) hrow hrow' hid

/-- An inserted session has an id that no committed one has. -/
theorem fresh (hI : SessionRows s) {row row' : UserSessionRow}
    (hrow : row ∈ s.store.committed.userSessions)
    (hrow' : row' ∈ insertedSessions (s.store.log t)) : row.id ≠ row'.id := by
  intro heq
  refine hI.ids.apart none (some t) (by simp) (List.mem_map_of_mem hrow) ?_
  rw [heq]
  exact List.mem_map_of_mem hrow'

/-- The committed session behind one that a transaction sees under the same id. -/
theorem origin_of_view (hI : SessionRows s) {row row' : UserSessionRow}
    (hrow : row ∈ s.store.committed.userSessions)
    (hrow' : row' ∈ (s.store.view writes t).userSessions) (hid : row.id = row'.id) :
    row.issued = row'.issued ∧ (row'.revokedAt = none → row = row') := by
  obtain ⟨row₀, hrow₀, hissued, hkept⟩ := exists_origin hrow'
  have hid₀ : row.id = row₀.id := hid.trans (same_of_issued hissued).1.symm
  rcases hrow₀ with hcommitted | hinserted
  · obtain rfl := hI.eq_of_id hrow hcommitted hid₀
    exact ⟨hissued, fun hnone => hkept.resolve_right fun hrevoked => hrevoked.1 hnone⟩
  · exact absurd hid₀ (hI.fresh hrow hinserted)

/-- Transactions may begin, end and be forgotten. -/
theorem shrink (hI : SessionRows s) (hlocks : Store.LocksHeld writes s'.store)
    (hseq : s'.sequences = s.sequences) (hcommitted : s'.store.committed = s.store.committed)
    (hactive : ∀ t txn, s'.store.active t = some txn →
      s.store.active t = some txn ∨ txn.log = []) : SessionRows s' := by
  have hlog : ∀ t, s'.store.log t = [] ∨ s'.store.log t = s.store.log t := by
    intro t
    cases hopen : s'.store.active t with
    | none => exact Or.inl (Store.log_of_not_active hopen)
    | some txn =>
      rw [log_of_active hopen]
      rcases hactive t txn hopen with hold | hnil
      · exact Or.inr (log_of_active hold).symm
      · exact Or.inl hnil
  have hids : ∀ i, (sessionIds s'.store i).Sublist (sessionIds s.store i) := by
    simp only [sessionIds_eq]
    exact Store.numbers_shrink rfl hcommitted hlog
  have hmem : ∀ t w, w ∈ s'.store.log t → s'.store.log t = s.store.log t := by
    intro t w hw
    rcases hlog t with hnil | hsame
    · rw [hnil] at hw
      cases hw
    · exact hsame
  refine ⟨hlocks, hI.ids.of_sublist hids (by rw [hseq]), ?_, ?_, ?_, ?_, ?_⟩
  · rw [hcommitted]
    exact hI.lifetime
  · intro t txn hopen row hrow
    rcases hactive t txn hopen with hold | hnil
    · exact hI.inserted t txn hold row hrow
    · rw [hnil] at hrow
      cases hrow
  · intro t w hw id hid
    have hsame := hmem t w hw
    rw [hsame] at hw
    have hold := hI.touched t w hw id hid
    rw [sessionIds, sessionIds, hcommitted, hsame]
    exact hold
  · intro t txn hopen id now hw
    rw [hcommitted]
    rcases hactive t txn hopen with hold | hnil
    · exact hI.revokes t txn hold id now hw
    · rw [hnil] at hw
      cases hw
  · intro t id hw
    rw [hmem t _ hw] at hw
    rw [hcommitted]
    exact hI.deletes t id hw

section Statement

variable {q : Query} {rows : q.Rows} {ws : List Write} {txn : Txn Write} {seq' : Sequences}

theorem sessionIds_record (hactive : s.store.active t = some txn) (ws : List Write) :
    sessionIds (s.store.record writes t ws) = Function.update (sessionIds s.store) (some t)
      (sessionIds s.store (some t) ++ (insertedSessions ws).map (·.id)) := by
  simp only [sessionIds_eq]
  refine Store.numbers_record writes hactive (fun ws ws' => ?_) ws
  rw [insertedSessions_append, List.map_append]

theorem mem_sessionIds_record (hactive : s.store.active t = some txn) (ws : List Write)
    {i : Option Nat} {id : Int} (hid : id ∈ sessionIds s.store i) :
    id ∈ sessionIds (s.store.record writes t ws) i := by
  rw [sessionIds_record hactive]
  by_cases hi : i = some t
  · subst hi
    rw [Function.update_self]
    exact List.mem_append_left _ hid
  · rwa [Function.update_of_ne hi]

theorem drawn_record (hI : SessionRows s) (hactive : s.store.active t = some txn)
    (hrun : q.run (s.store.view writes t) txn.start s.sequences f = some (rows, ws, seq')) :
    Drawn (sessionIds (s.store.record writes t ws)) seq'.userSessions := by
  rcases insertedSessions_of_run hrun with ⟨hnone, hle⟩ | ⟨row, hone, hid, -, -, -, hnext⟩
  · refine hI.ids.of_sublist (fun i => ?_) hle
    rw [sessionIds_record hactive, hnone, List.map_nil, List.append_nil, Function.update_eq_self]
  · have hdrawn := hI.ids.draw (some t)
    rw [sessionIds_record hactive, hone, hnext, List.map_singleton, hid]
    exact hdrawn

theorem inserted_record (hI : SessionRows s) (hactive : s.store.active t = some txn)
    (hrun : q.run (s.store.view writes t) txn.start s.sequences f = some (rows, ws, seq'))
    {t' : Nat} {txn' : Txn Write} (hopen : (s.store.record writes t ws).active t' = some txn')
    {row : UserSessionRow} (hrow : row ∈ insertedSessions txn'.log) :
    row.createdAt = txn'.start ∧ row.expiresAt = txn'.start + days 30 ∧ row.revokedAt = none := by
  rcases Store.active_record_cases writes hactive hopen with hold | ⟨rfl, rfl⟩
  · exact hI.inserted t' txn' hold row hrow
  · rw [insertedSessions_append] at hrow
    rcases List.mem_append.mp hrow with hold | hnew
    · exact hI.inserted t' txn hactive row hold
    · rcases insertedSessions_of_run hrun with
        ⟨hnone, -⟩ | ⟨row', hone, -, hcreated, hexpires, hrevoked, -⟩
      · rw [hnone] at hnew
        cases hnew
      · rw [hone] at hnew
        obtain rfl := List.mem_singleton.mp hnew
        exact ⟨hcreated, hexpires, hrevoked⟩

theorem touched_record (hI : SessionRows s) (hactive : s.store.active t = some txn)
    (hrun : q.run (s.store.view writes t) txn.start s.sequences f = some (rows, ws, seq'))
    {t' : Nat} {w : Write} (hw : w ∈ (s.store.record writes t ws).log t') {id : Int}
    (hid : w.session = some id) :
    id ∈ sessionIds (s.store.record writes t ws) none ∨
      id ∈ sessionIds (s.store.record writes t ws) (some t') := by
  have hgrows : ∀ i, id ∈ sessionIds s.store i →
      id ∈ sessionIds (s.store.record writes t ws) i := fun _ => mem_sessionIds_record hactive ws
  rcases Store.mem_log_record writes hactive hw with hold | ⟨rfl, hnew⟩
  · exact (hI.touched t' w hold id hid).imp (hgrows _) (hgrows _)
  · obtain ⟨row, hrow, rfl, -⟩ := touched_of_run hrun hnew hid
    exact (id_of_view hrow).imp (hgrows _) (hgrows _)

theorem revokes_record (hI : SessionRows s) (hactive : s.store.active t = some txn)
    (hrun : q.run (s.store.view writes t) txn.start s.sequences f = some (rows, ws, seq'))
    {t' : Nat} {txn' : Txn Write} (hopen : (s.store.record writes t ws).active t' = some txn')
    {id : Int} {now : Time} (hw : .revokeSession id now ∈ txn'.log) {row : UserSessionRow}
    (hrow : row ∈ s.store.committed.userSessions) (hid : row.id = id) :
    txn'.start < row.expiresAt := by
  rcases Store.active_record_cases writes hactive hopen with hold | ⟨rfl, rfl⟩
  · exact hI.revokes t' txn' hold id now hw row hrow hid
  · rcases List.mem_append.mp hw with hold | hnew
    · exact hI.revokes t' txn hactive id now hold row hrow hid
    · obtain ⟨row', hrow', hid', -, ⟨heq, -⟩ | ⟨-, hlive⟩⟩ := touched_of_run hrun hnew rfl
      · cases heq
      · obtain ⟨hissued, -⟩ := hI.origin_of_view hrow hrow' (hid.trans hid'.symm)
        rw [(same_of_issued hissued).2.2]
        exact hlive

theorem deletes_record (hI : SessionRows s) (hactive : s.store.active t = some txn)
    (hrun : q.run (s.store.view writes t) txn.start s.sequences f = some (rows, ws, seq'))
    {t' : Nat} {id : Int} (hw : .deleteSession id ∈ (s.store.record writes t ws).log t')
    {row : UserSessionRow} (hrow : row ∈ s.store.committed.userSessions) (hid : row.id = id) :
    row.revokedAt = none := by
  rcases Store.mem_log_record writes hactive hw with hold | ⟨rfl, hnew⟩
  · exact hI.deletes t' id hold row hrow hid
  · obtain ⟨row', hrow', hid', hnone, -⟩ := touched_of_run hrun hnew rfl
    obtain ⟨-, hsame⟩ := hI.origin_of_view hrow hrow' (hid.trans hid'.symm)
    rw [hsame hnone]
    exact hnone

/-- A statement of an open transaction that is not blocked. -/
theorem statement (hI : SessionRows s) (hactive : s.store.active t = some txn)
    (hrun : q.run (s.store.view writes t) txn.start s.sequences f = some (rows, ws, seq'))
    (hfree : s.store.blocked writes t ws = false) :
    SessionRows { s with store := s.store.record writes t ws, sequences := seq' } where
  locks := hI.locks.record hactive hfree
  ids := hI.drawn_record hactive hrun
  lifetime := hI.lifetime
  inserted _ _ hopen _ hrow := hI.inserted_record hactive hrun hopen hrow
  touched _ _ hw _ hid := hI.touched_record hactive hrun hw hid
  revokes _ _ hopen _ _ hw _ hrow hid := hI.revokes_record hactive hrun hopen hw hrow hid
  deletes _ _ hw _ hrow hid := hI.deletes_record hactive hrun hw hrow hid

end Statement

section Commit

/-- A session that another transaction has touched is not touched by this one. -/
theorem not_touched (hI : SessionRows s) {t' : Nat} (ht : t' ≠ t) {w w' : Write}
    (hw : w ∈ s.store.log t') (hw' : w' ∈ s.store.log t) {id : Int} (hid : w.session = some id) :
    w'.session ≠ some id := by
  have hlock : ∀ w : Write, w.session = some id → w.lock = some (.session id) := by
    intro w hid
    cases w with
    | revokeSession id' now =>
      cases hid
      rfl
    | deleteSession id' =>
      cases hid
      rfl
    | _ => cases hid
  intro hid'
  exact hI.locks.ne_lock ht hw hw' (hlock w hid) (hlock w' hid')

/-- The ids that a transaction has drawn pass to the committed table, but for those that it
has deleted. -/
theorem sessionIds_commit (store : Database.Store) (t : Nat) (i : Option Nat) :
    (sessionIds (store.commit writes t) i).Sublist (Function.update (Function.update
      (sessionIds store) none (sessionIds store none ++ sessionIds store (some t)))
      (some t) [] i) := by
  simp only [sessionIds_eq]
  refine Store.numbers_commit writes rfl ?_ i
  have hview := (issuedSessions_foldl (store.log t) store.committed).map (·.id)
  rw [List.map_append, issuedSessions, issuedSessions, List.map_map, List.map_map,
    List.map_map] at hview
  exact hview

variable {txn : Txn Write}

theorem lifetime_commit (hI : SessionRows s) (hactive : s.store.active t = some txn)
    {row : UserSessionRow} (hrow : row ∈ (s.store.view writes t).userSessions) :
    row.expiresAt = row.createdAt + days 30 := by
  obtain ⟨row₀, hrow₀, hissued, -⟩ := exists_origin hrow
  obtain ⟨-, hcreated, hexpires⟩ := same_of_issued hissued
  rw [← hcreated, ← hexpires]
  rcases hrow₀ with hold | hnew
  · exact hI.lifetime row₀ hold
  · have hinserted : row₀ ∈ insertedSessions txn.log := by rwa [← log_of_active hactive]
    obtain ⟨hstart, hend, -⟩ := hI.inserted t txn hactive row₀ hinserted
    rw [hstart, hend]

theorem touched_commit (hI : SessionRows s) {t' : Nat} {w : Write}
    (hw : w ∈ (s.store.commit writes t).log t') {id : Int} (hid : w.session = some id) :
    id ∈ sessionIds (s.store.commit writes t) none ∨
      id ∈ sessionIds (s.store.commit writes t) (some t') := by
  obtain ⟨ht', hw⟩ := Store.ne_of_mem_log_commit writes hw
  rcases hI.touched t' w hw id hid with hold | hown
  · left
    obtain ⟨row, hrow, rfl⟩ := List.mem_map.mp hold
    have hkept : .deleteSession row.id ∉ s.store.log t :=
      fun hdeleted => hI.not_touched ht' hw hdeleted hid rfl
    obtain ⟨row', hrow', hissued, -⟩ := exists_issued_foldl hrow hkept
    rw [← (same_of_issued hissued).1]
    exact List.mem_map_of_mem hrow'
  · right
    rw [sessionIds, Store.log_commit_of_ne writes ht']
    exact hown

theorem revokes_commit (hI : SessionRows s) {t' : Nat} {txn' : Txn Write}
    (hopen : (s.store.commit writes t).active t' = some txn') {id : Int} {now : Time}
    (hw : .revokeSession id now ∈ txn'.log) {row : UserSessionRow}
    (hrow : row ∈ (s.store.view writes t).userSessions) (hid : row.id = id) :
    txn'.start < row.expiresAt := by
  obtain ⟨ht', hopen⟩ := Store.ne_of_active_commit writes hopen
  have hwlog : .revokeSession id now ∈ s.store.log t' := by rwa [log_of_active hopen]
  obtain ⟨row₀, hrow₀, hissued, -⟩ := exists_origin hrow
  obtain ⟨hid₀, -, hexpires⟩ := same_of_issued hissued
  rw [← hexpires]
  rcases hrow₀ with hold | hnew
  · exact hI.revokes t' txn' hopen id now hw row₀ hold (hid₀.trans hid)
  · -- an id that the other transaction has just drawn cannot have been seen by this one
    have hdrawn : id ∈ sessionIds s.store (some t) := by
      rw [← hid, ← hid₀]
      exact List.mem_map_of_mem hnew
    rcases hI.touched t' _ hwlog id rfl with hseen | hown
    · exact (hI.ids.apart none (some t) (by simp) hseen hdrawn).elim
    · exact (hI.ids.apart (some t') (some t) (by simpa using ht') hown hdrawn).elim

theorem deletes_commit (hI : SessionRows s) (hactive : s.store.active t = some txn) {t' : Nat}
    {id : Int} (hw : .deleteSession id ∈ (s.store.commit writes t).log t') {row : UserSessionRow}
    (hrow : row ∈ (s.store.view writes t).userSessions) (hid : row.id = id) :
    row.revokedAt = none := by
  obtain ⟨ht', hw⟩ := Store.ne_of_mem_log_commit writes hw
  obtain ⟨row₀, hrow₀, hissued, hkept⟩ := exists_origin hrow
  have hid₀ := (same_of_issued hissued).1
  have hnone : row₀.revokedAt = none := by
    rcases hrow₀ with hold | hnew
    · exact hI.deletes t' id hw row₀ hold (hid₀.trans hid)
    · have hinserted : row₀ ∈ insertedSessions txn.log := by rwa [← log_of_active hactive]
      exact (hI.inserted t txn hactive row₀ hinserted).2.2
  rcases hkept with rfl | ⟨-, now, hrevoked⟩
  · exact hnone
  · exact absurd (congrArg some hid) (hI.not_touched ht' hw hrevoked rfl)

/-- A commit puts what the transaction has seen in place of the committed data. -/
theorem commit (hI : SessionRows s) (hactive : s.store.active t = some txn) :
    SessionRows (s.withStore (s.store.commit writes t)) where
  locks := hI.locks.commit t
  ids := (hI.ids.pass (by simp)).of_sublist (sessionIds_commit s.store t) (Int.le_refl _)
  lifetime _ hrow := hI.lifetime_commit hactive hrow
  inserted t' txn' hopen := hI.inserted t' txn' (Store.ne_of_active_commit writes hopen).2
  touched _ _ hw _ hid := hI.touched_commit hw hid
  revokes _ _ hopen _ _ hw _ hrow hid := hI.revokes_commit hopen hw hrow hid
  deletes _ _ hw _ hrow hid := hI.deletes_commit hactive hw hrow hid

end Commit

/-- The transaction begins, or ends without a commit. -/
theorem reset (hI : SessionRows s) (hlocks : Store.LocksHeld writes s'.store)
    (hcommitted : s'.store.committed = s.store.committed) (hseq : s'.sequences = s.sequences)
    (hself : ∀ txn, s'.store.active t = some txn → txn.log = [])
    (hother : ∀ t', t' ≠ t → s'.store.active t' = s.store.active t') : SessionRows s' := by
  refine hI.shrink hlocks hseq hcommitted fun t' txn' hopen => ?_
  by_cases ht' : t' = t
  · rw [ht'] at hopen
    exact Or.inr (hself txn' hopen)
  · rw [hother t' ht'] at hopen
    exact Or.inl hopen

theorem begin (hI : SessionRows s) : SessionRows (s.withStore (s.store.begin t s.clock)) := by
  refine hI.reset (t := t) (hI.locks.begin t s.clock) rfl rfl (fun txn hopen => ?_) fun t' ht' => ?_
  · change (s.store.begin t s.clock).active t = some txn at hopen
    rw [Store.active_begin_self] at hopen
    cases hopen
    rfl
  · exact Store.active_begin_of_ne ht' s.clock

theorem close (hI : SessionRows s) : SessionRows (s.withStore (s.store.close t)) := by
  refine hI.reset (t := t) (hI.locks.close t) rfl rfl (fun txn hopen => ?_) fun t' ht' => ?_
  · change (s.store.close t).active t = some txn at hopen
    rw [Store.active_close_self] at hopen
    cases hopen
  · exact Store.active_close_of_ne ht'

theorem call (hI : SessionRows s) {cmd : Cmd} {r : cmd.Reply}
    (hexec : s.exec f t cmd x = some (r, s')) : SessionRows s' := by
  cases Server.exec_cases hexec with
  | begin => exact hI.begin
  | statement hactive hrun hfree => exact hI.statement hactive hrun hfree
  | commit hactive => exact hI.commit hactive
  | commitFailed | abort | unwind => exact hI.close
  | _ => exact hI.shrink hI.locks rfl rfl fun t' txn' hopen => Or.inl hopen

end SessionRows

/-! ## Runs -/

theorem start_sequences {a : Start} {job : Job}
    (h : (loginServer p cfg).start a s = some (job, s')) : s'.sequences = s.sequences := by
  obtain ⟨queue, rfl⟩ := start_cases h
  rfl

theorem outside_sequences {o : Outside} (h : (loginServer p cfg).outside o s = some s') :
    s'.sequences = s.sequences := by
  rcases outside_cases h with ⟨queue, rfl⟩ | ⟨clock, steadyMs, -, -, rfl⟩
  · rfl
  · rfl

/-- A table that `create_user_session` has filled: its ids are a primary key, and every
row is valid for thirty days. -/
structure IssuedTable (db : Database) : Prop where
  ids : (db.userSessions.map (·.id)).Nodup
  lifetime : ∀ row ∈ db.userSessions, row.expiresAt = row.createdAt + days 30

theorem sessionRows_boot {s₀ : Server} (h₀ : s₀.Initial) (htable : IssuedTable s₀.store.committed) :
    SessionRows s₀ := by
  have hlog : ∀ t, s₀.store.log t = [] := by
    intro t
    rw [h₀.store]
    rfl
  have hactive : ∀ t, s₀.store.active t = none := by
    intro t
    rw [h₀.store]
    rfl
  have hids : Drawn (sessionIds s₀.store) s₀.sequences.userSessions := by
    rw [sessionIds_eq, h₀.store]
    refine Drawn.idle rfl htable.ids fun id hid => ?_
    obtain ⟨row, hrow, rfl⟩ := List.mem_map.mp hid
    exact h₀.sessionIds row hrow
  refine ⟨?_, hids, htable.lifetime, fun t txn hopen => ?_, fun t w hw => ?_,
    fun t txn hopen => ?_, fun t id hw => ?_⟩
  · rw [h₀.store]
    exact Store.locksHeld_idle writes _
  · rw [hactive] at hopen
    cases hopen
  · rw [hlog] at hw
    cases hw
  · rw [hactive] at hopen
    cases hopen
  · rw [hlog] at hw
    cases hw

theorem Server.reach_sessionRows {meets : ServerState → ServerLabel → Prop} {s₀ : Server}
    (h₀ : s₀.Initial) (htable : IssuedTable s₀.store.committed)
    (h : (loginServer p cfg).Reach meets s₀.boot c) : SessionRows c.shared := by
  refine h.invariant (I := fun c => SessionRows c.shared) (sessionRows_boot h₀ htable)
    fun c l c' _ hI _ hstep => ?_
  have hquiet : ∀ s', c.shared.SameData s' → s'.sequences = c.shared.sequences →
      SessionRows s' := by
    intro s' hsame hseq
    refine hI.shrink ?_ hseq (by rw [hsame.store]) fun t txn hopen => ?_
    · rw [hsame.store]
      exact hI.locks
    · rw [hsame.store] at hopen
      exact Or.inl hopen
  cases hstep with
  | run hthread hexec => exact hI.call hexec
  | spawn hfree hstart => exact hquiet _ (start_sameData hstart) (start_sequences hstart)
  | outside ho => exact hquiet _ (outside_sameData ho) (outside_sequences ho)

end LoginServer
