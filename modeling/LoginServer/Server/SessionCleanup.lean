import Mathlib.Data.List.Perm.Subperm
import LoginServer.Interleaving.Logged
import LoginServer.Server.Schedule
import LoginServer.Server.SessionRows

/-!
# Cleaning up expired sessions

`cleanup_expired_sessions` deletes the sessions that have expired and are not revoked. A
login or a registration revokes the sessions of its user before it opens the new one, and
nothing deletes a revoked session (`revoked_sessions_stay`): once its thirty days are over,
it stays in the table for good.

The server runs with a log of its calls, each with the transactions as they were before
it; from the log one reads which sessions were ever created.
-/

namespace LoginServer

open Database Interleaving Transactions

variable {p : Platform} {cfg : ServerConfig} {c c' : ServerState} {l : ServerLabel}
  {f : SqlFunctions} {t : Nat} {x : Choice} {s s' : Server} {s₀ : Server}

/-! ## Revoked sessions -/

theorem SessionRows.not_deleted (hI : SessionRows s) {row : UserSessionRow}
    (hrow : row ∈ s.store.committed.userSessions) (hrevoked : row.revokedAt ≠ none) (t : Nat) :
    .deleteSession row.id ∉ s.store.log t :=
  fun hdeleted => hrevoked (hI.deletes t row.id hdeleted row hrow rfl)

/-- What a step leaves of a revoked session. -/
theorem SessionRows.revoked_call (hI : SessionRows s) {cmd : Cmd} {r : cmd.Reply}
    (hexec : s.exec f t cmd x = some (r, s')) {row : UserSessionRow}
    (hrow : row ∈ s.store.committed.userSessions) (hrevoked : row.revokedAt ≠ none) :
    ∃ row' ∈ s'.store.committed.userSessions, row'.issued = row.issued ∧ row'.revokedAt ≠ none := by
  rcases (exec_store hexec).committed with hsame | ⟨-, -, hview⟩
  · rw [hsame]
    exact ⟨row, hrow, rfl, hrevoked⟩
  · rw [hview]
    obtain ⟨row', hrow', hissued, hstays⟩ :=
      exists_issued_foldl hrow (hI.not_deleted hrow hrevoked t)
    exact ⟨row', hrow', hissued, hstays hrevoked⟩

/-- A revoked session is never deleted. -/
theorem revoked_sessions_stay {meets : ServerState → ServerLabel → Prop} (h₀ : s₀.Initial)
    (htable : IssuedTable s₀.store.committed)
    (hbefore : (loginServer p cfg).Reach meets s₀.boot c)
    (hlater : (loginServer p cfg).Reach meets c c') {row : UserSessionRow}
    (hrow : row ∈ c.shared.store.committed.userSessions) (hrevoked : row.revokedAt ≠ none) :
    ∃ row' ∈ c'.shared.store.committed.userSessions,
      row'.issued = row.issued ∧ row'.revokedAt ≠ none := by
  refine hlater.invariant (I := fun c' => ∃ row' ∈ c'.shared.store.committed.userSessions,
    row'.issued = row.issued ∧ row'.revokedAt ≠ none) ⟨row, hrow, rfl, hrevoked⟩ ?_
  rintro c₁ l c₂ hreach ⟨row₁, hrow₁, hissued₁, hrevoked₁⟩ - hstep
  have hI := Server.reach_sessionRows h₀ htable (hbefore.trans hreach)
  rcases step_cases hstep with ⟨t, x, job, cmd, r, -, hcall⟩ | ⟨-, hsame⟩
  · obtain ⟨row₂, hrow₂, hissued₂, hrevoked₂⟩ := hI.revoked_call hcall.exec hrow₁ hrevoked₁
    exact ⟨row₂, hrow₂, hissued₂.trans hissued₁, hrevoked₂⟩
  · rw [hsame.store]
    exact ⟨row₁, hrow₁, hissued₁, hrevoked₁⟩

/-! ## What a cleanup has marked for deletion -/

/-- The open transaction has executed `cleanup_expired_sessions`. -/
def Sweeps (h : Hist) : Prop := ⟨.execPrepared .cleanupExpiredSessions, some ()⟩ ∈ current h

/-- A transaction commits within thirty days, as it does where a step takes no time. -/
def CommitsSoon (c : ServerState) : ServerLabel → Prop
  | .run t _ => c.pending t = some .commitWork → ∀ txn, c.shared.store.active t = some txn →
    c.shared.clock < txn.start + days 30
  | _ => True

/-- A transaction that has swept has deleted the expired sessions that are not revoked. -/
def Swept (hist : Nat → Hist) (store : Database.Store) : Prop :=
  ∀ t txn, store.active t = some txn → Sweeps (hist t) → ∀ row ∈ store.committed.userSessions,
    row.expiresAt < txn.start → row.revokedAt = none → .deleteSession row.id ∈ txn.log

/-- The statement itself: what it does not find unrevoked, the transaction has deleted. -/
theorem SessionRows.swept_of_cleanup (hI : SessionRows s) {txn : Txn Write} {ws : List Write}
    {seq' : Sequences} (hactive : s.store.active t = some txn)
    (hrun : Query.cleanupExpiredSessions.run (s.store.view writes t) txn.start s.sequences f =
      some ((), ws, seq')) {row : UserSessionRow} (hrow : row ∈ s.store.committed.userSessions)
    (hexpired : row.expiresAt < txn.start) (hnone : row.revokedAt = none) :
    .deleteSession row.id ∈ txn.log ++ ws := by
  by_cases hdeleted : .deleteSession row.id ∈ txn.log
  · exact List.mem_append_left _ hdeleted
  · have huntouched : ∀ w ∈ s.store.log t, w.session ≠ some row.id := by
      rw [log_of_active hactive]
      intro w hw hid
      cases w with
      | revokeSession id now =>
        cases hid
        exact lt_asymm hexpired (hI.revokes t txn hactive row.id now hw row hrow rfl)
      | deleteSession id =>
        cases hid
        exact hdeleted hw
      | _ => cases hid
    have hseen : row ∈ (s.store.view writes t).userSessions :=
      mem_foldl_of_untouched hrow huntouched
    cases hrun
    refine List.mem_append_right _ (List.mem_map.mpr ⟨row, List.mem_filter.mpr ⟨hseen, ?_⟩, rfl⟩)
    simp [hexpired, hnone]

theorem Swept.call {hist : Nat → Hist} {start : Time} (hI : Swept hist s.store)
    (hrows : SessionRows s) (hstarts : StartsWithin start s) {cmd : Cmd} {r : cmd.Reply}
    (hsoon : cmd = .commitWork → ∀ txn, s.store.active t = some txn →
      s.clock < txn.start + days 30)
    (hexec : s.exec f t cmd x = some (r, s')) :
    Swept (Function.update hist t (⟨cmd, r⟩ :: hist t)) s'.store := by
  have heffect := exec_store hexec
  generalize s'.store = store at heffect
  intro t' txn' hopen hsweeps row hrow hexpired hnone
  by_cases ht' : t' = t
  · subst ht'
    rw [Function.update_self] at hsweeps
    obtain ⟨hcommitted, hold⟩ := heffect.executed hsweeps
    rw [hcommitted] at hrow
    cases heffect with
    | @statement q rows ws sequences txn hactive hrun =>
      rw [Store.active_record_self writes hactive] at hopen
      cases hopen
      rcases hold with hswept | ⟨heq, -⟩
      · exact List.mem_append_left _ (hI t' txn hactive hswept row hrow hexpired hnone)
      · cases heq
        exact hrows.swept_of_cleanup hactive hrun hrow hexpired hnone
    | keep hkeeps hquery =>
      rcases hold with hswept | ⟨heq, -⟩
      · exact hI t' txn' hopen hswept row hrow hexpired hnone
      · exact absurd heq (hquery _ _)
    | _ => cases hsweeps
  · rw [Function.update_of_ne ht'] at hsweeps
    rw [heffect.active_of_ne ht'] at hopen
    rcases heffect.committed with hsame | ⟨heq, -, hview⟩
    · rw [hsame] at hrow
      exact hI t' txn' hopen hsweeps row hrow hexpired hnone
    · rw [hview] at hrow
      obtain ⟨row₀, hrow₀, -, rfl | hrevoked⟩ := exists_origin hrow
      · rcases hrow₀ with hcommitted | hinserted
        · exact hI t' txn' hopen hsweeps row₀ hcommitted hexpired hnone
        · -- a session that has just been created has not expired
          exfalso
          cases hopen' : s.store.active t with
          | none =>
            rw [Store.log_of_not_active hopen'] at hinserted
            cases hinserted
          | some txn =>
            rw [log_of_active hopen'] at hinserted
            obtain ⟨-, hexpires, -⟩ := hrows.inserted t txn hopen' row₀ hinserted
            have hclock := hsoon (congrArg Sigma.fst heq) txn hopen'
            rw [← hexpires] at hclock
            have hstart := (hstarts.txns t' txn' hopen).2
            exact lt_irrefl _ ((hexpired.trans_le hstart).trans hclock)
      · exact absurd hnone hrevoked.1

theorem Server.reach_swept (h₀ : s₀.Initial) (htable : IssuedTable s₀.store.committed)
    (h : (loginServer p cfg).Reach CommitsSoon s₀.boot c) : Swept c.hist c.shared.store := by
  refine Server.reach_callInvariant (I := Swept) ?_ ?_ h
  · intro t txn hopen
    rw [h₀.store] at hopen
    cases hopen
  · intro c c' t x job cmd r hreach hI hmeets hcall
    refine hI.call (reach_sessionRows h₀ htable hreach) (reach_startsWithin h₀ hreach) ?_
      hcall.exec
    rintro rfl
    exact hmeets hcall.pending

/-! ## The sessions that were ever created -/

/-- A configuration of the server, with the log of all calls so far and the transactions
before each. -/
abbrev RecordedState :=
  Config Job Cmd Cmd.Reply (Server × List (Entry Cmd Cmd.Reply Database.Store))

def recordedServer (p : Platform) (cfg : ServerConfig) :
    System Job Start Cmd Cmd.Reply (Server × List (Entry Cmd Cmd.Reply Database.Store)) Choice
      Outside :=
  (loginServer p cfg).logged Server.store

/-- No thread has started, and nothing is in the log. -/
def Server.bootRecorded (s : Server) : RecordedState := s.boot.withLog []

/-- The sessions that a call has created: those that a transaction has inserted, when it
commits. -/
def createdBy (e : Entry Cmd Cmd.Reply Database.Store) : List UserSessionRow :=
  match e.call with
  | ⟨.commitWork, some _⟩ => insertedSessions (e.note.log e.thread)
  | _ => []

/-- The sessions that were there at first, and those created since. -/
def sessionsCreated (s₀ : Server) (log : List (Entry Cmd Cmd.Reply Database.Store)) :
    List UserSessionRow :=
  s₀.store.committed.userSessions ++ log.flatMap createdBy

theorem sessionsCreated_cons (e : Entry Cmd Cmd.Reply Database.Store)
    (log : List (Entry Cmd Cmd.Reply Database.Store)) :
    (sessionsCreated s₀ log ++ createdBy e).Perm (sessionsCreated s₀ (e :: log)) := by
  rw [sessionsCreated, sessionsCreated, List.flatMap_cons, List.append_assoc]
  exact List.perm_append_comm.append_left _

/-- Every session in the table was created, and none twice. -/
def AllCreated (s₀ : Server) (c : RecordedState) : Prop :=
  c.shared.1.store.committed.issuedSessions.Subperm
    ((sessionsCreated s₀ c.shared.2).map UserSessionRow.issued)

theorem subperm_call {log : List (Entry Cmd Cmd.Reply Database.Store)}
    (hI : s.store.committed.issuedSessions.Subperm
      ((sessionsCreated s₀ log).map UserSessionRow.issued)) {cmd : Cmd} {r : cmd.Reply}
    (hexec : s.exec f t cmd x = some (r, s')) :
    s'.store.committed.issuedSessions.Subperm
      ((sessionsCreated s₀ (⟨s.store, t, ⟨cmd, r⟩⟩ :: log)).map UserSessionRow.issued) := by
  have hcons : (sessionsCreated s₀ log ++ createdBy ⟨s.store, t, ⟨cmd, r⟩⟩).Perm
      (sessionsCreated s₀ (⟨s.store, t, ⟨cmd, r⟩⟩ :: log)) := sessionsCreated_cons _ log
  have hgrows := hcons.map UserSessionRow.issued
  rw [List.map_append] at hgrows
  refine List.Subperm.trans ?_ hgrows.subperm
  rcases (exec_store hexec).committed with hsame | ⟨heq, -, hview⟩
  · rw [hsame]
    exact hI.trans (List.sublist_append_left _ _).subperm
  · have hcreated : createdBy ⟨s.store, t, ⟨cmd, r⟩⟩ = insertedSessions (s.store.log t) := by
      rw [heq]
      rfl
    rw [hview, hcreated]
    refine (issuedSessions_foldl (s.store.log t) s.store.committed).subperm.trans ?_
    exact (List.subperm_append_right _).mpr hI

theorem reach_created {meets : RecordedState → ServerLabel → Prop} {c : RecordedState}
    (h : (recordedServer p cfg).Reach meets s₀.bootRecorded c) : AllCreated s₀ c := by
  refine h.invariant ?_ fun c l c' _ hI _ hstep => ?_
  · rw [AllCreated, sessionsCreated]
    change List.Subperm _ ((s₀.store.committed.userSessions ++ []).map UserSessionRow.issued)
    rw [List.append_nil]
    exact List.Subperm.refl _
  · cases System.logged_step_cases hstep with
    | call _ hthread hexec => exact subperm_call hI hexec
    | spawn _ hfree hstart =>
      rw [AllCreated, Config.shared_set, (start_sameData hstart).store]
      exact hI
    | outside _ ho =>
      rw [AllCreated]
      dsimp only
      rw [(outside_sameData ho).store]
      exact hI

/-! ## What is in the table after a cleanup -/

/-- In this step a transaction commits that has executed `cleanup_expired_sessions`; its
`now()` is `now`. -/
def CommitsCleanup (c c' : RecordedState) (now : Time) : Prop :=
  ∃ t txn, c.shared.1.store.active t = some txn ∧ txn.start = now ∧ Sweeps (c.hist t) ∧
    c'.shared.2 = ⟨c.shared.1.store, t, ⟨.commitWork, some ()⟩⟩ :: c.shared.2

/-- No session in the table has expired, and there are no more than were created in the
last thirty days. -/
structure CleanedUp (s₀ : Server) (c : RecordedState) (now : Time) : Prop where
  unexpired : ∀ row ∈ c.shared.1.store.committed.userSessions, now ≤ row.expiresAt
  bounded : c.shared.1.store.committed.userSessions.length ≤
    ((sessionsCreated s₀ c.shared.2).filter fun row => now - days 30 ≤ row.createdAt).length

/-- Sessions that have not expired were created in the last thirty days. -/
theorem length_le_of_unexpired {c : RecordedState} {now : Time} (hrows : SessionRows c.shared.1)
    (hcreated : AllCreated s₀ c)
    (hunexpired : ∀ row ∈ c.shared.1.store.committed.userSessions, now ≤ row.expiresAt) :
    c.shared.1.store.committed.userSessions.length ≤
      ((sessionsCreated s₀ c.shared.2).filter fun row => now - days 30 ≤ row.createdAt).length := by
  have hrecent : ∀ row ∈ c.shared.1.store.committed.userSessions,
      decide (now - days 30 ≤ row.createdAt) = true := by
    intro row hrow
    have hexpires := hunexpired row hrow
    rw [hrows.lifetime row hrow] at hexpires
    exact decide_eq_true (Int.sub_right_le_of_le_add hexpires)
  have hcount := hcreated.countP_le fun row => decide (now - days 30 ≤ row.createdAt)
  rw [issuedSessions, List.countP_map, List.countP_map] at hcount
  calc c.shared.1.store.committed.userSessions.length
      = c.shared.1.store.committed.userSessions.countP
          (fun row => decide (now - days 30 ≤ row.createdAt)) :=
        (List.countP_eq_length.mpr hrecent).symm
    _ ≤ (sessionsCreated s₀ c.shared.2).countP
          (fun row => decide (now - days 30 ≤ row.createdAt)) := hcount
    _ = _ := List.countP_eq_length_filter

theorem committed_of_commit (h : s.exec f t .commitWork x = some (some (), s')) :
    s'.store.committed = s.store.view writes t := by
  cases Server.exec_cases h with
  | commit => rfl
  | session hop => cases hop
  | read hreads => cases hreads

/-- A committed cleanup leaves no expired session, if and only if no revoked one has
expired. -/
theorem cleanup_bounds_sessions_iff (p : Platform) (cfg : ServerConfig) {s₀ : Server}
    {c c' : RecordedState} {l : ServerLabel} {now : Time} (h₀ : s₀.Initial)
    (htable : IssuedTable s₀.store.committed)
    (hreach : (recordedServer p cfg).Reach (fun c l => CommitsSoon c.erase l) s₀.bootRecorded c)
    (hstep : (recordedServer p cfg).Step c l c') (hcleanup : CommitsCleanup c c' now) :
    CleanedUp s₀ c' now ↔
      ∀ row ∈ c.shared.1.store.committed.userSessions, row.revokedAt ≠ none →
        now ≤ row.expiresAt := by
  obtain ⟨t, txn, hactive, rfl, hsweeps, hlog⟩ := hcleanup
  have herased := System.reach_erase hreach
  have hrows : SessionRows c.shared.1 := Server.reach_sessionRows h₀ htable herased
  have hswept : Swept c.hist c.shared.1.store := Server.reach_swept h₀ htable herased
  have hview : c'.shared.1.store.committed = c.shared.1.store.view writes t := by
    cases System.logged_step_cases hstep with
    | call _ hthread hexec =>
      obtain ⟨heq, -⟩ := List.cons.inj hlog
      cases heq
      exact committed_of_commit (f := p.toSqlFunctions) hexec
    | spawn => exact absurd hlog.symm (List.cons_ne_self _ _)
    | outside => exact absurd hlog.symm (List.cons_ne_self _ _)
  have hinserted : ∀ row ∈ insertedSessions (c.shared.1.store.log t),
      row.expiresAt = txn.start + days 30 := by
    rw [log_of_active hactive]
    exact fun row hrow => (hrows.inserted t txn hactive row hrow).2.1
  constructor
  · rintro ⟨hunexpired, -⟩ row hrow hrevoked
    obtain ⟨row', hrow', hissued, -⟩ :=
      exists_issued_foldl hrow (hrows.not_deleted hrow hrevoked t)
    rw [hview] at hunexpired
    rw [← (same_of_issued hissued).2.2]
    exact hunexpired row' hrow'
  · intro hnone
    have hunexpired : ∀ row ∈ c'.shared.1.store.committed.userSessions,
        txn.start ≤ row.expiresAt := by
      intro row hrow
      rw [hview] at hrow
      by_contra hexpired
      rw [not_le] at hexpired
      obtain ⟨row₀, hrow₀, hissued, -⟩ := exists_origin hrow
      obtain ⟨hid, -, hexpires⟩ := same_of_issued hissued
      rw [← hexpires] at hexpired
      rcases hrow₀ with hold | hnew
      · have hunrevoked : row₀.revokedAt = none := by
          by_contra hrevoked
          exact absurd (hnone row₀ hold hrevoked) (not_le.mpr hexpired)
        have hdeleted := hswept t txn hactive hsweeps row₀ hold hexpired hunrevoked
        rw [← log_of_active hactive] at hdeleted
        have hfresh : ∀ row' ∈ insertedSessions (c.shared.1.store.log t), row'.id ≠ row₀.id :=
          fun row' hrow' => (hrows.fresh hold hrow').symm
        exact ne_of_deleted hdeleted hfresh row hrow hid.symm
      · rw [hinserted row₀ hnew] at hexpired
        exact absurd hexpired (not_lt.mpr (Int.le_add_of_nonneg_right (by decide)))
    refine ⟨hunexpired, ?_⟩
    have hreach' : (recordedServer p cfg).Reach (fun _ _ => True) s₀.bootRecorded c' :=
      (hreach.mono fun _ _ _ => trivial).step trivial hstep
    have herased' : (loginServer p cfg).Reach (fun _ _ => True) s₀.boot c'.erase :=
      System.reach_erase_any hreach'
    have hrows' : SessionRows c'.shared.1 := Server.reach_sessionRows h₀ htable herased'
    exact length_le_of_unexpired hrows' (reach_created hreach') hunexpired

/-! ## A session that stays -/

section Stays

open Schedule Sample

def commitsSoon (c : RecordedState) : ServerLabel → Bool
  | .run t _ =>
    match c.shared.1.store.active t with
    | some txn => decide (c.shared.1.clock < txn.start + days 30)
    | none => true
  | _ => true

theorem CommitsSoon.of_computed {c : RecordedState} {l : ServerLabel} (h : commitsSoon c l = true) :
    CommitsSoon c.erase l := by
  cases l with
  | run t x =>
    intro _ txn hactive
    change c.shared.1.store.active t = some txn at hactive
    rw [commitsSoon, hactive] at h
    exact of_decide_eq_true h
  | spawn _ _ => trivial
  | outside _ => trivial

def isCleanup : (Σ c, Cmd.Reply c) → Bool
  | ⟨.execPrepared .cleanupExpiredSessions, some _⟩ => true
  | _ => false

theorem sweeps_of_any {h : Hist} (hany : (current h).any isCleanup = true) : Sweeps h := by
  obtain ⟨e, he, hcleanup⟩ := List.any_eq_true.mp hany
  unfold isCleanup at hcleanup
  split at hcleanup
  · exact he
  · cases hcleanup

/-- Thread `t` commits a cleanup of the time `now`; the table is `before` before it and
`after` after it. -/
def commitsCleanup (t : Nat) (now : Time) (before after : List UserSessionRow → Bool)
    (c : RecordedState) : Bool :=
  (((recordedServer loginPlatform config).next c (.run t {})).any fun c' =>
    (c'.shared.2.head?.any fun e => isCommit e.call) &&
      after c'.shared.1.store.committed.userSessions) &&
  (c.shared.1.store.active t).any (fun txn => txn.start = now) &&
  (current (c.hist t)).any isCleanup && before c.shared.1.store.committed.userSessions

theorem exists_commitsCleanup (schedule : List ServerLabel) (t : Nat) (now : Time)
    (before after : List UserSessionRow → Bool)
    (h : ((recordedServer loginPlatform config).runLabels commitsSoon oneAccount.bootRecorded
      schedule).any (commitsCleanup t now before after) = true) :
    ∃ c c' : RecordedState,
      (recordedServer loginPlatform config).Reach (fun c l => CommitsSoon c.erase l)
        oneAccount.bootRecorded c ∧
      (recordedServer loginPlatform config).Step c (.run t {}) c' ∧ CommitsCleanup c c' now ∧
      before c.shared.1.store.committed.userSessions = true ∧
      after c'.shared.1.store.committed.userSessions = true := by
  obtain ⟨c, hc, hcommits⟩ := (Option.any_eq_true _ _).mp h
  simp only [commitsCleanup, Bool.and_eq_true] at hcommits
  obtain ⟨⟨⟨hnext, hactive⟩, hsweeps⟩, hbefore⟩ := hcommits
  obtain ⟨c', hc', hlast⟩ := (Option.any_eq_true _ _).mp hnext
  obtain ⟨hcommit, hafter⟩ := (Bool.and_eq_true _ _).mp hlast
  obtain ⟨txn, htxn, hstart⟩ := (Option.any_eq_true _ _).mp hactive
  have hstep := System.step_of_next hc'
  refine ⟨c, c', (System.reach_of_runLabels hc).mono fun _ _ => CommitsSoon.of_computed, hstep,
    ⟨t, txn, htxn, of_decide_eq_true hstart, sweeps_of_any hsweeps, ?_⟩, hbefore, hafter⟩
  cases System.logged_step_cases hstep with
  | @call t x job hist cmd k r s hlabel hthread hexec =>
    cases hlabel
    have heq : (⟨cmd, r⟩ : Σ c, Cmd.Reply c) = ⟨.commitWork, some ()⟩ := eq_of_isCommit hcommit
    cases heq
    rfl
  | spawn hlabel => cases hlabel
  | outside hlabel => cases hlabel

theorem oneAccount_table : IssuedTable oneAccount.store.committed :=
  ⟨List.nodup_nil, fun row hrow => by cases hrow⟩

/-- Anna logs in. -/
def annaLogsIn (t : Nat) (token : Bytes) : List ServerLabel :=
  [frame 1 loginText, .spawn t .dispatch] ++ login t token ++ calls t 2

/-- After thirty-one days without an event the cleanup runs, up to its commit. -/
def cleanupLater (t : Nat) : List ServerLabel :=
  [.outside (.tick (days 31) 2678400000), .spawn t .cleanup] ++ calls t 3

theorem cleanup_bounds_sessions_iff_once : ∃ c c' : RecordedState,
    (recordedServer loginPlatform config).Reach (fun c l => CommitsSoon c.erase l)
      oneAccount.bootRecorded c ∧
    (recordedServer loginPlatform config).Step c (.run 1 {}) c' ∧
    CommitsCleanup c c' (days 31) ∧ CleanedUp oneAccount c' (days 31) := by
  obtain ⟨c, c', hreach, hstep, hcleanup, hbefore, -⟩ :=
    exists_commitsCleanup (annaLogsIn 0 tokenA ++ cleanupLater 1) 1 (days 31)
      (fun rows => rows.all fun row => row.revokedAt.isNone) (fun _ => true) (by decide +kernel)
  have hiff := cleanup_bounds_sessions_iff loginPlatform config (Server.over_initial rfl)
    oneAccount_table hreach hstep hcleanup
  refine ⟨c, c', hreach, hstep, hcleanup, hiff.mpr fun row hrow hrevoked => ?_⟩
  exact absurd (Option.isNone_iff_eq_none.mp (List.all_eq_true.mp hbefore row hrow)) hrevoked

/-- Anna logs in twice. Thirty-one days later the cleanup leaves the session that her second
login has revoked. -/
theorem revoked_session_accumulates : ∃ c c' : RecordedState,
    (recordedServer loginPlatform config).Reach (fun c l => CommitsSoon c.erase l)
      oneAccount.bootRecorded c ∧
    (recordedServer loginPlatform config).Step c (.run 2 {}) c' ∧
    CommitsCleanup c c' (days 31) ∧ ¬ CleanedUp oneAccount c' (days 31) := by
  obtain ⟨c, c', hreach, hstep, hcleanup, -, hafter⟩ :=
    exists_commitsCleanup (annaLogsIn 0 tokenA ++ annaLogsIn 1 tokenB ++ cleanupLater 2) 2
      (days 31) (fun _ => true) (fun rows => rows.any fun row => row.expiresAt < days 31)
      (by decide +kernel)
  refine ⟨c, c', hreach, hstep, hcleanup, fun hclean => ?_⟩
  obtain ⟨row, hrow, hexpired⟩ := List.any_eq_true.mp hafter
  exact absurd (hclean.unexpired row hrow) (not_le.mpr (of_decide_eq_true hexpired))

end Stays

end LoginServer
