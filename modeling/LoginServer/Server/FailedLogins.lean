import LoginServer.Server.SessionCleanup
import LoginServer.Server.UserRows
import LoginServer.Server.WrongPasswords

/-!
# Counting failed logins

`increment_failed_logins` computes the new counter from the row as it is when the row lock
is its own, and no other transaction can change the row before the commit: what a
transaction has written to the row of a user and waits to be committed is the failure of the
committed row (`Failing`). So the committed counter goes up by one with every commit of a
failure, whatever interleaves.

The server runs with the log of its calls; `failuresCounted` are the transactions that have
counted a failure of an account, the latest first.
-/

namespace LoginServer

open Database Interleaving Transactions

variable {p : Platform} {cfg : ServerConfig} {job : Job} {hist : Nat → Hist} {f : SqlFunctions}
  {t : Nat} {x : Choice} {s s' : Server} {s₀ : Server} {cmd : Cmd} {r : cmd.Reply}

theorem Calls.mayCount {c c' : ServerState} (hcall : Calls p c t x job cmd r c')
    (hob : System.AllObedient (mayCount p) (fun _ _ => True) c) :
    System.Lawful (LoginServer.mayCount p job) (c.hist t) ∧
      LoginServer.mayCount p job (c.hist t) cmd := by
  obtain ⟨k, hthread⟩ := hcall.thread
  exact ⟨(hob t _ hthread).lawful, (hob t _ hthread).allowed⟩

/-! ## What waits to be committed -/

/-- The open transaction has reset the counter of the user. -/
def Resets (id : Int) (h : Hist) : Prop :=
  ∃ ip clientVersion,
    ⟨.execPrepared (.resetFailedLogins id ip clientVersion), some ()⟩ ∈ current h

/-- What an open transaction has written to the row of a user is the failure of that row, or
comes from a reset. -/
def Failing (hist : Nat → Hist) (store : Database.Store) : Prop :=
  ∀ t txn, store.active t = some txn → ∀ row ∈ store.committed.users, ∀ w ∈ txn.log,
    w.lock = some (.user row.id) →
      w = row.failure txn.start ∧ CountsFailure row.login (hist t) ∨ Resets row.id (hist t)

/-- The transaction has only searched, so it sees the committed rows. -/
theorem view_of_mayCount {store : Database.Store} {login : Bytes} (hledger : Ledger hist store)
    (hmay : mayCount p job (hist t) (.execPrepared (.incrementFailedLogins login))) :
    store.view writes t = store.committed := by
  obtain ⟨-, -, found, h', hh⟩ := hmay
  refine Store.view_of_log_nil writes (hledger.log_eq_nil fun q rows hmem w hfrom => ?_)
  rw [hh] at hmem
  cases List.mem_singleton.mp hmem
  cases w <;> exact hfrom

/-- A statement counts the failures of the committed rows. -/
theorem failing_of_run {txn : Txn Write} {q : Query} {rows : q.Rows} {ws : List Write}
    {seq' : Sequences} (hrows : UserRows s.store s.sequences.users) (hledger : Ledger hist s.store)
    (hmay : mayCount p job (hist t) (.execPrepared q))
    (hrun : q.run (s.store.view writes t) txn.start s.sequences f = some (rows, ws, seq'))
    {row : UserRow} (hrow : row ∈ s.store.committed.users) {w : Write} (hw : w ∈ ws)
    (hlock : w.lock = some (.user row.id)) :
    w = row.failure txn.start ∧
        CountsFailure row.login (⟨.execPrepared q, some rows⟩ :: hist t) ∨
      Resets row.id (⟨.execPrepared q, some rows⟩ :: hist t) := by
  have hfrom := from_of_run hrun w hw
  cases w with
  | setFailedLogins id attempts lockedUntil =>
    cases q with
    | incrementFailedLogins login =>
      rw [view_of_mayCount hledger hmay] at hrun
      rw [writes_of_incrementFailedLogins hrun] at hw
      obtain ⟨row', hrow', heq⟩ := List.mem_map.mp hw
      obtain ⟨hmem, hlogin⟩ := List.mem_filter.mp hrow'
      have hid : row'.id = row.id :=
        (Write.setFailedLogins.inj heq).1.trans (RowLock.user.inj (Option.some.inj hlock))
      obtain rfl := hrows.eq_of_id hmem hrow hid
      exact Or.inl ⟨heq.symm, login, (of_decide_eq_true hlogin).symm, List.mem_cons_self⟩
    | _ => exact hfrom.elim
  | resetFailedLogins id now ip clientVersion =>
    cases q with
    | resetFailedLogins userId ip' clientVersion' =>
      obtain ⟨ws', hws, heq⟩ := Option.map_eq_some_iff.mp hrun
      cases heq
      obtain ⟨row', hrow', hwrite⟩ := forall₂_exists (forall₂_of_mapM hws).flip hw
      obtain ⟨v, -, heq⟩ := Option.map_eq_some_iff.mp hwrite
      have hid : row'.id = row.id :=
        (Write.resetFailedLogins.inj heq).1.trans (RowLock.user.inj (Option.some.inj hlock))
      right
      rw [← hid, of_decide_eq_true (List.mem_filter.mp hrow').2]
      exact ⟨ip', clientVersion', List.mem_cons_self⟩
    | _ => exact hfrom.elim
  | _ => cases hlock

/-- A committed row that another transaction has written to is left alone. -/
theorem UserRows.row_of_commit {store : Database.Store} {next : Int} (hI : UserRows store next)
    {t t' : Nat} (ht' : t' ≠ t) {row : UserRow} (hrow : row ∈ (store.view writes t).users)
    {w : Write} (hw : w ∈ store.log t') (hlock : w.lock = some (.user row.id)) :
    row ∈ store.committed.users := by
  have hid : row.id ∈ userIds store none ++ userIds store (some t) := by
    rw [← userIds_view]
    exact List.mem_map_of_mem hrow
  rcases List.mem_append.mp hid with hold | hinserted
  · obtain ⟨row₀, hrow₀, hid₀⟩ := List.mem_map.mp hold
    have huntouched : ∀ w' ∈ store.log t, w'.lock ≠ some (.user row₀.id) := fun w' hw' => by
      rw [hid₀]
      exact hI.locks.ne_lock ht' hw hw' hlock
    have hkept := mem_users_foldl (store.log t) hrow₀
    rw [foldl_onUser_of_lock_ne huntouched] at hkept
    obtain rfl := (hI.commit t).eq_of_id hkept hrow hid₀
    exact hrow₀
  · exfalso
    rcases hI.touched t' w hw row.id hlock with hseen | hown
    · exact hI.ids.apart none (some t) (by simp) hseen hinserted
    · exact hI.ids.apart (some t') (some t) (by simpa using ht') hown hinserted

theorem Failing.call (hI : Failing hist s.store) (hrows : UserRows s.store s.sequences.users)
    (hledger : Ledger hist s.store) (hmay : mayCount p job (hist t) cmd)
    (hexec : s.exec f t cmd x = some (r, s')) :
    Failing (Function.update hist t (⟨cmd, r⟩ :: hist t)) s'.store := by
  have heffect := exec_store hexec
  generalize s'.store = store at heffect
  intro t' txn' hopen row hrow w hw hlock
  by_cases ht' : t' = t
  · subst ht'
    rw [Function.update_self]
    cases heffect with
    | begin hidle =>
      rw [Store.active_begin_self] at hopen
      cases hopen
      cases hw
    | @statement q rows ws sequences txn hactive hrun =>
      rw [Store.active_record_self writes hactive] at hopen
      cases hopen
      rcases List.mem_append.mp hw with hold | hnew
      · refine (hI t' txn hactive row hrow w hold hlock).imp
          (And.imp_right (Exists.imp fun _ => And.imp_right (List.mem_cons_of_mem _))) ?_
        rintro ⟨ip, clientVersion, hmem⟩
        exact ⟨ip, clientVersion, List.mem_cons_of_mem _ hmem⟩
      · exact failing_of_run hrows hledger hmay hrun hrow hnew hlock
    | commit hactive hok =>
      rw [Store.active_commit, Store.active_close_self] at hopen
      cases hopen
    | rollback | abort | unwind =>
      rw [Store.active_close_self] at hopen
      cases hopen
    | idle hidle =>
      rw [hidle] at hopen
      cases hopen
    | keep hkeeps hquery =>
      have hold := hI t' txn' hopen row hrow w hw hlock
      rw [CountsFailure, Resets] at hold ⊢
      rw [hkeeps]
      refine hold.imp
        (And.imp_right (Exists.imp fun _ => And.imp_right (List.mem_cons_of_mem _))) ?_
      rintro ⟨ip, clientVersion, hmem⟩
      exact ⟨ip, clientVersion, List.mem_cons_of_mem _ hmem⟩
  · rw [Function.update_of_ne ht']
    rw [heffect.active_of_ne ht'] at hopen
    refine hI t' txn' hopen row ?_ w hw hlock
    rcases heffect.committed with hsame | ⟨-, -, hview⟩
    · rwa [hsame] at hrow
    · rw [hview] at hrow
      rw [← log_of_active hopen] at hw
      exact hrows.row_of_commit ht' hrow hw hlock

theorem Server.reach_counts {meets : ServerState → ServerLabel → Prop} {c : ServerState}
    (h : (loginServer p cfg).Reach meets s₀.boot c) :
    System.AllObedient (mayCount p) (fun _ _ => True) c :=
  System.reach_obedient (program_counts p cfg) (fun _ => rfl) h

theorem Server.reach_failing {meets : ServerState → ServerLabel → Prop} {c : ServerState}
    (h₀ : s₀.Initial) (htable : UserTable s₀)
    (h : (loginServer p cfg).Reach meets s₀.boot c) : Failing c.hist c.shared.store := by
  refine Server.reach_callInvariant (I := Failing) ?_ ?_ h
  · intro t txn hopen
    rw [h₀.store] at hopen
    cases hopen
  · intro c c' t x job cmd r hreach hI _ hcall
    exact hI.call (reach_userRows h₀ htable hreach) (reach_ledger h₀ hreach)
      (hcall.mayCount (reach_counts hreach)).2 hcall.exec

/-! ## The failures that have been counted -/

def Database.Write.isFailureOf (id : Int) : Write → Bool
  | .setFailedLogins id' _ _ => id' = id
  | _ => false

/-- The transaction of a commit that counts a failure of the user: its thread and its
`now()`. -/
def failureCounted (id : Int) (e : Entry Cmd Cmd.Reply Database.Store) : List (Nat × Time) :=
  match e.call, e.note.active e.thread with
  | ⟨.commitWork, some _⟩, some txn =>
    if txn.log.any (Write.isFailureOf id) then [(e.thread, txn.start)] else []
  | _, _ => []

def failuresCounted (id : Int) (log : List (Entry Cmd Cmd.Reply Database.Store)) :
    List (Nat × Time) :=
  log.flatMap (failureCounted id)

/-- The row after the failures, the latest of which comes first. -/
def failedRow (row : UserRow) (counted : List (Nat × Time)) : UserRow :=
  counted.foldr (fun x row => row.failed x.2) row

theorem failedRow_identity (row : UserRow) (counted : List (Nat × Time)) :
    (failedRow row counted).id = row.id ∧ (failedRow row counted).login = row.login ∧
      (failedRow row counted).failedLoginAttempts = row.failedLoginAttempts + counted.length := by
  induction counted with
  | nil => exact ⟨rfl, rfl, (Int.add_zero _).symm⟩
  | cons x counted ih =>
    obtain ⟨hid, hlogin, hattempts⟩ := ih
    refine ⟨hid, hlogin, ?_⟩
    change (failedRow row counted).failedLoginAttempts + 1 = _
    rw [hattempts, List.length_cons]
    omega

/-- From the fifth failure on the lock is that of the latest one. -/
theorem lockedUntil_failedRow (row : UserRow) (t : Nat) (start : Time)
    (counted : List (Nat × Time))
    (h : 5 ≤ (failedRow row ((t, start) :: counted)).failedLoginAttempts) :
    (failedRow row ((t, start) :: counted)).lockedUntil = some (start + minutes 15) :=
  if_pos h

/-- What a call commits, if it is a commit. -/
theorem commit_cases (hexec : s.exec f t cmd x = some (r, s')) :
    (∃ txn, s.store.active t = some txn ∧ x.fails = false ∧
      (⟨cmd, r⟩ : Σ c, Cmd.Reply c) = ⟨.commitWork, some ()⟩ ∧
      s'.store = s.store.commit writes t) ∨
    ((⟨cmd, r⟩ : Σ c, Cmd.Reply c) ≠ ⟨.commitWork, some ()⟩ ∧
      s'.store.committed = s.store.committed) := by
  have heffect := exec_store hexec
  generalize s'.store = store at heffect
  cases heffect with
  | commit hactive hok => exact Or.inl ⟨_, hactive, hok, rfl, rfl⟩
  | keep hkeeps hquery =>
    refine Or.inr ⟨fun heq => ?_, rfl⟩
    have hcurrent := hkeeps []
    rw [heq] at hcurrent
    cases hcurrent
  | _ =>
    refine Or.inr ⟨fun heq => ?_, rfl⟩
    cases heq

theorem failureCounted_of_ne {id : Int} {store : Database.Store}
    (hne : (⟨cmd, r⟩ : Σ c, Cmd.Reply c) ≠ ⟨.commitWork, some ()⟩) :
    failureCounted id ⟨store, t, ⟨cmd, r⟩⟩ = [] := by
  unfold failureCounted
  split
  · rename_i heq _
    exact absurd heq hne
  · rfl

theorem failureCounted_commit {id : Int} {store : Database.Store} {txn : Txn Write}
    (hactive : store.active t = some txn) :
    failureCounted id ⟨store, t, ⟨.commitWork, some ()⟩⟩ =
      if txn.log.any (Write.isFailureOf id) then [(t, txn.start)] else [] := by
  unfold failureCounted
  dsimp only
  rw [hactive]

/-! ## The counter follows the failures -/

/-- The row of the user is what the failures counted since have made of it; who has written
its failure is to count it, and the counted ones are those that have committed since. -/
structure Tally (row : UserRow) (before : Nat → Prop) (hist : Nat → Hist)
    (store : Database.Store) (log : List (Entry Cmd Cmd.Reply Database.Store)) : Prop where
  account : failedRow row (failuresCounted row.id log) ∈ store.committed.users
  pending : ∀ t txn, store.active t = some txn → CountsFailure row.login (hist t) →
    (failedRow row (failuresCounted row.id log)).failure txn.start ∈ txn.log
  threads : ∀ t, t ∈ (failuresCounted row.id log).map Prod.fst ↔
    FailureDone row.login (hist t) ∧ ¬ before t
  nodup : ((failuresCounted row.id log).map Prod.fst).Nodup

section Call

variable {row : UserRow} {before : Nat → Prop}
  {log : List (Entry Cmd Cmd.Reply Database.Store)}

/-- A commit counts the failure if the transaction has executed the statement, and leaves the
row alone otherwise. -/
theorem Tally.row_of_commit (hI : Tally row before hist s.store log)
    (hfailing : Failing hist s.store) {txn : Txn Write} (hactive : s.store.active t = some txn)
    (hreset : ¬ Resets row.id (hist t)) :
    failedRow row (failureCounted row.id ⟨s.store, t, ⟨.commitWork, some ()⟩⟩ ++
        failuresCounted row.id log) ∈ (s.store.view writes t).users ∧
      (CountsFailure row.login (hist t) →
        failureCounted row.id ⟨s.store, t, ⟨.commitWork, some ()⟩⟩ = [(t, txn.start)]) ∧
      (¬ CountsFailure row.login (hist t) →
        failureCounted row.id ⟨s.store, t, ⟨.commitWork, some ()⟩⟩ = []) := by
  obtain ⟨hid, hlogin, -⟩ := failedRow_identity row (failuresCounted row.id log)
  have hview := mem_users_foldl (s.store.log t) hI.account
  rw [log_of_active hactive] at hview
  rw [Store.view, log_of_active hactive]
  have hwritten : ∀ w ∈ txn.log,
      w.lock = some (.user (failedRow row (failuresCounted row.id log)).id) →
      w = (failedRow row (failuresCounted row.id log)).failure txn.start ∧
        CountsFailure row.login (hist t) := by
    intro w hw hlock
    have hcases := hfailing t txn hactive _ hI.account w hw hlock
    rw [hid, hlogin] at hcases
    exact hcases.resolve_right hreset
  rw [failureCounted_commit hactive]
  by_cases hcounts : CountsFailure row.login (hist t)
  · have hfailure := hI.pending t txn hactive hcounts
    have hany : txn.log.any (Write.isFailureOf row.id) = true :=
      List.any_eq_true.mpr ⟨_, hfailure, decide_eq_true hid⟩
    rw [foldl_onUser_of_failure (fun w hw hlock => (hwritten w hw hlock).1) hfailure] at hview
    rw [if_pos hany]
    exact ⟨hview, fun _ => rfl, fun hno => absurd hcounts hno⟩
  · have hnone : ∀ w ∈ txn.log,
        w.lock ≠ some (.user (failedRow row (failuresCounted row.id log)).id) :=
      fun w hw hlock => hcounts (hwritten w hw hlock).2
    have hany : ¬ txn.log.any (Write.isFailureOf row.id) = true := by
      intro hany
      obtain ⟨w, hw, hfails⟩ := List.any_eq_true.mp hany
      refine hnone w hw ?_
      cases w with
      | setFailedLogins id attempts lockedUntil =>
        rw [hid, ← of_decide_eq_true hfails]
        rfl
      | _ => cases hfails
    rw [foldl_onUser_of_lock_ne hnone] at hview
    rw [if_neg hany]
    exact ⟨hview, fun hyes => absurd hyes hcounts, fun _ => rfl⟩

/-- A statement of the login writes the failure of the committed row. -/
theorem failure_of_run {login : Bytes} {now : Time} {rows : Unit} {ws : List Write}
    {seq' : Sequences} {account : UserRow} (hledger : Ledger hist s.store)
    (hmay : mayCount p job (hist t) (.execPrepared (.incrementFailedLogins login)))
    (hrun : (Query.incrementFailedLogins login).run (s.store.view writes t) now s.sequences f =
      some (rows, ws, seq'))
    (haccount : account ∈ s.store.committed.users) (hlogin : account.login = upToNul login) :
    account.failure now ∈ ws := by
  rw [view_of_mayCount hledger hmay] at hrun
  rw [writes_of_incrementFailedLogins hrun]
  exact List.mem_map_of_mem (List.mem_filter.mpr ⟨haccount, decide_eq_true hlogin⟩)

/-- A call that is no commit leaves what waits to be counted waiting. -/
theorem Tally.pending_call (hI : Tally row before hist s.store log)
    (hledger : Ledger hist s.store) (hmay : mayCount p job (hist t) cmd)
    (hexec : s.exec f t cmd x = some (r, s')) {t' : Nat} {txn : Txn Write}
    (hopen : s'.store.active t' = some txn)
    (hcounts : CountsFailure row.login (Function.update hist t (⟨cmd, r⟩ :: hist t) t')) :
    (failedRow row (failuresCounted row.id log)).failure txn.start ∈ txn.log := by
  have heffect := exec_store hexec
  generalize s'.store = store at heffect hopen
  by_cases ht' : t' = t
  · subst ht'
    rw [Function.update_self] at hcounts
    cases heffect with
    | @statement q rows ws sequences txn₀ hactive hrun =>
      rw [Store.active_record_self writes hactive] at hopen
      cases hopen
      obtain ⟨login', hlogin', hmem⟩ := hcounts
      rcases List.mem_cons.mp hmem with heq | hold
      · cases heq
        have hlogin := (failedRow_identity row (failuresCounted row.id log)).2.1.trans hlogin'.symm
        exact List.mem_append_right _ (failure_of_run hledger hmay hrun hI.account hlogin)
      · exact List.mem_append_left _ (hI.pending t' txn₀ hactive ⟨login', hlogin', hold⟩)
    | keep hkeeps hquery =>
      obtain ⟨login', hlogin', hmem⟩ := hcounts
      rw [hkeeps] at hmem
      rcases List.mem_cons.mp hmem with heq | hold
      · exact absurd heq.symm (hquery _ _)
      · exact hI.pending t' txn hopen ⟨login', hlogin', hold⟩
    | idle hidle =>
      rw [hidle] at hopen
      cases hopen
    | _ =>
      obtain ⟨_, _, hmem⟩ := hcounts
      cases hmem
  · rw [Function.update_of_ne ht'] at hcounts
    rw [heffect.active_of_ne ht'] at hopen
    exact hI.pending t' txn hopen hcounts

/-- A task has committed a failure after a call if it had before, or by this call. -/
theorem failureDone_update {login : Bytes} {e : Σ c, Cmd.Reply c} (t' : Nat) :
    FailureDone login (Function.update hist t (e :: hist t) t') ↔
      FailureDone login (hist t') ∨
        t' = t ∧ e = ⟨.commitWork, some ()⟩ ∧ CountedLast login (hist t) := by
  by_cases ht' : t' = t
  · subst ht'
    rw [Function.update_self, failureDone_cons]
    exact or_congr_right (and_iff_right rfl).symm
  · rw [Function.update_of_ne ht']
    exact (or_iff_left fun h => ht' h.1).symm

/-- The commit of a failure puts its transaction on the list. -/
theorem Tally.counted (hI : Tally row before hist s.store log)
    (hrows : UserRows s.store s.sequences.users) (hl : System.Lawful (mayCount p job) (hist t))
    (hmay : mayCount p job (hist t) .commitWork)
    (hbefore : ∀ t, before t → FailureDone row.login (hist t)) {txn : Txn Write}
    (hactive : s.store.active t = some txn) (hcounts : CountsFailure row.login (hist t))
    {log' : List (Entry Cmd Cmd.Reply Database.Store)}
    (hlog : failuresCounted row.id log' = (t, txn.start) :: failuresCounted row.id log)
    (haccount : failedRow row (failuresCounted row.id log') ∈ (s.store.view writes t).users) :
    Tally row before (Function.update hist t (⟨.commitWork, some ()⟩ :: hist t))
      (s.store.commit writes t) log' := by
  have hhead := (countsFailure_iff hl hmay).mp hcounts
  have hnotDone : ¬ FailureDone row.login (hist t) := fun hdone => hdone.not_counting hl hhead
  refine ⟨haccount, fun t' txn' hopen hcounts' => ?_, fun t' => ?_, ?_⟩
  · exfalso
    obtain ⟨ht', hopen⟩ := Store.ne_of_active_commit writes hopen
    rw [Function.update_of_ne ht'] at hcounts'
    -- two transactions cannot both hold the lock of the row
    have hmine := hI.pending t txn hactive hcounts
    have hother := hI.pending t' txn' hopen hcounts'
    rw [← log_of_active hactive] at hmine
    rw [← log_of_active hopen] at hother
    exact hrows.locks.ne_lock ht' hother hmine rfl rfl
  · rw [hlog, List.map_cons, List.mem_cons, failureDone_update, hI.threads t']
    by_cases ht' : t' = t
    · subst ht'
      refine iff_of_true (Or.inl rfl) ⟨Or.inr ⟨rfl, rfl, hhead⟩, fun hb => ?_⟩
      exact hnotDone (hbefore t' hb)
    · rw [or_iff_right ht', or_iff_left fun h => ht' h.1]
  · rw [hlog, List.map_cons]
    exact List.nodup_cons.mpr ⟨fun hmem => hnotDone ((hI.threads t).mp hmem).1, hI.nodup⟩

theorem Tally.call (hI : Tally row before hist s.store log)
    (hrows : UserRows s.store s.sequences.users) (hledger : Ledger hist s.store)
    (hfailing : Failing hist s.store) (hl : System.Lawful (mayCount p job) (hist t))
    (hmay : mayCount p job (hist t) cmd) (hbefore : ∀ t, before t → FailureDone row.login (hist t))
    (hreset : cmd = .commitWork → x.fails = false → ¬ Resets row.id (hist t))
    (hexec : s.exec f t cmd x = some (r, s')) :
    Tally row before (Function.update hist t (⟨cmd, r⟩ :: hist t)) s'.store
      (⟨s.store, t, ⟨cmd, r⟩⟩ :: log) := by
  have hpending := fun {t' txn} => @Tally.pending_call p job hist f t x s s' cmd r row before log hI
    hledger hmay hexec t' txn
  have hcons : failuresCounted row.id (⟨s.store, t, ⟨cmd, r⟩⟩ :: log) =
      failureCounted row.id ⟨s.store, t, ⟨cmd, r⟩⟩ ++ failuresCounted row.id log := rfl
  rcases commit_cases hexec with ⟨txn, hactive, hok, heq, hstore⟩ | ⟨hne, hcommitted⟩
  · cases heq
    obtain ⟨haccount, hcounted, huncounted⟩ :=
      hI.row_of_commit hfailing hactive (hreset rfl hok)
    rw [← hcons] at haccount
    rw [hstore]
    by_cases hcounts : CountsFailure row.login (hist t)
    · rw [hcounted hcounts] at hcons
      exact hI.counted hrows hl hmay hbefore hactive hcounts hcons haccount
    · rw [huncounted hcounts, List.nil_append] at hcons
      refine ⟨haccount, fun t' txn hopen hcounts' => ?_, fun t' => ?_, ?_⟩
      · rw [hcons]
        exact hpending (hstore ▸ hopen) hcounts'
      · rw [hcons, failureDone_update, hI.threads t']
        refine and_congr_left fun _ => (or_iff_left fun h => hcounts ?_).symm
        exact (countsFailure_iff hl hmay).mpr h.2.2
      · rw [hcons]
        exact hI.nodup
  · rw [failureCounted_of_ne hne, List.nil_append] at hcons
    refine ⟨?_, fun t' txn hopen hcounts => ?_, fun t' => ?_, ?_⟩
    · rw [hcons, hcommitted]
      exact hI.account
    · rw [hcons]
      exact hpending hopen hcounts
    · rw [hcons, failureDone_update, hI.threads t']
      exact and_congr_left fun _ => (or_iff_left fun h => hne h.2.1).symm
    · rw [hcons]
      exact hI.nodup

end Call

/-! ## Runs -/

/-- Thread `t` is a login with a wrong password, and it has committed. -/
def FailureCommitted (p : Platform) (login : Bytes) (c : ServerState) (t : Nat) : Prop :=
  ∃ job, c.job? t = some job ∧ WrongPassword p login job (c.hist t) ∧
    ⟨.commitWork, some ()⟩ ∈ c.hist t

theorem failureCommitted_iff {c : ServerState} {login : Bytes}
    (hob : System.AllObedient (mayCount p) (fun _ _ => True) c) :
    FailureCommitted p login c t ↔ FailureDone login (c.hist t) := by
  cases hthread : c.threads t with
  | none =>
    have hjob : c.job? t = none := by
      rw [Config.job?, hthread]
      rfl
    have hhist : c.hist t = [] := by
      rw [Config.hist, hthread]
      rfl
    refine iff_of_false ?_ ?_
    · rintro ⟨job, hsome, -⟩
      rw [hjob] at hsome
      cases hsome
    · rintro ⟨later, earlier, -, heq⟩
      rw [hhist] at heq
      exact absurd heq.symm (by simp)
  | some th =>
    have hjob : c.job? t = some th.job := by
      rw [Config.job?, hthread]
      rfl
    have hl := (hob t th hthread).lawful
    rw [← Config.hist_of_threads hthread] at hl
    rw [failureDone_iff hl, FailureCommitted, hjob]
    constructor
    · rintro ⟨job, heq, hdone⟩
      cases heq
      exact hdone
    · exact fun hdone => ⟨th.job, rfl, hdone⟩

/-- The step commits no successful login of the user. -/
def NoLogin (id : Int) (c : ServerState) : ServerLabel → Prop
  | .run t x => c.pending t = some .commitWork → x.fails = false → ¬ Resets id (c.hist t)
  | _ => True

/-- The tally of a run that starts while nobody counts a failure. -/
theorem reach_tally {c₁ : ServerState} {c : RecordedState} {row : UserRow} (h₀ : s₀.Initial)
    (htable : UserTable s₀) (hbefore : (loginServer p cfg).Reach (fun _ _ => True) s₀.boot c₁)
    (hrow : row ∈ c₁.shared.store.committed.users)
    (hidle : ∀ t, ¬ CountsFailure row.login (c₁.hist t))
    (hlater : (recordedServer p cfg).Reach (fun c l => NoLogin row.id c.erase l) (c₁.withLog [])
      c) :
    Tally row (fun t => FailureDone row.login (c₁.hist t)) c.hist c.shared.1.store c.shared.2 := by
  have hinvariant : Tally row (fun t => FailureDone row.login (c₁.hist t)) c.hist c.shared.1.store
      c.shared.2 ∧ ∀ t, FailureDone row.login (c₁.hist t) → FailureDone row.login (c.hist t) := by
    refine hlater.invariant (I := fun c => Tally row (fun t => FailureDone row.login (c₁.hist t))
      c.hist c.shared.1.store c.shared.2 ∧
      ∀ t, FailureDone row.login (c₁.hist t) → FailureDone row.login (c.hist t)) ?_ ?_
    · refine ⟨⟨hrow, fun t txn _ hcounts => absurd hcounts (hidle t), fun t => ?_, List.nodup_nil⟩,
        fun t h => h⟩
      exact iff_of_false List.not_mem_nil fun h => h.2 h.1
    · rintro c l c' hreach ⟨hI, hkept⟩ hmeets hstep
      have herased : (loginServer p cfg).Reach (fun _ _ => True) s₀.boot c.erase :=
        hbefore.trans (System.reach_erase_any hreach)
      cases System.logged_step_cases hstep with
      | @call t x job hist cmd k r s hlabel hthread hexec =>
        obtain rfl : c.hist t = hist := Config.hist_of_threads hthread
        have hcall : Calls p c.erase t x job cmd r
            (c.erase.set t ⟨job, ⟨cmd, r⟩ :: c.hist t, k r⟩ s) :=
          ⟨⟨k, hthread⟩, hexec, Config.hist_set c.erase t _ _⟩
        obtain ⟨hl, hmay⟩ := hcall.mayCount (Server.reach_counts herased)
        have hreset : cmd = .commitWork → x.fails = false → ¬ Resets row.id (c.hist t) := by
          rintro rfl
          rw [hlabel] at hmeets
          exact hmeets hcall.pending
        have hnew := hI.call (Server.reach_userRows h₀ htable herased)
          (Server.reach_ledger h₀ herased) (Server.reach_failing h₀ htable herased) hl hmay hkept
          hreset hexec
        rw [Config.hist_set]
        refine ⟨hnew, fun t' hdone => ?_⟩
        exact (failureDone_update t').mpr (Or.inl (hkept t' hdone))
      | spawn hlabel hfree hstart =>
        rw [Config.hist_set_start hfree, Config.shared_set]
        dsimp only
        rw [(start_sameData hstart).store]
        exact ⟨hI, hkept⟩
      | outside hlabel ho =>
        dsimp only
        rw [(outside_sameData ho).store]
        exact ⟨hI, hkept⟩
  exact hinvariant.1

/-- The wrong passwords that have committed are counted exactly, whatever interleaves, and
from the fifth on the account is locked until fifteen minutes after the start of the
transaction that has counted last. -/
theorem wrong_passwords_counted (p : Platform) (cfg : ServerConfig) {s₀ : Server}
    {c₁ : ServerState} {c : RecordedState} {row : UserRow} (h₀ : s₀.Initial)
    (htable : UserTable s₀) (hbefore : (loginServer p cfg).Reach (fun _ _ => True) s₀.boot c₁)
    (hrow : row ∈ c₁.shared.store.committed.users)
    (hidle : ∀ t, ¬ CountsFailure row.login (c₁.hist t))
    (hlater : (recordedServer p cfg).Reach (fun c l => NoLogin row.id c.erase l) (c₁.withLog [])
      c)
    {calls : List Nat} (hnodup : calls.Nodup)
    (hcalls : ∀ t, t ∈ calls ↔
      FailureCommitted p row.login c.erase t ∧ ¬ FailureCommitted p row.login c₁ t) :
    ∃ row' ∈ c.shared.1.store.committed.users, row'.id = row.id ∧
      row'.failedLoginAttempts = row.failedLoginAttempts + calls.length ∧
      (calls ≠ [] → 5 ≤ row'.failedLoginAttempts → ∃ t start, t ∈ calls ∧
        (failuresCounted row.id c.shared.2).head? = some (t, start) ∧
        row'.lockedUntil = some (start + minutes 15)) := by
  have hI := reach_tally h₀ htable hbefore hrow hidle hlater
  have hob : System.AllObedient (mayCount p) (fun _ _ => True) c.erase :=
    Server.reach_counts (hbefore.trans (System.reach_erase_any hlater))
  have hob₁ := Server.reach_counts hbefore
  have hthreads : ∀ t, t ∈ calls ↔ t ∈ (failuresCounted row.id c.shared.2).map Prod.fst := by
    intro t
    rw [hcalls, hI.threads, failureCommitted_iff hob, failureCommitted_iff hob₁]
    exact Iff.rfl
  have hperm := (List.perm_ext_iff_of_nodup hnodup hI.nodup).mpr hthreads
  have hlength : calls.length = (failuresCounted row.id c.shared.2).length := by
    rw [hperm.length_eq, List.length_map]
  obtain ⟨hid, -, hattempts⟩ := failedRow_identity row (failuresCounted row.id c.shared.2)
  refine ⟨_, hI.account, hid, ?_, fun hne hfive => ?_⟩
  · rw [hattempts, hlength]
  · cases hcounted : failuresCounted row.id c.shared.2 with
    | nil =>
      rw [hcounted, List.length_nil] at hlength
      exact absurd (List.eq_nil_of_length_eq_zero hlength) hne
    | cons last counted =>
      obtain ⟨t, start⟩ := last
      rw [hcounted] at hfive
      refine ⟨t, start, ?_, rfl, lockedUntil_failedRow row t start counted hfive⟩
      rw [hthreads, hcounted]
      exact List.mem_cons_self

/-! ## Two guesses at once -/

section Guesses

open Schedule Sample

def guessText : Bytes :=
  messageText "\"eventType\":\"authentificationClient\""
    "\"login\":\"anna\",\"password\":\"guess\",\"clientVersion\":\"1.0.0\""

def guessJson : Json :=
  messageJson [(str "eventType", .string (str "authentificationClient"))]
    [(str "login", .string (str "anna")), (str "password", .string (str "guess")),
      (str "clientVersion", .string (str "1.0.0"))]

def guessPlatform : Platform := .ofTables [(guessText, guessJson)] digests

/-- Anna has failed four times. -/
def annaFailed : UserRow := { anna with failedLoginAttempts := 4 }

def guessedAccount : Server :=
  { Server.over { users := [annaFailed] } with sequences := { users := 2 } }

def isReset : (Σ c, Cmd.Reply c) → Bool
  | ⟨.execPrepared (.resetFailedLogins _ _ _), some _⟩ => true
  | _ => false

def noLogin (c : RecordedState) : ServerLabel → Bool
  | .run t _ => !(current (c.hist t)).any isReset
  | _ => true

theorem NoLogin.of_computed {id : Int} {c : RecordedState} {l : ServerLabel}
    (h : noLogin c l = true) : NoLogin id c.erase l := by
  cases l with
  | run t x =>
    rintro - - ⟨ip, clientVersion, hmem⟩
    have hany : (current (c.hist t)).any isReset = true := List.any_eq_true.mpr ⟨_, hmem, rfl⟩
    rw [noLogin, hany] at h
    cases h
  | spawn _ _ => trivial
  | outside _ => trivial

/-- The last two calls were the counting of a failure and its commit. -/
def justCounted (login : Bytes) : Hist → Bool
  | ⟨.commitWork, some ()⟩ :: ⟨.execPrepared (.incrementFailedLogins login'), some ()⟩ :: _ =>
    upToNul login' = login
  | _ => false

theorem failureDone_of_justCounted {login : Bytes} {h : Hist} (hcounted : justCounted login h) :
    FailureDone login h := by
  unfold justCounted at hcounted
  split at hcounted
  · rename_i login' h'
    exact ⟨[], _, ⟨login', h', of_decide_eq_true hcounted, rfl⟩, rfl⟩
  · cases hcounted

/-- Both guesses search, the second a minute after the first; then the second is counted, and
the first after it. -/
def twoGuesses : List ServerLabel :=
  [frame 1 guessText, frame 2 guessText, .spawn 0 .dispatch, .spawn 1 .dispatch] ++ calls 0 4 ++
    [.outside (.tick (minutes 1) 60000)] ++ calls 1 6 ++ calls 0 2

theorem wrong_passwords_counted_two : ∃ c : RecordedState,
    (recordedServer guessPlatform config).Reach (fun c l => NoLogin annaFailed.id c.erase l)
      guessedAccount.bootRecorded c ∧
    ∃ row ∈ c.shared.1.store.committed.users, row.id = annaFailed.id ∧
      row.failedLoginAttempts = 6 ∧
      ∃ t start, t ∈ [0, 1] ∧ (failuresCounted annaFailed.id c.shared.2).head? = some (t, start) ∧
        row.lockedUntil = some (start + minutes 15) := by
  have hrun : ((recordedServer guessPlatform config).runLabels noLogin guessedAccount.bootRecorded
      twoGuesses).any (fun c => justCounted (str "anna") (c.hist 0) &&
        justCounted (str "anna") (c.hist 1)) = true := by decide +kernel
  obtain ⟨c, hc, hcounted⟩ := (Option.any_eq_true _ _).mp hrun
  obtain ⟨hcounted₀, hcounted₁⟩ := Bool.and_eq_true_iff.mp hcounted
  obtain ⟨hreach, hnone⟩ := System.reach_below (n := 2) hc (by decide) fun _ _ => rfl
  have hlater : (recordedServer guessPlatform config).Reach
      (fun c l => NoLogin annaFailed.id c.erase l) guessedAccount.bootRecorded c :=
    hreach.mono fun _ _ h => NoLogin.of_computed h.1
  have hob : System.AllObedient (mayCount guessPlatform) (fun _ _ => True) c.erase :=
    Server.reach_counts (System.reach_erase_any hlater)
  have h₀ : guessedAccount.Initial := by
    refine ⟨rfl, rfl, rfl, fun r hr => ?_, fun r hr => ?_⟩
    · cases hr
    · cases hr
  have htable : UserTable guessedAccount := by
    refine ⟨List.nodup_singleton _, fun r hr => ?_⟩
    rw [List.mem_singleton.mp hr]
    decide
  have hcalls : ∀ t, t ∈ [0, 1] ↔ FailureCommitted guessPlatform annaFailed.login c.erase t ∧
      ¬ FailureCommitted guessPlatform annaFailed.login guessedAccount.boot t := by
    intro t
    have hbefore : ¬ FailureCommitted guessPlatform annaFailed.login guessedAccount.boot t := by
      rintro ⟨job, hjob, -⟩
      cases hjob
    rw [and_iff_left hbefore, failureCommitted_iff hob]
    constructor
    · intro hmem
      rcases List.mem_cons.mp hmem with rfl | hmem
      · exact failureDone_of_justCounted hcounted₀
      · obtain rfl := List.mem_singleton.mp hmem
        exact failureDone_of_justCounted hcounted₁
    · intro hdone
      by_contra hmem
      have hle : 2 ≤ t := by
        simp only [List.mem_cons, List.not_mem_nil, or_false, not_or] at hmem
        omega
      have hhist : c.erase.hist t = [] := by
        rw [Config.hist, Config.erase, hnone t hle]
        rfl
      obtain ⟨later, earlier, -, heq⟩ := hdone
      rw [hhist] at heq
      exact absurd heq.symm (by simp)
  obtain ⟨row, hrow, hid, hattempts, hlock⟩ := wrong_passwords_counted guessPlatform config h₀
    htable .refl (List.mem_singleton_self annaFailed) (fun t hcounts => by
      obtain ⟨_, _, hmem⟩ := hcounts
      cases hmem) hlater
    (by decide) hcalls
  have hsix : row.failedLoginAttempts = 6 := hattempts
  exact ⟨c, hlater, row, hrow, hid, hsix, hlock (by simp) (by rw [hsix]; decide)⟩

end Guesses

end LoginServer
