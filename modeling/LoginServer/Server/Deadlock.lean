import LoginServer.Server.SessionRows
import LoginServer.Server.SessionScripts
import LoginServer.Server.WorkScopes
import LoginServer.Transactions.Waiting

/-!
# No deadlock between the transactions

A thread waits for another one if its next statement writes a row that the other one's
transaction has locked (`WaitsFor`). The statements of a transaction lock in stages: those
of a new session first revoke, then delete what has expired, then insert, and all others
lock in their last statement only. So somebody who is waited for can himself wait in two
places: to insert a session, for the same token to be inserted, and to delete expired
sessions. There the times decide: what a transaction has revoked had not expired when it
began, so whoever deletes it as expired has begun later. Chains of waiting go back in
time, and end.

All this is about the order of the statements in the transactions. That a statement takes
the locks of all its rows at once is assumed (`Server.execStatement`); what two statements
that write several rows each do to each other row by row is left out.
-/

namespace LoginServer

open Database Interleaving Transactions

variable {p : Platform} {cfg : ServerConfig} {c c' : ServerState} {job : Job} {h : Hist}

/-! ## Stages -/

/-- What follows a statement that locks is a statement of a new session. -/
theorem Database.Query.stage_of_follows {p q : Query} (h : q.follows p = true)
    (hlocks : 0 < p.lockStage) :
    p.lockStage < q.lockStage ∧
      (q = .cleanupExpiredSessions ∨
        ∃ userId tokenHash clientVersion,
          q = .createUserSession userId tokenHash clientVersion) := by
  cases p with
  | revokeUserSessions =>
    cases q with
    | cleanupExpiredSessions => exact ⟨by simp [Query.lockStage], Or.inl rfl⟩
    | _ => cases h
  | cleanupExpiredSessions =>
    cases q with
    | createUserSession => exact ⟨by simp [Query.lockStage], Or.inr ⟨_, _, _, rfl⟩⟩
    | _ => cases h
  | incrementFailedLogins | resetFailedLogins | createUserSession | deleteCharacter
  | initCharacterStarterCurrencies => cases q <;> cases h
  | _ => exact absurd hlocks (by simp [Query.lockStage])

/-- The stages rise from one statement that locks to the next. -/
def Staged (executed : List Query) : Prop :=
  executed.Pairwise fun later earlier =>
    0 < earlier.lockStage → earlier.lockStage < later.lockStage

/-- What a transaction that holds locks executes next. -/
theorem stage_of_inOrder (hstaged : Staged (executed h)) {p q : Query} (hmem : p ∈ executed h)
    (hlocks : 0 < p.lockStage) (hq : InOrder h q) :
    p.lockStage < q.lockStage ∧
      (q = .cleanupExpiredSessions ∨
        ∃ userId tokenHash clientVersion,
          q = .createUserSession userId tokenHash clientVersion) := by
  rcases hq with hfirst | ⟨last, hlast, hfollows⟩
  · rw [executed, current_of_inOrder_startsWork hfirst] at hmem
    cases hmem
  · have hhead := executed_of_lastStatement hlast
    obtain ⟨earlier, heq⟩ := List.head?_eq_some_iff.mp hhead
    rw [heq] at hmem hstaged
    rcases List.mem_cons.mp hmem with rfl | hmem
    · exact Query.stage_of_follows hfollows hlocks
    · have hlt := (List.pairwise_cons.mp hstaged).1 p hmem hlocks
      obtain ⟨hnext, hkind⟩ := Query.stage_of_follows hfollows (Nat.zero_lt_of_lt hlt)
      exact ⟨hlt.trans hnext, hkind⟩

theorem staged_of_lawful (hl : System.Lawful (mayCall job) h) : Staged (executed h) := by
  induction h with
  | nil => exact .nil
  | cons e h ih =>
    obtain ⟨hmay, hl⟩ := hl
    obtain ⟨cmd, r⟩ := e
    have hstaged := ih hl
    rcases current_cons ⟨cmd, r⟩ h with hnil | hcons
    · rw [executed, hnil]
      exact .nil
    by_cases hquery : ∀ q (rows : q.Rows),
        (⟨cmd, r⟩ : Σ c, Cmd.Reply c) ≠ ⟨.execPrepared q, some rows⟩
    · rw [executed_cons_of_ne hcons hquery]
      exact hstaged
    · push Not at hquery
      obtain ⟨q, rows, heq⟩ := hquery
      cases heq
      refine List.pairwise_cons.mpr ⟨fun earlier hmem hlocks => ?_, hstaged⟩
      exact (stage_of_inOrder hstaged hmem hlocks hmay.1).1

/-! ## Locks -/

/-- A write that locks a row is made by a statement of a stage. -/
theorem Database.Write.stage_of_from {w : Write} {q : Query} {k : RowLock} (hfrom : w.From q)
    (hlock : w.lock = some k) : 0 < q.lockStage := by
  cases w with
  | insertUser | insertCharacter | insertState | insertPosition | insertSkill | insertItem
  | insertCurrency => cases hlock
  | _ =>
    cases q with
    | incrementFailedLogins | resetFailedLogins | createUserSession | deleteCharacter
    | initCharacterStarterCurrencies | revokeUserSessions | cleanupExpiredSessions =>
      simp [Query.lockStage]
    | _ => exact hfrom.elim

/-- A transaction is open while its thread is in its scope, and locks are held by statements
that may lock. -/
structure InScopes (hist : Nat → Hist) (store : Database.Store) : Prop where
  owned : Store.LocksOwned writes store
  isOpen : ∀ t, workScope.state (hist t) ≠ .outside ↔ ∃ txn, store.active t = some txn
  locking : ∀ t, ∀ w ∈ store.log t, ∀ k, w.lock = some k → workScope.state (hist t) = .locking

section Call

variable {f : SqlFunctions} {t : Nat} {x : Choice} {s : Server} {cmd : Cmd} {r : cmd.Reply}
  {store : Database.Store} {hist : Nat → Hist}

theorem Work.next_of_keep (hkeeps : ∀ h, current (⟨cmd, r⟩ :: h) = ⟨cmd, r⟩ :: current h)
    (hquery : ∀ q (rows : q.Rows), (⟨cmd, r⟩ : Σ c, Cmd.Reply c) ≠ ⟨.execPrepared q, some rows⟩)
    (w : Work) : w.next cmd r = w := by
  cases cmd with
  | beginWork =>
    cases r with
    | none => rfl
    | some _ => exact absurd (hkeeps []) (List.cons_ne_nil _ _).symm
  | commitWork | abortWork | unwindWork => exact absurd (hkeeps []) (List.cons_ne_nil _ _).symm
  | execPrepared q =>
    cases r with
    | none => rfl
    | some rows => exact absurd rfl (hquery q rows)
  | _ => rfl

theorem InScopes.owned_call (hI : InScopes hist s.store)
    (heffect : StoreEffect f t x s cmd r store) : Store.LocksOwned writes store := by
  cases heffect with
  | begin hidle => exact hI.owned.begin hidle s.clock
  | statement hactive hrun => exact hI.owned.record hactive _
  | commit hactive hok => exact hI.owned.commit t
  | rollback | abort | unwind => exact hI.owned.close t
  | idle hidle => exact hI.owned
  | keep hkeeps hquery => exact hI.owned

theorem InScopes.isOpen_call (hI : InScopes hist s.store)
    (heffect : StoreEffect f t x s cmd r store) :
    Work.next (workScope.state (hist t)) cmd r ≠ .outside ↔ ∃ txn, store.active t = some txn := by
  have hopen := hI.isOpen t
  cases heffect with
  | begin hidle => exact ⟨fun _ => ⟨_, Store.active_begin_self _⟩, fun _ => Work.noConfusion⟩
  | @statement q rows ws sequences txn hactive hrun =>
    refine ⟨fun _ => ⟨_, Store.active_record_self writes hactive _⟩, fun _ => ?_⟩
    exact Work.executed_ne_outside _ rows
  | commit hactive hok =>
    refine ⟨fun hne => absurd rfl hne, ?_⟩
    rintro ⟨txn, hopen'⟩
    rw [Store.active_commit, Store.active_close_self] at hopen'
    cases hopen'
  | rollback | abort | unwind =>
    refine ⟨fun hne => absurd rfl hne, ?_⟩
    rintro ⟨txn, hopen'⟩
    rw [Store.active_close_self] at hopen'
    cases hopen'
  | idle hidle =>
    refine ⟨fun hne => absurd rfl hne, ?_⟩
    rintro ⟨txn, hopen'⟩
    rw [hidle] at hopen'
    cases hopen'
  | keep hkeeps hquery =>
    rw [Work.next_of_keep hkeeps hquery]
    exact hopen

theorem InScopes.locking_call (hI : InScopes hist s.store)
    (heffect : StoreEffect f t x s cmd r store) {w : Write} (hw : w ∈ store.log t) {k : RowLock}
    (hlock : w.lock = some k) : Work.next (workScope.state (hist t)) cmd r = .locking := by
  cases heffect with
  | begin hidle =>
    rw [Store.log_begin_self] at hw
    cases hw
  | @statement q rows ws sequences txn hactive hrun =>
    show Work.executed (workScope.state (hist t)) q rows = .locking
    rcases Store.mem_log_record writes hactive hw with hold | ⟨-, hnew⟩
    · rw [hI.locking t w hold k hlock]
      rfl
    · exact Work.executed_of_stage (Write.stage_of_from (from_of_run hrun w hnew) hlock) _ rows
  | commit hactive hok =>
    rw [Store.log_commit_self] at hw
    cases hw
  | rollback | abort | unwind =>
    rw [Store.log_close_self] at hw
    cases hw
  | idle hidle =>
    rw [Store.log_of_not_active hidle] at hw
    cases hw
  | keep hkeeps hquery =>
    rw [Work.next_of_keep hkeeps hquery]
    exact hI.locking t w hw k hlock

theorem InScopes.call (hI : InScopes hist s.store) (heffect : StoreEffect f t x s cmd r store) :
    InScopes (Function.update hist t (⟨cmd, r⟩ :: hist t)) store := by
  refine ⟨hI.owned_call heffect, fun t' => ?_, fun t' w hw k hlock => ?_⟩
  · by_cases ht : t' = t
    · subst ht
      rw [Function.update_self]
      exact hI.isOpen_call heffect
    · rw [Function.update_of_ne ht, heffect.active_of_ne ht]
      exact hI.isOpen t'
  · by_cases ht : t' = t
    · subst ht
      rw [Function.update_self]
      exact hI.locking_call heffect hw hlock
    · rw [Function.update_of_ne ht]
      rw [heffect.log_of_ne ht] at hw
      exact hI.locking t' w hw k hlock

end Call

section Runs

variable {meets : ServerState → ServerLabel → Prop} {s₀ : Server}

theorem Server.reach_inScopes (h₀ : s₀.Initial) (h : (loginServer p cfg).Reach meets s₀.boot c) :
    InScopes c.hist c.shared.store := by
  refine Server.reach_callInvariant (I := InScopes) ?_ ?_ h
  · rw [h₀.store]
    refine ⟨Store.locksOwned_idle _, fun t => ⟨fun hne => absurd rfl hne, ?_⟩, fun t w hw => ?_⟩
    · rintro ⟨txn, hopen⟩
      cases hopen
    · cases hw
  · intro c c' t x job cmd r _ hI _ hcall
    exact hI.call (exec_store hcall.exec)

/-- A thread whose transaction is open has calls to make, and makes such as its scope allows. -/
theorem Server.reach_workScope (h : (loginServer p cfg).Reach meets s₀.boot c) {t : Nat}
    (hinside : workScope.state (c.hist t) ≠ .outside) :
    ∃ cmd, c.pending t = some cmd ∧ (workScope.state (c.hist t)).allows cmd = true := by
  have hobedient : System.AllObedient (fun _ => workScope.may)
      (fun _ h => workScope.state h = .outside) c :=
    System.reach_obedient (program_scoped p cfg) (fun _ => rfl) h
  cases hthread : c.threads t with
  | none =>
    rw [Config.hist, hthread] at hinside
    exact absurd rfl hinside
  | some th =>
    obtain ⟨job, hist, prog⟩ := th
    rw [Config.hist_of_threads hthread] at hinside ⊢
    have hth := hobedient t _ hthread
    cases prog with
    | pure a => exact absurd hth.obeys hinside
    | op cmd k => exact ⟨cmd, Config.pending_eq_some.mpr ⟨_, _, _, hthread⟩, hth.allowed⟩

end Runs

/-! ## Waiting -/

/-- The next statement of thread `t` writes a row that the transaction of `t'` has locked. -/
inductive Awaits (f : SqlFunctions) (c : ServerState) (t t' : Nat) : Prop where
  | intro {q : Query} {txn : Txn Write} {rows : q.Rows} {ws : List Write} {seq : Sequences}
    (hpending : c.pending t = some (.execPrepared q))
    (hactive : c.shared.store.active t = some txn)
    (hrun : q.run (c.shared.store.view writes t) txn.start c.shared.sequences f =
      some (rows, ws, seq))
    (hwaits : c.shared.store.WaitsFor writes ws t t')

section Awaits

variable {f : SqlFunctions} {t t' t'' : Nat} {q : Query}

/-- A statement that does not fail cannot be executed exactly while its thread waits. -/
theorem exec_eq_none_iff_awaits (hpending : c.pending t = some (.execPrepared q)) {x : Choice}
    (hok : x.fails = false) :
    c.shared.exec f t (.execPrepared q) x = none ↔ ∃ t', Awaits f c t t' := by
  constructor
  · intro hnone
    simp only [Server.exec, Server.execStatement] at hnone
    split at hnone
    · cases hnone
    · rename_i txn hactive
      rw [hok] at hnone
      split at hnone
      · rename_i htrue
        cases htrue
      · split at hnone
        · cases hnone
        · rename_i rows ws seq hrun
          split at hnone
          · rename_i hblocked
            obtain ⟨t', hwaits⟩ := Store.blocked_iff.mp hblocked
            exact ⟨t', hpending, hactive, hrun, hwaits⟩
          · cases hnone
  · rintro ⟨t', @⟨q', txn, rows, ws, seq, hpending', hactive, hrun, hwaits⟩⟩
    rw [hpending] at hpending'
    cases hpending'
    have hblocked := Store.blocked_iff.mpr ⟨t', hwaits⟩
    simp only [Server.exec, Server.execStatement, hactive, hok, hrun, hblocked]
    rfl

/-- What every run keeps of the transactions, for the argument about waiting. -/
structure Ordered (start : Time) (c : ServerState) : Prop where
  obedient : System.AllObedient mayCall jobPost c
  ledger : Ledger c.hist c.shared.store
  scopes : InScopes c.hist c.shared.store
  rows : SessionRows c.shared
  starts : StartsWithin start c.shared

variable {start : Time}

/-- A lock is held by a statement of a stage. -/
theorem Ordered.holder (hc : Ordered start c) {k : RowLock}
    (hlock : c.shared.store.locks k = some t) :
    ∃ w ∈ c.shared.store.log t, w.lock = some k ∧ ∃ q ∈ executed (c.hist t), w.From q ∧
      0 < q.lockStage := by
  obtain ⟨w, hw, hk⟩ := hc.scopes.owned k t hlock
  obtain ⟨q, rows, hmem, hfrom⟩ := hc.ledger t w hw
  exact ⟨w, hw, hk, q, mem_executed.mpr ⟨rows, hmem⟩, hfrom, Write.stage_of_from hfrom hk⟩

/-- Somebody who holds locks executes a statement of a later stage, one of a new session. -/
theorem Ordered.next_of_holder (hc : Ordered start c) {p : Query} (hp : p ∈ executed (c.hist t))
    (hlocks : 0 < p.lockStage) (hpending : c.pending t = some (.execPrepared q)) :
    p.lockStage < q.lockStage ∧
      (q = .cleanupExpiredSessions ∨
        ∃ userId tokenHash clientVersion,
          q = .createUserSession userId tokenHash clientVersion) := by
  obtain ⟨job, hist, k, hthread⟩ := Config.pending_eq_some.mp hpending
  have hth := hc.obedient t _ hthread
  rw [Config.hist_of_threads hthread] at hp
  exact stage_of_inOrder (staged_of_lawful hth.lawful) hp hlocks hth.allowed.1

/-- Who is waited for and waits deletes expired sessions or inserts one. -/
theorem Ordered.awaits_awaits (hc : Ordered start c) (h : Awaits f c t t')
    (h' : Awaits f c t' t'') :
    c.pending t' = some (.execPrepared .cleanupExpiredSessions) ∨
      ∃ userId tokenHash clientVersion,
        c.pending t' =
          some (.execPrepared (.createUserSession userId tokenHash clientVersion)) := by
  obtain ⟨-, -, -, -, w, hw, k, -, hheld⟩ := h
  obtain ⟨-, -, -, p, hp, -, hlocks⟩ := hc.holder hheld
  obtain ⟨hpending, -, -, -⟩ := h'
  obtain ⟨-, rfl | ⟨userId, tokenHash, clientVersion, rfl⟩⟩ := hc.next_of_holder hp hlocks hpending
  · exact Or.inl hpending
  · exact Or.inr ⟨userId, tokenHash, clientVersion, hpending⟩

/-- Who waits to insert a session waits for somebody who does not wait. -/
theorem Ordered.not_awaits_of_create (hc : Ordered start c) {userId : Int}
    {tokenHash clientVersion : Bytes}
    (hpending :
      c.pending t = some (.execPrepared (.createUserSession userId tokenHash clientVersion)))
    (h : Awaits f c t t') : ¬ Awaits f c t' t'' := by
  obtain @⟨q, txn, rows, ws, seq, hpending', hactive, hrun, hne, w, hw, k, hk, hheld⟩ := h
  rw [hpending] at hpending'
  cases hpending'
  have hfrom := from_of_run hrun w hw
  cases w with
  | insertSession row =>
    cases hk
    obtain ⟨w', -, hk', p, hp, hfrom', hlocks⟩ := hc.holder hheld
    rintro ⟨hpending', -, -, -⟩
    obtain ⟨hlt, hkind⟩ := hc.next_of_holder hp hlocks hpending'
    cases w' with
    | insertSession row' =>
      cases p with
      | createUserSession =>
        rcases hkind with rfl | ⟨_, _, _, rfl⟩
        · simp [Query.lockStage] at hlt
        · simp [Query.lockStage] at hlt
      | _ => exact hfrom'.elim
    | _ => cases hk'
  | _ => exact hfrom.elim

/-- Of two that delete expired sessions the one that is waited for has begun earlier: what
it has revoked had not expired then. -/
theorem Ordered.start_lt_of_cleanup (hc : Ordered start c)
    (hpending : c.pending t = some (.execPrepared .cleanupExpiredSessions))
    (hpending' : c.pending t' = some (.execPrepared .cleanupExpiredSessions))
    (h : Awaits f c t t') :
    ∃ txn txn', c.shared.store.active t = some txn ∧ c.shared.store.active t' = some txn' ∧
      txn'.start < txn.start := by
  obtain @⟨q, txn, rows, ws, seq, hq, hactive, hrun, hne, w, hw, k, hk, hheld⟩ := h
  rw [hpending] at hq
  cases hq
  have hfrom := from_of_run hrun w hw
  cases w with
  | deleteSession id =>
    cases hk
    obtain ⟨txn', hactive'⟩ := hc.scopes.owned.exists_active hheld
    obtain ⟨w', hw', hk', p, hp, hfrom', hlocks⟩ := hc.holder hheld
    obtain ⟨hlt, -⟩ := hc.next_of_holder hp hlocks hpending'
    have hid' : w'.session = some id := by
      cases w' with
      | revokeSession | deleteSession =>
        cases hk'
        rfl
      | _ => cases hk'
    obtain ⟨now, rfl⟩ : ∃ now, w' = .revokeSession id now := by
      cases w' with
      | revokeSession id' now =>
        cases hk'
        exact ⟨now, rfl⟩
      | deleteSession id' =>
        cases p with
        | cleanupExpiredSessions => exact absurd hlt (by simp [Query.lockStage])
        | _ => exact hfrom'.elim
      | _ => cases hk'
    obtain ⟨row, hrow, hid, -, ⟨-, hexpired⟩ | ⟨heq, -⟩⟩ := touched_of_run hrun hw rfl
    · obtain ⟨row₀, hrow₀, hissued, -⟩ := exists_origin hrow
      have hid₀ : row₀.id = id := (same_of_issued hissued).1.trans hid
      have hcommitted : row₀ ∈ c.shared.store.committed.userSessions := by
        refine hrow₀.resolve_right fun hinserted => ?_
        have hmine : id ∈ sessionIds c.shared.store (some t) :=
          List.mem_map.mpr ⟨row₀, hinserted, hid₀⟩
        rcases hc.rows.touched t' _ hw' id hid' with hnone | hother
        · exact hc.rows.ids.apart none (some t) (by simp) hnone hmine
        · exact hc.rows.ids.apart (some t') (some t) (by simpa using hne) hother hmine
      rw [log_of_active hactive'] at hw'
      have hlive := hc.rows.revokes t' txn' hactive' id now hw' row₀ hcommitted hid₀
      rw [(same_of_issued hissued).2.2] at hlive
      exact ⟨txn, txn', hactive, hactive', hlive.trans hexpired⟩
    · cases heq
  | _ => exact hfrom.elim

/-! ### Chains of waiting end -/

theorem acc_of_not_awaits (h : ∀ t', ¬ Awaits f c t t') : Acc (Function.swap (Awaits f c)) t :=
  Acc.intro t fun t' ht' => absurd ht' (h t')

theorem Ordered.acc_of_create (hc : Ordered start c) {userId : Int}
    {tokenHash clientVersion : Bytes}
    (hpending : c.pending t =
      some (.execPrepared (.createUserSession userId tokenHash clientVersion))) :
    Acc (Function.swap (Awaits f c)) t :=
  Acc.intro t fun _ ht' => acc_of_not_awaits fun _ => hc.not_awaits_of_create hpending ht'

/-- By induction on how long after the start of the server the transaction has begun. -/
theorem Ordered.acc_of_cleanup (hc : Ordered start c) (n : Nat) :
    ∀ t, c.pending t = some (.execPrepared .cleanupExpiredSessions) →
      (∀ txn, c.shared.store.active t = some txn → (txn.start - start).toNat = n) →
      Acc (Function.swap (Awaits f c)) t := by
  induction n using Nat.strongRecOn with
  | ind n ih =>
    intro t hpending htime
    refine Acc.intro t fun t' ht' => ?_
    by_cases hwaits : ∃ t'', Awaits f c t' t''
    · obtain ⟨t'', ht''⟩ := hwaits
      rcases hc.awaits_awaits ht' ht'' with hcleanup | ⟨userId, tokenHash, clientVersion, hcreate⟩
      · obtain ⟨txn, txn', hactive, hactive', hlt⟩ :=
          hc.start_lt_of_cleanup hpending hcleanup ht'
        have hn := htime txn hactive
        have hstart : (0 : Int) ≤ txn'.start - start :=
          Int.sub_nonneg.mpr (hc.starts.txns t' txn' hactive').1
        refine ih (txn'.start - start).toNat (by omega) t' hcleanup fun txn'' hactive'' => ?_
        rw [hactive'] at hactive''
        cases hactive''
        rfl
      · exact hc.acc_of_create hcreate
    · exact acc_of_not_awaits fun t'' ht'' => hwaits ⟨t'', ht''⟩

theorem Ordered.wellFounded (hc : Ordered start c) :
    WellFounded (Function.swap (Awaits f c)) := by
  refine ⟨fun t => Acc.intro t fun t' ht' => ?_⟩
  by_cases hwaits : ∃ t'', Awaits f c t' t''
  · obtain ⟨t'', ht''⟩ := hwaits
    rcases hc.awaits_awaits ht' ht'' with hcleanup | ⟨userId, tokenHash, clientVersion, hcreate⟩
    · obtain @⟨-, txn', -, -, -, -, hactive', -, -⟩ := ht''
      refine hc.acc_of_cleanup (txn'.start - start).toNat t' hcleanup fun txn'' hactive'' => ?_
      rw [hactive'] at hactive''
      cases hactive''
      rfl
    · exact hc.acc_of_create hcreate
  · exact acc_of_not_awaits fun t'' ht'' => hwaits ⟨t'', ht''⟩

end Awaits

/-! ## Every run -/

section Theorems

open Sample Schedule

variable {meets : ServerState → ServerLabel → Prop} {s₀ : Server}

theorem Server.reach_ordered (h₀ : s₀.Initial) (htable : IssuedTable s₀.store.committed)
    (h : (loginServer p cfg).Reach meets s₀.boot c) : Ordered s₀.clock c where
  obedient := Server.reach_obedient h
  ledger := Server.reach_ledger h₀ h
  scopes := Server.reach_inScopes h₀ h
  rows := Server.reach_sessionRows h₀ htable h
  starts := Server.reach_startsWithin h₀ h

/-- Somebody who holds a lock and does not wait makes the next call. -/
theorem exists_step_of_holder (hreach : (loginServer p cfg).Reach meets s₀.boot c)
    (hscopes : InScopes c.hist c.shared.store) {t : Nat} {k : RowLock}
    (hlock : c.shared.store.locks k = some t)
    (hfree : ∀ t', ¬ Awaits p.toSqlFunctions c t t') :
    ∃ c', (loginServer p cfg).Step c (.run t {}) c' := by
  obtain ⟨w, hw, hk⟩ := hscopes.owned k t hlock
  have hstate := hscopes.locking t w hw k hk
  obtain ⟨cmd, hpending, hallows⟩ := Server.reach_workScope hreach (by rw [hstate]; simp)
  rw [hstate] at hallows
  obtain ⟨job, hist, next, hthread⟩ := Config.pending_eq_some.mp hpending
  have hexec : ∃ r s, c.shared.exec p.toSqlFunctions t cmd {} = some (r, s) := by
    cases cmd with
    | execPrepared q =>
      cases hnone : c.shared.exec p.toSqlFunctions t (.execPrepared q) {} with
      | none =>
        obtain ⟨t', ht'⟩ := (exec_eq_none_iff_awaits hpending rfl).mp hnone
        exact absurd ht' (hfree t')
      | some result => exact ⟨result.1, result.2, rfl⟩
    | commitWork =>
      obtain ⟨txn, hactive⟩ := hscopes.owned.exists_active hlock
      exact ⟨some (), _, by simp only [Server.exec, hactive]; rfl⟩
    | abortWork | unwindWork => exact ⟨(), _, rfl⟩
    | _ => cases hallows
  obtain ⟨r, s, hexec⟩ := hexec
  exact ⟨_, .run hthread hexec⟩

/-- No transaction outlives the handler that began it: while it is open its thread is inside
the scope, with a call to make that is allowed there. While it holds a lock that call is a
statement which locks rows, or it ends the transaction. -/
theorem transactions_scoped (h₀ : s₀.Initial) (h : (loginServer p cfg).Reach meets s₀.boot c)
    (t : Nat) :
    (∀ txn, c.shared.store.active t = some txn →
      workScope.state (c.hist t) ≠ .outside ∧
      ∃ cmd, c.pending t = some cmd ∧ (workScope.state (c.hist t)).allows cmd = true) ∧
    ∀ k, c.shared.store.locks k = some t →
      ∃ cmd, c.pending t = some cmd ∧ Work.locking.allows cmd = true := by
  have hscopes := Server.reach_inScopes h₀ h
  constructor
  · intro txn hactive
    have hinside := (hscopes.isOpen t).mpr ⟨txn, hactive⟩
    exact ⟨hinside, Server.reach_workScope h hinside⟩
  · intro k hlock
    obtain ⟨w, hw, hk⟩ := hscopes.owned k t hlock
    have hstate := hscopes.locking t w hw k hk
    obtain ⟨cmd, hpending, hallows⟩ := Server.reach_workScope h (by rw [hstate]; simp)
    rw [hstate] at hallows
    exact ⟨cmd, hpending, hallows⟩

/-- Two cleanups at a time, thirty-one days after Anna has logged in: the first has deleted
her session. -/
def twoCleanups : List ServerLabel :=
  [frame 1 loginText, .spawn 0 .dispatch] ++ login 0 tokenA ++
    [.outside (.tick (days 31) 2678400000), .spawn 1 .cleanup, .spawn 2 .cleanup] ++
    calls 1 3 ++ calls 2 2

theorem transactions_scoped_cleanup : ∃ c,
    (loginServer loginPlatform config).Reach (fun _ _ => True) oneAccount.boot c ∧
    (∃ cmd, c.pending 1 = some cmd ∧ (workScope.state (c.hist 1)).allows cmd = true) ∧
    ∃ cmd, c.pending 1 = some cmd ∧ Work.locking.allows cmd = true := by
  obtain ⟨c, hreach, hopen, hlock⟩ := exists_reach loginPlatform config oneAccount
    (P := fun c => (c.shared.store.active 1).isSome = true ∧
      c.shared.store.locks (.session 1) = some 1) twoCleanups (by decide +kernel)
  obtain ⟨txn, hactive⟩ := Option.isSome_iff_exists.mp hopen
  obtain ⟨hwork, hlocking⟩ := transactions_scoped (Server.over_initial rfl) hreach 1
  exact ⟨c, hreach, (hwork txn hactive).2, hlocking _ hlock⟩

/-- The transactions of the handlers never deadlock, where each statement takes the locks of
all rows that it writes at once: every chain of threads each of which waits for a row lock
of the next one ends, so none waits for itself, and at the end of the chain is a thread that
makes its next call. -/
theorem transactions_never_deadlock (h₀ : s₀.Initial) (htable : IssuedTable s₀.store.committed)
    (h : (loginServer p cfg).Reach meets s₀.boot c) :
    WellFounded (Function.swap (Awaits p.toSqlFunctions c)) ∧
    (∀ t, ¬ Relation.TransGen (Awaits p.toSqlFunctions c) t t) ∧
    ∀ t t', Awaits p.toSqlFunctions c t t' →
      ∃ z c', Relation.TransGen (Awaits p.toSqlFunctions c) t z ∧
        (loginServer p cfg).Step c (.run z {}) c' := by
  have hordered := Server.reach_ordered h₀ htable h
  refine ⟨hordered.wellFounded, not_waiting_in_circle hordered.wellFounded, fun t t' hwaits => ?_⟩
  obtain ⟨z, hchain, hfree⟩ := exists_not_waiting hordered.wellFounded hwaits
  obtain ⟨y, -, hlast⟩ : ∃ y, Relation.ReflTransGen (Awaits p.toSqlFunctions c) t y ∧
      Awaits p.toSqlFunctions c y z := Relation.TransGen.tail'_iff.mp hchain
  obtain ⟨-, -, -, -, w, -, k, -, hlock⟩ := hlast
  obtain ⟨c', hstep⟩ := exists_step_of_holder h hordered.scopes hlock hfree
  exact ⟨z, c', hchain, hstep⟩

/-- The next statement of thread `t` is one that it has to wait with. -/
def isWaiting (p : Platform) (t : Nat) (c : ServerState) : Bool :=
  match c.pending t with
  | some (.execPrepared q) => (c.shared.exec p.toSqlFunctions t (.execPrepared q) {}).isNone
  | _ => false

theorem exists_awaits_of_isWaiting {t : Nat} (h : isWaiting p t c = true) :
    ∃ t', Awaits p.toSqlFunctions c t t' := by
  unfold isWaiting at h
  split at h
  · rename_i q hpending
    exact (exec_eq_none_iff_awaits hpending rfl).mp (Option.isNone_iff_eq_none.mp h)
  · cases h

theorem transactions_never_deadlock_cleanups : ∃ c,
    (loginServer loginPlatform config).Reach (fun _ _ => True) oneAccount.boot c ∧
    (∃ t', Awaits loginPlatform.toSqlFunctions c 2 t') ∧
    ∃ z c', Relation.TransGen (Awaits loginPlatform.toSqlFunctions c) 2 z ∧
      (loginServer loginPlatform config).Step c (.run z {}) c' := by
  obtain ⟨c, hreach, hwaiting⟩ := exists_reach loginPlatform config oneAccount
    (P := fun c => isWaiting loginPlatform 2 c = true) twoCleanups (by decide +kernel)
  obtain ⟨t', ht'⟩ := exists_awaits_of_isWaiting hwaiting
  have htable : IssuedTable oneAccount.store.committed :=
    ⟨List.nodup_nil, fun row hrow => by cases hrow⟩
  obtain ⟨-, -, hstep⟩ := transactions_never_deadlock (Server.over_initial rfl) htable hreach
  exact ⟨c, hreach, ⟨t', ht'⟩, hstep 2 t' ht'⟩

end Theorems

end LoginServer
