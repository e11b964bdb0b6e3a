import LoginServer.Database.UserSessions
import LoginServer.Server.SessionScripts

/-!
# Logins of one account under concurrency

A login revokes the live sessions of its user and inserts its own in one READ COMMITTED
transaction, and stores its entry in memory only after the commit. Two such
transactions do not see each other's session, and the stores are in no common order
with the commits. `LoginsInOrder` rules both out, and then the logins of one account
converge.

`LoginInv` carries the proof: an open transaction has revoked every live session, so
its commit leaves exactly one; and once the entry of that session has been stored,
nobody replaces it.
-/

namespace LoginServer

open Database Interleaving

variable {p : Platform} {cfg : ServerConfig} {c c' : ServerState} {l : ServerLabel}

/-! ## Tasks that log in -/

/-- The job is a login whose login name the database reads as `login`. -/
def AuthenticatesAs (login : Bytes) (job : Job) : Prop :=
  ∃ event data, job = .event event ∧ event.type = .AUTH_CLIENT ∧
    event.eventData = .clientData data ∧ upToNul data.login = login

section Job

variable {login : Bytes} {job : Job}

theorem AuthenticatesAs.type (hjob : AuthenticatesAs login job) : job.type = some .AUTH_CLIENT := by
  obtain ⟨event, data, rfl, htype, -⟩ := hjob
  exact congrArg some htype

theorem AuthenticatesAs.ne_cleanup (hjob : AuthenticatesAs login job) : job ≠ .cleanup := by
  obtain ⟨event, data, rfl, -⟩ := hjob
  exact fun heq => nomatch heq

theorem AuthenticatesAs.request (hjob : AuthenticatesAs login job) :
    ∃ data, job.request = some data ∧ upToNul data.login = login := by
  obtain ⟨event, data, rfl, -, hdata, hlogin⟩ := hjob
  exact ⟨data, Job.request_event.mpr hdata, hlogin⟩

theorem AuthenticatesAs.registration (hjob : AuthenticatesAs login job) :
    job.registration = none := by
  obtain ⟨event, data, rfl, -, hdata, -⟩ := hjob
  unfold Job.registration
  dsimp only
  rw [hdata]

end Job

/-- What has been called so far was called by a login. -/
def LoginHistory (login : Bytes) (h : Hist) : Prop :=
  h ≠ [] → ∃ job, AuthenticatesAs login job ∧ System.Lawful (mayCall job) h

/-- `search_user` has found nobody but the user. -/
def FindsOnly (login : Bytes) (userId : Int) (h : Hist) : Prop :=
  ∀ login' row rows, upToNul login' = login →
    ⟨.execPrepared (.searchUser login'), some (row :: rows)⟩ ∈ h → row.id = userId

/-- A login revokes the sessions of the user that it has found. -/
theorem user_of_revoke {login : Bytes} {job : Job} {h : Hist} {userId userId' : Int}
    (hjob : AuthenticatesAs login job) (hl : System.Lawful (mayCall job) h)
    (hfinds : FindsOnly login userId h)
    (hmem : ⟨.execPrepared (.revokeUserSessions userId'), some ()⟩ ∈ h) : userId' = userId := by
  obtain ⟨h₂, h₁, rfl⟩ := List.append_of_mem hmem
  obtain ⟨-, hfound⟩ := hl.may_of_append
  obtain ⟨data, hrequest, rfl⟩ := hjob.request
  obtain ⟨row, rows, hrow, rfl⟩ := hfound data hrequest
  exact hfinds data.login row rows rfl (List.mem_append_right _ (List.mem_cons_of_mem _ hrow))

theorem user_of_create {login : Bytes} {job : Job} {h : Hist} {userId userId' : Int}
    (hjob : AuthenticatesAs login job) (hl : System.Lawful (mayCall job) h)
    (hfinds : FindsOnly login userId h) {tokenHash clientVersion : Bytes}
    (hmem : ⟨.execPrepared (.createUserSession userId' tokenHash clientVersion), some ()⟩ ∈ h) :
    userId' = userId := by
  obtain ⟨h₂, h₁, rfl⟩ := List.append_of_mem hmem
  obtain ⟨-, h', rfl, -⟩ := hl.may_of_append
  exact user_of_revoke hjob hl hfinds (by simp)

/-! ## The account -/

theorem users_applyWrite {db : Database} {w : Write} {row : UserRow}
    (hw : ∀ row, w ≠ .insertUser row) (hrow : row ∈ (applyWrite db w).users) :
    ∃ row₀ ∈ db.users, row₀.id = row.id ∧ row₀.login = row.login ∧
      row₀.password = row.password := by
  cases w with
  | insertUser row' => exact absurd rfl (hw row')
  | setFailedLogins id attempts lockedUntil =>
    obtain ⟨row₀, hrow₀, rfl⟩ := List.mem_map.mp hrow
    refine ⟨row₀, hrow₀, ?_⟩
    split_ifs
    · exact ⟨rfl, rfl, rfl⟩
    · exact ⟨rfl, rfl, rfl⟩
  | resetFailedLogins id now ip clientVersion =>
    obtain ⟨row₀, hrow₀, rfl⟩ := List.mem_map.mp hrow
    refine ⟨row₀, hrow₀, ?_⟩
    split_ifs
    · exact ⟨rfl, rfl, rfl⟩
    · exact ⟨rfl, rfl, rfl⟩
  | _ => exact ⟨row, hrow, rfl, rfl, rfl⟩

theorem users_foldl {ws : List Write} (hws : ∀ row, .insertUser row ∉ ws) {db : Database}
    {row : UserRow} (hrow : row ∈ (ws.foldl applyWrite db).users) :
    ∃ row₀ ∈ db.users, row₀.id = row.id ∧ row₀.login = row.login ∧
      row₀.password = row.password := by
  induction ws generalizing db with
  | nil => exact ⟨row, hrow, rfl, rfl, rfl⟩
  | cons w ws ih =>
    obtain ⟨row₁, hrow₁, hid₁, hlogin₁, hpassword₁⟩ :=
      ih (fun row' hmem => hws row' (List.mem_cons_of_mem _ hmem)) hrow
    obtain ⟨row₀, hrow₀, hid₀, hlogin₀, hpassword₀⟩ := users_applyWrite
      (fun row' heq => hws row' (heq ▸ List.mem_cons_self)) hrow₁
    exact ⟨row₀, hrow₀, hid₀.trans hid₁, hlogin₀.trans hlogin₁, hpassword₀.trans hpassword₁⟩

structure AccountInv (login : Bytes) (userId : Int) (hist : Nat → Hist) (db : Database) :
    Prop where
  owner : ∀ row ∈ db.users, row.login = login → row.id = userId
  finds : ∀ t, FindsOnly login userId (hist t)

section Call

variable {f : SqlFunctions} {hist : Nat → Hist} {s s' : Server} {store : Database.Store} {t : Nat}
  {x : Choice} {job : Job} {cmd : Cmd} {r : cmd.Reply} {login : Bytes} {userId : Int}

/-- Only a registration inserts users. -/
theorem Ledger.not_insertUser (hledger : Ledger hist s.store)
    (hl : System.Lawful (mayCall job) (hist t)) (hjob : job.registration = none) (row : UserRow) :
    .insertUser row ∉ s.store.log t := by
  intro hmem
  obtain ⟨q, rows, hq, hfrom⟩ := hledger t _ hmem
  cases q with
  | registerUser login password email ip clientVersion =>
    obtain ⟨h₁, ⟨-, ⟨reg, hreg, -⟩, -⟩, -⟩ := may_of_mem_current hl hq
    rw [hjob] at hreg
    cases hreg
  | _ => exact hfrom.elim

theorem AccountInv.view (hI : AccountInv login userId hist s.store.committed)
    (hledger : Ledger hist s.store) (hl : System.Lawful (mayCall job) (hist t))
    (hjob : job.registration = none) :
    ∀ row ∈ (s.store.view writes t).users, row.login = login → row.id = userId := by
  intro row hrow hlogin
  obtain ⟨row₀, hrow₀, hid, hlogin₀, -⟩ := users_foldl (hledger.not_insertUser hl hjob) hrow
  rw [← hid]
  exact hI.owner row₀ hrow₀ (hlogin₀.trans hlogin)

theorem AccountInv.call (hI : AccountInv login userId hist s.store.committed)
    (hledger : Ledger hist s.store) (heffect : StoreEffect f t x s cmd r store)
    (hl : System.Lawful (mayCall job) (hist t)) (hjob : job.registration = none) :
    AccountInv login userId (Function.update hist t (⟨cmd, r⟩ :: hist t)) store.committed := by
  refine ⟨?_, fun t' => ?_⟩
  · rcases heffect.committed with hsame | ⟨-, -, hview⟩
    · rw [hsame]
      exact hI.owner
    · rw [hview]
      exact hI.view hledger hl hjob
  · by_cases ht' : t' = t
    · subst ht'
      rw [Function.update_self]
      intro login' row rows hlogin hmem
      rcases List.mem_cons.mp hmem with heq | hold
      · cases heq
        cases heffect with
        | @statement _ _ ws sequences txn hactive hrun =>
          have hrows : (s.store.view writes t').searchUser txn.start (upToNul login') =
              row :: rows := congrArg Prod.fst (Option.some.inj hrun)
          have hrow : row ∈ (s.store.view writes t').searchUser txn.start (upToNul login') := by
            rw [hrows]
            exact List.mem_cons_self
          obtain ⟨user, huser, rfl⟩ := List.mem_map.mp hrow
          obtain ⟨huser, hfound⟩ := List.mem_filter.mp (List.mem_of_mem_take huser)
          simp only [Bool.and_eq_true, decide_eq_true_eq] at hfound
          exact hI.view hledger hl hjob user huser (hfound.1.trans hlogin)
        | keep hkeeps hquery => exact absurd rfl (hquery _ _)
      · exact hI.finds t' login' row rows hlogin hold
    · rw [Function.update_of_ne ht']
      exact hI.finds t'

/-! ## Transactions begin during the run -/

/-- No transaction is older than `start`, or younger than now. -/
structure StartsWithin (start : Time) (s : Server) : Prop where
  clock : start ≤ s.clock
  txns : ∀ t txn, s.store.active t = some txn → start ≤ txn.start ∧ txn.start ≤ s.clock

/-- A transaction that is open after a call began before it, or with it. -/
theorem StoreEffect.start (heffect : StoreEffect f t x s cmd r store) {t' : Nat}
    {txn : Transactions.Txn Write} (hactive : store.active t' = some txn) :
    (∃ txn₀, s.store.active t' = some txn₀ ∧ txn₀.start = txn.start) ∨ txn.start = s.clock := by
  by_cases ht' : t' = t
  · subst ht'
    cases heffect with
    | begin hidle =>
      rw [Transactions.Store.active_begin_self] at hactive
      cases hactive
      exact Or.inr rfl
    | statement hopen hrun =>
      rw [Transactions.Store.active_record_self writes hopen] at hactive
      cases hactive
      exact Or.inl ⟨_, hopen, rfl⟩
    | commit hopen hok => exact absurd hactive (by simp [Transactions.Store.active_commit])
    | rollback => exact absurd hactive (by simp)
    | abort => exact absurd hactive (by simp)
    | unwind => exact absurd hactive (by simp)
    | idle hidle => exact Or.inl ⟨txn, hactive, rfl⟩
    | keep hkeeps hquery => exact Or.inl ⟨txn, hactive, rfl⟩
  · rw [heffect.active_of_ne ht'] at hactive
    exact Or.inl ⟨txn, hactive, rfl⟩

theorem StartsWithin.call {start : Time} (hI : StartsWithin start s)
    (hexec : s.exec f t cmd x = some (r, s')) : StartsWithin start s' := by
  have hclock := (exec_frame hexec).2.1
  refine ⟨hclock ▸ hI.clock, fun t' txn hactive => ?_⟩
  rw [hclock]
  rcases (exec_store hexec).start hactive with ⟨txn₀, hactive₀, hsame⟩ | hnow
  · rw [← hsame]
    exact hI.txns t' txn₀ hactive₀
  · rw [hnow]
    exact ⟨hI.clock, le_rfl⟩

end Call

theorem Server.reach_startsWithin {meets : ServerState → ServerLabel → Prop} {s₀ : Server}
    (h₀ : s₀.Initial) (h : (loginServer p cfg).Reach meets s₀.boot c) :
    StartsWithin s₀.clock c.shared := by
  refine h.invariant (I := fun c => StartsWithin s₀.clock c.shared)
    ⟨le_rfl, fun t txn hactive => ?_⟩ fun c l c' _ hI _ hstep => ?_
  · change s₀.store.active t = some txn at hactive
    rw [h₀.store] at hactive
    cases hactive
  · rcases step_cases hstep with ⟨t, x, job, cmd, r, -, hcall⟩ | ⟨-, hsame⟩
    · exact hI.call hcall.exec
    · refine ⟨hI.clock.trans hsame.clock, fun t txn hactive => ?_⟩
      rw [hsame.store] at hactive
      exact (hI.txns t txn hactive).imp_right fun hle => hle.trans hsame.clock

/-! ## The invariant -/

structure LoginInv (userId : Int) (start : Time) (uuids₀ : List Bytes) (hist : Nat → Hist)
    (s : Server) : Prop where
  revoking : ∀ t, Revokes userId (hist t) →
    ∀ row ∈ liveSessions userId s.clock s.store.committed,
      ∃ time, .revokeSession row.id time ∈ s.store.log t
  opening : ∀ t tokenHash, Opens userId tokenHash (hist t) → ∃ ws row, NoInsert ws ∧
    s.store.log t = ws ++ [.insertSession row] ∧ row.userId = userId ∧
    row.tokenHash = tokenHash ∧ row.revokedAt = none ∧ start + days 30 ≤ row.expiresAt
  tokens : ∀ row ∈ s.store.committed.userSessions,
    row.tokenHash ∈ uuids₀ ∨ ∃ t, Commits userId row.tokenHash (hist t)
  winner : ∀ t tokenHash, Commits userId tokenHash (hist t) →
    ∃ row t', Commits userId row.tokenHash (hist t') ∧
      ∀ now, s.clock ≤ now → now < start + days 30 →
        liveSessions userId now s.store.committed = [row]
  entry : ∀ t d, ⟨.storeClientData d, ()⟩ ∈ hist t →
    ∀ row ∈ liveSessions userId s.clock s.store.committed, d.hash = row.tokenHash →
      ∃ entry, s.clientData.find userId = some entry ∧ entry.hash = row.tokenHash

/-- A login commits only while no other one has revoked the sessions of the same user. -/
def AloneWithSessions (hist : Nat → Hist) (t : Nat) : Prop :=
  ∀ userId, Revokes userId (hist t) → ∀ t', t' ≠ t → ¬ Revokes userId (hist t')

/-- Storing `d` does not replace the entry of the live session by that of another one. -/
def KeepsLiveEntry (s : Server) (d : ClientDataStruct) : Prop :=
  ∀ entry, s.clientData.find d.clientId = some entry →
    ∀ row ∈ liveSessions d.clientId s.clock s.store.committed,
      entry.hash = row.tokenHash → d.hash = row.tokenHash

section Call

variable {f : SqlFunctions} {hist : Nat → Hist} {s s' : Server} {store : Database.Store} {t : Nat}
  {x : Choice} {job : Job} {cmd : Cmd} {r : cmd.Reply} {login : Bytes} {userId : Int}
  {start : Time} {uuids₀ : List Bytes}

/-- A login that commits after it has revoked has inserted its session last. -/
theorem create_of_mayCommit {h : Hist} (hjob : AuthenticatesAs login job)
    (hl : System.Lawful (mayCall job) h) (hmay : mayCall job h .commitWork)
    (hr : Revokes userId h) : ∃ (tokenHash clientVersion : Bytes) (h₁ : Hist),
      h = ⟨.execPrepared (.createUserSession userId tokenHash clientVersion), some ()⟩ :: h₁ := by
  obtain ⟨q, rows, h₁, rfl, hends | rfl⟩ := hmay
  · have hexecuted : executed (⟨.execPrepared q, some rows⟩ :: h₁) = q :: executed h₁ := rfl
    rcases script_of_revokes hl hjob.registration hr with hscript | hscript |
      ⟨tokenHash, clientVersion, hscript⟩
    · obtain ⟨rfl, -⟩ := List.cons.inj (hexecuted.symm.trans hscript)
      cases hends
    · obtain ⟨rfl, -⟩ := List.cons.inj (hexecuted.symm.trans hscript)
      cases hends
    · obtain ⟨rfl, -⟩ := List.cons.inj (hexecuted.symm.trans hscript)
      exact ⟨tokenHash, clientVersion, h₁, rfl⟩
  · exact absurd rfl hjob.ne_cleanup

/-- A login that has revoked nothing has written no session. -/
theorem Ledger.not_onSessions (hledger : Ledger hist s.store) (hjob : AuthenticatesAs login job)
    (hl : System.Lawful (mayCall job) (hist t)) (hnone : ∀ userId, ¬ Revokes userId (hist t)) :
    ∀ w ∈ s.store.log t, w.onSessions = false := by
  intro w hw
  obtain ⟨q, rows, hq, hfrom⟩ := hledger t w hw
  cases w with
  | insertSession row =>
    cases q with
    | createUserSession userId tokenHash clientVersion =>
      exact absurd (revokes_of_opens hl ⟨clientVersion, hq⟩) (hnone userId)
    | _ => exact hfrom.elim
  | revokeSession id now =>
    cases q with
    | revokeUserSessions userId => exact absurd hq (hnone userId)
    | _ => exact hfrom.elim
  | deleteSession id =>
    cases q with
    | cleanupExpiredSessions =>
      obtain ⟨userId, hr⟩ := revokes_of_cleanup hl hjob.ne_cleanup hq
      exact absurd hr (hnone userId)
    | _ => exact hfrom.elim
  | _ => rfl

/-- What the committed sessions become: a login that has opened one commits it. -/
theorem committed_userSessions (hledger : Ledger hist s.store) (hjob : AuthenticatesAs login job)
    (hfinds : FindsOnly login userId (hist t)) (hl : System.Lawful (mayCall job) (hist t))
    (heffect : StoreEffect f t x s cmd r store) (hmay : mayCall job (hist t) cmd) :
    store.committed.userSessions = s.store.committed.userSessions ∨
    ((⟨cmd, r⟩ : Σ c, Cmd.Reply c) = ⟨.commitWork, some ()⟩ ∧ x.fails = false ∧
      ∃ (tokenHash clientVersion : Bytes) (h₁ : Hist), hist t =
        ⟨.execPrepared (.createUserSession userId tokenHash clientVersion), some ()⟩ :: h₁) := by
  rcases heffect.committed with hsame | ⟨heq, hok, hview⟩
  · rw [hsame]
    exact Or.inl rfl
  · by_cases hnone : ∀ userId, ¬ Revokes userId (hist t)
    · rw [hview]
      exact Or.inl (userSessions_foldl_of_none (hledger.not_onSessions hjob hl hnone) _)
    · push Not at hnone
      obtain ⟨userId', hr⟩ := hnone
      obtain rfl := user_of_revoke hjob hl hfinds ((prefix_current _).subset hr)
      cases heq
      exact Or.inr ⟨rfl, hok, create_of_mayCommit hjob hl hmay hr⟩

/-- What such a commit leaves. -/
theorem LoginInv.committed_of_opens (hI : LoginInv userId start uuids₀ hist s)
    (hl : System.Lawful (mayCall job) (hist t)) {tokenHash : Bytes}
    (heffect : StoreEffect f t x s .commitWork (some ()) store)
    (ho : Opens userId tokenHash (hist t)) :
    ∃ row, row.tokenHash = tokenHash ∧ row.revokedAt = none ∧ start + days 30 ≤ row.expiresAt ∧
      (∀ now, s.clock ≤ now → liveSessions userId now store.committed =
        [row].filter fun row => row.isLive now) ∧
      ∀ row' ∈ store.committed.userSessions, row'.tokenHash = tokenHash ∨
        ∃ row₀ ∈ s.store.committed.userSessions, row₀.tokenHash = row'.tokenHash := by
  cases heffect with
  | commit hactive hok =>
    obtain ⟨ws, row, hws, hlog, hid, htoken, hrevoked, hexpires⟩ := hI.opening t tokenHash ho
    rw [Transactions.Store.committed_commit, Transactions.Store.view, hlog]
    refine ⟨row, htoken, hrevoked, hexpires, fun now hnow => ?_, fun row' hrow' => ?_⟩
    · refine liveSessions_foldl hws hid fun row' hrow' => ?_
      obtain ⟨time, hmem⟩ := hI.revoking t (revokes_of_opens hl ho) row'
        (mem_liveSessions_of_le hrow' hnow)
      rw [hlog] at hmem
      rcases List.mem_append.mp hmem with hmem | hmem
      · exact ⟨time, hmem⟩
      · cases List.mem_singleton.mp hmem
    · rw [List.foldl_append] at hrow'
      rcases List.mem_append.mp hrow' with hold | hnew
      · obtain ⟨row₀, hrow₀, hsame, -⟩ := userSessions_foldl hws hold
        exact Or.inr ⟨row₀, hrow₀, hsame⟩
      · obtain rfl := List.mem_singleton.mp hnew
        exact Or.inl htoken
  | keep hkeeps hquery => cases hkeeps []

/-- What the thread of the call has revoked. -/
theorem LoginInv.revoking_call (hI : LoginInv userId start uuids₀ hist s)
    (hledger : Ledger hist s.store) (hstarts : StartsWithin start s)
    (hjob : AuthenticatesAs login job) (hl : System.Lawful (mayCall job) (hist t))
    (heffect : StoreEffect f t x s cmd r store) (hmay : mayCall job (hist t) cmd)
    (hr : Revokes userId (⟨cmd, r⟩ :: hist t)) :
    ∀ row ∈ liveSessions userId s.clock store.committed,
      ∃ time, .revokeSession row.id time ∈ store.log t := by
  intro row hrow
  cases heffect with
  | @statement q rows ws sequences txn hactive hrun =>
    rw [Transactions.Store.committed_record] at hrow
    rw [Transactions.Store.log_record_self writes hactive]
    rcases List.mem_cons.mp hr with heq | hold
    · cases heq
      rw [Transactions.Store.view_of_log_nil writes (hledger.log_of_current_nil
        (current_of_mayRevoke hl hjob.registration hmay))] at hrun
      cases hrun
      -- what is live now was live when the transaction began
      have hstart := mem_liveSessions_of_le hrow (hstarts.txns t txn hactive).2
      exact ⟨txn.start, List.mem_append_right _ (List.mem_map.mpr ⟨row, hstart, rfl⟩)⟩
    · obtain ⟨time, hmem⟩ := hI.revoking t hold row hrow
      exact ⟨time, List.mem_append_left _ hmem⟩
  | keep hkeeps hquery =>
    rw [Revokes, hkeeps] at hr
    rcases List.mem_cons.mp hr with heq | hold
    · exact absurd heq.symm (hquery _ _)
    · exact hI.revoking t hold row hrow
  | _ => cases hr

/-- The session is the last statement of its transaction. -/
theorem not_inOrder_of_opens {h : Hist} (hl : System.Lawful (mayCall job) h)
    (hjob : job.registration = none) {tokenHash : Bytes} (ho : Opens userId tokenHash h)
    (q : Query) : ¬ InOrder h q := by
  obtain ⟨clientVersion, hmem⟩ := ho
  have hexecuted : Query.createUserSession userId tokenHash clientVersion ∈ executed h :=
    mem_executed.mpr ⟨_, hmem⟩
  rintro (hfirst | ⟨q', hlast, hfollows⟩)
  · rw [executed, current_of_inOrder_startsWork hfirst] at hexecuted
    cases hexecuted
  · have hhead := executed_of_lastStatement hlast
    rcases script_of_revokes hl hjob (revokes_of_opens hl ⟨clientVersion, hmem⟩) with hscript |
      hscript | ⟨tokenHash', clientVersion', hscript⟩
    · rw [hscript] at hexecuted
      cases List.mem_singleton.mp hexecuted
    · rw [hscript] at hexecuted
      rcases List.mem_pair.mp hexecuted with heq | heq <;> cases heq
    · rw [hscript] at hhead
      cases hhead
      cases q <;> cases hfollows

/-- A transaction that is about to insert its session has inserted none. -/
theorem Ledger.noInsert_of_mayCreate (hledger : Ledger hist s.store)
    (hl : System.Lawful (mayCall job) (hist t)) {userId' : Int} {tokenHash clientVersion : Bytes}
    (hmay : mayCall job (hist t)
      (.execPrepared (.createUserSession userId' tokenHash clientVersion))) :
    NoInsert (s.store.log t) := by
  intro row hmem
  obtain ⟨q, rows, hq, hfrom⟩ := hledger t _ hmem
  cases q with
  | createUserSession userId'' tokenHash' clientVersion' =>
    exact not_mem_of_mayCreate hl hmay _ _ _ ((prefix_current _).subset hq)
  | _ => exact hfrom.elim

/-- The token of a session that is about to be inserted is in no row. -/
theorem LoginInv.fresh_of_mayCreate (hI : LoginInv userId start uuids₀ hist s)
    (hledger : Ledger hist s.store) (htokens : TokenInv uuids₀ hist s.uuids)
    (hlogins : ∀ t', LoginHistory login (hist t')) (hl : System.Lawful (mayCall job) (hist t))
    {userId' : Int} {tokenHash clientVersion : Bytes}
    (hmay : mayCall job (hist t)
      (.execPrepared (.createUserSession userId' tokenHash clientVersion))) :
    ∀ row ∈ (s.store.view writes t).userSessions, row.tokenHash ≠ tokenHash := by
  intro row hrow htoken
  have hgenerated := generated_of_mayCreate hmay
  obtain ⟨row₀, hrow₀, hsame, -⟩ := userSessions_foldl (hledger.noInsert_of_mayCreate hl hmay) hrow
  rcases hI.tokens row₀ hrow₀ with hknown | ⟨t', hcommits⟩
  · rw [hsame, htoken] at hknown
    exact (htokens.generated t tokenHash hgenerated).2.1 hknown
  · rw [hsame, htoken] at hcommits
    obtain ⟨clientVersion', hcreate⟩ := hcommits.mem_create
    obtain ⟨job', -, hl'⟩ := hlogins t' (List.ne_nil_of_mem hcreate)
    obtain rfl := htokens.apart t t' tokenHash hgenerated (hcommits.generated hl')
    exact not_mem_of_mayCreate hl hmay _ _ _ hcreate

/-- What the transaction of the call has inserted. -/
theorem LoginInv.opening_call (hI : LoginInv userId start uuids₀ hist s)
    (hledger : Ledger hist s.store) (htokens : TokenInv uuids₀ hist s.uuids)
    (hstarts : StartsWithin start s) (hlogins : ∀ t', LoginHistory login (hist t'))
    (hjob : AuthenticatesAs login job) (hl : System.Lawful (mayCall job) (hist t))
    (heffect : StoreEffect f t x s cmd r store) (hmay : mayCall job (hist t) cmd)
    {tokenHash : Bytes} (ho : Opens userId tokenHash (⟨cmd, r⟩ :: hist t)) :
    ∃ ws row, NoInsert ws ∧ store.log t = ws ++ [.insertSession row] ∧ row.userId = userId ∧
      row.tokenHash = tokenHash ∧ row.revokedAt = none ∧ start + days 30 ≤ row.expiresAt := by
  obtain ⟨clientVersion, hmem⟩ := ho
  cases heffect with
  | @statement q rows ws sequences txn hactive hrun =>
    rcases List.mem_cons.mp hmem with heq | hold
    · cases heq
      have hgenerated := generated_of_mayCreate hmay
      obtain ⟨row, rfl, hid, htoken, hrevoked, -, hexpires⟩ := run_createUserSession
        (htokens.generated t tokenHash hgenerated).2.2
        (hI.fresh_of_mayCreate hledger htokens hlogins hl hmay) hrun
      refine ⟨s.store.log t, row, hledger.noInsert_of_mayCreate hl hmay,
        Transactions.Store.log_record_self writes hactive _, hid, htoken, hrevoked, ?_⟩
      rw [hexpires]
      exact Int.add_le_add_right (hstarts.txns t txn hactive).1 _
    · exact absurd hmay.1 (not_inOrder_of_opens hl hjob.registration ⟨clientVersion, hold⟩ q)
  | keep hkeeps hquery =>
    rw [hkeeps] at hmem
    rcases List.mem_cons.mp hmem with heq | hold
    · exact absurd heq.symm (hquery _ _)
    · exact hI.opening t tokenHash ⟨clientVersion, hold⟩
  | _ => cases hmem

theorem opens_of_head {h h₁ : Hist} {tokenHash clientVersion : Bytes}
    (hhead : h =
      ⟨.execPrepared (.createUserSession userId tokenHash clientVersion), some ()⟩ :: h₁) :
    Opens userId tokenHash h := by
  rw [hhead]
  exact ⟨clientVersion, List.mem_cons_self⟩

/-- What another thread has revoked; the condition forbids a commit in between. -/
theorem LoginInv.revoking_other (hI : LoginInv userId start uuids₀ hist s)
    (hledger : Ledger hist s.store) (hjob : AuthenticatesAs login job)
    (hfinds : FindsOnly login userId (hist t)) (hl : System.Lawful (mayCall job) (hist t))
    (heffect : StoreEffect f t x s cmd r store) (hmay : mayCall job (hist t) cmd)
    (halone : cmd = .commitWork → x.fails = false → AloneWithSessions hist t) {t' : Nat}
    (ht' : t' ≠ t) (hr : Revokes userId (hist t')) :
    ∀ row ∈ liveSessions userId s.clock store.committed,
      ∃ time, .revokeSession row.id time ∈ store.log t' := by
  intro row hrow
  rw [heffect.log_of_ne ht']
  rcases committed_userSessions hledger hjob hfinds hl heffect hmay with hsame |
    ⟨heq, hok, tokenHash, clientVersion, h₁, hhead⟩
  · rw [liveSessions, hsame] at hrow
    exact hI.revoking t' hr row hrow
  · cases heq
    exact absurd hr (halone rfl hok _ (revokes_of_opens hl (opens_of_head hhead)) t' ht')

theorem commits_update {tokenHash : Bytes} {t' : Nat}
    (hc : Commits userId tokenHash (Function.update hist t (⟨cmd, r⟩ :: hist t) t')) :
    Commits userId tokenHash (hist t') ∨
    (⟨cmd, r⟩ : Σ c, Cmd.Reply c) = ⟨.commitWork, some ()⟩ ∧
      ∃ (clientVersion : Bytes) (h₁ : Hist), hist t =
        ⟨.execPrepared (.createUserSession userId tokenHash clientVersion), some ()⟩ :: h₁ := by
  by_cases ht' : t' = t
  · subst ht'
    rw [Function.update_self] at hc
    exact (commits_cons hc).symm
  · rw [Function.update_of_ne ht'] at hc
    exact Or.inl hc

theorem Commits.update {tokenHash : Bytes} {t' : Nat} (hc : Commits userId tokenHash (hist t')) :
    Commits userId tokenHash (Function.update hist t (⟨cmd, r⟩ :: hist t) t') :=
  hc.suffix (suffix_update hist t t' _)

theorem commits_of_commit {h₁ : Hist} {tokenHash clientVersion : Bytes} (hhead : hist t =
      ⟨.execPrepared (.createUserSession userId tokenHash clientVersion), some ()⟩ :: h₁) :
    Commits userId tokenHash
      (Function.update hist t (⟨.commitWork, some ()⟩ :: hist t) t) := by
  rw [Function.update_self, hhead]
  exact ⟨[], h₁, clientVersion, rfl⟩

theorem LoginInv.tokens_call (hI : LoginInv userId start uuids₀ hist s)
    (hledger : Ledger hist s.store) (hjob : AuthenticatesAs login job)
    (hfinds : FindsOnly login userId (hist t)) (hl : System.Lawful (mayCall job) (hist t))
    (heffect : StoreEffect f t x s cmd r store) (hmay : mayCall job (hist t) cmd) :
    ∀ row ∈ store.committed.userSessions, row.tokenHash ∈ uuids₀ ∨
      ∃ t', Commits userId row.tokenHash (Function.update hist t (⟨cmd, r⟩ :: hist t) t') := by
  intro row hrow
  have hold : ∀ row ∈ s.store.committed.userSessions, row.tokenHash ∈ uuids₀ ∨
      ∃ t', Commits userId row.tokenHash (Function.update hist t (⟨cmd, r⟩ :: hist t) t') :=
    fun row hrow => (hI.tokens row hrow).imp_right fun ⟨t', hc⟩ => ⟨t', hc.update⟩
  rcases committed_userSessions hledger hjob hfinds hl heffect hmay with hsame |
    ⟨heq, hok, tokenHash, clientVersion, h₁, hhead⟩
  · rw [hsame] at hrow
    exact hold row hrow
  · cases heq
    obtain ⟨-, -, -, -, -, hrows⟩ := hI.committed_of_opens hl heffect (opens_of_head hhead)
    rcases hrows row hrow with hnew | ⟨row₀, hrow₀, hsame⟩
    · rw [hnew]
      exact Or.inr ⟨t, commits_of_commit hhead⟩
    · rw [← hsame]
      exact hold row₀ hrow₀

/-- After a commit its session is the only live one. -/
theorem LoginInv.winner_of_commit (hI : LoginInv userId start uuids₀ hist s)
    (hl : System.Lawful (mayCall job) (hist t)) {tokenHash clientVersion : Bytes} {h₁ : Hist}
    (heffect : StoreEffect f t x s .commitWork (some ()) store) (hhead : hist t =
      ⟨.execPrepared (.createUserSession userId tokenHash clientVersion), some ()⟩ :: h₁) :
    ∃ row t', Commits userId row.tokenHash
        (Function.update hist t (⟨.commitWork, some ()⟩ :: hist t) t') ∧
      ∀ now, s.clock ≤ now → now < start + days 30 →
        liveSessions userId now store.committed = [row] := by
  obtain ⟨row, rfl, hrevoked, hexpires, hlive, -⟩ :=
    hI.committed_of_opens hl heffect (opens_of_head hhead)
  refine ⟨row, t, commits_of_commit hhead, fun now hnow hbound => ?_⟩
  rw [hlive now hnow, List.filter_cons_of_pos, List.filter_nil]
  exact isLive_iff.mpr ⟨hrevoked, lt_of_lt_of_le hbound hexpires⟩

theorem LoginInv.winner_call (hI : LoginInv userId start uuids₀ hist s)
    (hledger : Ledger hist s.store) (hjob : AuthenticatesAs login job)
    (hfinds : FindsOnly login userId (hist t)) (hl : System.Lawful (mayCall job) (hist t))
    (heffect : StoreEffect f t x s cmd r store) (hmay : mayCall job (hist t) cmd) {t' : Nat}
    {tokenHash : Bytes}
    (hc : Commits userId tokenHash (Function.update hist t (⟨cmd, r⟩ :: hist t) t')) :
    ∃ row t', Commits userId row.tokenHash (Function.update hist t (⟨cmd, r⟩ :: hist t) t') ∧
      ∀ now, s.clock ≤ now → now < start + days 30 →
        liveSessions userId now store.committed = [row] := by
  rcases commits_update hc with hold | ⟨heq, clientVersion, h₁, hhead⟩
  · rcases committed_userSessions hledger hjob hfinds hl heffect hmay with hsame |
      ⟨heq, hok, tokenHash', clientVersion, h₁, hhead⟩
    · obtain ⟨row, t₁, hc₁, hlive⟩ := hI.winner t' tokenHash hold
      refine ⟨row, t₁, hc₁.update, fun now hnow hbound => ?_⟩
      rw [liveSessions, hsame]
      exact hlive now hnow hbound
    · cases heq
      exact hI.winner_of_commit hl heffect hhead
  · cases heq
    exact hI.winner_of_commit hl heffect hhead

/-! ### The entry in memory -/

/-- All that a login does to the session store is to store its entry. -/
theorem clientData_of_login {s' : Server} (hjob : AuthenticatesAs login job)
    (hmay : mayCall job (hist t) cmd) (hexec : s.exec f t cmd x = some (r, s')) :
    (∃ d, cmd = .storeClientData d ∧
      s'.clientData = s.clientData.storeClientData d s.steadyMs) ∨
    (∀ d, cmd ≠ .storeClientData d) ∧ s'.clientData = s.clientData := by
  have hclientData := Server.exec_clientData hexec
  cases cmd with
  | storeClientData d => exact Or.inl ⟨d, rfl, hclientData⟩
  | touchSession id nowMs =>
    have htype := hmay.1
    rw [hjob.type] at htype
    cases htype
  | removeClientData id =>
    have htype := hmay.1
    rw [hjob.type] at htype
    cases htype
  | sweepExpiredSessions nowMs ttlMs => exact absurd hmay hjob.ne_cleanup
  | _ => exact Or.inr ⟨fun d heq => (nomatch heq), hclientData⟩

/-- No entry has been stored for a session that is being committed. -/
theorem not_stored_of_commit (htokens : TokenInv uuids₀ hist s.uuids)
    (hlogins : ∀ t', LoginHistory login (hist t')) (hl : System.Lawful (mayCall job) (hist t))
    {tokenHash clientVersion : Bytes} {h₁ : Hist} (hhead : hist t =
      ⟨.execPrepared (.createUserSession userId tokenHash clientVersion), some ()⟩ :: h₁)
    {t' : Nat} {d : ClientDataStruct} (hstored : ⟨.storeClientData d, ()⟩ ∈ hist t') :
    d.hash ≠ tokenHash := by
  rintro rfl
  obtain ⟨job', -, hl'⟩ := hlogins t' (List.ne_nil_of_mem hstored)
  have hgenerated' := (commits_of_stored hl' hstored).generated hl'
  have hgenerated := generated_of_create hl (by rw [hhead]; exact List.mem_cons_self)
  obtain rfl := htokens.apart t t' d.hash hgenerated hgenerated'
  rw [hhead] at hl hstored
  have hearlier := mem_of_cons hstored (by simp)
  obtain ⟨clientVersion', hcreate⟩ := (commits_of_stored hl.2 hearlier).mem_create
  exact not_mem_of_mayCreate hl.2 hl.1 _ _ _ hcreate

theorem user_of_store {d : ClientDataStruct} (hjob : AuthenticatesAs login job)
    (hfinds : FindsOnly login userId (hist t)) (hl : System.Lawful (mayCall job) (hist t))
    (hmay : mayCall job (hist t) (.storeClientData d)) : d.clientId = userId := by
  obtain ⟨clientVersion, h', heq⟩ := hmay
  have hcreate : ⟨.execPrepared (.createUserSession d.clientId d.hash clientVersion), some ()⟩ ∈
      hist t := by
    rw [heq]
    simp
  exact user_of_create hjob hl hfinds hcreate

theorem LoginInv.entry_call {s' : Server} (hI : LoginInv userId start uuids₀ hist s)
    (hledger : Ledger hist s.store) (htokens : TokenInv uuids₀ hist s.uuids)
    (hlogins : ∀ t', LoginHistory login (hist t')) (hjob : AuthenticatesAs login job)
    (hfinds : FindsOnly login userId (hist t)) (hl : System.Lawful (mayCall job) (hist t))
    (hexec : s.exec f t cmd x = some (r, s')) (hmay : mayCall job (hist t) cmd)
    (hkeeps : ∀ d, cmd = .storeClientData d → KeepsLiveEntry s d) {t' : Nat}
    {d : ClientDataStruct}
    (hstored : ⟨.storeClientData d, ()⟩ ∈ Function.update hist t (⟨cmd, r⟩ :: hist t) t') :
    ∀ row ∈ liveSessions userId s.clock s'.store.committed, d.hash = row.tokenHash →
      ∃ entry, s'.clientData.find userId = some entry ∧ entry.hash = row.tokenHash := by
  intro row hrow hhash
  rcases committed_userSessions hledger hjob hfinds hl (exec_store hexec) hmay with hsame |
    ⟨heq, hok, tokenHash, clientVersion, h₁, hhead⟩
  · rw [liveSessions, hsame] at hrow
    rcases clientData_of_login hjob hmay hexec with ⟨d₁, rfl, hmap⟩ | ⟨hno, hmap⟩
    · obtain rfl := user_of_store hjob hfinds hl hmay
      rw [hmap, ClientData.find_storeClientData, if_pos rfl]
      refine ⟨_, rfl, ?_⟩
      rcases mem_update hstored with hold | ⟨-, heq⟩
      · obtain ⟨entry, hentry, hlive⟩ := hI.entry t' d hold row hrow hhash
        exact hkeeps d₁ rfl entry hentry row hrow hlive
      · cases heq
        exact hhash
    · rw [hmap]
      rcases mem_update hstored with hold | ⟨-, heq⟩
      · exact hI.entry t' d hold row hrow hhash
      · cases heq
        exact absurd rfl (hno d)
  · cases heq
    obtain ⟨row₁, htoken, -, -, hlive, -⟩ :=
      hI.committed_of_opens hl (exec_store hexec) (opens_of_head hhead)
    rw [hlive s.clock le_rfl] at hrow
    obtain rfl := List.mem_singleton.mp (List.mem_filter.mp hrow).1
    rcases mem_update hstored with hold | ⟨-, heq⟩
    · exact absurd (hhash.trans htoken) (not_stored_of_commit htokens hlogins hl hhead hold)
    · cases heq

theorem LoginInv.call {s' : Server} (hI : LoginInv userId start uuids₀ hist s)
    (hledger : Ledger hist s.store) (htokens : TokenInv uuids₀ hist s.uuids)
    (hstarts : StartsWithin start s) (hlogins : ∀ t', LoginHistory login (hist t'))
    (hjob : AuthenticatesAs login job) (hfinds : FindsOnly login userId (hist t))
    (hl : System.Lawful (mayCall job) (hist t)) (hexec : s.exec f t cmd x = some (r, s'))
    (hmay : mayCall job (hist t) cmd)
    (halone : cmd = .commitWork → x.fails = false → AloneWithSessions hist t)
    (hkeeps : ∀ d, cmd = .storeClientData d → KeepsLiveEntry s d) :
    LoginInv userId start uuids₀ (Function.update hist t (⟨cmd, r⟩ :: hist t)) s' := by
  have hclock := (exec_frame hexec).2.1
  have heffect := exec_store hexec
  refine ⟨fun t' hr => ?_, fun t' tokenHash ho => ?_,
    hI.tokens_call hledger hjob hfinds hl heffect hmay, fun t' tokenHash hc => ?_,
    fun t' d hstored => ?_⟩
  · rw [hclock]
    by_cases ht' : t' = t
    · subst ht'
      rw [Function.update_self] at hr
      exact hI.revoking_call hledger hstarts hjob hl heffect hmay hr
    · rw [Function.update_of_ne ht'] at hr
      exact hI.revoking_other hledger hjob hfinds hl heffect hmay halone ht' hr
  · by_cases ht' : t' = t
    · subst ht'
      rw [Function.update_self] at ho
      exact hI.opening_call hledger htokens hstarts hlogins hjob hl heffect hmay ho
    · rw [Function.update_of_ne ht'] at ho
      rw [heffect.log_of_ne ht']
      exact hI.opening t' tokenHash ho
  · rw [hclock]
    exact hI.winner_call hledger hjob hfinds hl heffect hmay hc
  · rw [hclock]
    exact hI.entry_call hledger htokens hlogins hjob hfinds hl hexec hmay hkeeps hstored

end Call

/-! ## Runs -/

/-- All tasks that are started log in to the account `login`. -/
def LoginsOnly (login : Bytes) (c : ServerState) : ServerLabel → Prop
  | .spawn _ a => ∃ event rest, a = .dispatch ∧ c.shared.eventQueue = event :: rest ∧
    AuthenticatesAs login (.event event)
  | _ => True

/-- The steps at which no login commits its session while another one of the same user is
between its revocation and its commit, and none replaces the entry of the live session by
that of an older one. -/
def LoginsInOrder (c : ServerState) : ServerLabel → Prop
  | .run t x =>
    (c.pending t = some .commitWork → x.fails = false → AloneWithSessions c.hist t) ∧
    ∀ d, c.pending t = some (.storeClientData d) → KeepsLiveEntry c.shared d
  | _ => True

theorem Server.reach_authenticates {meets : ServerState → ServerLabel → Prop} {login : Bytes}
    (hmeets : ∀ c l, meets c l → LoginsOnly login c l) {s₀ : Server}
    (h : (loginServer p cfg).Reach meets s₀.boot c) :
    ∀ t th, c.threads t = some th → AuthenticatesAs login th.job := by
  refine h.invariant (I := fun c => ∀ t th, c.threads t = some th → AuthenticatesAs login th.job)
    (fun t th ht => by cases ht) fun c l c' _ hI hm hstep => ?_
  cases hstep with
  | @run t x job hist cmd k r s hthread hexec =>
    have hjob : AuthenticatesAs login job := hI t _ hthread
    exact Config.forall_threads_set hjob fun t' th' _ => hI t' th'
  | spawn hfree hstart =>
    refine Config.forall_threads_set ?_ fun t' th' _ => hI t' th'
    obtain ⟨event, rest, rfl, hqueue, hlogin⟩ := hmeets _ _ hm
    simp only [loginServer, hqueue] at hstart
    cases hstart
    exact hlogin
  | outside ho => exact hI

section Reached

variable {login : Bytes} {userId : Int} {s₀ : Server}

/-- Runs of logins of one account, in order. -/
abbrev ReachLogins (p : Platform) (cfg : ServerConfig) (login : Bytes) (s₀ : Server)
    (c : ServerState) : Prop :=
  (loginServer p cfg).Reach (fun c l => LoginsOnly login c l ∧ LoginsInOrder c l) s₀.boot c

theorem ReachLogins.authenticates (h : ReachLogins p cfg login s₀ c) :
    ∀ t th, c.threads t = some th → AuthenticatesAs login th.job :=
  Server.reach_authenticates (fun _ _ hm => hm.1) h

theorem ReachLogins.loginHistory (h : ReachLogins p cfg login s₀ c) (t : Nat) :
    LoginHistory login (c.hist t) := by
  intro hne
  cases hthread : c.threads t with
  | none =>
    rw [Config.hist, hthread] at hne
    exact absurd rfl hne
  | some th =>
    rw [Config.hist_of_threads hthread]
    exact ⟨th.job, h.authenticates t th hthread, (Server.reach_obedient h t th hthread).lawful⟩

theorem ReachLogins.accountInv (h₀ : s₀.Initial)
    (huser : ∀ row ∈ s₀.store.committed.users, row.login = login → row.id = userId)
    (h : ReachLogins p cfg login s₀ c) :
    AccountInv login userId c.hist c.shared.store.committed := by
  refine Server.reach_callInvariant
    (I := fun hist store => AccountInv login userId hist store.committed) ?_ ?_ h
  · exact ⟨huser, fun t login' row rows _ hmem => absurd hmem List.not_mem_nil⟩
  · intro c c' t x job cmd r hreach hI _ hcall
    obtain ⟨k, hthread⟩ := hcall.thread
    have hjob := ReachLogins.authenticates hreach t _ hthread
    exact hI.call (Server.reach_ledger h₀ hreach) (exec_store hcall.exec)
      (hcall.lawful (Server.reach_obedient hreach)) hjob.registration

theorem LoginInv.sameData {start : Time} {uuids₀ : List Bytes} {hist : Nat → Hist}
    {s s' : Server} (hI : LoginInv userId start uuids₀ hist s) (hsame : s.SameData s') :
    LoginInv userId start uuids₀ hist s' := by
  refine ⟨fun t hr row hrow => ?_, fun t tokenHash ho => ?_, fun row hrow => ?_,
    fun t tokenHash hc => ?_, fun t d hstored row hrow hhash => ?_⟩
  · rw [hsame.store] at hrow ⊢
    exact hI.revoking t hr row (mem_liveSessions_of_le hrow hsame.clock)
  · rw [hsame.store]
    exact hI.opening t tokenHash ho
  · rw [hsame.store] at hrow
    exact hI.tokens row hrow
  · obtain ⟨row, t', hc', hlive⟩ := hI.winner t tokenHash hc
    refine ⟨row, t', hc', fun now hnow hbound => ?_⟩
    rw [hsame.store]
    exact hlive now (hsame.clock.trans hnow) hbound
  · rw [hsame.store] at hrow
    rw [hsame.clientData]
    exact hI.entry t d hstored row (mem_liveSessions_of_le hrow hsame.clock) hhash

theorem ReachLogins.loginInv (h₀ : s₀.Initial)
    (huser : ∀ row ∈ s₀.store.committed.users, row.login = login → row.id = userId)
    (h : ReachLogins p cfg login s₀ c) :
    LoginInv userId s₀.clock s₀.uuids c.hist c.shared := by
  refine System.Reach.invariant
    (I := fun c => LoginInv userId s₀.clock s₀.uuids c.hist c.shared) ?_
    (fun c l c' hreach hI hm hstep => ?_) h
  · refine ⟨fun t hr => absurd hr List.not_mem_nil, fun t tokenHash ho => ?_,
      fun row hrow => Or.inl (h₀.tokens row hrow), fun t tokenHash hc => ?_,
      fun t d hstored => absurd hstored List.not_mem_nil⟩
    · obtain ⟨clientVersion, hmem⟩ := ho
      cases hmem
    · obtain ⟨clientVersion, hmem⟩ := hc.mem_create
      cases hmem
  · rcases step_cases hstep with ⟨t, x, job, cmd, r, rfl, hcall⟩ | ⟨hhist, hsame⟩
    · obtain ⟨k, hthread⟩ := hcall.thread
      obtain ⟨-, hcommits, hstores⟩ := hm
      rw [hcall.hist]
      refine hI.call (Server.reach_ledger h₀ hreach) (Server.reach_tokenInv hreach)
        (Server.reach_startsWithin h₀ hreach) (ReachLogins.loginHistory hreach)
        (ReachLogins.authenticates hreach t _ hthread)
        ((ReachLogins.accountInv h₀ huser hreach).finds t)
        (hcall.lawful (Server.reach_obedient hreach)) hcall.exec
        (hcall.may (Server.reach_obedient hreach)) (fun hcommit => ?_) fun d hstore => ?_
      · subst hcommit
        exact hcommits hcall.pending
      · subst hstore
        exact hstores d hcall.pending
    · rw [hhist]
      exact hI.sameData hsame

/-- If logins of one account neither commit while another one is between its revocation
and its commit, nor replace the entry of the live session, then once all of them have
returned OK the account has one live session, and its entry has the token of that one. -/
theorem concurrent_logins_converge (h₀ : s₀.Initial)
    (huser : ∀ row ∈ s₀.store.committed.users, row.login = login → row.id = userId)
    (h : ReachLogins p cfg login s₀ c) (htime : c.shared.clock < s₀.clock + days 30)
    (hsome : ∃ t th, c.threads t = some th)
    (hok : ∀ t th, c.threads t = some th → ¬ Authenticator.NotStored th.hist) :
    ∃ row, liveSessions userId c.shared.clock c.shared.store.committed = [row] ∧
      ∃ entry, c.shared.clientData.find userId = some entry ∧ entry.hash = row.tokenHash := by
  have hI := ReachLogins.loginInv h₀ huser h
  have hstored : ∀ t, (∃ th, c.threads t = some th) →
      ∃ d job, ⟨.storeClientData d, ()⟩ ∈ c.hist t ∧ AuthenticatesAs login job ∧
        System.Lawful (mayCall job) (c.hist t) := by
    rintro t ⟨th, hthread⟩
    have hno := hok t th hthread
    rw [Authenticator.NotStored] at hno
    push Not at hno
    obtain ⟨d, hmem⟩ := hno
    rw [← Config.hist_of_threads hthread] at hmem
    obtain ⟨job, hjob, hl⟩ := h.loginHistory t (List.ne_nil_of_mem hmem)
    exact ⟨d, job, hmem, hjob, hl⟩
  have huserOf : ∀ t tokenHash userId', Commits userId' tokenHash (c.hist t) →
      userId' = userId := by
    intro t tokenHash userId' hc
    obtain ⟨clientVersion, hcreate⟩ := hc.mem_create
    obtain ⟨job, hjob, hl⟩ := h.loginHistory t (List.ne_nil_of_mem hcreate)
    exact user_of_create hjob hl ((ReachLogins.accountInv h₀ huser h).finds t) hcreate
  obtain ⟨t, th, hthread⟩ := hsome
  obtain ⟨d, job, hmem, hjob, hl⟩ := hstored t ⟨th, hthread⟩
  have hcommits := commits_of_stored hl hmem
  obtain rfl := huserOf t _ _ hcommits
  obtain ⟨row, t', hcommits', hlive⟩ := hI.winner t d.hash hcommits
  have hlive := hlive c.shared.clock le_rfl htime
  refine ⟨row, hlive, ?_⟩
  -- the winner has returned as well, and so has stored its entry
  obtain ⟨clientVersion, hcreate⟩ := hcommits'.mem_create
  have hthread' : ∃ th, c.threads t' = some th := by
    cases hthread' : c.threads t' with
    | none =>
      rw [Config.hist, hthread'] at hcreate
      cases hcreate
    | some th' => exact ⟨th', rfl⟩
  obtain ⟨d', job', hmem', hjob', hl'⟩ := hstored t' hthread'
  have hsame := token_unique hl' ((commits_of_stored hl' hmem').generated hl')
    (hcommits'.generated hl')
  exact hI.entry t' d' hmem' row (by rw [hlive]; exact List.mem_cons_self) hsame

end Reached

/-! ## Two logins of one account -/

/-- The entry of thread `t` has been stored. -/
def storedEntry (c : ServerState) (t : Nat) : Bool :=
  (c.hist t).any fun e =>
    match e with
    | ⟨.storeClientData _, _⟩ => true
    | _ => false

theorem not_notStored {t : Nat} {th : Thread Job Cmd Cmd.Reply} (hthread : c.threads t = some th)
    (h : storedEntry c t = true) : ¬ Authenticator.NotStored th.hist := by
  rw [storedEntry, Config.hist_of_threads hthread] at h
  obtain ⟨⟨cmd, r⟩, hmem, hstore⟩ := List.any_eq_true.mp h
  cases cmd with
  | storeClientData d => exact fun hno => hno d hmem
  | _ => cases hstore

/-- Every thread below two has stored its entry, and there is no other. -/
theorem all_stored (hnone : ∀ t, 2 ≤ t → c.threads t = none)
    (h : ∀ t < 2, storedEntry c t = true) :
    ∀ t th, c.threads t = some th → ¬ Authenticator.NotStored th.hist := by
  intro t th hthread
  by_cases ht : t < 2
  · exact not_notStored hthread (h t ht)
  · rw [hnone t (Nat.le_of_not_lt ht)] at hthread
    cases hthread

/-- `LoginsOnly`, computed. -/
def startsLogin (login : Bytes) (c : ServerState) : ServerLabel → Bool
  | .spawn _ a =>
    match a, c.shared.eventQueue with
    | .dispatch, event :: _ =>
      event.type = .AUTH_CLIENT &&
        match event.eventData with
        | .clientData data => upToNul data.login = login
        | .registration _ => false
    | _, _ => false
  | _ => true

theorem LoginsOnly.of_startsLogin {login : Bytes} (h : startsLogin login c l = true) :
    LoginsOnly login c l := by
  cases l with
  | run t x => trivial
  | outside o => trivial
  | spawn t a =>
    simp only [startsLogin] at h
    split at h
    · rename_i event rest hqueue
      obtain ⟨htype, hdata⟩ := Bool.and_eq_true_iff.mp h
      cases hdata' : event.eventData with
      | clientData data =>
        simp only [hdata'] at hdata
        exact ⟨event, rest, rfl, hqueue, event, data, rfl, of_decide_eq_true htype, hdata',
          of_decide_eq_true hdata⟩
      | registration reg => simp [hdata'] at hdata
    · cases h

/-- `KeepsLiveEntry`, computed for the store that a thread is about to make. -/
def storesInOrder (c : ServerState) : ServerLabel → Bool
  | .run t _ =>
    match c.pending t with
    | some (.storeClientData d) =>
      (c.shared.clientData.find d.clientId).all fun entry =>
        (liveSessions d.clientId c.shared.clock c.shared.store.committed).all fun row =>
          entry.hash ≠ row.tokenHash || d.hash = row.tokenHash
    | _ => true
  | _ => true

theorem LoginsInOrder.of_computed {n : Nat} (hwork : workApart n c l = true)
    (hnone : ∀ t, n ≤ t → c.threads t = none) (hstores : storesInOrder c l = true) :
    LoginsInOrder c l := by
  cases l with
  | run t x =>
    refine ⟨fun _ _ userId _ t' ht' hr => ?_, fun d hpending entry hentry row hrow heq => ?_⟩
    · exact not_mem_of_inWork (inWork_of_workApart hwork hnone ht') hr
    · simp only [storesInOrder, hpending, hentry, Option.all_some, List.all_eq_true] at hstores
      have hrow := hstores row hrow
      simpa [heq] using hrow
  | spawn _ _ => trivial
  | outside _ => trivial

namespace Sample

open Schedule

/-- One account, without a session. -/
def oneAccount : Server := .over { users := [anna] }

def loginPlatform : Platform := .ofTables [(loginText, loginJson)] digests

def twoLogins : List ServerLabel :=
  [frame 1 loginText, frame 2 loginText, .spawn 0 .dispatch, .spawn 1 .dispatch]

/-- The calls of a login up to the insert of its session. -/
def insertSession (t : Nat) (token : Bytes) : List ServerLabel :=
  calls t 9 ++ [generates t token] ++ calls t 4

/-- Its commit. -/
def commitSession (t : Nat) : List ServerLabel := calls t 1

/-- Its `storeClientData`. -/
def storeEntry (t : Nat) : List ServerLabel := calls t 1

end Sample

open Sample Schedule

theorem concurrent_logins_converge_two : ∃ c,
    ReachLogins loginPlatform config (str "anna") oneAccount c ∧
    (storedEntry c 0 = true ∧ storedEntry c 1 = true) ∧
    ∃ row, liveSessions 1 c.shared.clock c.shared.store.committed = [row] ∧
      ∃ entry, c.shared.clientData.find 1 = some entry ∧ entry.hash = row.tokenHash := by
  obtain ⟨c, hreach, hnone, hthread, hclock, hstored⟩ := exists_reach_below loginPlatform config
    oneAccount (P := fun c => (c.threads 0).isSome ∧ c.shared.clock < oneAccount.clock + days 30 ∧
      ∀ t < 2, storedEntry c t = true) 2
    (fun c l (hcheck : (startsLogin (str "anna") c l && workApart 2 c l && storesInOrder c l) =
        true) _ hnone => by
      have hcheck := Bool.and_eq_true_iff.mp hcheck
      have hboth := Bool.and_eq_true_iff.mp hcheck.1
      exact And.intro (LoginsOnly.of_startsLogin hboth.1)
        (LoginsInOrder.of_computed hboth.2 hnone hcheck.2))
    (twoLogins ++ insertSession 0 tokenA ++ commitSession 0 ++ storeEntry 0 ++
      insertSession 1 tokenB ++ commitSession 1 ++ storeEntry 1) (by decide) (by decide +kernel)
  obtain ⟨th, hth⟩ := Option.isSome_iff_exists.mp hthread
  exact ⟨c, hreach, ⟨hstored 0 (by decide), hstored 1 (by decide)⟩,
    concurrent_logins_converge (Server.over_initial rfl) (by decide) hreach hclock ⟨0, th, hth⟩
      (all_stored hnone hstored)⟩

/-- Two ways in which two logins do not converge: both insert before either commits, and
then both sessions are live; or the first stores its entry after the second, which has
revoked its session. -/
theorem concurrent_logins_diverge :
    (∃ c, (loginServer loginPlatform config).Reach (LoginsOnly (str "anna")) oneAccount.boot c ∧
      (∀ t th, c.threads t = some th → ¬ Authenticator.NotStored th.hist) ∧
      (c.threads 0).isSome ∧
      (liveSessions 1 c.shared.clock c.shared.store.committed).length = 2) ∧
    ∃ c, (loginServer loginPlatform config).Reach (LoginsOnly (str "anna")) oneAccount.boot c ∧
      (∀ t th, c.threads t = some th → ¬ Authenticator.NotStored th.hist) ∧
      (c.threads 0).isSome ∧
      (liveSessions 1 c.shared.clock c.shared.store.committed).map (·.tokenHash) = [tokenB] ∧
      (c.shared.clientData.find 1).map (·.hash) = some tokenA := by
  refine ⟨?_, ?_⟩
  · obtain ⟨c, hreach, hnone, hthread, hlive, hstored⟩ := exists_reach_below loginPlatform config
      oneAccount (P := fun c => (c.threads 0).isSome ∧
        (liveSessions 1 c.shared.clock c.shared.store.committed).length = 2 ∧
        ∀ t < 2, storedEntry c t = true) 2
      (fun c l (hcheck : startsLogin (str "anna") c l = true) _ _ =>
        LoginsOnly.of_startsLogin hcheck)
      (twoLogins ++ insertSession 0 tokenA ++ insertSession 1 tokenB ++ commitSession 0 ++
        commitSession 1 ++ storeEntry 0 ++ storeEntry 1) (by decide) (by decide +kernel)
    exact ⟨c, hreach, all_stored hnone hstored, hthread, hlive⟩
  · obtain ⟨c, hreach, hnone, hthread, hlive, hentry, hstored⟩ := exists_reach_below loginPlatform
      config oneAccount (P := fun c => (c.threads 0).isSome ∧
        (liveSessions 1 c.shared.clock c.shared.store.committed).map (·.tokenHash) = [tokenB] ∧
        (c.shared.clientData.find 1).map (·.hash) = some tokenA ∧
        ∀ t < 2, storedEntry c t = true) 2
      (fun c l (hcheck : startsLogin (str "anna") c l = true) _ _ =>
        LoginsOnly.of_startsLogin hcheck)
      (twoLogins ++ insertSession 0 tokenA ++ commitSession 0 ++ insertSession 1 tokenB ++
        commitSession 1 ++ storeEntry 1 ++ storeEntry 0) (by decide) (by decide +kernel)
    exact ⟨c, hreach, all_stored hnone hstored, hthread, hlive, hentry⟩

end LoginServer
