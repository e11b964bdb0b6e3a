import LoginServer.Server.CharacterLimits
import LoginServer.Server.Ownership
import LoginServer.Server.RegisteredAccounts
import LoginServer.Server.SpentTokens
import LoginServer.Server.WrongPasswords

/-!
# Behind every session is a password

A request that names a session is served when the session validates. The session was then
stored by a login or by a registration (`mayStore`), and that task was sent the login and the
password of the account: a login has found the row of the account and compared the password
(`password_of_stored`), a registration has inserted the row.
-/

namespace LoginServer

open Database Interleaving Transactions

variable {p : Platform} {cfg : ServerConfig} {c c' : ServerState} {s₀ : Server}
  {meets : ServerState → ServerLabel → Prop} {job : Job} {event : Event} {h : Hist} {t : Nat}
  {d : ClientDataStruct} {id : Int} {hash : Bytes}

/-! ## Who stores entries -/

/-- The cleanup stores no entry, a registration only that of the account that it has committed,
and only a login searches for users. -/
def mayStore (p : Platform) (job : Job) (h : Hist) : Cmd → Prop
  | .storeClientData d => ∃ event, job = .event event ∧ ∀ reg, event.type = .REGISTER_ACCOUNT →
      event.eventData = .registration reg → PromisedAccount p reg d.clientId h
  | c => c.isLogin = true → job.type = some .AUTH_CLIENT

theorem mayStore_of {c : Cmd} (hstores : c.storesEntry = false)
    (hlogin : c.isLogin = true → job.type = some .AUTH_CLIENT) : mayStore p job h c := by
  cases c with
  | storeClientData d => cases hstores
  | _ => exact hlogin

theorem periodicCleanup_stores_nothing (cleanupIntervalMs : Int) :
    Makes (fun c : Cmd => c.storesEntry = false ∧ c.isLogin = false) True
      (periodicCleanup cleanupIntervalMs) := by
  refine makes_bind (makes_tryCatch ?_ fun _ => makes_pure _) fun _ => ?_
  · refine makes_bind (makes_bind (makes_call (c := .acquire) ⟨rfl, rfl⟩) fun r =>
      makes_orThrow r) fun _ => ?_
    exact makes_withWork ⟨rfl, rfl⟩ ⟨rfl, rfl⟩ (makes_exec ⟨rfl, rfl⟩ fun _ =>
      makes_bind (makes_call (c := .commitWork) ⟨rfl, rfl⟩) fun r => makes_orThrow r)
  · exact makes_bind (makes_call (c := .nowMs) ⟨rfl, rfl⟩) fun now =>
      makes_bind (makes_call (c := .sweepExpiredSessions now _) ⟨rfl, rfl⟩) fun _ => makes_pure _

theorem dispatchEvent_mayStore (p : Platform) (event : Event) :
    ObeysE (mayStore p (.event event)) (fun _ _ => True) (fun _ _ => True) []
      (EventHandler.dispatchEvent p event) := by
  by_cases hreg : ∃ reg, event.type = .REGISTER_ACCOUNT ∧ event.eventData = .registration reg
  · obtain ⟨reg, htype, hdata⟩ := hreg
    have hmay : ∀ (h : Hist) (c : Cmd), c.storesEntry = false → c.isLogin = false →
        mayStore p (.event event) h c := by
      intro h c hstores hlogin
      refine mayStore_of hstores fun hyes => ?_
      rw [hlogin] at hyes
      cases hyes
    rw [EventHandler.dispatchEvent, htype]
    refine (handleRegisterAccountEvent_commits hmay p hdata fun h' d hpromised => ?_).mono
      (fun _ _ _ => trivial) fun _ _ _ => trivial
    refine ⟨event, rfl, fun reg' _ hdata' => ?_⟩
    rw [hdata] at hdata'
    cases hdata'
    exact hpromised
  · refine (EventHandler.dispatchEvent_calls p event).obeysE fun h c hc => ?_
    cases c with
    | storeClientData d =>
      exact ⟨event, rfl, fun reg htype hdata => absurd ⟨reg, htype, hdata⟩ hreg⟩
    | _ => exact fun hlogin => congrArg some (hc.login hlogin)

theorem program_mayStore (p : Platform) (cfg : ServerConfig) (job : Job) :
    Obeys (mayStore p job) (fun _ _ => True) [] ((loginServer p cfg).program job) := by
  cases job with
  | cleanup =>
    refine obeys_task ((periodicCleanup_stores_nothing _).obeysE fun h c hc => ?_)
    refine mayStore_of hc.1 fun hlogin => ?_
    rw [hc.2] at hlogin
    cases hlogin
  | event event => exact obeys_task (dispatchEvent_mayStore p event)

/-- A login that has stored an entry has found the user of the entry and the right password. -/
theorem password_of_stored {data : ClientDataStruct} (hdata : event.eventData = .clientData data)
    (hl : System.Lawful (mayCall (.event event)) h)
    (hcounts : System.Lawful (mayCount p (.event event)) h)
    (hstores : System.Lawful (mayStore p (.event event)) h)
    (hmem : ⟨.storeClientData d, ()⟩ ∈ h) :
    event.type = .AUTH_CLIENT ∧ ∃ row rows,
      ⟨.execPrepared (.searchUser data.login), some (row :: rows)⟩ ∈ h ∧ row.id = d.clientId ∧
      row.password = p.hashPassword data.password := by
  obtain ⟨h₂, h₁, clientVersion, rfl⟩ := commits_of_stored hl hmem
  obtain ⟨-, ⟨-, h', rfl, -⟩, -, ⟨-, hrevokes⟩, -⟩ := hl.of_append
  obtain ⟨row, rows, hsearch, hid⟩ := hrevokes data (Job.request_event.mpr hdata)
  obtain ⟨h₄, h₃, rfl⟩ := List.append_of_mem hsearch
  have htype : event.type = .AUTH_CLIENT := by
    have hlogin : mayStore p (.event event) h₃ (.execPrepared (.searchUser data.login)) :=
      hstores.of_append.2.2.2.2.may_of_append
    exact Option.some.inj (hlogin rfl)
  refine ⟨htype, row, rows, by simp, hid, ?_⟩
  -- after a wrong password nothing but a failure is committed
  by_contra hwrong
  have hcommit : mayCount p (.event event) _ .commitWork := hcounts.may_of_append
  obtain ⟨login', h'', -, heq⟩ := hcommit (upToNul data.login)
    ⟨event, data, row, rows, rfl, htype, hdata, rfl, by simp, hwrong⟩
  cases heq

/-! ## What the searches have found -/

/-- The rows that a search has returned are those of accounts. -/
def SearchesKept (hist : Nat → Hist) (db : Database) : Prop :=
  ∀ (t : Nat) (login : Bytes) (rows : List UserAuthRow),
    ⟨.execPrepared (.searchUser login), some rows⟩ ∈ hist t → ∀ row ∈ rows,
    ∃ u ∈ db.users, u.id = row.id ∧ u.login = upToNul login ∧ u.password = row.password

theorem SearchesKept.retains {hist : Nat → Hist} {db db' : Database} (hI : SearchesKept hist db)
    (h : db.Retains db') : SearchesKept hist db' := by
  intro t login rows hmem row hrow
  obtain ⟨u, hu, hid, hlogin, hpassword⟩ := hI t login rows hmem row hrow
  obtain ⟨u', hu', hkept⟩ := h.users.exists_mem hu
  exact ⟨u', hu', hkept.id.trans hid, hkept.login.trans hlogin, hkept.password.trans hpassword⟩

theorem Ledger.searched {hist : Nat → Hist} {f : SqlFunctions} {x : Choice} {s : Server}
    {store : Database.Store} {login : Bytes} {rows : List UserAuthRow}
    (hledger : Ledger hist s.store) (hl : System.Lawful (mayCall job) (hist t))
    (hjob : job.registration = none)
    (heffect : StoreEffect f t x s (.execPrepared (.searchUser login)) (some rows) store) :
    ∀ row ∈ rows, ∃ u ∈ s.store.committed.users,
      u.id = row.id ∧ u.login = upToNul login ∧ u.password = row.password := by
  intro row hrow
  cases heffect with
  | @statement _ _ ws sequences txn hactive hrun =>
    have hrows : (s.store.view writes t).searchUser txn.start (upToNul login) = rows :=
      congrArg Prod.fst (Option.some.inj hrun)
    rw [← hrows] at hrow
    obtain ⟨u, hu, rfl⟩ := List.mem_map.mp hrow
    obtain ⟨hu, hfound⟩ := List.mem_filter.mp (List.mem_of_mem_take hu)
    simp only [Bool.and_eq_true, decide_eq_true_eq] at hfound
    obtain ⟨u₀, hu₀, hid, hlogin, hpassword⟩ := users_foldl (hledger.not_insertUser hl hjob) hu
    exact ⟨u₀, hu₀, hid, hlogin.trans hfound.1, hpassword⟩
  | keep hkeeps hquery => exact absurd rfl (hquery _ _)

theorem Server.reach_mayStore (h : (loginServer p cfg).Reach meets s₀.boot c) :
    System.AllObedient (mayStore p) (fun _ _ => True) c :=
  System.reach_obedient (program_mayStore p cfg) (fun _ => rfl) h

theorem Server.reach_searches (h₀ : s₀.Initial) (h : (loginServer p cfg).Reach meets s₀.boot c) :
    SearchesKept c.hist c.shared.store.committed := by
  refine Server.reach_callInvariant (I := fun hist store => SearchesKept hist store.committed)
    ?_ ?_ h
  · intro t login rows hmem
    cases hmem
  intro c c' t x job cmd r hreach hI _ hcall
  have heffect := exec_store hcall.exec
  intro t' login rows hmem
  rcases mem_update hmem with hold | ⟨rfl, heq⟩
  · exact (hI.retains heffect.retains) t' login rows hold
  · cases heq
    obtain ⟨k, hthread⟩ := hcall.thread
    have htype : job.type = some .AUTH_CLIENT :=
      (Server.reach_mayStore hreach t' _ hthread).allowed rfl
    have hjob : job.registration = none := by
      cases job with
      | cleanup => rfl
      | event event =>
        cases hdata : event.eventData with
        | clientData data => rw [Job.registration, hdata]
        | registration reg =>
          have hwell := (Server.reach_eventsWellFormed h₀ hreach).jobs t' _ hthread event rfl
          have hother := hwell.payload.mp ⟨reg, hdata⟩
          rw [Job.type, hother] at htype
          cases htype
    have hl := hcall.lawful (Server.reach_obedient hreach)
    intro row hrow
    obtain ⟨u, hu, hid, hlogin, hpassword⟩ :=
      (Server.reach_ledger h₀ hreach).searched hl hjob heffect row hrow
    obtain ⟨u', hu', hkept⟩ := heffect.retains.users.exists_mem hu
    exact ⟨u', hu', hkept.id.trans hid, hkept.login.trans hlogin, hkept.password.trans hpassword⟩

/-! ## The password behind a session -/

theorem Server.reach_validated (h₀ : s₀.Initial) (h : (loginServer p cfg).Reach meets s₀.boot c) :
    ∀ t id hash, ⟨.validateSession id hash, true⟩ ∈ c.hist t → Stored c.hist id hash := by
  refine h.invariant (I := fun c => ∀ t id hash, ⟨.validateSession id hash, true⟩ ∈ c.hist t →
    Stored c.hist id hash) ?_ fun c l c' hreach hI _ hstep => ?_
  · intro t id hash hmem
    cases hmem
  intro t' id hash hmem
  rcases step_cases hstep with ⟨t, x, job, cmd, r, -, hcall⟩ | ⟨hhist, -⟩
  · rw [hcall.hist] at hmem ⊢
    refine Stored.update ?_ t _
    rcases mem_update hmem with hold | ⟨rfl, heq⟩
    · exact hI t' id hash hold
    · cases heq
      obtain ⟨hvalid, -⟩ := Prod.mk.inj (Option.some.inj hcall.exec)
      obtain ⟨-, -, entry, hentry, rfl⟩ := ClientData.validateSession_iff.mp hvalid
      exact Server.reach_entriesStored h₀ hreach id entry hentry
  · rw [hhist] at hmem ⊢
    exact hI t' id hash hmem

/-- The request of the task, a login or a registration, carries this login, up to a NUL, and a
password with this hash. -/
def ShowsPassword (p : Platform) (login passwordHash : Bytes) : Job → Prop
  | .event event =>
    (∃ data, event.type = .AUTH_CLIENT ∧ event.eventData = .clientData data ∧
      upToNul data.login = login ∧ p.hashPassword data.password = passwordHash) ∨
    ∃ reg, event.type = .REGISTER_ACCOUNT ∧ event.eventData = .registration reg ∧
      reg.login = login ∧ p.hashPassword reg.password = passwordHash
  | .cleanup => False

/-- The token was generated by a task that showed the login and the password of the account. -/
def PasswordShown (p : Platform) (c : ServerState) (id : Int) (hash : Bytes) : Prop :=
  ∃ u ∈ c.shared.store.committed.users, u.id = id ∧
    ∃ t th, c.threads t = some th ∧ ShowsPassword p u.login u.password th.job ∧
      ⟨.randomUuid, hash⟩ ∈ th.hist

theorem PromisedAccount.suffix {reg : RegistrationDataStruct} {userId : Int} {h' : Hist}
    (hp : PromisedAccount p reg userId h) (hh : h <:+ h') : PromisedAccount p reg userId h' := by
  obtain ⟨hverbatim, ipStr, hid, ids, hcommitted⟩ := hp
  exact ⟨hverbatim, ipStr, hid, ids, hcommitted.suffix hh⟩

theorem Stored.passwordShown (hstored : Stored c.hist id hash) (h₀ : s₀.Initial)
    (hsha256 : ∀ input, (p.sha256 input).length = 32)
    (h : (loginServer p cfg).Reach meets s₀.boot c) : PasswordShown p c id hash := by
  obtain ⟨t, d, hmem, rfl, rfl⟩ := hstored
  cases hthread : c.threads t with
  | none =>
    rw [Config.hist, hthread] at hmem
    cases hmem
  | some th =>
    rw [Config.hist_of_threads hthread] at hmem
    have hl := (Server.reach_obedient h t th hthread).lawful
    have hstores := (Server.reach_mayStore h t th hthread).lawful
    have hcounts : System.Lawful (mayCount p th.job) th.hist :=
      (System.reach_obedient (program_counts p cfg) (fun _ => rfl) h t th hthread).lawful
    have hgenerated := generated_of_stored hl hmem
    obtain ⟨h₂, h₁, hhist⟩ := List.append_of_mem hmem
    obtain ⟨event, hjob, hpromised⟩ : mayStore p th.job h₁ (.storeClientData d) :=
      (hhist ▸ hstores).may_of_append
    rw [hjob] at hl hstores hcounts
    cases hdata : event.eventData with
    | clientData data =>
      obtain ⟨htype, row, rows, hsearch, hid, hpassword⟩ :=
        password_of_stored hdata hl hcounts hstores hmem
      rw [← Config.hist_of_threads hthread] at hsearch
      obtain ⟨u, hu, hid', hlogin, hpassword'⟩ :=
        Server.reach_searches h₀ h t data.login _ hsearch row List.mem_cons_self
      refine ⟨u, hu, hid'.trans hid, t, th, hthread, ?_, hgenerated⟩
      rw [hjob]
      exact Or.inl ⟨data, htype, hdata, hlogin.symm, (hpassword'.trans hpassword).symm⟩
    | registration reg =>
      have htype : event.type = .REGISTER_ACCOUNT :=
        ((Server.reach_eventsWellFormed h₀ h).jobs t th hthread event hjob).payload.mp ⟨reg, hdata⟩
      have hlater : h₁ <:+ c.hist t := by
        rw [Config.hist_of_threads hthread, hhist]
        exact (List.suffix_cons _ _).trans (List.suffix_append _ _)
      have hlasting := (hpromised reg htype hdata).suffix hlater
      obtain ⟨u, hu, hid, -, hlogin, hpassword, -⟩ := Server.reach_promised h₀ hsha256 h hlasting
      refine ⟨u, hu, hid, t, th, hthread, ?_, hgenerated⟩
      rw [hjob]
      exact Or.inr ⟨reg, htype, hdata, hlogin.symm, hpassword.symm⟩

/-- Nobody touches the data of an account without its password. In every run, the request of a
task that has executed a statement on the characters of an account named that account and a
token, and this token was generated by a task whose own request had carried a password with the
hash of the account and its login, alone or before a NUL. -/
theorem accounts_touched_with_password {th : Thread Job Cmd Cmd.Reply} {q : Query}
    {r : Option q.Rows} {accountId : Int} (h₀ : s₀.Initial)
    (hsha256 : ∀ input, (p.sha256 input).length = 32)
    (h : (loginServer p cfg).Reach meets s₀.boot c) (hthread : c.threads t = some th)
    (hmem : ⟨.execPrepared q, r⟩ ∈ th.hist) (hq : q.account = some accountId) :
    ∃ data, th.job.request = some data ∧ data.clientId = accountId ∧
      PasswordShown p c accountId data.hash := by
  obtain ⟨h₂, h₁, hhist⟩ := List.append_of_mem hmem
  have hl := (Server.reach_obedient h t th hthread).lawful
  rw [hhist] at hl
  obtain ⟨-, hmay⟩ : mayCall th.job h₁ (.execPrepared q) := hl.may_of_append
  obtain ⟨data, hrequest, hid, hvalid⟩ :=
    holdsSession_of_mayExec ((Server.reach_eventsWellFormed h₀ h).jobs t th hthread) hmay hq
  have hvalidated : ⟨.validateSession accountId data.hash, true⟩ ∈ c.hist t := by
    rw [Config.hist_of_threads hthread, hhist]
    exact List.mem_append_right _ (List.mem_cons_of_mem _ hvalid)
  exact ⟨data, hrequest, hid,
    (Server.reach_validated h₀ h t accountId data.hash hvalidated).passwordShown h₀ hsha256 h⟩

namespace Sample

/-- Task 1 has executed a statement on the characters of account 1. -/
def touchesAccount (c : ServerState) : Bool :=
  (c.hist 1).any fun e =>
    match e with
    | ⟨.execPrepared q, _⟩ => q.account = some 1
    | _ => false

end Sample

open Sample Schedule

theorem accounts_touched_with_password_anna : ∃ c th,
    (loginServer creationPlatform config).Reach (fun _ _ => True)
      (Server.over threeCharacters).boot c ∧ c.threads 1 = some th ∧
    ∃ data, th.job.request = some data ∧ data.clientId = 1 ∧
      PasswordShown creationPlatform c 1 data.hash := by
  obtain ⟨c, hreach, htouches⟩ := exists_reach creationPlatform config (.over threeCharacters)
    (P := fun c => touchesAccount c = true)
    ([frame 1 loginText, frame 1 createText, .spawn 0 .dispatch] ++ login 0 tokenA ++
      calls 0 2 ++ [.spawn 1 .dispatch] ++ insertCharacter 1) (by decide +kernel)
  obtain ⟨e, hmem, haccount⟩ := List.any_eq_true.mp htouches
  split at haccount
  · rename_i q r
    cases hthread : c.threads 1 with
    | none =>
      rw [Config.hist, hthread] at hmem
      cases hmem
    | some th =>
      rw [Config.hist_of_threads hthread] at hmem
      exact ⟨c, th, hreach, hthread, accounts_touched_with_password (Server.over_initial rfl)
        length_digests hreach hthread hmem (of_decide_eq_true haccount)⟩
  · cases haccount

end LoginServer
