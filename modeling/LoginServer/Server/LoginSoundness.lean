import LoginServer.Server.LoginOutcome
import LoginServer.Server.Schedule

/-!
# One login

When a successful call of `authenticate` is the login of an account, at whatever point the
database fails (`authenticate_sound_iff`), and what it reports of a locked or inactive account
(`locked_reported_iff`). Both are read off `AuthResult`.

The second transaction of `probeUserStatus` cannot begin while the first is open, so the
probe never learns anything and no call ends with `LOCKED`.
-/

namespace LoginServer

open Database Interleaving

/-! ## The session of a successful login -/

section Session

variable {db db' : Database} {now : Time} {userId : Int} {token clientVersion : Bytes}
  {uuids : List Bytes}

/-- The writes of a statement on sessions insert no session unless it is an insert. -/
theorem noInsert_of_from {ws : List Write} {q : Query}
    (hq : q = .cleanupExpiredSessions ∨ ∃ userId, q = .revokeUserSessions userId)
    (hws : ∀ w ∈ ws, w.From q) : NoInsert ws := by
  intro row hmem
  have hfrom := hws _ hmem
  rcases hq with rfl | ⟨userId, rfl⟩
  · exact hfrom
  · exact hfrom

theorem run_of_createUserSession (f : SqlFunctions) {seq seq' : Sequences} {ws : List Write}
    (htoken : IsUuidText token)
    (h : db.createUserSession now seq userId token (upToNul clientVersion) =
      some ((), ws, seq')) :
    (Query.createUserSession userId token clientVersion).run db now seq f =
      some ((), ws, seq') := by
  simp only [Query.run, upToNul_eq_self.mpr htoken.2]
  exact h

/-- The new session is the only one of the user that is live from then on. -/
theorem SessionOpened.only_live (f : SqlFunctions)
    (hopened : SessionOpened db now userId token clientVersion db')
    (htoken : IsUuidText token) (hfresh : ∀ row ∈ db.userSessions, row.tokenHash ≠ token) :
    ∃ row ∈ db'.userSessions, row.userId = userId ∧ row.tokenHash = token ∧
      row.revokedAt = none ∧ row.createdAt = now ∧ row.expiresAt = now + days 30 ∧
      ∀ time, now ≤ time → ∀ row' ∈ liveSessions userId time db', row' = row := by
  obtain ⟨seq, seq₁, seq₂, seq₃, revokes, deletes, inserts, hrevoke, hdelete, hinsert, rfl⟩ :=
    hopened
  have hnoInsert : NoInsert (revokes ++ deletes) := by
    intro row hmem
    rcases List.mem_append.mp hmem with hmem | hmem
    · exact noInsert_of_from (Or.inr ⟨userId, rfl⟩)
        (from_of_run (f := f) (q := .revokeUserSessions userId) hrevoke) row hmem
    · exact noInsert_of_from (Or.inl rfl)
        (from_of_run (f := f) (q := .cleanupExpiredSessions) hdelete) row hmem
  have hfresh' : ∀ row ∈ ((revokes ++ deletes).foldl applyWrite db).userSessions,
      row.tokenHash ≠ token := by
    intro row hrow
    obtain ⟨row₀, hrow₀, hsame, -⟩ := userSessions_foldl hnoInsert hrow
    exact hsame ▸ hfresh row₀ hrow₀
  obtain ⟨row, rfl, hid, hhash, hrevoked, hcreated, hexpires⟩ :=
    run_createUserSession htoken hfresh' (run_of_createUserSession f htoken hinsert)
  have hlive : ∀ row' ∈ liveSessions userId now db,
      ∃ time, .revokeSession row'.id time ∈ revokes ++ deletes := by
    intro row' hrow'
    cases hrevoke
    exact ⟨now, List.mem_append_left _ (List.mem_map_of_mem hrow')⟩
  have honly := liveSessions_foldl hnoInsert hid hlive
  refine ⟨row, ?_, hid, hhash, hrevoked, hcreated, hexpires, fun time hle row' hrow' => ?_⟩
  · rw [List.foldl_append]
    exact List.mem_append_right _ List.mem_cons_self
  · have hrow' := mem_liveSessions_of_le hrow' hle
    rw [honly] at hrow'
    exact List.mem_singleton.mp (List.mem_filter.mp hrow').1

/-- A new session changes nothing but `user_sessions`. -/
theorem SessionOpened.others (f : SqlFunctions)
    (hopened : SessionOpened db now userId token clientVersion db') (htoken : IsUuidText token) :
    db' = { db with userSessions := db'.userSessions } := by
  obtain ⟨seq, seq₁, seq₂, seq₃, revokes, deletes, inserts, hrevoke, hdelete, hinsert, rfl⟩ :=
    hopened
  refine foldl_of_onSessions (List.forall_mem_append.mpr ⟨List.forall_mem_append.mpr ⟨?_, ?_⟩, ?_⟩)
    db
  · exact onSessions_of_run (f := f) (q := .revokeUserSessions userId) rfl hrevoke
  · exact onSessions_of_run (f := f) (q := .cleanupExpiredSessions) rfl hdelete
  · exact onSessions_of_run (q := .createUserSession userId token clientVersion) rfl
      (run_of_createUserSession f htoken hinsert)

end Session

/-! ## Soundness -/

/-- No ban of the user is in force at `time`. -/
def NotBanned (db : Database) (userId : Int) (time : Time) : Prop :=
  ∀ ban ∈ db.userBans, ban.userId = userId → ban.isActive = true →
    ∃ expiresAt, ban.expiresAt = some expiresAt ∧ expiresAt ≤ time

theorem notBanned_of_checkActiveBan {f : SqlFunctions} {db : Database} {userId : Int}
    {time : Time} (hnone : db.checkActiveBan time f userId = []) : NotBanned db userId time := by
  intro ban hban huser hactive
  have hlength := congrArg List.length hnone
  simp only [checkActiveBan, List.length_map, List.length_take, List.length_insertionSort,
    List.length_nil] at hlength
  have hempty : (db.userBans.filter fun r => r.userId = userId && r.isActive &&
      r.expiresAt.all (fun expiresAt => expiresAt > time)).length = 0 := by omega
  have hexpired := List.filter_eq_nil_iff.mp (List.length_eq_zero_iff.mp hempty) ban hban
  cases hexpires : ban.expiresAt with
  | none => simp [huser, hactive, hexpires] at hexpired
  | some expiresAt => exact ⟨expiresAt, rfl, by simpa [huser, hactive, hexpires] using hexpired⟩

theorem NotBanned.later {db : Database} {userId : Int} {now later : Time}
    (hnot : NotBanned db userId now) (hle : now ≤ later) : NotBanned db userId later := by
  intro ban hban huser hactive
  obtain ⟨expiresAt, hexpires, hpast⟩ := hnot ban hban huser hactive
  exact ⟨expiresAt, hexpires, le_trans hpast hle⟩

theorem checkActiveBan_of_notBanned {f : SqlFunctions} {db db' : Database} {userId : Int}
    {now : Time} (hbans : db'.userBans = db.userBans) (hnot : NotBanned db userId now) :
    db'.checkActiveBan now f userId = [] := by
  have hnone : (db.userBans.filter fun r => r.userId = userId && r.isActive &&
      r.expiresAt.all (fun expiresAt => expiresAt > now)) = [] := by
    refine List.filter_eq_nil_iff.mpr fun ban hban hin => ?_
    simp only [Bool.and_eq_true, decide_eq_true_eq] at hin
    obtain ⟨expiresAt, hexpires, hpast⟩ := hnot ban hban hin.1.1 hin.1.2
    rw [hexpires] at hin
    exact absurd (of_decide_eq_true hin.2) (not_lt.mpr hpast)
  rw [checkActiveBan, hbans, hnone]
  rfl

/-- What holds after a call that has logged `u` in with `session`. The call began in `s`
over the data `db` and has ended in `s'` over `db'`. -/
structure LoggedIn (hashPassword : Bytes → Bytes) (a : LoginAttempt) (s s' : Server)
    (db db' : Database) (u : UserRow) (session : UserSessionRow) : Prop where
  stored : u ∈ db.users
  login : u.login = a.login
  isActive : u.isActive = true
  unlocked : ∀ lockedUntil, u.lockedUntil = some lockedUntil → lockedUntil < s.clock
  password : u.password = hashPassword a.password
  notBanned : ∃ time, s.clock ≤ time ∧ time ≤ s'.clock ∧ NotBanned db u.id time
  session_stored : session ∈ db'.userSessions
  session_user : session.userId = u.id
  session_new : session.tokenHash ∉ s.uuids
  session_revokedAt : session.revokedAt = none
  session_createdAt : s.clock ≤ session.createdAt ∧ session.createdAt ≤ s'.clock
  session_expiresAt : session.expiresAt = session.createdAt + days 30
  session_only : ∀ time, session.createdAt ≤ time →
    ∀ row ∈ liveSessions u.id time db', row = session
  entry : ∃ entry, s'.clientData.find u.id = some entry ∧ entry.hash = session.tokenHash ∧
    entry.role = u.role ∧ entry.password = []
  other_entries : ∀ id, id ≠ u.id → s'.clientData.find id = s.clientData.find id

/-- What holds after a call that has not logged anyone in. -/
structure NotLoggedIn (hashPassword : Bytes → Bytes) (a : LoginAttempt) (s s' : Server)
    (db db' : Database) : Prop where
  clientData : s'.clientData = s.clientData
  userSessions : db'.userSessions = db.userSessions
  /-- A counter is raised only if the password was wrong. -/
  counters : (∃ u ∈ db.users, u.login = a.account ∧ u.password ≠ hashPassword a.password) ∨
    ∃ g : UserRow → UserRow, db'.users = db.users.map g ∧ ∀ u,
      (g u).failedLoginAttempts = u.failedLoginAttempts ∨ (g u).failedLoginAttempts = 0

section Sound

variable {f : SqlFunctions} {hashPassword : Bytes → Bytes} {a : LoginAttempt}
  {db db₁ db' : Database} {clientData clientData' : ClientData} {uuids : List Bytes}
  {mayFail : Prop} {now finish : Time} {o : AuthOutcome} {s s' : Server}

theorem notLoggedIn_of_kept (hclientData : s'.clientData = s.clientData) :
    NotLoggedIn hashPassword a s s' db db := by
  refine ⟨hclientData, rfl, Or.inr ⟨id, by rw [List.map_id], fun u => Or.inl rfl⟩⟩

theorem Accepted.notLoggedIn {row : UserAuthRow} (hacc : Accepted hashPassword a db now row db')
    (hclientData : s'.clientData = s.clientData) : NotLoggedIn hashPassword a s s' db db' := by
  obtain ⟨g, hg, -, rfl, -⟩ := hacc.users
  refine ⟨hclientData, rfl, Or.inr ⟨g, rfl, fun u => ?_⟩⟩
  exact (hg u).counters.imp And.left And.left

theorem AuthResult.notLoggedIn
    (hresult : AuthResult f hashPassword a db clientData uuids mayFail now finish db' clientData' o)
    (hs : s.clientData = clientData) (hs' : s'.clientData = clientData') (ho : o.status ≠ .OK) :
    NotLoggedIn hashPassword a s s' db db' := by
  cases hresult with
  | ok => exact absurd rfl ho
  | wrong hfound _ hwrong hcount =>
    refine ⟨hs'.trans hs.symm, ?_, ?_⟩
    · refine userSessions_foldl_of_none (fun w hw => ?_) db
      have hfrom := from_of_run (f := f) (q := .incrementFailedLogins a.login) hcount w hw
      cases w <;> first | rfl | cases hfrom
    · obtain ⟨u, hu, hlogin, -, rfl⟩ := exists_user_of_searchUser hfound
      exact Or.inl ⟨u, hu, hlogin, hwrong⟩
  | interrupted haccepted => exact haccepted.notLoggedIn (hs'.trans hs.symm)
  | banned haccepted => exact haccepted.notLoggedIn (hs'.trans hs.symm)
  | _ => exact notLoggedIn_of_kept (hs'.trans hs.symm)

theorem AuthResult.loggedIn
    (hresult : AuthResult f hashPassword a db s.clientData s.uuids mayFail s.clock finish db'
      clientData' o) (hs' : s'.clientData = clientData') (hfinish : finish ≤ s'.clock)
    (htokens : ∀ row ∈ db.userSessions, row.tokenHash ∈ s.uuids) (hnul : 0 ∉ a.login)
    (ho : o.status = .OK) :
    ∃ u session, u.id = o.userId ∧ LoggedIn hashPassword a s s' db db' u session := by
  cases hresult with
  | @ok row db₁ _ now₁ _ token nowMs haccepted hnow hban hlater htoken hfresh hsession =>
    obtain ⟨g, hg, -, rfl, -⟩ := haccepted.users
    obtain ⟨rows, hfound⟩ := haccepted.found
    obtain ⟨u, hu, hlogin, hmay, rfl⟩ := exists_user_of_searchUser hfound
    rw [LoginAttempt.account, upToNul_eq_self.mpr hnul] at hlogin
    obtain ⟨session, hstored, huser, hhash, hrevoked, hcreated, hexpires, honly⟩ :=
      hsession.only_live f htoken fun row hrow heq => hfresh (heq ▸ htokens row hrow)
    rw [UserRow.mayLogIn, Bool.and_eq_true] at hmay
    refine ⟨u, session, rfl, hu, hlogin, hmay.1, fun lockedUntil hlocked => ?_,
      haccepted.password, ⟨now₁, hnow, le_trans hlater hfinish, ?_⟩, hstored, huser, ?_, hrevoked,
      ⟨?_, ?_⟩, ?_, ?_, ?_, ?_⟩
    · simpa [hlocked] using hmay.2
    · exact notBanned_of_checkActiveBan (f := f) hban
    · rw [hhash]
      exact hfresh
    · rw [hcreated]
      exact le_trans hnow hlater
    · rw [hcreated]
      exact hfinish
    · rw [hexpires, hcreated]
    · rw [hcreated]
      exact honly
    · refine ⟨{ a.entry ⟨u.id, u.password, some u.role⟩ token with
        lastSeenMs := nowMs, password := [] }, ?_, ?_, rfl, rfl⟩
      · rw [hs', ClientData.find_storeClientData]
        exact if_pos rfl
      · exact hhash.symm
    · intro id hid
      rw [hs', ClientData.find_storeClientData]
      exact if_neg hid
  | _ => cases ho

end Sound

/-- In a run that began in `s` over `db` and has ended in `s'` with `r`, `authenticate` was
sound and all or nothing. -/
def LoginSound (hashPassword : Bytes → Bytes) (a : LoginAttempt) (s s' : Server) (db : Database)
    (r : Except StdException AuthOutcome) : Prop :=
  ∃ o db', r = .ok o ∧ s'.store = .idle db' ∧
    (o.status = .OK → ∃ u session, u.id = o.userId ∧
      LoggedIn hashPassword a s s' db db' u session) ∧
    (o.status ≠ .OK → NotLoggedIn hashPassword a s s' db db')

/-! ## Logins with a NUL -/

/-- The row by which a call that begins at `now` can log in: what comes before the first NUL
of the login finds it, the password is right, the client version fits its column and no ban
lasts for ever. -/
structure CanLogIn (hashPassword : Bytes → Bytes) (a : LoginAttempt) (db : Database) (now : Time)
    (row : UserAuthRow) : Prop where
  found : ∃ rows, db.searchUser now a.account = row :: rows
  id : integer row.id = some row.id
  password : row.password = hashPassword a.password
  version : (varchar 32 (upToNul a.clientVersion)).isSome
  bans : ∀ ban ∈ db.userBans, ban.userId = row.id → ban.isActive = true → ban.expiresAt.isSome

theorem AuthResult.canLogIn {f : SqlFunctions} {hashPassword : Bytes → Bytes} {a : LoginAttempt}
    {db db' : Database} {clientData clientData' : ClientData} {uuids : List Bytes}
    {mayFail : Prop} {now finish : Time} {o : AuthOutcome}
    (hresult : AuthResult f hashPassword a db clientData uuids mayFail now finish db' clientData' o)
    (ho : o.status = .OK) : ∃ row, CanLogIn hashPassword a db now row := by
  cases hresult with
  | ok haccepted hnow hban =>
    obtain ⟨g, -, -, rfl, hversion⟩ := haccepted.users
    refine ⟨_, haccepted.found, haccepted.id, haccepted.password, hversion, ?_⟩
    intro ban hmem huser hactive
    obtain ⟨expiresAt, hexpires, -⟩ := notBanned_of_checkActiveBan hban ban hmem huser hactive
    exact Option.isSome_of_eq_some hexpires
  | _ => cases ho

/-- Bans that end have all ended at some time. -/
theorem exists_notBanned {db : Database} {userId : Int}
    (hbans : ∀ ban ∈ db.userBans, ban.userId = userId → ban.isActive = true →
      ban.expiresAt.isSome) (now : Time) : ∃ later, now ≤ later ∧ NotBanned db userId later := by
  obtain ⟨later, hmax⟩ : ∃ later, (now :: db.userBans.filterMap (·.expiresAt)).max? = some later :=
    ⟨_, List.max?_cons'⟩
  have hlater := List.max?_le_iff hmax |>.mp le_rfl
  refine ⟨later, hlater now List.mem_cons_self, fun ban hban huser hactive => ?_⟩
  obtain ⟨expiresAt, hexpires⟩ := Option.isSome_iff_exists.mp (hbans ban hban huser hactive)
  refine ⟨expiresAt, hexpires, hlater expiresAt (List.mem_cons_of_mem _ ?_)⟩
  exact List.mem_filterMap.mpr ⟨ban, hban, hexpires⟩

section Can

variable {p : Platform} {cfg : ServerConfig} {t : Nat} {a : LoginAttempt} {db : Database}
  {s : Server} {h : Hist} {token : Bytes}

theorem canE_checkActiveBan {userID : Int} (hstore : s.store = .idle db)
    (hnotBanned : NotBanned db userID s.clock)
    {Q : Hist → Server → Option AuthOutcome → Prop}
    (hQ : ∀ h' s', s'.store = .idle db → s'.uuids = s.uuids → Q h' s' none) :
    ((loginServer p cfg).alone t fun _ => True).CanE Q h s
      (Authenticator.checkActiveBan userID) := by
  refine canE_withWork trivial hstore ?_
  have hnone := checkActiveBan_of_notBanned (f := p.toSqlFunctions) rfl hnotBanned
  have hrun : (Query.checkActiveBan userID).run db s.clock s.sequences p.toSqlFunctions =
      some ([], [], s.sequences) := congrArg (fun rows => some (rows, [], s.sequences)) hnone
  refine Machine.canE_bind (canE_execPrepared trivial rfl hrun ?_)
  exact Machine.canE_bind (canE_abortWork trivial rfl (Machine.canE_pure (hQ _ _ rfl rfl)))

theorem canE_createSession {userID : Int} {clientVersion : Bytes} (hstore : s.store = .idle db)
    (huser : ∃ r ∈ db.users, r.id = userID)
    (hversion : (varchar 32 (upToNul clientVersion)).isSome) (htoken : IsUuidText token)
    (hfresh : token ∉ s.uuids) {Q : Hist → Server → Bytes → Prop}
    (hQ : ∀ h' s', Q h' s' token) :
    ((loginServer p cfg).alone t fun _ => True).CanE Q h s
      (Authenticator.createSession userID clientVersion) := by
  refine Machine.canE_bind (canE_randomUuid trivial htoken hfresh ?_)
  refine canE_withWork trivial hstore ?_
  obtain ⟨revokes, hrevoke⟩ : ∃ ws, (Query.revokeUserSessions userID).run db s.clock s.sequences
      p.toSqlFunctions = some ((), ws, s.sequences) := ⟨_, rfl⟩
  refine Machine.canE_bind (canE_execPrepared (q := .revokeUserSessions userID) trivial rfl
    hrevoke ?_)
  obtain ⟨deletes, hdelete⟩ : ∃ ws, Query.cleanupExpiredSessions.run
      (([] ++ revokes).foldl applyWrite db) s.clock s.sequences p.toSqlFunctions =
        some ((), ws, s.sequences) := ⟨_, rfl⟩
  refine Machine.canE_bind (canE_execPrepared (q := .cleanupExpiredSessions) trivial rfl
    hdelete ?_)
  have hws : ∀ w ∈ [] ++ revokes ++ deletes, w.onSessions = true := by
    rw [List.nil_append]
    exact List.forall_mem_append.mpr
      ⟨onSessions_of_run (q := .revokeUserSessions userID) rfl hrevoke,
        onSessions_of_run (q := .cleanupExpiredSessions) rfl hdelete⟩
  have huser : ∃ r ∈ (([] ++ revokes ++ deletes).foldl applyWrite db).users, r.id = userID := by
    rw [foldl_of_onSessions hws]
    exact huser
  have hne : (([] ++ revokes ++ deletes).foldl applyWrite db).createUserSession s.clock s.sequences
      userID token (upToNul clientVersion) ≠ none :=
    createUserSession_ne_none huser htoken hversion
  obtain ⟨⟨_, inserts, seq'⟩, hinsert⟩ := Option.ne_none_iff_exists'.mp hne
  refine Machine.canE_bind (canE_execPrepared (q := .createUserSession _ _ _) trivial rfl
    (run_of_createUserSession p.toSqlFunctions htoken hinsert) ?_)
  exact Machine.canE_bind (canE_commitWork trivial rfl le_rfl (Machine.canE_pure (hQ _ _)))

/-- The account can log in, under whatever login the database reads as its own. -/
theorem authenticate_canE {row : UserAuthRow} (hlogin : CanLogIn p.hashPassword a db s.clock row)
    (hstore : s.store = .idle db) (htoken : IsUuidText token) (hfresh : token ∉ s.uuids) :
    ((loginServer p cfg).alone t fun _ => True).CanE (fun _ _ o => o.status = .OK) h s
      (a.call p.hashPassword) := by
  obtain ⟨rows, hfound⟩ := hlogin.found
  refine Machine.canE_tryCatch (canE_withWork trivial hstore ?_)
  have hsearch : (Query.searchUser a.login).run db s.clock s.sequences p.toSqlFunctions =
      some (row :: rows, [], s.sequences) :=
    congrArg (fun rows => some (rows, [], s.sequences)) hfound
  refine Machine.canE_bind (canE_execPrepared trivial rfl hsearch ?_)
  dsimp only
  rw [asInt, hlogin.id]
  refine Machine.canE_bind (Machine.canE_pure ?_)
  rw [if_neg (not_not.mpr hlogin.password)]
  have hne : db.resetFailedLogins s.clock s.sequences row.id (upToNul a.ipStr)
      (upToNul a.clientVersion) ≠ none := resetFailedLogins_ne_none hlogin.version
  obtain ⟨⟨_, resets, seq'⟩, hreset⟩ := Option.ne_none_iff_exists'.mp hne
  have hresetRun : (Query.resetFailedLogins row.id a.ipStr a.clientVersion).run db s.clock
      s.sequences p.toSqlFunctions = some ((), resets, seq') := hreset
  refine Machine.canE_bind
    (canE_execPrepared (q := .resetFailedLogins _ _ _) trivial rfl hresetRun ?_)
  have haccepted : Accepted p.hashPassword a db s.clock row (resets.foldl applyWrite db) :=
    ⟨hlogin.found, hlogin.id, hlogin.password, _, _, resets, hreset, rfl⟩
  obtain ⟨g, -, -, hresets, -⟩ := haccepted.users
  -- the bans have ended by the time of the ban check
  obtain ⟨later, hlater, hnotBanned⟩ := exists_notBanned hlogin.bans s.clock
  refine Machine.canE_bind (canE_commitWork trivial rfl hlater ?_)
  have hbans : (resets.foldl applyWrite db).userBans = db.userBans := by rw [hresets]
  refine Machine.canE_bind
    (canE_checkActiveBan rfl (fun ban hban => ?_) fun h' s' hidle huuids => ?_)
  · exact hnotBanned ban (hbans ▸ hban)
  refine Machine.canE_bind (canE_createSession hidle haccepted.exists_user hlogin.version htoken
    ?_ fun h' s' => ?_)
  · rw [huuids]
    exact hfresh
  exact Machine.canE_bind (canE_storeClientData trivial (Machine.canE_pure rfl))

end Can

section Sound

variable {p : Platform} {cfg : ServerConfig} {t : Nat} {a : LoginAttempt} {db : Database}
  {s s' : Server} {h' : Hist} {r : Except StdException AuthOutcome}

/-- A run whose login has no NUL, or cannot log in. -/
theorem loginSound_of_runs (hstore : s.store = .idle db)
    (htokens : ∀ row ∈ db.userSessions, row.tokenHash ∈ s.uuids)
    (hlogin : 0 ∉ a.login ∨ ¬ ∃ row, CanLogIn p.hashPassword a db s.clock row)
    (hruns : ((loginServer p cfg).alone t fun _ => True).Runs [] s (a.call p.hashPassword).run
      h' s' r) : LoginSound p.hashPassword a s s' db r := by
  obtain ⟨o, rfl, -, finish, db', clientData', uuids', seq', hs', hresult⟩ :=
    callEnded_of_runs (solo_of_store hstore) hruns
  refine ⟨o, db', rfl, hs'.store_eq, fun ho => ?_, hresult.notLoggedIn rfl hs'.clientData_eq⟩
  have hnul : 0 ∉ a.login := hlogin.resolve_right fun hno => hno (hresult.canLogIn ho)
  exact hresult.loggedIn hs'.clientData_eq hs'.clock htokens hnul ho

/-- `authenticate` is sound and all or nothing, wherever a statement or a commit fails, exactly
if its login has no NUL, or what comes before the NUL is no login of an account that the
password opens. -/
theorem authenticate_sound_iff (p : Platform) (cfg : ServerConfig) (t : Nat) (a : LoginAttempt)
    (db : Database) {s : Server} (hstore : s.store = .idle db)
    (htokens : ∀ row ∈ db.userSessions, row.tokenHash ∈ s.uuids)
    (hlogins : ∀ u ∈ db.users, 0 ∉ u.login)
    (hfresh : ∃ token, IsUuidText token ∧ token ∉ s.uuids) :
    (∀ h' s' r, ((loginServer p cfg).alone t fun _ => True).Runs [] s
        (a.call p.hashPassword).run h' s' r → LoginSound p.hashPassword a s s' db r) ↔
      0 ∉ a.login ∨ ¬ ∃ row, CanLogIn p.hashPassword a db s.clock row := by
  constructor
  · intro hsound
    by_contra hnot
    obtain ⟨hnul, row, hlogin⟩ : 0 ∈ a.login ∧ ∃ row, CanLogIn p.hashPassword a db s.clock row := by
      simpa using hnot
    obtain ⟨token, htoken, hfresh⟩ := hfresh
    obtain ⟨h', s', o, hruns, ho⟩ : ((loginServer p cfg).alone t fun _ => True).CanE
        (fun _ _ o => o.status = .OK) [] s (a.call p.hashPassword) :=
      authenticate_canE hlogin hstore htoken hfresh
    obtain ⟨o', db', heq, -, hok, -⟩ := hsound h' s' _ hruns
    cases heq
    obtain ⟨u, session, -, hlogged⟩ := hok ho
    exact hlogins u hlogged.stored (hlogged.login ▸ hnul)
  · intro hlogin h' s' r hruns
    exact loginSound_of_runs hstore htokens hlogin hruns

end Sound

/-! ## A successful login -/

section Login

open Schedule Sample

def annaPlatform : Platform := .ofTables [] digests

def annaAttempt : LoginAttempt where
  login := str "anna"
  password := str "password1"
  clientIp := str "127.0.0.1"
  clientVersion := str "1.0.0"

/-- The choices of a login: its token comes after seven calls. -/
def tokenChoices (token : Bytes) : List Choice :=
  List.replicate 7 ({} : Choice) ++ [{ uuid := token }]

def endsIn (status : AuthStatus) (r : Except StdException AuthOutcome) : Bool :=
  match r with
  | .ok o => o.status = status
  | .error _ => false

/-- Anna logs in. -/
theorem authenticate_sound_iff_anna : ∃ h' s' o,
    ((loginServer annaPlatform config).alone 0 fun _ => True).Runs []
      (Server.over { users := [anna] }) (annaAttempt.call annaPlatform.hashPassword).run h' s'
      (.ok o) ∧ o.status = .OK ∧
    LoginSound annaPlatform.hashPassword annaAttempt (Server.over { users := [anna] }) s'
      { users := [anna] } (.ok o) := by
  obtain ⟨h', s', r, hruns, hr⟩ := exists_run_alone annaPlatform config 0 (fun _ => True)
    (Server.over { users := [anna] }) (annaAttempt.call annaPlatform.hashPassword)
    (tokenChoices tokenA) (fun _ _ => trivial)
    (P := fun _ _ r => endsIn .OK r = true) (by decide +kernel)
  cases r with
  | error e => cases hr
  | ok o =>
    refine ⟨h', s', o, hruns, of_decide_eq_true hr, ?_⟩
    exact (authenticate_sound_iff annaPlatform config 0 annaAttempt { users := [anna] } rfl
      (fun row hrow => absurd hrow List.not_mem_nil) (by decide) ⟨tokenA, by decide, by decide⟩).mpr
      (Or.inl (by decide)) h' s' _ hruns

/-- Anna's login and one more character, after a NUL. -/
def nulAttempt : LoginAttempt := { annaAttempt with login := str "anna\x00x" }

/-- Anna's password opens her account for a login that no account has. -/
theorem nul_login_accepted : ∃ h' s' o,
    ((loginServer annaPlatform config).alone 0 fun _ => True).Runs []
      (Server.over { users := [anna] }) (nulAttempt.call annaPlatform.hashPassword).run h' s'
      (.ok o) ∧ o.status = .OK ∧
    ¬ LoginSound annaPlatform.hashPassword nulAttempt (Server.over { users := [anna] }) s'
      { users := [anna] } (.ok o) := by
  obtain ⟨h', s', r, hruns, hr⟩ := exists_run_alone annaPlatform config 0 (fun _ => True)
    (Server.over { users := [anna] }) (nulAttempt.call annaPlatform.hashPassword)
    (tokenChoices tokenA) (fun _ _ => trivial)
    (P := fun _ _ r => endsIn .OK r = true) (by decide +kernel)
  cases r with
  | error e => cases hr
  | ok o =>
    have hstatus : o.status = .OK := of_decide_eq_true hr
    refine ⟨h', s', o, hruns, hstatus, ?_⟩
    rintro ⟨o', db', heq, -, hok, -⟩
    cases heq
    obtain ⟨u, session, -, hlogged⟩ := hok hstatus
    obtain rfl := List.mem_singleton.mp hlogged.stored
    exact absurd hlogged.login (by decide)

end Login

/-! ## Locked and inactive accounts -/

/-- The call, and the answer that the handler makes of it. -/
def LoginAttempt.answered (a : LoginAttempt) (hashPassword : Bytes → Bytes)
    (data : ClientDataStruct) : M AuthOutcome := do
  let outcome ← a.call hashPassword
  EventHandler.answerAuthentification data outcome
  return outcome

/-- A row that is inactive or locked at `now`. -/
def LockedOut (u : UserRow) (now : Time) : Prop :=
  u.isActive = false ∨ ∃ lockedUntil, u.lockedUntil = some lockedUntil ∧ now ≤ lockedUntil

theorem lockedOut_iff {u : UserRow} {now : Time} : LockedOut u now ↔ u.mayLogIn now = false := by
  unfold LockedOut UserRow.mayLogIn
  cases u.isActive with
  | false => simp
  | true => cases u.lockedUntil <;> simp

/-- What a call at `now` is to report of an account that may not log in, and to answer to
the client; and what of a login that does not exist. -/
structure ReportsLocked (db : Database) (a : LoginAttempt) (data : ClientDataStruct) (now : Time)
    (h : Hist) (o : AuthOutcome) : Prop where
  locked : (∃ u ∈ db.users, u.login = a.login ∧ LockedOut u now) →
    o.status = .LOCKED ∧ ∃ body, ⟨.sendResponse data.socket (str "error")
      (EventHandler.authError data "ERR_ACCOUNT_LOCKED" body), ()⟩ ∈ h
  unknown : (∀ u ∈ db.users, u.login ≠ a.login) → o.status = .INVALID_CREDENTIALS

/-- The account that the database finds for the login, if any, has another password, an `int`
id, and counters that can be raised. -/
def CountsAsWrong (hashPassword : Bytes → Bytes) (a : LoginAttempt) (db : Database) (now : Time) :
    Prop :=
  ∀ row rows, db.searchUser now a.account = row :: rows →
    integer row.id = some row.id ∧ row.password ≠ hashPassword a.password ∧
    ∀ u ∈ db.users, u.login = a.account → (smallint (u.failedLoginAttempts + 1)).isSome

section Locked

variable {p : Platform} {cfg : ServerConfig} {t : Nat} {allow : Choice → Prop}
  {f : SqlFunctions} {hashPassword : Bytes → Bytes} {a : LoginAttempt}
  {db db' : Database} {clientData clientData' : ClientData} {uuids : List Bytes}
  {now finish : Time} {o : AuthOutcome} {s : Server} {h : Hist}

/-- The handler answers without an exception. -/
theorem satE_answerAuthentification {data : ClientDataStruct} {Q : Prop} (hQ : Q) :
    ((loginServer p cfg).alone t allow).SatE (fun _ _ _ => Q) (fun _ _ _ => False) h s
      (EventHandler.answerAuthentification data o) := by
  unfold EventHandler.answerAuthentification
  split_ifs
  · exact satE_call fun _ _ _ _ _ _ _ => hQ
  · refine Machine.satE_bind.mpr (satE_call fun _ _ _ _ _ _ _ => ?_)
    split <;> exact satE_call fun _ _ _ _ _ _ _ => hQ

theorem incrementFailedLogins_isSome {seq : Sequences} {login : Bytes} :
    (db.incrementFailedLogins now seq login).isSome ↔
      ∀ u ∈ db.users, u.login = login → (smallint (u.failedLoginAttempts + 1)).isSome := by
  simp [incrementFailedLogins, isSome_mapM]

/-- Without failures: no call ends with `LOCKED`, and which ones with `INVALID_CREDENTIALS`. -/
theorem AuthResult.status (hresult : AuthResult f hashPassword a db clientData uuids False now
    finish db' clientData' o) :
    o.status ≠ .LOCKED ∧
      (o.status = .INVALID_CREDENTIALS ↔ CountsAsWrong hashPassword a db now) := by
  have hright : ∀ {row rows}, db.searchUser now a.account = row :: rows →
      row.password = hashPassword a.password → ¬ CountsAsWrong hashPassword a db now :=
    fun hfound heq hwrong => (hwrong _ _ hfound).2.1 heq
  have haccepted : ∀ {row db₁}, Accepted hashPassword a db now row db₁ →
      ¬ CountsAsWrong hashPassword a db now := by
    rintro row db₁ ⟨⟨rows, hfound⟩, -, heq, -⟩
    exact hright hfound heq
  cases hresult with
  | unavailable hmay => exact hmay.elim
  | interrupted _ hmay => exact hmay.elim
  | notFound hnone =>
    refine ⟨by simp, iff_of_true rfl fun row rows hfound => ?_⟩
    rw [hnone] at hfound
    cases hfound
  | idOutOfRange hfound hid =>
    refine ⟨by simp, iff_of_false (by simp) fun hwrong => ?_⟩
    rw [(hwrong _ _ hfound).1] at hid
    cases hid
  | @notCounted row rows seq hfound _ _ hcount =>
    refine ⟨by simp, iff_of_false (by simp) fun hwrong => ?_⟩
    have hsome : (db.incrementFailedLogins now seq a.account).isSome :=
      incrementFailedLogins_isSome.mpr (hwrong _ _ hfound).2.2
    rw [hcount] at hsome
    cases hsome
  | wrong hfound hid hother hcount =>
    refine ⟨by simp, iff_of_true rfl fun row rows hfound' => ?_⟩
    obtain ⟨rfl, -⟩ := List.cons.inj (hfound'.symm.trans hfound)
    exact ⟨hid, hother, incrementFailedLogins_isSome.mp (Option.isSome_of_eq_some hcount)⟩
  | notReset hfound heq => exact ⟨by simp, iff_of_false (by simp) (hright hfound heq)⟩
  | banned hacc => exact ⟨by simp, iff_of_false (by simp) (haccepted hacc)⟩
  | ok hacc => exact ⟨by simp, iff_of_false (by simp) (haccepted hacc)⟩

end Locked

/-- A locked account is reported as the documentation says only when there is none, and a login
that no account has is invalid unless what comes before its first NUL finds an account. -/
theorem locked_reported_iff (p : Platform) (cfg : ServerConfig) (t : Nat) (a : LoginAttempt)
    (data : ClientDataStruct) (db : Database) {s s' : Server} {h' : Hist}
    {r : Except StdException AuthOutcome} (hstore : s.store = .idle db)
    (hruns : ((loginServer p cfg).alone t noFault).Runs [] s
      (a.answered p.hashPassword data).run h' s' r) :
    ∃ o, r = .ok o ∧ (ReportsLocked db a data s.clock h' o ↔
      (∀ u ∈ db.users, u.login = a.login → ¬ LockedOut u s.clock) ∧
      ((∀ u ∈ db.users, u.login ≠ a.login) → CountsAsWrong p.hashPassword a db s.clock)) := by
  have hs := solo_of_store hstore
  have hsat : ((loginServer p cfg).alone t noFault).SatE
      (fun _ _ o => o.status ≠ .LOCKED ∧
        (o.status = .INVALID_CREDENTIALS ↔ CountsAsWrong p.hashPassword a db s.clock))
      (fun _ _ _ => False) [] s (a.answered p.hashPassword data) := by
    refine Machine.satE_bind.mpr ((authenticate_result rfl .nil hs).mono ?_ fun _ _ _ hE => hE)
    rintro h₁ s₁ o ⟨-, finish, db', clientData', -, -, -, hresult⟩
    rw [eq_false not_failsIn_noFault] at hresult
    exact Machine.satE_bind.mpr (satE_answerAuthentification hresult.status)
  have hends := Machine.sat_iff_runs.mp hsat h' s' r hruns
  cases r with
  | error e => exact hends.elim
  | ok o =>
    obtain ⟨hlocked, hinvalid⟩ := hends
    refine ⟨o, rfl, fun hreports => ⟨fun u hu hlogin hout => ?_, fun hnone => ?_⟩, ?_⟩
    · exact hlocked (hreports.locked ⟨u, hu, hlogin, hout⟩).1
    · exact hinvalid.mp (hreports.unknown hnone)
    · rintro ⟨hnone, hwrong⟩
      refine ⟨?_, fun hunknown => hinvalid.mpr (hwrong hunknown)⟩
      rintro ⟨u, hu, hlogin, hout⟩
      exact absurd hout (hnone u hu hlogin)

section Probe

open Schedule Sample

def annaData : ClientDataStruct :=
  { login := str "anna", password := str "password1", clientVersion := str "1.0.0",
    socket := some 1 }

theorem locked_reported_iff_anna : ∃ h' s' o,
    ((loginServer annaPlatform config).alone 0 noFault).Runs [] (Server.over { users := [anna] })
      (annaAttempt.answered annaPlatform.hashPassword annaData).run h' s' (.ok o) ∧
    (ReportsLocked { users := [anna] } annaAttempt annaData 0 h' o ↔
      (∀ u ∈ [anna], u.login = annaAttempt.login → ¬ LockedOut u 0) ∧
      ((∀ u ∈ [anna], u.login ≠ annaAttempt.login) →
        CountsAsWrong annaPlatform.hashPassword annaAttempt { users := [anna] } 0)) := by
  obtain ⟨h', s', r, hruns, hr⟩ := exists_run_alone annaPlatform config 0 noFault
    (Server.over { users := [anna] }) (annaAttempt.answered annaPlatform.hashPassword annaData)
    (tokenChoices tokenA) (by simp [noFault, tokenChoices])
    (P := fun _ _ r => endsIn .OK r = true) (by decide +kernel)
  obtain ⟨o, rfl, hiff⟩ := locked_reported_iff annaPlatform config 0 annaAttempt annaData
    { users := [anna] } rfl hruns
  exact ⟨h', s', o, hruns, hiff⟩

/-- Anna, until the time 1. -/
def lockedAnna : UserRow := { anna with lockedUntil := some 1 }

/-- The probe fails, and a locked account is answered as if the password were wrong. -/
theorem locked_account_not_reported : ∃ h' s' o,
    ((loginServer annaPlatform config).alone 0 noFault).Runs []
      (Server.over { users := [lockedAnna] })
      (annaAttempt.answered annaPlatform.hashPassword annaData).run h' s' (.ok o) ∧
    o.status = .INVALID_CREDENTIALS ∧
    ¬ ReportsLocked { users := [lockedAnna] } annaAttempt annaData 0 h' o := by
  obtain ⟨h', s', r, hruns, hr⟩ := exists_run_alone annaPlatform config 0 noFault
    (Server.over { users := [lockedAnna] })
    (annaAttempt.answered annaPlatform.hashPassword annaData) [] (by simp [noFault])
    (P := fun _ _ r => endsIn .INVALID_CREDENTIALS r = true) (by decide +kernel)
  cases r with
  | error e => cases hr
  | ok o =>
    have hstatus : o.status = .INVALID_CREDENTIALS := of_decide_eq_true hr
    refine ⟨h', s', o, hruns, hstatus, fun hreports => ?_⟩
    have hout : LockedOut lockedAnna 0 := Or.inr ⟨1, rfl, by decide⟩
    have hlocked := (hreports.locked ⟨lockedAnna, List.mem_cons_self, rfl, hout⟩).1
    rw [hstatus] at hlocked
    cases hlocked

end Probe

end LoginServer
