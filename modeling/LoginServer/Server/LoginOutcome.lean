import LoginServer.Database.UserSessions
import LoginServer.Server.Alone
import LoginServer.Server.Schedule

/-!
# What one call of `authenticate` can come to

`AuthResult` lists the ways in which a call can end, with the data and the session store
that it leaves: the environment fails, the login is not found, the password is wrong, the
account is banned, or a session is opened. `authenticate_result` runs the program through
its transactions once; everything about single calls and about runs of calls is derived
from the list.
-/

namespace LoginServer

open Database Interleaving

/-- What `authenticate` is called with. -/
structure LoginAttempt where
  login : Bytes
  password : Bytes
  clientIp : Bytes
  clientVersion : Bytes

namespace LoginAttempt

/-- The call of `authenticate`. -/
def call (a : LoginAttempt) (hashPassword : Bytes → Bytes) : M AuthOutcome :=
  Authenticator.authenticate hashPassword a.login a.password a.clientIp a.clientVersion

/-- The login by which the database looks for the account. -/
def account (a : LoginAttempt) : Bytes := upToNul a.login

def ipStr (a : LoginAttempt) : Bytes :=
  if a.clientIp.isEmpty then str "127.0.0.1" else a.clientIp

end LoginAttempt

/-- The password of the found account was right, and the data after the reset. -/
structure Accepted (hashPassword : Bytes → Bytes) (a : LoginAttempt) (db : Database) (now : Time)
    (row : UserAuthRow) (db' : Database) : Prop where
  found : ∃ rows, db.searchUser now a.account = row :: rows
  id : integer row.id = some row.id
  password : row.password = hashPassword a.password
  reset : ∃ seq seq' ws,
    db.resetFailedLogins now seq row.id (upToNul a.ipStr) (upToNul a.clientVersion) =
      some ((), ws, seq') ∧
    db' = ws.foldl applyWrite db

/-- The transaction of `createSession`, statement by statement. -/
structure SessionOpened (db : Database) (now : Time) (userId : Int)
    (tokenHash clientVersion : Bytes) (db' : Database) : Prop where
  statements : ∃ seq seq₁ seq₂ seq₃ revokes deletes inserts,
    db.revokeUserSessions now seq userId = some ((), revokes, seq₁) ∧
    (revokes.foldl applyWrite db).cleanupExpiredSessions now seq₁ = some ((), deletes, seq₂) ∧
    ((revokes ++ deletes).foldl applyWrite db).createUserSession now seq₂ userId tokenHash
      (upToNul clientVersion) = some ((), inserts, seq₃) ∧
    db' = (revokes ++ deletes ++ inserts).foldl applyWrite db

/-- The entry that a successful login stores. -/
def LoginAttempt.entry (a : LoginAttempt) (row : UserAuthRow) (token : Bytes) :
    ClientDataStruct where
  clientId := row.id
  login := a.login
  hash := token
  role := row.role.getD 0
  clientVersion := a.clientVersion

/-- The end of a call that began at `now`: the time of its last transaction, the data, the
session store, the outcome. -/
inductive AuthResult (f : SqlFunctions) (hashPassword : Bytes → Bytes) (a : LoginAttempt)
    (db : Database) (clientData : ClientData) (uuids : List Bytes) (mayFail : Prop) (now : Time) :
    Time → Database → ClientData → AuthOutcome → Prop where
  | unavailable (hmay : mayFail) :
    AuthResult f hashPassword a db clientData uuids mayFail now now db clientData
      { status := .DB_ERROR, userId := 0 }
  | notFound (hnone : db.searchUser now a.account = []) :
    AuthResult f hashPassword a db clientData uuids mayFail now now db clientData
      { status := .INVALID_CREDENTIALS, userId := 0 }
  | idOutOfRange {row : UserAuthRow} {rows : List UserAuthRow}
    (hfound : db.searchUser now a.account = row :: rows) (hid : integer row.id = none) :
    AuthResult f hashPassword a db clientData uuids mayFail now now db clientData
      { status := .DB_ERROR, userId := 0 }
  | notCounted {row : UserAuthRow} {rows : List UserAuthRow} {seq : Sequences}
    (hfound : db.searchUser now a.account = row :: rows) (hid : integer row.id = some row.id)
    (hwrong : row.password ≠ hashPassword a.password)
    (hcount : db.incrementFailedLogins now seq a.account = none) :
    AuthResult f hashPassword a db clientData uuids mayFail now now db clientData
      { status := .DB_ERROR, userId := 0 }
  | wrong {row : UserAuthRow} {rows : List UserAuthRow} {seq seq' : Sequences} {ws : List Write}
    (hfound : db.searchUser now a.account = row :: rows) (hid : integer row.id = some row.id)
    (hwrong : row.password ≠ hashPassword a.password)
    (hcount : db.incrementFailedLogins now seq a.account = some ((), ws, seq')) :
    AuthResult f hashPassword a db clientData uuids mayFail now now
      (ws.foldl applyWrite db) clientData
      { status := .INVALID_CREDENTIALS, userId := 0 }
  | notReset {row : UserAuthRow} {rows : List UserAuthRow} {seq : Sequences}
    (hfound : db.searchUser now a.account = row :: rows)
    (hright : row.password = hashPassword a.password)
    (hreset :
      db.resetFailedLogins now seq row.id (upToNul a.ipStr) (upToNul a.clientVersion) = none) :
    AuthResult f hashPassword a db clientData uuids mayFail now now db clientData
      { status := .DB_ERROR, userId := 0 }
  | interrupted {row : UserAuthRow} {db₁ : Database}
    (haccepted : Accepted hashPassword a db now row db₁) (hmay : mayFail) :
    AuthResult f hashPassword a db clientData uuids mayFail now now db₁ clientData
      { status := .DB_ERROR, userId := 0 }
  | banned {row : UserAuthRow} {db₁ : Database} {now₁ : Time} {ban : Bytes × Bytes}
    {bans : List (Bytes × Bytes)} (haccepted : Accepted hashPassword a db now row db₁)
    (hnow : now ≤ now₁) (hban : db₁.checkActiveBan now₁ f row.id = ban :: bans) :
    AuthResult f hashPassword a db clientData uuids mayFail now now₁ db₁ clientData
      { status := .BANNED, userId := 0, banReason := ban.1, banExpiresAt := ban.2 }
  | ok {row : UserAuthRow} {db₁ db₂ : Database} {now₁ now₂ : Time} {token : Bytes} {nowMs : Int}
    (haccepted : Accepted hashPassword a db now row db₁) (hnow : now ≤ now₁)
    (hban : db₁.checkActiveBan now₁ f row.id = []) (hlater : now₁ ≤ now₂)
    (htoken : IsUuidText token) (hfresh : token ∉ uuids)
    (hsession : SessionOpened db₁ now₂ row.id token a.clientVersion db₂) :
    AuthResult f hashPassword a db clientData uuids mayFail now now₂ db₂
      (clientData.storeClientData (a.entry row token) nowMs)
      { status := .OK, userId := row.id }

/-! ## What the search has returned -/

def Cmd.isSearch : Cmd → Bool
  | .execPrepared (.searchUser _) => true
  | _ => false

/-- The searches so far were for `login` and have found `rows`, and if `done` there was
one. -/
structure SearchSaw (login : Bytes) (rows : List UserAuthRow) (done : Prop) (h : Hist) : Prop where
  saw : ∀ login' rows', ⟨.execPrepared (.searchUser login'), some rows'⟩ ∈ h →
    login' = login ∧ rows' = rows
  searched : done → ⟨.execPrepared (.searchUser login), some rows⟩ ∈ h

section Search

variable {login : Bytes} {rows : List UserAuthRow} {done done' : Prop} {h : Hist}

theorem SearchSaw.nil : SearchSaw login rows False [] :=
  ⟨fun _ _ hmem => absurd hmem List.not_mem_nil, False.elim⟩

theorem SearchSaw.weaken (hsaw : SearchSaw login rows done h) (hdone : done' → done) :
    SearchSaw login rows done' h :=
  ⟨hsaw.saw, fun hd => hsaw.searched (hdone hd)⟩

theorem SearchSaw.cons (hsaw : SearchSaw login rows done h) {c : Cmd} (hc : c.isSearch = false)
    (r : c.Reply) : SearchSaw login rows done (⟨c, r⟩ :: h) := by
  refine ⟨fun login' rows' hmem => ?_, fun hdone => List.mem_cons_of_mem _ (hsaw.searched hdone)⟩
  rcases List.mem_cons.mp hmem with heq | hmem
  · cases heq
    cases hc
  · exact hsaw.saw login' rows' hmem

theorem SearchSaw.failed (hsaw : SearchSaw login rows done h) (q : Query) :
    SearchSaw login rows done (⟨.execPrepared q, none⟩ :: h) := by
  refine ⟨fun login' rows' hmem => ?_, fun hdone => List.mem_cons_of_mem _ (hsaw.searched hdone)⟩
  rcases List.mem_cons.mp hmem with heq | hmem
  · cases heq
  · exact hsaw.saw login' rows' hmem

theorem SearchSaw.search (hsaw : SearchSaw login rows done h) :
    SearchSaw login rows done' (⟨.execPrepared (.searchUser login), some rows⟩ :: h) := by
  refine ⟨fun login' rows' hmem => ?_, fun _ => List.mem_cons_self⟩
  rcases List.mem_cons.mp hmem with heq | hmem
  · cases heq
    exact ⟨rfl, rfl⟩
  · exact hsaw.saw login' rows' hmem

end Search

/-! ## The parts of the call -/

section Parts

variable {p : Platform} {cfg : ServerConfig} {t : Nat} {allow : Choice → Prop}
  {clientData : ClientData} {uuids : List Bytes} {sequences : Sequences} {now start : Time}
  {db : Database} {log : List Write} {s : Server} {h : Hist} {login : Bytes}
  {found : List UserAuthRow} {done : Prop}

/-- The probe asks for a second transaction while the first is open. -/
theorem probeUserStatus_result {E : Hist → Server → StdException → Prop} (login' : Bytes)
    {Q : Hist → Server → AuthStatus → Prop} (hsaw : SearchSaw login found done h)
    (hs : Solo s (.alone writes db t start log) clientData uuids sequences now)
    (hQ : ∀ h' s', SearchSaw login found done h' →
      Solo s' (.alone writes db t start log) clientData uuids sequences now →
      Q h' s' .INVALID_CREDENTIALS) :
    ((loginServer p cfg).alone t allow).SatE Q E h s (Authenticator.probeUserStatus login') := by
  refine Machine.satE_tryCatch.mpr (Machine.satE_bind.mpr (satE_beginWork_nested hs ?_))
  intro s' hs'
  exact Machine.satE_pure.mpr (hQ _ s' (hsaw.cons rfl _) hs')

theorem checkActiveBan_result {E : Hist → Server → StdException → Prop} (userID : Int)
    {Q : Hist → Server → Option AuthOutcome → Prop} (hsaw : SearchSaw login found done h)
    (hs : Solo s (.idle db) clientData uuids sequences now)
    (hnone : ∀ h' s', SearchSaw login found done h' →
      db.checkActiveBan s.clock p.toSqlFunctions userID = [] →
      Solo s' (.idle db) clientData uuids sequences s.clock → Q h' s' none)
    (hban : ∀ h' s' ban bans, SearchSaw login found done h' →
      db.checkActiveBan s.clock p.toSqlFunctions userID = ban :: bans →
      Solo s' (.idle db) clientData uuids sequences s.clock →
      Q h' s' (some { status := .BANNED, userId := 0, banReason := ban.1, banExpiresAt := ban.2 }))
    (hfail : ∀ h' s' seq', SearchSaw login found done h' → FailsIn allow →
      Solo s' (.idle db) clientData uuids seq' s.clock → E h' s' ()) :
    ((loginServer p cfg).alone t allow).SatE Q E h s (Authenticator.checkActiveBan userID) := by
  have hsaw₁ : SearchSaw login found done (⟨.beginWork, some ()⟩ :: h) := hsaw.cons rfl _
  refine satE_withWork hs (fun s' hmay hs' => hfail _ s' _ (hsaw.cons rfl _) hmay hs')
    fun s₁ hs₁ => ?_
  refine Machine.satE_bind.mpr (satE_execPrepared hs₁ (fun rows ws seq' s₂ hrun hs₂ => ?_) ?_)
  · cases hrun
    refine Machine.satE_bind.mpr (satE_abortWork hs₂ fun s₃ hs₃ => ?_)
    have hsaw₃ : ∀ rows, SearchSaw login found done (⟨.abortWork, ()⟩ ::
        ⟨.execPrepared (.checkActiveBan userID), some rows⟩ :: ⟨.beginWork, some ()⟩ :: h) :=
      fun rows => (hsaw₁.cons rfl _).cons rfl _
    cases hrows : db.checkActiveBan s.clock p.toSqlFunctions userID with
    | nil =>
      simp only [List.foldl_nil, hrows]
      exact Machine.satE_pure.mpr (hnone _ s₃ (hsaw₃ _) hrows hs₃)
    | cons ban bans =>
      simp only [List.foldl_nil, hrows]
      exact Machine.satE_pure.mpr (hban _ s₃ ban bans (hsaw₃ _) hrows hs₃)
  · rintro s₂ (hmay | hrun) hs₂
    · refine ⟨db, clientData, uuids, hs₂.within_alone, fun seq' s₃ hs₃ => ?_⟩
      exact hfail _ s₃ seq' ((hsaw₁.cons rfl _).cons rfl _) hmay hs₃
    · cases hrun

/-- The statements of a session do not fail for a user that exists. -/
theorem createUserSession_ne_none {userId : Int} {tokenHash clientVersion : Bytes}
    (huser : ∃ r ∈ db.users, r.id = userId) (htoken : IsUuidText tokenHash)
    (hversion : (varchar 32 clientVersion).isSome) :
    db.createUserSession now sequences userId tokenHash clientVersion ≠ none := by
  obtain ⟨version, hversion⟩ := Option.isSome_iff_exists.mp hversion
  have hany : (db.users.any fun r => decide (r.id = userId)) = true := by
    obtain ⟨r, hr, hid⟩ := huser
    exact List.any_eq_true.mpr ⟨r, hr, decide_eq_true hid⟩
  unfold createUserSession
  rw [varchar_of_length_le (n := 255) (by omega), hversion]
  dsimp only
  rw [if_pos hany]
  split_ifs
  · simp
  · simp

/-- The statements on sessions. -/
def Database.Query.onSessions : Query → Bool
  | .revokeUserSessions _ | .cleanupExpiredSessions | .createUserSession _ _ _ => true
  | _ => false

theorem onSessions_of_from {q : Query} (hq : q.onSessions = true) {w : Write} (hw : w.From q) :
    w.onSessions = true := by
  cases q with
  | revokeUserSessions userId => cases w <;> first | rfl | cases hw
  | cleanupExpiredSessions => cases w <;> first | rfl | cases hw
  | createUserSession userId tokenHash clientVersion => cases w <;> first | rfl | cases hw
  | _ => cases hq

theorem onSessions_of_run {f : SqlFunctions} {q : Query} (hq : q.onSessions = true)
    {db : Database} {seq seq' : Sequences} {rows : q.Rows} {ws : List Write}
    (h : q.run db now seq f = some (rows, ws, seq')) : ∀ w ∈ ws, w.onSessions = true :=
  fun w hw => onSessions_of_from hq (from_of_run h w hw)

theorem createSession_result {userID : Int} {clientVersion : Bytes}
    {E : Hist → Server → StdException → Prop} {Q : Hist → Server → Bytes → Prop}
    (hsaw : SearchSaw login found done h) (hs : Solo s (.idle db) clientData uuids sequences now)
    (huser : ∃ r ∈ db.users, r.id = userID)
    (hversion : (varchar 32 (upToNul clientVersion)).isSome)
    (hok : ∀ h' s' db' token seq' now', SearchSaw login found done h' → now ≤ now' →
      IsUuidText token → token ∉ uuids →
      SessionOpened db now' userID token clientVersion db' →
      Solo s' (.idle db') clientData (token :: uuids) seq' now' → Q h' s' token)
    (hfail : ∀ h' s' uuids' seq', SearchSaw login found done h' → FailsIn allow →
      Solo s' (.idle db) clientData uuids' seq' now → E h' s' ()) :
    ((loginServer p cfg).alone t allow).SatE Q E h s
      (Authenticator.createSession userID clientVersion) := by
  refine Machine.satE_bind.mpr (satE_randomUuid hs fun token s₁ htoken hfresh hs₁ => ?_)
  have hsaw₁ : SearchSaw login found done (⟨.beginWork, some ()⟩ :: ⟨.randomUuid, token⟩ :: h) :=
    (hsaw.cons rfl _).cons rfl _
  have hle : now ≤ s₁.clock := hs₁.clock
  have hlow : ∀ {s' : Server} {db' seq'}, Solo s' (.idle db') clientData (token :: uuids) seq'
      s₁.clock → Solo s' (.idle db') clientData (token :: uuids) seq' now :=
    fun hs' => ⟨hs'.1, hs'.2, hs'.3, hs'.4, le_trans hle hs'.5⟩
  refine satE_withWork hs₁
    (fun s' hmay hs' => hfail _ s' _ _ ((hsaw.cons rfl _).cons rfl _) hmay (hlow hs'))
    fun s₂ hs₂ => ?_
  have hundo : ∀ {h' : Hist} {s' : Server} {log seq'}, FailsIn allow →
      SearchSaw login found done h' →
      Solo s' (.alone writes db t s₁.clock log) clientData (token :: uuids) seq' s₁.clock →
      ∃ db' clientData' uuids', SoloWithin t s' db' clientData' uuids' s₁.clock ∧
        ∀ seq'' s'', Solo s'' (.idle db') clientData' uuids' seq'' s₁.clock →
          E (⟨.unwindWork, ()⟩ :: h') s'' () := by
    intro h' s' log seq' hmay hsaw' hs'
    refine ⟨db, clientData, _, hs'.within_alone, fun seq'' s'' hs'' => ?_⟩
    exact hfail _ s'' _ seq'' (hsaw'.cons rfl _) hmay (hlow hs'')
  refine Machine.satE_bind.mpr (satE_execPrepared hs₂ (fun _ revokes seq₁ s₃ hrevoke hs₃ => ?_) ?_)
  swap
  · rintro s' (hmay | hrun) hs'
    · exact hundo hmay (hsaw₁.cons rfl _) hs'
    · cases hrun
  refine Machine.satE_bind.mpr (satE_execPrepared hs₃ (fun _ deletes seq₂ s₄ hcleanup hs₄ => ?_) ?_)
  swap
  · rintro s' (hmay | hrun) hs'
    · exact hundo hmay ((hsaw₁.cons rfl _).cons rfl _) hs'
    · cases hrun
  refine Machine.satE_bind.mpr (satE_execPrepared hs₄ (fun _ inserts seq₃ s₅ hinsert hs₅ => ?_) ?_)
  swap
  · rintro s' (hmay | hrun) hs'
    · exact hundo hmay (((hsaw₁.cons rfl _).cons rfl _).cons rfl _) hs'
    · simp only [Query.run, upToNul_eq_self.mpr htoken.2] at hrun
      refine absurd hrun (createUserSession_ne_none ?_ htoken hversion)
      have hws : ∀ w ∈ revokes ++ deletes, w.onSessions = true := List.forall_mem_append.mpr
        ⟨onSessions_of_run (q := .revokeUserSessions userID) rfl hrevoke,
          onSessions_of_run (q := .cleanupExpiredSessions) rfl hcleanup⟩
      rw [List.nil_append, foldl_of_onSessions hws]
      exact huser
  refine Machine.satE_bind.mpr (satE_commitWork hs₅ (fun s₆ hs₆ => ?_) ?_)
  · refine Machine.satE_pure.mpr (hok _ s₆ _ token seq₃ s₁.clock ?_ hle htoken hfresh ?_ hs₆)
    · exact (((hsaw₁.cons rfl _).cons rfl _).cons rfl _).cons rfl _
    · refine ⟨sequences, seq₁, seq₂, seq₃, revokes, deletes, inserts, hrevoke, hcleanup, ?_, rfl⟩
      simp only [Query.run, upToNul_eq_self.mpr htoken.2] at hinsert
      exact hinsert
  · intro s' hmay hs'
    refine ⟨db, clientData, _, hs'.within_idle, fun seq'' s'' hs'' => ?_⟩
    exact hfail _ s'' _ seq'' (((((hsaw₁.cons rfl _).cons rfl _).cons rfl _).cons rfl _).cons rfl _)
      hmay (hlow hs'')

/-- The user that the search returned is one of the table. -/
theorem exists_user_of_searchUser {row : UserAuthRow} {rows : List UserAuthRow}
    (hfound : db.searchUser now login = row :: rows) :
    ∃ r ∈ db.users, r.login = login ∧ r.mayLogIn now = true ∧
      row = ⟨r.id, r.password, some r.role⟩ := by
  have hmem : row ∈ db.searchUser now login := by
    rw [hfound]
    exact List.mem_cons_self
  obtain ⟨r, hr, rfl⟩ := List.mem_map.mp hmem
  obtain ⟨hr, hmatches⟩ := List.mem_filter.mp (List.mem_of_mem_take hr)
  rw [Bool.and_eq_true, decide_eq_true_eq] at hmatches
  exact ⟨r, hr, hmatches.1, hmatches.2, rfl⟩

/-- What the reset writes. -/
theorem resetFailedLogins_eq_some {seq seq' : Sequences} {userId : Int} {ip clientVersion : Bytes}
    {ws : List Write} (huser : ∃ r ∈ db.users, r.id = userId)
    (hreset : db.resetFailedLogins now seq userId ip clientVersion = some ((), ws, seq')) :
    ∃ version, varchar 32 clientVersion = some version ∧
      ws = (db.users.filter fun r => r.id = userId).map fun r =>
        Write.resetFailedLogins r.id now ip version := by
  obtain ⟨ws', hws, heq⟩ := Option.map_eq_some_iff.mp hreset
  cases heq
  cases hversion : varchar 32 clientVersion with
  | some version =>
    refine ⟨version, rfl, ?_⟩
    rw [hversion] at hws
    simp only [Option.map_some] at hws
    exact Option.some.inj (hws.symm.trans (List.mapM_pure ..))
  | none =>
    obtain ⟨r, hr, hid⟩ := huser
    have hmem : r ∈ db.users.filter fun r => r.id = userId :=
      List.mem_filter.mpr ⟨hr, decide_eq_true hid⟩
    obtain ⟨first, rest, hcons⟩ := List.exists_cons_of_ne_nil (List.ne_nil_of_mem hmem)
    rw [hversion, hcons] at hws
    simp at hws

/-- The reset fails only on a version that the column does not hold. -/
theorem resetFailedLogins_ne_none {db : Database} {now : Time} {seq : Sequences} {userId : Int}
    {ip clientVersion : Bytes} (hversion : (varchar 32 clientVersion).isSome) :
    db.resetFailedLogins now seq userId ip clientVersion ≠ none := by
  obtain ⟨version, hversion⟩ := Option.isSome_iff_exists.mp hversion
  unfold resetFailedLogins
  rw [hversion]
  simp only [Option.map_some]
  intro hnone
  have hsome : ∀ rows : List UserRow, (rows.mapM fun r =>
      some (Write.resetFailedLogins r.id now ip version)) =
        some (rows.map fun r => Write.resetFailedLogins r.id now ip version) :=
    fun rows => List.mapM_pure ..
  rw [hsome] at hnone
  cases hnone

/-! ## What a reset leaves -/

/-- A row of `users` before and after the counters have been reset, there or elsewhere. -/
structure ResetRow (r r' : UserRow) : Prop where
  id : r'.id = r.id
  login : r'.login = r.login
  counters : (r'.failedLoginAttempts = r.failedLoginAttempts ∧ r'.lockedUntil = r.lockedUntil) ∨
    (r'.failedLoginAttempts = 0 ∧ r'.lockedUntil = none)

theorem ResetRow.trans {r₁ r₂ r₃ : UserRow} (h : ResetRow r₁ r₂) (h' : ResetRow r₂ r₃) :
    ResetRow r₁ r₃ := by
  refine ⟨h'.id.trans h.id, h'.login.trans h.login, ?_⟩
  rcases h'.counters with ⟨hattempts, hlocked⟩ | hreset
  · rw [hattempts, hlocked]
    exact h.counters
  · exact Or.inr hreset

/-- Resetting changes rows of `users` in place, those with the ids and nothing else. -/
theorem foldl_resetFailedLogins (db : Database) (now : Time) (ip version : Bytes)
    (userIds : List Int) :
    ∃ g : UserRow → UserRow, (∀ r, ResetRow r (g r)) ∧
      (∀ r, r.id ∈ userIds → (g r).failedLoginAttempts = 0 ∧ (g r).lockedUntil = none) ∧
      (userIds.map fun id => Write.resetFailedLogins id now ip version).foldl applyWrite db =
        { db with users := db.users.map g } := by
  induction userIds generalizing db with
  | nil =>
    refine ⟨id, fun r => ⟨rfl, rfl, Or.inl ⟨rfl, rfl⟩⟩, fun r hr => absurd hr List.not_mem_nil, ?_⟩
    rw [List.map_id]
    rfl
  | cons userId userIds ih =>
    obtain ⟨g, hg, hreset, heq⟩ := ih (applyWrite db (.resetFailedLogins userId now ip version))
    refine ⟨fun r => g (if decide (r.id = userId) = true then { r with
      failedLoginAttempts := 0, lockedUntil := none, lastLogin := now,
      lastLoginIp := some ip, clientVersion := some version } else r), fun r => ?_, fun r hr => ?_,
      ?_⟩
    · refine ResetRow.trans ?_ (hg _)
      split_ifs
      · exact ⟨rfl, rfl, Or.inr ⟨rfl, rfl⟩⟩
      · exact ⟨rfl, rfl, Or.inl ⟨rfl, rfl⟩⟩
    · beta_reduce
      by_cases hid : r.id = userId
      · rw [if_pos (decide_eq_true hid)]
        rcases (hg _).counters with hkept | hreset
        · exact hkept
        · exact hreset
      · rw [if_neg (by simpa using hid)]
        exact hreset r ((List.mem_cons.mp hr).resolve_left hid)
    · rw [List.map_cons, List.foldl_cons, heq]
      simp only [applyWrite, updateUser, updateWhere, List.map_map]
      rfl

theorem Accepted.users {hashPassword : Bytes → Bytes} {a : LoginAttempt} {row : UserAuthRow}
    {db' : Database} (hacc : Accepted hashPassword a db now row db') :
    ∃ g : UserRow → UserRow, (∀ r, ResetRow r (g r)) ∧
      (∀ r ∈ db.users, r.id = row.id →
        (g r).failedLoginAttempts = 0 ∧ (g r).lockedUntil = none) ∧
      db' = { db with users := db.users.map g } ∧
      (varchar 32 (upToNul a.clientVersion)).isSome := by
  obtain ⟨⟨rows, hfound⟩, -, -, seq, seq', ws, hreset, rfl⟩ := hacc
  obtain ⟨r, hr, -, -, rfl⟩ := exists_user_of_searchUser hfound
  obtain ⟨version, hversion, hws⟩ := resetFailedLogins_eq_some ⟨r, hr, rfl⟩ hreset
  obtain ⟨g, hg, hzero, heq⟩ := foldl_resetFailedLogins db now (upToNul a.ipStr) version
    ((db.users.filter fun r' => r'.id = r.id).map (·.id))
  rw [List.map_map] at heq
  rw [hws, hversion]
  refine ⟨g, hg, fun r' hr' hid => hzero r' ?_, heq, rfl⟩
  exact List.mem_map_of_mem (List.mem_filter.mpr ⟨hr', decide_eq_true hid⟩)

theorem Accepted.exists_user {hashPassword : Bytes → Bytes} {a : LoginAttempt} {row : UserAuthRow}
    {db' : Database} (hacc : Accepted hashPassword a db now row db') :
    ∃ r ∈ db'.users, r.id = row.id := by
  obtain ⟨g, hg, -, rfl, -⟩ := hacc.users
  obtain ⟨rows, hfound⟩ := hacc.found
  obtain ⟨r, hr, -, -, rfl⟩ := exists_user_of_searchUser hfound
  exact ⟨g r, List.mem_map_of_mem hr, (hg r).id⟩

end Parts

/-! ## The whole call -/

section Call

variable {p : Platform} {cfg : ServerConfig} {t : Nat} {allow : Choice → Prop}
  {clientData : ClientData} {uuids : List Bytes} {sequences : Sequences} {now start : Time}
  {db : Database} {s : Server} {h : Hist}

/-- A call that began at `now` has ended with outcome `o`, in `s`. -/
def CallEnded (p : Platform) (allow : Choice → Prop) (a : LoginAttempt) (db : Database)
    (clientData : ClientData) (uuids : List Bytes) (now : Time) (h : Hist) (s : Server)
    (o : AuthOutcome) : Prop :=
  SearchSaw a.login (db.searchUser now a.account) (o.status ≠ .DB_ERROR) h ∧
    ∃ finish db' clientData' uuids' sequences',
      Solo s (.idle db') clientData' uuids' sequences' finish ∧
      AuthResult p.toSqlFunctions p.hashPassword a db clientData uuids (FailsIn allow) now finish
        db' clientData' o

theorem openSession_result {a : LoginAttempt} {row : UserAuthRow} {db₁ : Database}
    (hsaw : SearchSaw a.login (db.searchUser start a.account) True h)
    (hs : Solo s (.idle db₁) clientData uuids sequences start)
    (haccepted : Accepted p.hashPassword a db start row db₁) :
    ((loginServer p cfg).alone t allow).SatE (CallEnded p allow a db clientData uuids start)
      (fun h' s' _ => SearchSaw a.login (db.searchUser start a.account) True h' ∧ FailsIn allow ∧
        ∃ uuids' sequences', Solo s' (.idle db₁) clientData uuids' sequences' start)
      h s (Authenticator.openSession row.id (row.role.getD 0) a.login a.clientVersion) := by
  have hearlier : ∀ {s' : Server} {store' clientData' uuids' sequences' now'}, start ≤ now' →
      Solo s' store' clientData' uuids' sequences' now' →
      Solo s' store' clientData' uuids' sequences' start :=
    fun hle hs' => ⟨hs'.1, hs'.2, hs'.3, hs'.4, le_trans hle hs'.5⟩
  obtain ⟨-, -, -, -, hversion⟩ := haccepted.users
  refine Machine.satE_bind.mpr (checkActiveBan_result row.id hsaw hs ?_ ?_ ?_)
  · intro h₁ s₁ hsaw₁ hnone hs₁
    refine Machine.satE_bind.mpr (createSession_result hsaw₁ hs₁ haccepted.exists_user
      hversion ?_ ?_)
    · intro h₂ s₂ db₂ token seq₂ now₂ hsaw₂ hle htoken hfresh hopened hs₂
      refine Machine.satE_bind.mpr (satE_storeClientData hs₂ fun nowMs s₃ hs₃ => ?_)
      have hs₃ : Solo s₃ (.idle db₂) (clientData.storeClientData (a.entry row token) nowMs)
        (token :: uuids) seq₂ now₂ := hs₃
      refine Machine.satE_pure.mpr ⟨(hsaw₂.cons rfl _).weaken fun _ => trivial, now₂, db₂, _, _,
        seq₂, hs₃, ?_⟩
      exact .ok haccepted hs.clock hnone hle htoken hfresh hopened
    · intro h₂ s₂ uuids₂ seq₂ hsaw₂ hmay hs₂
      exact ⟨hsaw₂, hmay, uuids₂, seq₂, hearlier hs.clock hs₂⟩
  · intro h₁ s₁ ban bans hsaw₁ hbans hs₁
    exact Machine.satE_pure.mpr ⟨hsaw₁.weaken fun _ => trivial, s.clock, db₁, clientData, uuids,
      sequences, hs₁, .banned haccepted hs.clock hbans⟩
  · intro h₁ s₁ seq₁ hsaw₁ hmay hs₁
    exact ⟨hsaw₁, hmay, uuids, seq₁, hearlier hs.clock hs₁⟩

/-- The body has thrown; with what is committed then the call ends in `DB_ERROR`. -/
def CallThrew (p : Platform) (allow : Choice → Prop) (t : Nat) (a : LoginAttempt) (db : Database)
    (clientData : ClientData) (uuids : List Bytes) (now : Time) (h : Hist) (s : Server) : Prop :=
  SearchSaw a.login (db.searchUser now a.account) False h ∧
    ∃ db' uuids', SoloWithin t s db' clientData uuids' now ∧
      AuthResult p.toSqlFunctions p.hashPassword a db clientData uuids (FailsIn allow) now now
        db' clientData { status := .DB_ERROR, userId := 0 }

section Body

variable {a : LoginAttempt} {row : UserAuthRow} {rows : List UserAuthRow}

/-- Nothing is committed when the body throws inside its transaction. -/
theorem CallThrew.undone {done : Prop} {log : List Write}
    (hsaw : SearchSaw a.login (db.searchUser start a.account) done h)
    (hs : Solo s (.alone writes db t start log) clientData uuids sequences start)
    (hresult : AuthResult p.toSqlFunctions p.hashPassword a db clientData uuids (FailsIn allow)
      start start db clientData { status := .DB_ERROR, userId := 0 }) :
    CallThrew p allow t a db clientData uuids start h s :=
  ⟨hsaw.weaken False.elim, db, uuids, hs.within_alone, hresult⟩

theorem CallThrew.commitFailed {done : Prop}
    (hsaw : SearchSaw a.login (db.searchUser start a.account) done h) (hmay : FailsIn allow)
    (hs : Solo s (.idle db) clientData uuids sequences start) :
    CallThrew p allow t a db clientData uuids start h s :=
  ⟨hsaw.weaken False.elim, db, uuids, hs.within_idle, .unavailable hmay⟩

theorem notFound_result (hsaw : SearchSaw a.login (db.searchUser start a.account) True h)
    (hs : Solo s (.alone writes db t start []) clientData uuids sequences start)
    (hrows : db.searchUser start a.account = []) :
    ((loginServer p cfg).alone t allow).SatE (CallEnded p allow a db clientData uuids start)
      (fun h' s' _ => CallThrew p allow t a db clientData uuids start h' s') h s
      (do
        let status ← Authenticator.probeUserStatus a.login
        abortWork
        return { status := status, userId := 0 }) := by
  refine Machine.satE_bind.mpr (probeUserStatus_result a.login hsaw hs ?_)
  intro h₁ s₁ hsaw₁ hs₁
  refine Machine.satE_bind.mpr (satE_abortWork hs₁ fun s₂ hs₂ => ?_)
  exact Machine.satE_pure.mpr ⟨(hsaw₁.cons rfl _).weaken fun _ => trivial, _, _, _, _, _, hs₂,
    .notFound hrows⟩

theorem wrongPassword_result (hsaw : SearchSaw a.login (db.searchUser start a.account) True h)
    (hs : Solo s (.alone writes db t start []) clientData uuids sequences start)
    (hrows : db.searchUser start a.account = row :: rows) (hid : integer row.id = some row.id)
    (hwrong : row.password ≠ p.hashPassword a.password) :
    ((loginServer p cfg).alone t allow).SatE (CallEnded p allow a db clientData uuids start)
      (fun h' s' _ => CallThrew p allow t a db clientData uuids start h' s') h s
      (do
        execPrepared (.incrementFailedLogins a.login)
        commitWork
        return { status := .INVALID_CREDENTIALS, userId := 0 }) := by
  refine Machine.satE_bind.mpr (satE_execPrepared hs (fun _ ws seq₁ s₁ hcount hs₁ => ?_) ?_)
  swap
  · rintro s₁ (hmay | hcount) hs₁
    · exact .undone (hsaw.failed _) hs₁ (.unavailable hmay)
    · exact .undone (hsaw.failed _) hs₁ (.notCounted hrows hid hwrong hcount)
  have hsaw₁ := hsaw.cons (c := .execPrepared (.incrementFailedLogins a.login)) rfl (some ())
  refine Machine.satE_bind.mpr (satE_commitWork hs₁ (fun s₂ hs₂ => ?_) fun s₂ hmay hs₂ => ?_)
  · exact Machine.satE_pure.mpr ⟨(hsaw₁.cons rfl _).weaken fun _ => trivial, _, _, _, _, _, hs₂,
      .wrong hrows hid hwrong hcount⟩
  · exact .commitFailed (hsaw₁.cons rfl _) hmay hs₂

theorem rightPassword_result (hsaw : SearchSaw a.login (db.searchUser start a.account) True h)
    (hs : Solo s (.alone writes db t start []) clientData uuids sequences start)
    (hrows : db.searchUser start a.account = row :: rows) (hid : integer row.id = some row.id)
    (hright : row.password = p.hashPassword a.password) :
    ((loginServer p cfg).alone t allow).SatE (CallEnded p allow a db clientData uuids start)
      (fun h' s' _ => CallThrew p allow t a db clientData uuids start h' s') h s
      (do
        execPrepared (.resetFailedLogins row.id a.ipStr a.clientVersion)
        commitWork
        Authenticator.openSession row.id (row.role.getD 0) a.login a.clientVersion) := by
  refine Machine.satE_bind.mpr (satE_execPrepared hs (fun _ ws seq₁ s₁ hreset hs₁ => ?_) ?_)
  swap
  · rintro s₁ (hmay | hreset) hs₁
    · exact .undone (hsaw.failed _) hs₁ (.unavailable hmay)
    · exact .undone (hsaw.failed _) hs₁ (.notReset hrows hright hreset)
  have hsaw₁ := hsaw.cons (c := .execPrepared (.resetFailedLogins row.id a.ipStr
    a.clientVersion)) rfl (some ())
  refine Machine.satE_bind.mpr (satE_commitWork hs₁ (fun s₂ hs₂ => ?_) fun s₂ hmay hs₂ => ?_)
  swap
  · exact .commitFailed (hsaw₁.cons rfl _) hmay hs₂
  have haccepted : Accepted p.hashPassword a db start row (ws.foldl applyWrite db) :=
    ⟨⟨rows, hrows⟩, hid, hright, _, _, ws, hreset, rfl⟩
  refine (openSession_result (hsaw₁.cons rfl _) hs₂ haccepted).mono (fun _ _ _ hq => hq) ?_
  -- the reset is committed, whatever becomes of the session
  rintro h₃ s₃ e ⟨hsaw₃, hmay, uuids₃, seq₃, hs₃⟩
  exact ⟨hsaw₃.weaken False.elim, _, uuids₃, hs₃.within_idle, .interrupted haccepted hmay⟩

end Body

theorem authenticate_result {a : LoginAttempt} {found : List UserAuthRow}
    (hfound : found = db.searchUser s.clock a.account) (hsaw : SearchSaw a.login found False h)
    (hs : Solo s (.idle db) clientData uuids sequences now) :
    ((loginServer p cfg).alone t allow).SatE (CallEnded p allow a db clientData uuids s.clock)
      (fun _ _ _ => False) h s (a.call p.hashPassword) := by
  subst hfound
  refine Machine.satE_tryCatch.mpr ?_
  -- every exception ends in `DB_ERROR`
  have hthrown : ∀ {db' : Database} {h' : Hist} {s' : Server} {uuids' seq'},
      SearchSaw a.login (db.searchUser s.clock a.account) False h' →
      Solo s' (.idle db') clientData uuids' seq' s.clock →
      AuthResult p.toSqlFunctions p.hashPassword a db clientData uuids (FailsIn allow) s.clock
        s.clock db' clientData { status := .DB_ERROR, userId := 0 } →
      ((loginServer p cfg).alone t allow).SatE (CallEnded p allow a db clientData uuids s.clock)
        (fun _ _ (_ : StdException) => False) h' s'
        (return { status := .DB_ERROR, userId := 0 }) :=
    fun hsaw' hs' hresult => Machine.satE_pure.mpr
      ⟨hsaw'.weaken fun hne => absurd rfl hne, _, _, _, _, _, hs', hresult⟩
  refine satE_withWork hs
    (fun s' hmay hs' => hthrown (hsaw.cons rfl _) hs' (.unavailable hmay)) fun s₁ hs₁ => ?_
  refine Machine.SatE.mono
    (E := fun h' s' _ => CallThrew p allow t a db clientData uuids s.clock h' s') ?_
    (fun _ _ _ hended => hended) ?_
  swap
  · rintro h' s' - ⟨hsaw', db', uuids', hwithin, hresult⟩
    exact ⟨db', clientData, uuids', hwithin, fun seq'' s'' hs'' =>
      hthrown (hsaw'.cons rfl _) hs'' hresult⟩
  have hsaw₁ := hsaw.cons (c := .beginWork) rfl (some ())
  refine Machine.satE_bind.mpr (satE_execPrepared hs₁ (fun found ws seq₁ s₂ hrun hs₂ => ?_) ?_)
  swap
  · rintro s₂ (hmay | hrun) hs₂
    · exact .undone (hsaw₁.failed _) hs₂ (.unavailable hmay)
    · cases hrun
  obtain rfl : db.searchUser s.clock a.account = found := by
    cases hrun
    rfl
  obtain rfl : [] = ws := by
    cases hrun
    rfl
  have hsaw₂ : ∀ found, db.searchUser s.clock a.account = found →
      SearchSaw a.login (db.searchUser s.clock a.account) True
        (⟨.execPrepared (.searchUser a.login), some found⟩ :: ⟨.beginWork, some ()⟩ :: h) := by
    rintro found rfl
    exact hsaw₁.search
  cases hrows : db.searchUser s.clock a.account with
  | nil => exact notFound_result (hsaw₂ [] hrows) hs₂ hrows
  | cons row rows =>
    replace hsaw₂ := hsaw₂ (row :: rows) hrows
    refine Machine.satE_bind.mpr (satE_orThrow (fun userID hid => ?_) fun hid => ?_)
    swap
    · exact .undone hsaw₂ hs₂ (.idOutOfRange hrows hid)
    obtain rfl := integer_eq_some hid
    by_cases hright : row.password = p.hashPassword a.password
    · rw [if_neg (not_not.mpr hright)]
      exact rightPassword_result hsaw₂ hs₂ hrows hid hright
    · rw [if_pos hright]
      exact wrongPassword_result hsaw₂ hs₂ hrows hid hright

/-- What every run of a call comes to. -/
theorem callEnded_of_runs {a : LoginAttempt} {h' : Hist} {s' : Server}
    {r : Except StdException AuthOutcome} (hs : Solo s (.idle db) clientData uuids sequences now)
    (hruns : ((loginServer p cfg).alone t allow).Runs [] s (a.call p.hashPassword).run h' s' r) :
    ∃ o, r = .ok o ∧ CallEnded p allow a db clientData uuids s.clock h' s' o := by
  have hsat : ((loginServer p cfg).alone t allow).SatE
      (CallEnded p allow a db clientData uuids s.clock) (fun _ _ _ => False) [] s
      (a.call p.hashPassword) := authenticate_result rfl .nil hs
  have hends := Machine.sat_iff_runs.mp hsat h' s' r hruns
  cases r with
  | ok o => exact ⟨o, rfl, hends⟩
  | error e => exact hends.elim

end Call

end LoginServer
