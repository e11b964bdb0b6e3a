import LoginServer.Services.Calls
import LoginServer.Server.Deadlock
import LoginServer.Server.LoginThrottle
import LoginServer.Server.Permanence
import LoginServer.Server.Registration

/-!
# From a registration to a login

What a client was told is true ever after: when a registration has been answered with
success, the account is there, with the id of the answer and the credentials of the
request, whatever other tasks do. A login is then decided by its password alone, unless
the account is locked or banned at that time.

`createAccount_commits` to `handleRegisterAccountEvent_commits` say what the registration
has committed when it answers, `Server.reach_promised` what has become of it in a later
state, and `AuthResult.ok_iff` what a login call makes of that.
-/

namespace LoginServer

open Database Interleaving Transactions

variable {p : Platform} {cfg : ServerConfig} {c : ServerState} {h : Hist}

/-! ## Answers of success -/

/-- If the last thing that was done is an answer of success, its message is one of `P`. -/
def SuccessOnly (P : Json → Hist → Prop) (h : Hist) : Prop :=
  ∀ socket message h', h = ⟨.sendResponse socket (str "success") message, ()⟩ :: h' → P message h

section SuccessOnly

variable {P : Json → Hist → Prop} {may : Hist → Cmd → Prop} {socket : Option Socket}
  {message : Json} {E : Hist → StdException → Prop}

theorem successOnly_error (hmay : may h (.sendResponse socket (str "error") message)) :
    ObeysE may (fun h' _ => SuccessOnly P h') E h
      (sendResponse socket (str "error") message) := by
  refine (obeysE_call (c := .sendResponse _ _ _)).mpr ⟨hmay, fun _ => ?_⟩
  intro socket' message' h' heq
  exact absurd (sendResponse_inj heq).1.symm success_ne_error

theorem successOnly_success (hmay : may h (.sendResponse socket (str "success") message))
    (hP : P message (⟨.sendResponse socket (str "success") message, ()⟩ :: h)) :
    ObeysE may (fun h' _ => SuccessOnly P h') E h
      (sendResponse socket (str "success") message) := by
  refine (obeysE_call (c := .sendResponse _ _ _)).mpr ⟨hmay, fun _ => ?_⟩
  intro socket' message' h' heq
  obtain ⟨-, rfl, rfl⟩ := sendResponse_inj heq
  exact hP

/-- What an answer says with which a task has ended. -/
theorem SuccessOnly.of_ended {s₀ : Server} {meets : ServerState → ServerLabel → Prop} {t : Nat}
    {event : Event}
    (hprogram : ObeysE (fun _ _ => True) (fun h' _ => SuccessOnly P h')
      (fun h' _ => SuccessOnly P h') [] (EventHandler.dispatchEvent p event))
    (hreach : (loginServer p cfg).Reach meets s₀.boot c)
    (hthread : c.threads t = some
      ⟨.event event, ⟨.sendResponse socket (str "success") message, ()⟩ :: h, .pure ()⟩) :
    P message (⟨.sendResponse socket (str "success") message, ()⟩ :: h) := by
  have hends := System.ends_of_finished (fun _ => rfl) hreach hthread
  have hobeys : Obeys (fun _ _ => True) (fun h' _ => SuccessOnly P h') []
      ((loginServer p cfg).program (.event event)) := obeys_task hprogram
  exact obeys_iff_ends.mp hobeys _ _ hends socket message h rfl

end SuccessOnly

/-! ## What a registration has committed when it answers -/

/-- The account that `register_user` returned is committed; its id is an `int`. -/
def Commits.Account (login password email ip clientVersion : Bytes) (userId : Int) (h : Hist) :
    Prop :=
  integer userId = some userId ∧
    ∃ ids, HasCommitted (.registerUser login password email ip clientVersion) (userId :: ids) h

/-- What the answer of a successful registration promises. -/
def PromisedAccount (p : Platform) (reg : RegistrationDataStruct) (userId : Int)
    (h : Hist) : Prop :=
  Verbatim 20 reg.login ∧ ∃ ipStr, Commits.Account reg.login (p.hashPassword reg.password) reg.email
    ipStr reg.clientVersion userId h

theorem registerSuccess_inj {hash hash' login login' : Bytes} {userId userId' : Int}
    (h : EventHandler.registerSuccess hash userId login =
      EventHandler.registerSuccess hash' userId' login') :
    hash = hash' ∧ userId = userId' ∧ login = login' := by
  simpa [EventHandler.registerSuccess, ResponseBuilder.build, ResponseBuilder.setHeader,
    ResponseBuilder.setBody, Json.setMember] using h

/-- What a handler that answers with success has committed. -/
def KeepsPromise (p : Platform) (reg : RegistrationDataStruct) (h : Hist) : Prop :=
  SuccessOnly (fun message h' => ∃ sessionHash userId,
    message = EventHandler.registerSuccess sessionHash userId reg.login ∧
      PromisedAccount p reg userId h') h

/-- The call stores an entry in the session store. -/
def Cmd.storesEntry : Cmd → Bool
  | .storeClientData _ => true
  | _ => false

section Registration

variable {may : Hist → Cmd → Prop}
  (hmay : ∀ (h : Hist) (c : Cmd), c.storesEntry = false → c.isLogin = false → may h c)

include hmay

namespace AccountManager

theorem checkLoginAvailable_may (login : Bytes) :
    ObeysE may (fun _ _ => True) (fun _ _ => True) h (checkLoginAvailable login) := by
  refine obeysE_withWork (hmay _ _ rfl rfl) trivial (obeysE_bind.mpr ?_)
  refine obeysE_execPrepared (hmay _ _ rfl rfl) (fun rows => ?_) ⟨hmay _ _ rfl rfl, trivial⟩
  exact obeysE_bind.mpr (obeysE_call.mpr ⟨hmay _ _ rfl rfl, fun _ => obeysE_pure.mpr trivial⟩)

theorem createAccount_commits (login passwordHash email ipStr clientVersion : Bytes) :
    ObeysE may
      (fun h' r => ∀ userId sessionHash, r = some (userId, sessionHash) →
        Commits.Account login passwordHash email ipStr clientVersion userId h')
      (fun _ _ => True) h (createAccount login passwordHash email ipStr clientVersion) := by
  have hunwind : ∀ h' : Hist, may h' .unwindWork ∧ True := fun h' => ⟨hmay _ _ rfl rfl, trivial⟩
  refine obeysE_withWork (hmay _ _ rfl rfl) trivial (obeysE_bind.mpr ?_)
  refine obeysE_execPrepared (hmay _ _ rfl rfl) (fun rows => ?_) (hunwind _)
  cases rows with
  | nil =>
    refine obeysE_bind.mpr (obeysE_call.mpr ⟨hmay _ _ rfl rfl, fun _ => obeysE_pure.mpr ?_⟩)
    intro userId sessionHash hr
    cases hr
  | cons id ids =>
    refine obeysE_bind.mpr (obeysE_orThrow (fun userId hid => ?_) fun _ => hunwind _)
    obtain rfl := integer_eq_some hid
    refine obeysE_bind.mpr (obeysE_call.mpr ⟨hmay _ _ rfl rfl, fun sessionHash => ?_⟩)
    refine obeysE_bind.mpr (obeysE_execPrepared (hmay _ _ rfl rfl) (fun _ => ?_) (hunwind _))
    refine obeysE_bind.mpr (obeysE_execPrepared (hmay _ _ rfl rfl) (fun _ => ?_) (hunwind _))
    refine obeysE_bind.mpr (obeysE_execPrepared (hmay _ _ rfl rfl) (fun _ => ?_) (hunwind _))
    refine obeysE_bind.mpr (obeysE_commitWork (hmay _ _ rfl rfl) ?_ (hunwind _))
    refine obeysE_pure.mpr fun userId' sessionHash' hr => ?_
    cases hr
    refine ⟨hid, ids, [], _, rfl, ?_⟩
    simp [current]

/-- What a registration commits before it stores the entry. -/
theorem registerAccount_commits (hashPassword : Bytes → Bytes)
    (login password email registrationIp clientVersion : Bytes)
    (hstore : ∀ h' d, Verbatim 20 login → (∃ ipStr, Commits.Account login (hashPassword password)
      email ipStr clientVersion d.clientId h') → may h' (.storeClientData d)) :
    ObeysE may
      (fun h' r => ∀ userId sessionHash, r = (.OK, userId, sessionHash) →
        Verbatim 20 login ∧ ∃ ipStr, Commits.Account login (hashPassword password) email ipStr
          clientVersion userId h')
      (fun _ _ => True) h
      (registerAccount hashPassword login password email registrationIp clientVersion) := by
  unfold registerAccount
  dsimp only
  split_ifs with hvalid
  · refine obeysE_pure.mpr fun userId sessionHash hr => ?_
    exact absurd (Prod.mk.inj hr).1 hvalid
  · have hverbatim : Verbatim 20 login :=
      verbatim_of_matchesLoginRegex (matchesLoginRegex_of_valid (not_not.mp hvalid))
    refine obeysE_catch ?_ fun h' _ => obeysE_pure.mpr fun userId sessionHash hr => by cases hr
    refine obeysE_bind.mpr ((checkLoginAvailable_may hmay login).mono (fun h₁ available _ => ?_)
      fun _ _ _ => trivial)
    cases available with
    | false =>
      refine obeysE_pure.mpr fun userId sessionHash hr => ?_
      cases hr
    | true =>
      refine obeysE_bind.mpr ((createAccount_commits hmay _ _ _ _ _).mono
        (fun h₂ created hcreated => ?_) fun _ _ _ => trivial)
      cases created with
      | none =>
        refine obeysE_pure.mpr fun userId sessionHash hr => ?_
        cases hr
      | some account =>
        obtain ⟨userId, sessionHash⟩ := account
        have haccount := hcreated userId sessionHash rfl
        refine obeysE_bind.mpr (obeysE_call.mpr ⟨hstore h₂ _ hverbatim ⟨_, haccount⟩, fun _ => ?_⟩)
        refine obeysE_pure.mpr fun userId' sessionHash' hr => ?_
        cases hr
        obtain ⟨hid, ids, hcommitted⟩ := haccount
        exact ⟨hverbatim, _, hid, ids, hcommitted.cons _⟩

end AccountManager

theorem handleRegisterAccountEvent_commits (p : Platform) {event : Event}
    {reg : RegistrationDataStruct} (hdata : event.eventData = .registration reg)
    (hstore : ∀ h' d, PromisedAccount p reg d.clientId h' → may h' (.storeClientData d)) :
    ObeysE may (fun h' _ => reg.socket.isSome = true → KeepsPromise p reg h') (fun _ _ => False) []
      (EventHandler.handleRegisterAccountEvent p event) := by
  unfold EventHandler.handleRegisterAccountEvent
  rw [hdata]
  refine obeysE_catch (obeysE_bind.mpr ?_) fun h' _ => ?_
  · refine obeysE_acquire (hmay _ _ rfl rfl) (obeysE_bind.mpr ?_) trivial
    refine (AccountManager.registerAccount_commits hmay _ _ _ _ _ _
      fun h' d hverbatim hcommits => hstore h' d ⟨hverbatim, hcommits⟩).mono
      (fun h₁ result hok => ?_) fun _ _ _ => trivial
    obtain ⟨result, userId, sessionHash⟩ := result
    dsimp only
    split_ifs with hne
    · exact (successOnly_error (hmay _ _ rfl rfl)).mono (fun _ _ hq _ => hq) fun _ _ hq => hq
    · obtain rfl := not_not.mp hne
      obtain ⟨hverbatim, ipStr, hid, ids, hcommitted⟩ := hok userId sessionHash rfl
      refine (successOnly_success (hmay _ _ rfl rfl) ?_).mono (fun _ _ hq _ => hq) fun _ _ hq => hq
      exact ⟨sessionHash, userId, rfl, hverbatim, ipStr, hid, ids, hcommitted.cons _⟩
  · split_ifs with hsocket
    · exact (successOnly_error (hmay _ _ rfl rfl)).mono (fun _ _ hq _ => hq) fun _ _ hq => hq
    · exact obeysE_pure.mpr fun hsome => absurd hsome hsocket

end Registration

/-! ## What has become of it -/

/-- Task `t`, the registration `reg`, has ended with the answer that its account has the id
`userId`. -/
def RegisteredAs (c : ServerState) (t : Nat) (reg : RegistrationDataStruct) (userId : Int) : Prop :=
  ∃ sessionHash h, Ended c t reg (⟨.sendResponse reg.socket (str "success")
    (EventHandler.registerSuccess sessionHash userId reg.login), ()⟩ :: h)

section Runs

variable {s₀ : Server} {meets : ServerState → ServerLabel → Prop} {t : Nat}
  {reg : RegistrationDataStruct} {userId : Int}

theorem RegisteredAs.promised (hreg : RegisteredAs c t reg userId) (h₀ : s₀.Initial)
    (hreach : (loginServer p cfg).Reach meets s₀.boot c) :
    PromisedAccount p reg userId (c.hist t) := by
  obtain ⟨sessionHash, h, hended⟩ := hreg
  have hsocket := Option.isSome_iff_ne_none.mpr (hended.socket h₀ hreach)
  rw [hended.hist]
  obtain ⟨event, hthread, htype, hdata⟩ := hended
  have hprogram : ObeysE (fun _ _ => True) (fun h' _ => KeepsPromise p reg h')
      (fun h' _ => KeepsPromise p reg h') [] (EventHandler.dispatchEvent p event) := by
    rw [EventHandler.dispatchEvent, htype]
    exact (handleRegisterAccountEvent_commits (fun _ _ _ _ => trivial) p hdata
      fun _ _ _ => trivial).mono (fun _ _ hq => hq hsocket) fun _ _ hfalse => hfalse.elim
  obtain ⟨sessionHash', userId', hmessage, hpromised⟩ :=
    SuccessOnly.of_ended hprogram hreach hthread
  obtain rfl := (registerSuccess_inj hmessage).2.1
  exact hpromised

/-- The row that a promised registration has inserted, in every state since. -/
theorem Server.reach_promised (h₀ : s₀.Initial)
    (hsha256 : ∀ input, (p.sha256 input).length = 32)
    (h : (loginServer p cfg).Reach meets s₀.boot c)
    (hpromised : PromisedAccount p reg userId (c.hist t)) :
    ∃ u ∈ c.shared.store.committed.users, u.id = userId ∧ integer u.id = some u.id ∧
      u.login = reg.login ∧ u.password = p.hashPassword reg.password ∧ u.isActive = true ∧
      u.role = 0 := by
  obtain ⟨hverbatim, ipStr, hid, ids, hcommitted⟩ := hpromised
  obtain ⟨db, now, seq, seq', ws, -, -, hrun, hstands⟩ :=
    (Server.reach_durable h₀ h).committed t _ _ hcommitted
  have hhash : Verbatim 64 (p.hashPassword reg.password) := by
    refine ⟨?_, AccountManager.zero_notMem_hashPassword _ _⟩
    rw [Platform.hashPassword, AccountManager.length_hashPassword, hsha256]
  simp only [Query.run, registerUser, hverbatim.upToNul, hhash.upToNul,
    hverbatim.varchar (m := 50) (by decide), hhash.varchar (m := 100) (by decide)] at hrun
  split at hrun
  · rename_i login password email clientVersion hlogin hpassword hemail hversion
    cases hlogin
    cases hpassword
    cases hrun
    obtain ⟨u, hu, hkept⟩ := hstands _ (List.mem_singleton_self _)
    refine ⟨u, hu, hkept.id, ?_, hkept.login, hkept.password, hkept.isActive, hkept.role⟩
    rw [hkept.id]
    exact hid
  · cases hrun

end Runs

/-! ## What a login makes of it -/

section Login

variable {f : SqlFunctions} {hashPassword : Bytes → Bytes} {a : LoginAttempt}
  {db db' : Database} {clientData clientData' : ClientData} {uuids : List Bytes}
  {now finish : Time} {o : AuthOutcome} {u : UserRow}

/-- A call that nothing disturbs, for an account that is neither locked nor banned, succeeds
exactly with the right password. -/
theorem AuthResult.ok_iff
    (hresult : AuthResult f hashPassword a db clientData uuids False now finish db' clientData' o)
    (hrow : accountRows a.account db = [u]) (hid : integer u.id = some u.id)
    (hmay : u.mayLogIn now = true) (hnotBanned : NotBanned db u.id now)
    (hversion : (varchar 32 (upToNul a.clientVersion)).isSome) :
    (o.status = .OK ↔ u.password = hashPassword a.password) ∧
    (o.status = .OK → o.userId = u.id ∧ ∃ token nowMs, IsUuidText token ∧ token ∉ uuids ∧
      clientData' = clientData.storeClientData
        (a.entry ⟨u.id, u.password, some u.role⟩ token) nowMs) := by
  have hsearch : db.searchUser now a.account = [⟨u.id, u.password, some u.role⟩] := by
    rw [searchUser_of_row hrow, if_pos hmay]
  have hsame : ∀ {row rows}, db.searchUser now a.account = row :: rows →
      row = ⟨u.id, u.password, some u.role⟩ := by
    intro row rows hfound
    rw [hsearch] at hfound
    exact (List.cons.inj hfound).1.symm
  cases hresult with
  | unavailable hfails => exact hfails.elim
  | interrupted _ hfails => exact hfails.elim
  | notFound hnone =>
    rw [hsearch] at hnone
    cases hnone
  | idOutOfRange hfound hout =>
    obtain rfl := hsame hfound
    rw [hid] at hout
    cases hout
  | notCounted hfound _ hwrong _ =>
    obtain rfl := hsame hfound
    exact ⟨⟨fun hok => absurd hok (by simp), fun hright => absurd hright hwrong⟩,
      fun hok => absurd hok (by simp)⟩
  | wrong hfound _ hwrong _ =>
    obtain rfl := hsame hfound
    exact ⟨⟨fun hok => absurd hok (by simp), fun hright => absurd hright hwrong⟩,
      fun hok => absurd hok (by simp)⟩
  | notReset hfound hright hreset => exact absurd hreset (resetFailedLogins_ne_none hversion)
  | banned haccepted hnow hban =>
    obtain ⟨rows, hfound⟩ := haccepted.found
    obtain rfl := hsame hfound
    obtain ⟨g, -, -, rfl, -⟩ := haccepted.users
    have hnone : checkActiveBan { db with users := db.users.map g } finish f u.id = [] :=
      checkActiveBan_of_notBanned rfl (hnotBanned.later hnow)
    exact absurd (hnone.symm.trans hban) (by simp)
  | ok haccepted hnow hban hlater htoken hfresh hsession =>
    obtain ⟨rows, hfound⟩ := haccepted.found
    obtain rfl := hsame hfound
    exact ⟨⟨fun _ => haccepted.password, fun _ => rfl⟩,
      fun _ => ⟨rfl, _, _, htoken, hfresh, rfl⟩⟩

end Login

/-- A registration that was answered with success is an account from then on. In every later
state, whatever other tasks have done, its row has the id of the answer and the login and
the password hash of the request, and a login that nothing disturbs succeeds, under that id,
exactly with a password of the same hash, provided that logins are unique, the account is
neither locked nor banned, and the client version of the login, up to its first NUL, fits the
32 characters of its column. -/
theorem registered_account_logs_in {s₀ : Server} {meets : ServerState → ServerLabel → Prop}
    {t : Nat} {reg : RegistrationDataStruct} {userId : Int} (h₀ : s₀.Initial)
    (hsha256 : ∀ input, (p.sha256 input).length = 32)
    (h : (loginServer p cfg).Reach meets s₀.boot c) (hreg : RegisteredAs c t reg userId) :
    ∃ u ∈ c.shared.store.committed.users, u.id = userId ∧ u.login = reg.login ∧
      u.password = p.hashPassword reg.password ∧ u.isActive = true ∧ u.role = 0 ∧
      ∀ (db : Database) (t' : Nat) (a : LoginAttempt) (h' : Hist) (s' : Server)
        (r : Except StdException AuthOutcome),
        c.shared.store = .idle db → db.logins.Nodup → ¬ LockedOut u c.shared.clock →
        NotBanned db userId c.shared.clock → a.login = reg.login →
        (varchar 32 (upToNul a.clientVersion)).isSome →
        ((loginServer p cfg).alone t' noFault).Runs [] c.shared (a.call p.hashPassword).run
          h' s' r →
        ∃ o, r = .ok o ∧
          (o.status = .OK ↔ p.hashPassword a.password = p.hashPassword reg.password) ∧
          (o.status = .OK → o.userId = userId ∧ ∃ entry, s'.clientData.find userId = some entry ∧
            entry.login = reg.login ∧ entry.hash ∉ c.shared.uuids) := by
  obtain ⟨u, hu, hid, hinteger, hlogin, hpassword, hactive, hrole⟩ :=
    Server.reach_promised h₀ hsha256 h (hreg.promised h₀ h)
  have hverbatim := (hreg.promised h₀ h).1
  refine ⟨u, hu, hid, hlogin, hpassword, hactive, hrole, ?_⟩
  intro db t' a h' s' r hidle hunique hunlocked hnotBanned ha hversion hruns
  obtain ⟨o, rfl, -, finish, db', clientData', uuids', seq', hs', hresult⟩ :=
    callEnded_of_runs (solo_of_store hidle) hruns
  rw [hidle] at hu
  have hrow : accountRows a.account db = [u] := by
    rw [LoginAttempt.account, ha, hverbatim.upToNul, ← hlogin]
    exact Transactions.filter_key hunique hu
  have hmay : u.mayLogIn c.shared.clock = true := by
    by_contra hnot
    exact hunlocked (lockedOut_iff.mpr (eq_false_of_ne_true hnot))
  rw [eq_false not_failsIn_noFault] at hresult
  obtain ⟨hok, hstored⟩ := hresult.ok_iff hrow hinteger hmay (hid ▸ hnotBanned) hversion
  refine ⟨o, rfl, ?_, fun ho => ?_⟩
  · rw [hok, hpassword]
    exact eq_comm
  · obtain ⟨huser, token, nowMs, -, hfresh, hclientData⟩ := hstored ho
    refine ⟨huser.trans hid, { a.entry ⟨u.id, u.password, some u.role⟩ token with
      lastSeenMs := nowMs, password := [] }, ?_, ha, hfresh⟩
    rw [hs'.clientData_eq, hclientData, ClientData.find_storeClientData]
    exact if_pos hid.symm

/-- While no task is between two of its calls, no transaction is open. -/
theorem Server.reach_idle {s₀ : Server} {meets : ServerState → ServerLabel → Prop}
    (h₀ : s₀.Initial) (h : (loginServer p cfg).Reach meets s₀.boot c)
    (hnone : ∀ t, c.pending t = none) : c.shared.store = .idle c.shared.store.committed := by
  have hscopes := Server.reach_inScopes h₀ h
  have hactive : ∀ t, c.shared.store.active t = none := by
    intro t
    by_contra hopen
    have hinside := (hscopes.isOpen t).mpr (Option.ne_none_iff_exists'.mp hopen)
    obtain ⟨cmd, hpending, -⟩ := Server.reach_workScope h hinside
    rw [hnone t] at hpending
    cases hpending
  have hlocks : ∀ k, c.shared.store.locks k = none := by
    intro k
    by_contra hlocked
    obtain ⟨t, ht⟩ := Option.ne_none_iff_exists'.mp hlocked
    obtain ⟨w, hw, -⟩ := hscopes.owned k t ht
    rw [Store.log_of_not_active (hactive t)] at hw
    cases hw
  calc c.shared.store
      = ⟨c.shared.store.committed, c.shared.store.active, c.shared.store.locks⟩ := rfl
    _ = .idle c.shared.store.committed := by
      rw [funext hactive, funext hlocks]
      rfl

namespace Sample

open Schedule

def bobbyAttempt : LoginAttempt where
  login := str "bobby"
  password := str "password1"
  clientIp := []
  clientVersion := str "1.0.0"

/-- Task 0 has registered "bobby", and a login of his would succeed now. -/
def bobbyReady (c : ServerState) : Bool :=
  (match c.threads 0 with
    | some ⟨.event event, ⟨.sendResponse _ status _, _⟩ :: _, .pure ()⟩ =>
      match event.eventData with
      | .registration reg =>
        event.type = .REGISTER_ACCOUNT && reg.login = str "bobby" &&
          reg.password = str "password1" &&
          AccountManager.validateRegistration reg.login reg.password reg.email = .OK &&
          status = str "success"
      | .clientData _ => false
    | _ => false) &&
  c.shared.store.committed.logins.Nodup &&
  (c.shared.store.committed.users.all fun u => u.mayLogIn c.shared.clock) &&
  c.shared.store.committed.userBans = [] &&
  (((loginServer registrationPlatform config).alone 1 noFault).play {} (tokenChoices tokenB) []
    c.shared (bobbyAttempt.call registrationPlatform.hashPassword).run).any
    fun x => endsIn .OK x.2.2

end Sample

open Sample Schedule

theorem length_digests (input : Bytes) :
    ((digests.lookup input).getD (List.replicate 32 0)).length = 32 := by
  rw [digests, List.lookup_cons]
  cases input == str "password1"
  · exact List.length_replicate
  · exact (by decide : digestOfPassword1.length = 32)

theorem tokenChoices_noFault (x : Choice) (hx : x = {} ∨ x ∈ tokenChoices tokenB) : noFault x := by
  rcases hx with rfl | hx
  · rfl
  · rcases List.mem_append.mp hx with hcall | htoken
    · rw [List.eq_of_mem_replicate hcall]
      rfl
    · rw [List.mem_singleton.mp htoken]
      rfl

theorem registered_account_logs_in_bobby : ∃ c reg userId h' s' o,
    (loginServer registrationPlatform config).Reach (fun _ _ => True) (Server.over {}).boot c ∧
    RegisteredAs c 0 reg userId ∧
    ((loginServer registrationPlatform config).alone 1 noFault).Runs [] c.shared
      (bobbyAttempt.call registrationPlatform.hashPassword).run h' s' (.ok o) ∧
    o.status = .OK ∧ o.userId = userId := by
  have h₀ : (Server.over {}).Initial := Server.over_initial rfl
  obtain ⟨c, hreach, hnone, hready⟩ : ∃ c,
      (loginServer registrationPlatform config).Reach (fun _ _ => True) (Server.over {}).boot c ∧
      (∀ t, 1 ≤ t → c.threads t = none) ∧ bobbyReady c = true :=
    exists_reach_below registrationPlatform config (.over {}) 1
      (fun _ _ (_ : true = true) _ _ => trivial)
      ([frame 1 registerText, .spawn 0 .dispatch] ++ checkLogin 0 ++ insertAccount 0 tokenA ++
        calls 0 2) (by decide) (by decide +kernel)
  simp only [bobbyReady, Bool.and_eq_true, decide_eq_true_eq] at hready
  obtain ⟨⟨⟨⟨hfinished, hunique⟩, hmay⟩, hbans⟩, hplay⟩ := hready
  split at hfinished
  · rename_i event socket status message r h hthread
    split at hfinished
    · rename_i reg hdata
      simp only [Bool.and_eq_true, decide_eq_true_eq] at hfinished
      obtain ⟨⟨⟨⟨htype, hlogin⟩, hpassword⟩, hvalid⟩, rfl⟩ := hfinished
      have hended : Ended c 0 reg (⟨.sendResponse socket (str "success") message, r⟩ :: h) :=
        ⟨event, hthread, htype, hdata⟩
      obtain ⟨userId, hreg⟩ : ∃ userId, RegisteredAs c 0 reg userId := by
        rcases (hended.registered hreach).cases_of_valid (hended.socket h₀ hreach) hvalid with
          ⟨userId, sessionHash, h', heq⟩ | ⟨code, h', -, heq⟩
        · exact ⟨userId, sessionHash, h', heq ▸ hended⟩
        · exact absurd (sendResponse_inj heq).1 success_ne_error
      have hidle : ∀ t, c.pending t = none := by
        intro t
        cases t with
        | zero =>
          rw [Config.pending, hthread]
        | succ t =>
          rw [Config.pending, hnone (t + 1) (Nat.le_add_left 1 t)]
      obtain ⟨u, hu, hid, -, -, -, -, hlogsIn⟩ :=
        registered_account_logs_in h₀ length_digests hreach hreg
      obtain ⟨⟨h', s', r'⟩, hplayed, hok⟩ := (Option.any_eq_true _ _).mp hplay
      have hrefl : ∀ s, ((loginServer registrationPlatform config).alone 1 noFault).env s s :=
        fun s => .refl
      have hruns := Machine.runs_of_play hrefl tokenChoices_noFault hplayed
      have hunlocked : ¬ LockedOut u c.shared.clock := by
        rw [lockedOut_iff, List.all_eq_true.mp hmay u hu]
        simp
      have hnotBanned : NotBanned c.shared.store.committed userId c.shared.clock := by
        intro ban hban
        rw [hbans] at hban
        cases hban
      obtain ⟨o, rfl, -, huser⟩ := hlogsIn _ 1 bobbyAttempt h' s' r'
        (Server.reach_idle h₀ hreach hidle) hunique hunlocked hnotBanned hlogin.symm (by decide)
        hruns
      exact ⟨c, reg, userId, h', s', o, hreach, hreg, hruns, of_decide_eq_true hok,
        (huser (of_decide_eq_true hok)).1⟩
    · cases hfinished
  · cases hfinished

end LoginServer
