import LoginServer.Server.LoginServer

/-!
# The discipline of the pool tasks

What the handlers promise about the order of their calls, stated once for all of them:
`mayCall job h c` says when a task running `job` may make the call `c` after the
history `h`, and `jobPost` what a finished task has done. `program_obeys` checks every
handler against it, and from then on a proof about runs only looks at histories.

* Within a transaction, `Query.follows` is the order of the statements.
* A session is touched, read or removed only right after the call that justifies it.
* A statement on behalf of an account is executed only after the request's own session
  was found valid.
* A success answer discloses no token but those of `Disclosable`.
-/

namespace LoginServer

open Database Interleaving

/-! ## Transaction scripts -/

/-- The statements that open a transaction. -/
def Database.Query.startsWork : Query → Bool
  | .searchUser _ | .probeUserStatus _ | .checkActiveBan _ | .cleanupExpiredSessions
  | .revokeUserSessions _ | .getCharactersList _ | .getCharacterEquipmentPreview _
  | .getCharacterSlotCount _ | .deleteCharacter _ _ | .getCharacterClasses
  | .checkLoginAvailable _ | .registerUser _ _ _ _ _ => true
  | _ => false

/-- `q.follows p`: the statement `q` comes directly after `p` in a transaction. -/
def Database.Query.follows : Query → Query → Bool
  | .incrementFailedLogins login, .searchUser login' => login = login'
  | .resetFailedLogins _ _ _, .searchUser _ => true
  | .revokeUserSessions _, .registerUser _ _ _ _ _ => true
  | .cleanupExpiredSessions, .revokeUserSessions _ => true
  | .createUserSession _ _ _, .cleanupExpiredSessions => true
  | .checkCharacterNameExists _, .getCharacterSlotCount _ => true
  | .createCharacter _ name _ _ _, .checkCharacterNameExists name' => name = name'
  | .getClassIdBySlug _, .createCharacter _ _ _ _ _ => true
  | .initCharacterState _, .getClassIdBySlug _ => true
  | .initCharacterPosition _, .initCharacterState _ => true
  | .initCharacterDefaultSkills _ _, .initCharacterPosition _ => true
  | .initCharacterStarterItems _ _, .initCharacterDefaultSkills _ _ => true
  | .initCharacterStarterCurrencies _ _, .initCharacterStarterItems _ _ => true
  | .getCharacterRaces, .getCharacterClasses => true
  | .getCharacterGenders, .getCharacterRaces => true
  | _, _ => false

/-- The statements after which a transaction is committed. -/
def Database.Query.endsWork : Query → Bool
  | .incrementFailedLogins _ | .resetFailedLogins _ _ _ | .createUserSession _ _ _
  | .getCharactersList _ | .getCharacterEquipmentPreview _ | .initCharacterPosition _
  | .initCharacterStarterCurrencies _ _ | .deleteCharacter _ _ | .getCharacterGenders => true
  | _ => false

/-- The last statement of the open transaction, if it succeeded. -/
def lastStatement : Hist → Option Query
  | ⟨.execPrepared q, some _⟩ :: _ => some q
  | ⟨.randomUuid, _⟩ :: h => lastStatement h
  | _ => none

/-- What the open transaction has done so far. -/
def current : Hist → Hist
  | ⟨.beginWork, some _⟩ :: _ => []
  | ⟨.commitWork, _⟩ :: _ => []
  | ⟨.abortWork, _⟩ :: _ => []
  | ⟨.unwindWork, _⟩ :: _ => []
  | e :: h => e :: current h
  | [] => []

theorem prefix_current (h : Hist) : current h <+: h := by
  fun_induction current h with
  | case5 e h _ _ _ _ ih => exact (List.prefix_cons_inj e).mpr ih
  | _ => exact List.nil_prefix

/-- The next statement of a transaction is in order. -/
def InOrder (h : Hist) (q : Query) : Prop :=
  (q.startsWork ∧ ∃ h', h = ⟨.beginWork, some ()⟩ :: h') ∨
  ∃ p, lastStatement h = some p ∧ q.follows p

/-! ## What a task may do -/

def Job.type : Job → Option EventType
  | .event e => some e.type
  | .cleanup => none

/-- The payload of a request that names a session. -/
def Job.request : Job → Option ClientDataStruct
  | .event e =>
    match e.eventData with
    | .clientData data => some data
    | .registration _ => none
  | .cleanup => none

theorem Job.request_event {event : Event} {data : ClientDataStruct} :
    Job.request (.event event) = some data ↔ event.eventData = .clientData data := by
  unfold Job.request
  dsimp only
  split
  · rename_i d hdata
    rw [hdata, Option.some.injEq, EventData.clientData.injEq]
  · rename_i reg hdata
    rw [hdata]
    simp

/-- The payload of a registration. -/
def Job.registration : Job → Option RegistrationDataStruct
  | .event e =>
    match e.eventData with
    | .clientData _ => none
    | .registration reg => some reg
  | .cleanup => none

theorem Job.registration_event {event : Event} {reg : RegistrationDataStruct} :
    Job.registration (.event event) = some reg ↔ event.eventData = .registration reg := by
  unfold Job.registration
  dsimp only
  split
  · rename_i d hdata
    rw [hdata]
    simp
  · rename_i reg' hdata
    rw [hdata, Option.some.injEq, EventData.registration.injEq]

/-- The task has generated no token yet. -/
def NoToken (h : Hist) : Prop := ∀ tokenHash, ⟨.randomUuid, tokenHash⟩ ∉ h

/-- The last thing that the task did outside a transaction was to generate this token. -/
def Generated (tokenHash : Bytes) (h : Hist) : Prop :=
  ∃ h', h = ⟨.randomUuid, tokenHash⟩ :: h' ∨
    h = ⟨.beginWork, some ()⟩ :: ⟨.randomUuid, tokenHash⟩ :: h'

/-- The session that the request names was found valid. -/
def Validated (data : ClientDataStruct) (h : Hist) : Prop :=
  ⟨.validateSession data.clientId data.hash, true⟩ ∈ h

/-- The task has inserted the character for the account. -/
def Created (accountId characterId : Int) (h : Hist) : Prop :=
  ∃ (name classSlug raceSlug genderSlug : Bytes) (ids : List Int),
    ⟨.execPrepared (.createCharacter accountId name classSlug raceSlug genderSlug), some ids⟩ ∈ h ∧
      characterId ∈ ids

/-- A statement on behalf of the account of a validated request. -/
def OnBehalf (job : Job) (h : Hist) (p : ClientDataStruct → Prop) : Prop :=
  ∃ data, job.request = some data ∧ Validated data h ∧ p data

/-- The open transaction has inserted the user. -/
def Registers (login : Bytes) (h : Hist) : Prop :=
  ∃ (password email ip clientVersion : Bytes) (ids : List Int),
    ⟨.execPrepared (.registerUser login password email ip clientVersion), some ids⟩ ∈ current h

def mayExec (job : Job) (h : Hist) : Query → Prop
  | .getCharactersList accountId =>
    OnBehalf job h fun _ => ∃ event, job = .event event ∧ event.clientID = accountId
  | .checkLoginAvailable login => Verbatim 20 login
  | .checkCharacterNameExists name => Verbatim 20 name ∧
    ∃ accountId count h', h = ⟨.execPrepared (.getCharacterSlotCount accountId), some count⟩ ::
      ⟨.beginWork, some ()⟩ :: h'
  | .createCharacter accountId name _ _ _ =>
    OnBehalf job h fun data => data.clientId = accountId ∧ Verbatim 20 name ∧
      ∃ count h', count.headD 0 < MAX_CHARS_PER_ACCOUNT ∧
        h = ⟨.execPrepared (.checkCharacterNameExists name), some []⟩ ::
          ⟨.execPrepared (.getCharacterSlotCount accountId), some count⟩ ::
          ⟨.beginWork, some ()⟩ :: h'
  | .initCharacterState characterId | .initCharacterPosition characterId
  | .initCharacterDefaultSkills characterId _ | .initCharacterStarterItems characterId _
  | .initCharacterStarterCurrencies characterId _ =>
    OnBehalf job h fun data => Created data.clientId characterId h
  | .deleteCharacter _ accountId => OnBehalf job h fun data => data.clientId = accountId
  | .cleanupExpiredSessions =>
    job = .cleanup ∨ ∃ userId h', h = ⟨.execPrepared (.revokeUserSessions userId), some ()⟩ :: h'
  | .revokeUserSessions userId =>
    ∀ data, job.request = some data → ∃ row rows,
      ⟨.execPrepared (.searchUser data.login), some (row :: rows)⟩ ∈ h ∧ row.id = userId
  | .createUserSession userId tokenHash _ =>
    ∃ h', h = ⟨.execPrepared .cleanupExpiredSessions, some ()⟩ ::
      ⟨.execPrepared (.revokeUserSessions userId), some ()⟩ :: h' ∧ Generated tokenHash h'
  | .registerUser login _ _ _ _ =>
    (∃ reg, job.registration = some reg ∧ reg.login = login) ∧ Verbatim 20 login ∧
      ∃ h', h = ⟨.beginWork, some ()⟩ :: ⟨.abortWork, ()⟩ ::
        ⟨.execPrepared (.checkLoginAvailable login), some []⟩ :: ⟨.beginWork, some ()⟩ :: h'
  | _ => True

/-- The tokens that an answer may carry: none, the request's own, one that this task has
generated, and that of an entry which it has read from the session store. -/
def Disclosable (job : Job) (h : Hist) (hash : Bytes) : Prop :=
  hash = [] ∨ (∃ data, job.request = some data ∧ hash = data.hash) ∨
  ⟨.randomUuid, hash⟩ ∈ h ∨
  ∃ id entry, ⟨.getClientData id, some entry⟩ ∈ h ∧ hash = ClientDataStruct.hash entry

def mayCall (job : Job) (h : Hist) : Cmd → Prop
  | .validateSession id hash =>
    ∃ data, job.request = some data ∧ id = data.clientId ∧ hash = data.hash
  | .touchSession id now =>
    job.type = some .GET_CHARACTERS_LIST ∧ ∃ data h', job.request = some data ∧
      id = data.clientId ∧
      h = ⟨.nowMs, now⟩ :: ⟨.validateSession data.clientId data.hash, true⟩ :: h'
  | .getClientData id =>
    (∃ now r h', h = ⟨.touchSession id now, r⟩ :: h') ∨
    ∃ d h', h = ⟨.storeClientData d, ()⟩ :: h' ∧ id = d.clientId
  | .storeClientData d =>
    ∃ clientVersion h', h = ⟨.commitWork, some ()⟩ ::
      ⟨.execPrepared (.createUserSession d.clientId d.hash clientVersion), some ()⟩ :: h'
  | .removeClientData id =>
    job.type = some .DISCONNECT_CLIENT ∧ ∃ data, job.request = some data ∧ id = data.clientId ∧
      (id ≠ 0 → data.hash ≠ [] → ∃ h', h = ⟨.validateSession id data.hash, true⟩ :: h')
  | .sweepExpiredSessions _ _ => job = .cleanup
  | .execPrepared q => InOrder h q ∧ mayExec job h q
  | .commitWork =>
    ∃ q r h', h = ⟨.execPrepared q, some r⟩ :: h' ∧ (q.endsWork ∨ job = .cleanup)
  | .randomUuid => NoToken h
  | .sendResponse _ status message =>
    status = str "success" → ∀ v, headerHash message = some v →
      ∃ hash, v = .string hash ∧ Disclosable job h hash
  | _ => True

/-! ## What a registration ends in -/

/-- The login that the task has found available and is about to register: from the
check until the registration is committed or given up. -/
def loginClaim : Hist → Option Bytes
  | ⟨.execPrepared (.checkLoginAvailable login), some []⟩ :: _ => some login
  | ⟨.commitWork, _⟩ :: _ => none
  | ⟨.unwindWork, _⟩ :: _ => none
  | ⟨.beginWork, none⟩ :: ⟨.abortWork, _⟩ :: _ => none
  | _ :: h => loginClaim h
  | [] => none

/-- The answer that a registration has been given. -/
inductive Registered (reg : RegistrationDataStruct) : Hist → Prop where
  | ok {userId : Int} {sessionHash clientVersion : Bytes} {d : ClientDataStruct} {h : Hist}
    (hreg : Registers reg.login
      (⟨.execPrepared (.createUserSession userId sessionHash clientVersion), some ()⟩ :: h)) :
    Registered reg
      (⟨.sendResponse reg.socket (str "success")
          (EventHandler.registerSuccess sessionHash userId reg.login), ()⟩ ::
        ⟨.storeClientData d, ()⟩ :: ⟨.commitWork, some ()⟩ ::
        ⟨.execPrepared (.createUserSession userId sessionHash clientVersion), some ()⟩ :: h)
  | taken {rows : List Unit} :
    Registered reg
      [⟨.sendResponse reg.socket (str "error")
          (EventHandler.answer (str "ERR_LOGIN_TAKEN") [] 0 "registerAccount"), ()⟩,
        ⟨.abortWork, ()⟩, ⟨.execPrepared (.checkLoginAvailable reg.login), some (() :: rows)⟩,
        ⟨.beginWork, some ()⟩, ⟨.acquire, some ()⟩]
  | invalid {code : AccountRegisterResult}
    (hcode : AccountManager.validateRegistration reg.login reg.password reg.email = code)
    (hne : code ≠ .OK) :
    Registered reg
      [⟨.sendResponse reg.socket (str "error")
          (EventHandler.answer (str (EventHandler.registerFailureCode code)) [] 0
            "registerAccount"), ()⟩,
        ⟨.acquire, some ()⟩]
  | dbError {code : String} {h : Hist}
    (hcode : code = "ERR_REGISTER_FAILED" ∨ code = "ERR_INTERNAL") :
    Registered reg
      (⟨.sendResponse reg.socket (str "error")
        (EventHandler.answer (str code) [] 0 "registerAccount"), ()⟩ :: h)
  | unanswered (hsocket : reg.socket = none) {h : Hist} : Registered reg h

/-- What a finished task has done. -/
def jobPost (job : Job) (h : Hist) : Prop :=
  ∀ event reg, job = .event event → event.type = .REGISTER_ACCOUNT →
    event.eventData = .registration reg → Registered reg h

end LoginServer
