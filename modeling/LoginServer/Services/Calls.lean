import LoginServer.Services.CharacterManager
import LoginServer.Services.Authenticator

/-!
# What the services call

The services work on the database, on the token generator and, after a login, on the
session store. They ask for no connection, read no session and answer nobody
(`Cmd.isService`), and the entry that a login stores has no socket
(`Cmd.isSocketless`); each lemma also says whether an exception can leave the function.
`deleteCharacter` is the only one that deletes a character, and `authenticate` the only one
that searches for a user or counts a failed login; all others make only calls that are
`Cmd.isCommon`.
-/

namespace LoginServer

open Database Interleaving

/-- The calls that services make. -/
def Cmd.isService : Cmd → Bool
  | .storeClientData _ | .beginWork | .execPrepared _ | .commitWork | .abortWork | .unwindWork
  | .randomUuid => true
  | _ => false

/-- The program makes calls of services only, and throws only if `throws`. -/
abbrev IsService {α : Type} (throws : Prop) (m : M α) : Prop :=
  Makes (fun c : Cmd => c.isService = true) throws m

/-- A call of a service; what it stores has no socket. -/
def Cmd.isSocketless : Cmd → Bool
  | .storeClientData d => d.socket.isNone
  | c => c.isService

/-- The program makes such calls only, and throws only if `throws`. -/
abbrev IsSocketless {α : Type} (throws : Prop) (m : M α) : Prop :=
  Makes (fun c : Cmd => c.isSocketless = true) throws m

theorem IsSocketless.service {α : Type} {throws : Prop} {m : M α} (hm : IsSocketless throws m) :
    IsService throws m :=
  hm.mono (fun c hc => by cases c <;> first | rfl | cases hc) id

/-- The statements that only a login executes. -/
def Cmd.isLogin : Cmd → Bool
  | .execPrepared (.searchUser _) | .execPrepared (.incrementFailedLogins _) => true
  | _ => false

/-- As `isSocketless`, and no character is deleted, no user searched for and no failed login
counted. -/
def Cmd.isCommon : Cmd → Bool
  | .execPrepared (.deleteCharacter _ _) => false
  | c => c.isSocketless && !c.isLogin

/-- The program makes such calls only, and throws only if `throws`. -/
abbrev IsCommon {α : Type} (throws : Prop) (m : M α) : Prop :=
  Makes (fun c : Cmd => c.isCommon = true) throws m

/-- As `isCommon`, and no token is generated. -/
def Cmd.isTokenless : Cmd → Bool
  | .randomUuid => false
  | c => c.isCommon

/-- The program makes such calls only, and throws only if `throws`. -/
abbrev IsTokenless {α : Type} (throws : Prop) (m : M α) : Prop :=
  Makes (fun c : Cmd => c.isTokenless = true) throws m

theorem IsTokenless.common {α : Type} {throws : Prop} {m : M α} (hm : IsTokenless throws m) :
    IsCommon throws m :=
  hm.mono (fun c hc => by cases c <;> first | exact hc | cases hc) id

theorem Cmd.isSocketless_of_isCommon {c : Cmd} (hc : c.isCommon = true) :
    c.isSocketless = true := by
  unfold Cmd.isCommon at hc
  split at hc
  · cases hc
  · exact (Bool.and_eq_true_iff.mp hc).1

theorem Cmd.not_isLogin_of_isCommon {c : Cmd} (hc : c.isCommon = true) : c.isLogin = false := by
  unfold Cmd.isCommon at hc
  split at hc
  · cases hc
  · exact (Bool.not_eq_true' _).mp (Bool.and_eq_true_iff.mp hc).2

theorem IsCommon.socketless {α : Type} {throws : Prop} {m : M α}
    (hm : IsCommon throws m) : IsSocketless throws m :=
  hm.mono (fun _ => Cmd.isSocketless_of_isCommon) id

theorem IsCommon.service {α : Type} {throws : Prop} {m : M α}
    (hm : IsCommon throws m) : IsService throws m :=
  hm.socketless.service

section Rules

variable {α β : Type} {throws : Prop} {allowed : Cmd → Prop} {m : M α}

theorem makes_call {c : Cmd} (hc : allowed c) : Makes allowed throws (call c) :=
  fun _ => obeysE_call.mpr ⟨hc, fun _ => trivial⟩

theorem makes_touchSession {id : Int} (hclock : allowed .nowMs)
    (htouch : ∀ now, allowed (.touchSession id now)) : Makes allowed throws (touchSession id) :=
  makes_bind (makes_call hclock) fun now => makes_call (htouch now)

theorem makes_orThrow (a : Option α) : Makes allowed True (orThrow a) :=
  fun _ => obeysE_orThrow (fun _ _ => trivial) fun _ => trivial

/-- A statement, and what comes after it. -/
theorem makes_exec {q : Query} {f : q.Rows → M β} (hq : allowed (.execPrepared q))
    (hf : ∀ rows, Makes allowed True (f rows)) : Makes allowed True (execPrepared q >>= f) :=
  makes_bind (makes_bind (makes_call hq) fun r => makes_orThrow r) hf

theorem makes_commit {f : Unit → M β} (hcommit : allowed .commitWork)
    (hf : Makes allowed True (f ())) : Makes allowed True (commitWork >>= f) :=
  makes_bind (makes_bind (makes_call hcommit) fun r => makes_orThrow r) fun _ => hf

theorem makes_abort {f : Unit → M β} (habort : allowed .abortWork)
    (hf : Makes allowed throws (f ())) : Makes allowed throws (abortWork >>= f) :=
  makes_bind (makes_call habort) fun _ => hf

theorem makes_withWork (hbegin : allowed .beginWork) (hunwind : allowed .unwindWork)
    (hm : Makes allowed True m) : Makes allowed True (withWork m) := by
  refine makes_bind (makes_bind (makes_call hbegin) fun r => makes_orThrow r) ?_
  intro _
  refine makes_tryCatch hm fun e => ?_
  exact makes_bind (makes_call hunwind) fun _ => makes_throw e

end Rules

theorem probeUserStatus_common (login : Bytes) :
    IsCommon True (Authenticator.probeUserStatus login) :=
  makes_tryCatch (makes_withWork rfl rfl (makes_exec rfl fun _ => makes_abort rfl (makes_pure _)))
    fun _ => makes_pure _

theorem checkActiveBan_common (userID : Int) :
    IsCommon True (Authenticator.checkActiveBan userID) := by
  refine makes_withWork rfl rfl (makes_exec rfl fun rows => makes_abort rfl ?_)
  cases rows with
  | nil => exact makes_pure _
  | cons row rows => exact makes_pure _

theorem createSession_common (userID : Int) (clientVersion : Bytes) :
    IsCommon True (Authenticator.createSession userID clientVersion) := by
  refine makes_bind (makes_call rfl) fun uniqueHash => ?_
  refine makes_withWork rfl rfl ?_
  exact makes_exec rfl fun _ => makes_exec rfl fun _ => makes_exec rfl fun _ =>
    makes_commit rfl (makes_pure _)

theorem openSession_common (userID role : Int) (login clientVersion : Bytes) :
    IsCommon True (Authenticator.openSession userID role login clientVersion) := by
  refine makes_bind (checkActiveBan_common userID) fun banned => ?_
  cases banned with
  | some outcome => exact makes_pure _
  | none =>
    refine makes_bind (createSession_common userID clientVersion) fun uniqueHash => ?_
    exact makes_bind (makes_call rfl) fun _ => makes_pure _

/-- The only user that is searched for, and whose failed logins are counted, is the one with
the given login. -/
theorem authenticate_makes {allowed : Cmd → Prop} (hashPassword : Bytes → Bytes)
    {login : Bytes} (password clientIp clientVersion : Bytes)
    (hcommon : ∀ c : Cmd, c.isCommon = true → allowed c)
    (hsearch : allowed (.execPrepared (.searchUser login)))
    (hcount : allowed (.execPrepared (.incrementFailedLogins login))) :
    Makes allowed False
      (Authenticator.authenticate hashPassword login password clientIp clientVersion) := by
  have common : ∀ {α : Type} {m : M α}, IsCommon True m → Makes allowed True m :=
    fun hm => hm.mono hcommon id
  refine makes_tryCatch (makes_withWork (hcommon _ rfl) (hcommon _ rfl) ?_) fun _ => makes_pure _
  refine makes_exec hsearch fun rows => ?_
  cases rows with
  | nil =>
    exact makes_bind (common (probeUserStatus_common login)) fun _ =>
      makes_abort (hcommon _ rfl) (makes_pure _)
  | cons row rows =>
    refine makes_bind (makes_orThrow _) fun userID => ?_
    by_cases hpassword : row.password ≠ hashPassword password
    · rw [if_pos hpassword]
      exact makes_exec hcount fun _ => makes_commit (hcommon _ rfl) (makes_pure _)
    · rw [if_neg hpassword]
      exact makes_exec (hcommon _ rfl) fun _ => makes_commit (hcommon _ rfl)
        (common (openSession_common _ _ _ _))

theorem authenticate_socketless (hashPassword : Bytes → Bytes)
    (login password clientIp clientVersion : Bytes) :
    IsSocketless False
      (Authenticator.authenticate hashPassword login password clientIp clientVersion) :=
  authenticate_makes hashPassword password clientIp clientVersion
    (fun _ => Cmd.isSocketless_of_isCommon) rfl rfl

theorem checkLoginAvailable_common (login : Bytes) :
    IsCommon True (AccountManager.checkLoginAvailable login) :=
  makes_withWork rfl rfl (makes_exec rfl fun _ => makes_abort rfl (makes_pure _))

theorem createAccount_common (login passwordHash email ipStr clientVersion : Bytes) :
    IsCommon True
      (AccountManager.createAccount login passwordHash email ipStr clientVersion) := by
  refine makes_withWork rfl rfl (makes_exec rfl fun rows => ?_)
  cases rows with
  | nil => exact makes_abort rfl (makes_pure _)
  | cons id rows =>
    refine makes_bind (makes_orThrow _) fun userId => ?_
    refine makes_bind (makes_call rfl) fun sessionHash => ?_
    exact makes_exec rfl fun _ => makes_exec rfl fun _ => makes_exec rfl fun _ =>
      makes_commit rfl (makes_pure _)

theorem registerAccount_common (hashPassword : Bytes → Bytes)
    (login password email registrationIp clientVersion : Bytes) :
    IsCommon False
      (AccountManager.registerAccount hashPassword login password email registrationIp
        clientVersion) := by
  unfold AccountManager.registerAccount
  dsimp only
  split_ifs
  · exact makes_pure _
  · refine makes_tryCatch ?_ fun _ => makes_pure _
    refine makes_bind (checkLoginAvailable_common login) fun available => ?_
    cases available with
    | false => exact makes_pure _
    | true =>
      refine makes_bind (createAccount_common _ _ _ _ _) fun account => ?_
      cases account with
      | none => exact makes_pure _
      | some account =>
        exact makes_bind (makes_call rfl) fun _ => makes_pure _

theorem getCharactersListRow_common (row : CharacterListRow) :
    IsCommon True (CharacterManager.getCharactersListRow row) := by
  refine makes_bind (makes_orThrow _) fun _ => makes_bind (makes_orThrow _) fun _ => ?_
  refine makes_bind (makes_orThrow _) fun _ => makes_bind (makes_orThrow _) fun _ => ?_
  refine makes_bind (makes_orThrow _) fun _ => makes_bind (makes_orThrow _) fun _ => ?_
  exact makes_pure _

theorem getCharactersListLoop_common (rows : List CharacterListRow)
    (charactersList : List CharacterDataStruct) :
    IsCommon True (CharacterManager.getCharactersListLoop charactersList rows) := by
  induction rows generalizing charactersList with
  | nil => exact makes_pure _
  | cons row rows ih =>
    refine makes_bind (makes_tryCatch ?_ fun _ => makes_pure _) fun character => ?_
    · exact makes_bind (getCharactersListRow_common row) fun _ => makes_pure _
    · cases character with
      | none => exact makes_pure _
      | some character => exact ih _

theorem getCharactersList_common (accountId : Int) :
    IsCommon False (CharacterManager.getCharactersList accountId) := by
  refine makes_tryCatch (makes_withWork rfl rfl (makes_exec rfl fun rows => ?_))
    fun _ => makes_pure _
  cases rows with
  | nil => exact makes_abort rfl (makes_pure _)
  | cons row rows =>
    refine makes_bind (getCharactersListLoop_common _ _) fun result => ?_
    obtain ⟨charactersList, complete⟩ := result
    cases complete with
    | false => exact makes_bind (makes_call rfl) fun _ => makes_pure _
    | true =>
      refine makes_bind (makes_tryCatch ?_ fun _ => makes_call rfl)
        fun _ => makes_pure _
      exact makes_bind (makes_call rfl) fun r => makes_orThrow r

theorem getCharacterEquipmentPreview_common (characterId : Int) :
    IsCommon False (CharacterManager.getCharacterEquipmentPreview characterId) :=
  makes_tryCatch (makes_withWork rfl rfl (makes_exec rfl fun _ => makes_commit rfl (makes_pure _)))
    fun _ => makes_pure _

theorem initCharacter_tokenless (newCharacterId : Int) (characterClass : Bytes) :
    IsTokenless True (CharacterManager.initCharacter newCharacterId characterClass) := by
  refine makes_exec rfl fun classResult => makes_exec rfl fun _ => makes_exec rfl fun _ => ?_
  dsimp only
  split_ifs
  · exact makes_exec rfl fun _ => makes_exec rfl fun _ => makes_exec rfl fun _ =>
      makes_commit rfl (makes_pure _)
  · exact makes_commit rfl (makes_pure _)

theorem createCharacter_tokenless (accountId : Int)
    (characterName characterClass characterRace characterGender : Bytes) :
    IsTokenless False (CharacterManager.createCharacter accountId characterName characterClass
      characterRace characterGender) := by
  unfold CharacterManager.createCharacter
  split_ifs
  · exact makes_pure _
  · exact makes_pure _
  · exact makes_pure _
  · refine makes_tryCatch (makes_withWork rfl rfl (makes_exec rfl fun slotResult => ?_))
      fun _ => makes_pure _
    refine makes_bind (makes_orThrow _) fun slotCount => ?_
    split_ifs
    · exact makes_abort rfl (makes_pure _)
    · refine makes_exec rfl fun nameCheck => ?_
      split_ifs
      · exact makes_abort rfl (makes_pure _)
      · refine makes_exec rfl fun ids => ?_
        cases ids with
        | nil => exact makes_abort rfl (makes_pure _)
        | cons id ids =>
          exact makes_bind (makes_orThrow _) fun _ => initCharacter_tokenless _ _

theorem createCharacter_common (accountId : Int)
    (characterName characterClass characterRace characterGender : Bytes) :
    IsCommon False (CharacterManager.createCharacter accountId characterName characterClass
      characterRace characterGender) :=
  IsTokenless.common
    (createCharacter_tokenless accountId characterName characterClass characterRace characterGender)

/-- The only character that is deleted is the given one, for the given account. -/
theorem deleteCharacter_makes {allowed : Cmd → Prop} {accountId characterId : Int}
    (hbegin : allowed .beginWork) (hunwind : allowed .unwindWork) (hcommit : allowed .commitWork)
    (hdelete : allowed (.execPrepared (.deleteCharacter characterId accountId))) :
    Makes allowed False (CharacterManager.deleteCharacter accountId characterId) :=
  makes_tryCatch (makes_withWork hbegin hunwind (makes_exec hdelete fun _ =>
    makes_commit hcommit (makes_pure _))) fun _ => makes_pure _

theorem deleteCharacter_socketless (accountId characterId : Int) :
    IsSocketless False (CharacterManager.deleteCharacter accountId characterId) :=
  deleteCharacter_makes rfl rfl rfl rfl

end LoginServer
