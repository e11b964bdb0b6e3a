import LoginServer.Interleaving.Typestate
import LoginServer.Server.Discipline

/-!
# The scopes of the transactions

Every handler ends the transactions that it begins, on every path and also where an
exception takes it out: that is the automaton `workScope`, which `program_scoped` checks
the handlers against. Inside a transaction a handler only executes statements, but for two
places: a login that finds no user tries to begin the transaction of the status probe, and
a registration that has inserted its user generates the token of the session. After a
statement that locks rows only such statements follow, and the end of the transaction.
-/

namespace LoginServer

open Database Interleaving

/-- The place of a statement among those of its transaction that lock rows; 0 if it locks
none. -/
def Database.Query.lockStage : Query → Nat
  | .revokeUserSessions _ => 1
  | .cleanupExpiredSessions => 2
  | .incrementFailedLogins _ | .resetFailedLogins _ _ _ | .createUserSession _ _ _
  | .deleteCharacter _ _ | .initCharacterStarterCurrencies _ _ => 3
  | _ => 0

/-- What a thread has done since its transaction began. -/
inductive Work where
  | outside
  | reading
  /-- Its last statement was a `search_user` that has found nobody. -/
  | missed
  /-- Its last statement was a `register_user` that has inserted a user. -/
  | registered
  /-- It has executed a statement that locks rows. -/
  | locking
deriving DecidableEq

namespace Work

/-- After a statement and its rows. -/
def executed (w : Work) (q : Query) (rows : q.Rows) : Work :=
  match w, q.lockStage with
  | .locking, _ | _, _ + 1 => .locking
  | _, 0 => match q, rows with
    | .searchUser _, [] => .missed
    | .registerUser _ _ _ _ _, _ :: _ => .registered
    | _, _ => .reading

def next : Work → (c : Cmd) → c.Reply → Work
  | _, .beginWork, some _ => .reading
  | w, .execPrepared q, some rows => w.executed q rows
  | _, .commitWork, _ => .outside
  | _, .abortWork, _ => .outside
  | _, .unwindWork, _ => .outside
  | w, _, _ => w

def allows : Work → Cmd → Bool
  | .outside, .execPrepared _ | .outside, .commitWork => false
  | .outside, _ => true
  | .locking, .execPrepared q => 0 < q.lockStage
  | _, .execPrepared _ | _, .commitWork | _, .abortWork | _, .unwindWork => true
  -- the status probe, and the token of a registration
  | .missed, .beginWork | .registered, .randomUuid => true
  | _, _ => false

theorem executed_of_stage {q : Query} (hq : 0 < q.lockStage) (w : Work) (rows : q.Rows) :
    w.executed q rows = .locking := by
  unfold executed
  split
  · rfl
  · rfl
  · omega

theorem executed_ne_outside {q : Query} (w : Work) (rows : q.Rows) :
    w.executed q rows ≠ .outside := by
  unfold executed
  split
  · simp
  · simp
  · split <;> simp

end Work

def workScope : Typestate Cmd Cmd.Reply Work where
  init := .outside
  next := Work.next
  allows w c := w.allows c

/-! ## Rules -/

section Rules

variable {α β : Type} {m : M α}

/-- A piece of a handler between its transactions, and one that leaves none open. -/
def Scoped (m : M α) : Prop :=
  workScope.Follows .outside (fun w _ => w = .outside) (fun w => w = .outside) m

/-- The rest of a transaction that returns after its end; an exception may leave it. -/
def Finishes (w : Work) (m : M α) : Prop :=
  workScope.Follows w (fun w' _ => w' = .outside) (fun _ => True) m

/-- A piece of a handler that does not touch its transaction. -/
def Apart (m : M α) : Prop :=
  ∀ w, workScope.Follows w (fun w' _ => w' = w) (fun w' => w' = w) m

theorem Apart.scoped (h : Apart m) : Scoped m := h .outside

theorem Scoped.finishes (h : Scoped m) : Finishes .outside m :=
  h.mono (fun _ _ hw => hw) fun _ _ => trivial

theorem apart_pure (x : α) : Apart (pure x : M α) := fun _ => Typestate.follows_pure rfl

theorem apart_orThrow (a : Option α) : Apart (orThrow a) := by
  intro w
  cases a with
  | none => exact Typestate.follows_throw _ rfl
  | some x => exact Typestate.follows_pure rfl

theorem apart_bind {f : α → M β} (hm : Apart m) (hf : ∀ x, Apart (f x)) : Apart (m >>= f) := by
  intro w
  refine Typestate.follows_bind (hm w) ?_
  rintro w' x rfl
  exact hf x w'

theorem apart_tryCatch {f : StdException → M α} (hm : Apart m) (hf : ∀ e, Apart (f e)) :
    Apart (tryCatch m f) := by
  intro w
  refine Typestate.follows_tryCatch (hm w) ?_
  rintro w' e rfl
  exact hf e w'

theorem scoped_pure (x : α) : Scoped (pure x : M α) := (apart_pure x).scoped

theorem scoped_bind {f : α → M β} (hm : Scoped m) (hf : ∀ x, Scoped (f x)) : Scoped (m >>= f) := by
  refine Typestate.follows_bind hm ?_
  rintro w x rfl
  exact hf x

theorem scoped_tryCatch {f : StdException → M α} (hm : Scoped m) (hf : ∀ e, Scoped (f e)) :
    Scoped (tryCatch m f) := by
  refine Typestate.follows_tryCatch hm ?_
  rintro w e rfl
  exact hf e

theorem scoped_mapM {f : α → M β} (hf : ∀ x, Scoped (f x)) (as : List α) : Scoped (as.mapM f) :=
  Typestate.follows_mapM fun x _ => hf x

theorem scoped_forM {f : α → M PUnit} (hf : ∀ x, Scoped (f x)) (as : List α) :
    Scoped (as.forM f) :=
  Typestate.follows_forM fun x _ => hf x

/-- A call that is no business of a transaction. -/
theorem scoped_call {c : Cmd} (hallows : Work.outside.allows c = true)
    (hnext : ∀ r, Work.outside.next c r = .outside) : Scoped (call c) :=
  Typestate.follows_call hallows hnext

theorem scoped_acquire : Scoped acquire :=
  scoped_bind (scoped_call rfl fun _ => rfl) fun r => (apart_orThrow r).scoped

theorem finishes_execPrepared {w : Work} {q : Query} {f : q.Rows → M α}
    (hallows : w.allows (.execPrepared q) = true)
    (hf : ∀ rows, Finishes (w.executed q rows) (f rows)) : Finishes w (execPrepared q >>= f) := by
  intro h hstate
  subst hstate
  refine obeysE_bind.mpr (obeysE_execPrepared hallows (fun rows => ?_) trivial)
  exact hf rows _ rfl

/-- A statement that locks nothing, and what comes after it. -/
theorem finishes_read {q : Query} {f : q.Rows → M α}
    (hq : ∀ rows, Work.reading.executed q rows = .reading)
    (hf : ∀ rows, Finishes .reading (f rows)) : Finishes .reading (execPrepared q >>= f) := by
  refine finishes_execPrepared rfl fun rows => ?_
  rw [hq]
  exact hf rows

/-- A statement that may lock rows, and what comes after it. -/
theorem finishes_lock {w : Work} {q : Query} {n : Nat} {f : q.Rows → M α} (hw : w ≠ .outside)
    (hq : q.lockStage = n + 1) (hf : ∀ rows, Finishes .locking (f rows)) :
    Finishes w (execPrepared q >>= f) := by
  have hlocks : 0 < q.lockStage := by omega
  refine finishes_execPrepared ?_ fun rows => ?_
  · cases w with
    | outside => exact absurd rfl hw
    | locking => exact decide_eq_true hlocks
    | reading | missed | registered => rfl
  · rw [Work.executed_of_stage hlocks]
    exact hf rows

theorem finishes_call {w : Work} {c : Cmd} {f : c.Reply → M α} (hallows : w.allows c = true)
    (hf : ∀ r, Finishes (w.next c r) (f r)) : Finishes w (call c >>= f) :=
  Typestate.follows_bind (Typestate.follows_call (Q := fun w' r => w' = w.next c r) hallows
    fun _ => rfl) (by
      rintro w' r rfl
      exact hf r)

/-- A commit ends the transaction, also one that throws. -/
theorem finishes_commit {w : Work} (hw : w ≠ .outside) :
    workScope.Follows w (fun w' _ => w' = .outside) (fun w' => w' = .outside) commitWork := by
  have hallows : w.allows .commitWork = true := by
    cases w with
    | outside => exact absurd rfl hw
    | _ => rfl
  intro h hstate
  subst hstate
  exact obeysE_commitWork hallows rfl rfl

/-- The commit, and what comes after it. -/
theorem finishes_commitWork {w : Work} {f : Unit → M α} (hw : w ≠ .outside)
    (hf : Scoped (f ())) : Finishes w (commitWork >>= f) := by
  refine Typestate.follows_bind ((finishes_commit hw).mono (fun _ _ hw => hw)
    fun _ _ => trivial) ?_
  rintro w' x rfl
  exact hf.finishes

theorem finishes_abortWork {w : Work} {f : Unit → M α} (hf : Scoped (f ())) :
    Finishes w (abortWork >>= f) := by
  refine finishes_call ?_ fun r => hf.finishes
  cases w with
  | _ => rfl

/-- What does not touch the transaction, and what comes after it. -/
theorem finishes_apart {w : Work} {f : α → M β} (hm : Apart m) (hf : ∀ x, Finishes w (f x)) :
    Finishes w (m >>= f) := by
  refine Typestate.follows_bind ((hm w).mono (fun _ _ hw => hw) fun _ _ => trivial) ?_
  rintro w' x rfl
  exact hf x

/-- A transaction that its body brings to an end, or its destructor. -/
theorem scoped_withWork {body : M α} (hbody : Finishes .reading body) :
    Scoped (withWork body) := by
  intro h hstate
  have hallows : workScope.may h .beginWork := by
    rw [Typestate.may, hstate]
    rfl
  refine obeysE_withWork hallows hstate ?_
  refine (hbody _ rfl).mono (fun _ _ hq => hq) fun h' _ _ => ⟨?_, rfl⟩
  rw [Typestate.may]
  cases workScope.state h' with
  | _ => rfl

end Rules

/-! ## The services -/

theorem checkLoginAvailable_scoped (login : Bytes) :
    Scoped (AccountManager.checkLoginAvailable login) := by
  refine scoped_withWork (finishes_read (fun _ => rfl) fun r => ?_)
  exact finishes_abortWork (scoped_pure _)

/-- The statements of a new session, from the revocation of the old ones on. -/
theorem finishes_session {α : Type} {w : Work} (hw : w ≠ .outside) (userId : Int)
    (tokenHash clientVersion : Bytes) (x : α) :
    Finishes w (do
      execPrepared (.revokeUserSessions userId)
      execPrepared .cleanupExpiredSessions
      execPrepared (.createUserSession userId tokenHash clientVersion)
      commitWork
      return x) := by
  refine finishes_lock hw rfl fun _ => ?_
  refine finishes_lock (by simp) rfl fun _ => ?_
  refine finishes_lock (by simp) rfl fun _ => ?_
  exact finishes_commitWork (by simp) (scoped_pure x)

theorem createAccount_scoped (login passwordHash email ipStr clientVersion : Bytes) :
    Scoped (AccountManager.createAccount login passwordHash email ipStr clientVersion) := by
  refine scoped_withWork (finishes_execPrepared rfl fun rows => ?_)
  cases rows with
  | nil => exact finishes_abortWork (scoped_pure _)
  | cons id rows =>
    change Finishes .registered _
    refine finishes_apart (apart_orThrow _) fun userId => ?_
    refine finishes_call rfl fun sessionHash => ?_
    exact finishes_session (by simp [Work.next]) userId sessionHash clientVersion _

theorem registerAccount_scoped (hashPassword : Bytes → Bytes)
    (login password email registrationIp clientVersion : Bytes) :
    Scoped (AccountManager.registerAccount hashPassword login password email registrationIp
      clientVersion) := by
  unfold AccountManager.registerAccount
  dsimp only
  split_ifs
  · exact scoped_pure _
  · refine scoped_tryCatch ?_ fun _ => scoped_pure _
    refine scoped_bind (checkLoginAvailable_scoped login) fun available => ?_
    cases available with
    | false => exact scoped_pure _
    | true =>
      refine scoped_bind (createAccount_scoped _ _ _ _ _) fun created => ?_
      cases created with
      | none => exact scoped_pure _
      | some account =>
        exact scoped_bind (scoped_call rfl fun _ => rfl) fun _ => scoped_pure _

/-- The probe finds the transaction of `search_user` open. Where it would begin its own all
the same, that is over when the probe is. -/
theorem finishes_probeUserStatus {α : Type} (login : Bytes) {f : AuthStatus → M α}
    (hf : ∀ status w, Finishes w (f status)) :
    Finishes .missed (Authenticator.probeUserStatus login >>= f) := by
  refine Typestate.follows_bind (P := fun _ _ => True) ?_ fun w status _ => hf status w
  refine Typestate.follows_tryCatch (F := fun _ => True) ?_ fun _ _ _ =>
    Typestate.follows_pure trivial
  intro h hstate
  have hallows : workScope.may h .beginWork := by
    rw [Typestate.may, hstate]
    rfl
  refine obeysE_withWork hallows trivial ?_
  refine ObeysE.mono (fun _ _ _ => trivial) ?_ (finishes_read (fun _ => rfl) ?_ _ rfl)
  · intro h' _ _
    refine ⟨?_, trivial⟩
    rw [Typestate.may]
    cases workScope.state h' with
    | _ => rfl
  · exact fun _ => finishes_abortWork (scoped_pure _)

theorem openSession_scoped (userID role : Int) (login clientVersion : Bytes) :
    Scoped (Authenticator.openSession userID role login clientVersion) := by
  refine scoped_bind (scoped_withWork (finishes_read (fun _ => rfl) fun banRow => ?_))
    fun banned => ?_
  · refine finishes_abortWork ?_
    cases banRow with
    | nil => exact scoped_pure _
    | cons ban bans => exact scoped_pure _
  · cases banned with
    | some outcome => exact scoped_pure _
    | none =>
      refine scoped_bind ?_ fun uniqueHash => ?_
      · refine scoped_bind (scoped_call rfl fun _ => rfl) fun uniqueHash => ?_
        exact scoped_withWork (finishes_session (by simp) userID uniqueHash clientVersion _)
      · exact scoped_bind (scoped_call rfl fun _ => rfl) fun _ => scoped_pure _

theorem authenticate_scoped (hashPassword : Bytes → Bytes)
    (login password clientIp clientVersion : Bytes) :
    Scoped (Authenticator.authenticate hashPassword login password clientIp clientVersion) := by
  refine scoped_tryCatch ?_ fun _ => scoped_pure _
  refine scoped_withWork (finishes_execPrepared rfl fun rows => ?_)
  cases rows with
  | nil =>
    change Finishes .missed _
    exact finishes_probeUserStatus login fun status w => finishes_abortWork (scoped_pure _)
  | cons row rows =>
    change Finishes .reading _
    refine finishes_apart (apart_orThrow _) fun userID => ?_
    split
    · refine finishes_lock (by simp) rfl fun _ => ?_
      exact finishes_commitWork (by simp) (scoped_pure _)
    · refine finishes_lock (by simp) rfl fun _ => ?_
      exact finishes_commitWork (by simp) (openSession_scoped _ _ _ _)

theorem getCharactersListLoop_apart (charactersList : List CharacterDataStruct)
    (rows : List CharacterListRow) :
    Apart (CharacterManager.getCharactersListLoop charactersList rows) := by
  induction rows generalizing charactersList with
  | nil => exact apart_pure _
  | cons row rows ih =>
    refine apart_bind (apart_tryCatch ?_ fun _ => apart_pure _) fun character => ?_
    · refine apart_bind ?_ fun _ => apart_pure _
      refine apart_bind (apart_orThrow _) fun _ => apart_bind (apart_orThrow _) fun _ => ?_
      refine apart_bind (apart_orThrow _) fun _ => apart_bind (apart_orThrow _) fun _ => ?_
      exact apart_bind (apart_orThrow _) fun _ => apart_bind (apart_orThrow _) fun _ => apart_pure _
    · cases character with
      | none => exact apart_pure _
      | some character => exact ih _

theorem getCharactersList_scoped (accountId : Int) :
    Scoped (CharacterManager.getCharactersList accountId) := by
  refine scoped_tryCatch ?_ fun _ => scoped_pure _
  refine scoped_withWork (finishes_read (fun _ => rfl) fun rows => ?_)
  cases rows with
  | nil => exact finishes_abortWork (scoped_pure _)
  | cons row rows =>
    refine finishes_apart (getCharactersListLoop_apart _ _) fun result => ?_
    obtain ⟨charactersList, complete⟩ := result
    cases complete with
    | true =>
      refine Typestate.follows_bind (P := fun w _ => w = .outside)
        (Typestate.follows_tryCatch (finishes_commit (by simp)) ?_) ?_
      · rintro w e rfl
        exact Typestate.follows_call (c := Cmd.unwindWork) (Q := fun w _ => w = Work.outside) rfl
          fun _ => rfl
      · rintro w x rfl
        exact Typestate.follows_pure rfl
    | false => exact finishes_call rfl fun _ => (scoped_pure _).finishes

theorem getCharacterEquipmentPreview_scoped (characterId : Int) :
    Scoped (CharacterManager.getCharacterEquipmentPreview characterId) := by
  refine scoped_tryCatch ?_ fun _ => scoped_pure _
  refine scoped_withWork (finishes_read (fun _ => rfl) fun rows => ?_)
  exact finishes_commitWork (by simp) (scoped_pure _)

theorem initCharacter_finishes (newCharacterId : Int) (characterClass : Bytes) :
    Finishes .reading (CharacterManager.initCharacter newCharacterId characterClass) := by
  refine finishes_read (fun _ => rfl) fun classResult => ?_
  refine finishes_read (fun _ => rfl) fun _ => finishes_read (fun _ => rfl) fun _ => ?_
  dsimp only
  split_ifs
  · refine finishes_read (fun _ => rfl) fun _ => finishes_read (fun _ => rfl) fun _ => ?_
    refine finishes_lock (by simp) rfl fun _ => ?_
    exact finishes_commitWork (by simp) (scoped_pure _)
  · exact finishes_commitWork (by simp) (scoped_pure _)

theorem createCharacter_scoped (accountId : Int)
    (characterName characterClass characterRace characterGender : Bytes) :
    Scoped (CharacterManager.createCharacter accountId characterName characterClass characterRace
      characterGender) := by
  unfold CharacterManager.createCharacter
  split_ifs
  · exact scoped_pure _
  · exact scoped_pure _
  · exact scoped_pure _
  refine scoped_tryCatch ?_ fun _ => scoped_pure _
  refine scoped_withWork (finishes_read (fun _ => rfl) fun slotResult => ?_)
  refine finishes_apart (apart_orThrow _) fun slotCount => ?_
  split_ifs
  · exact finishes_abortWork (scoped_pure _)
  · refine finishes_read (fun _ => rfl) fun nameCheck => ?_
    split_ifs
    · exact finishes_abortWork (scoped_pure _)
    · refine finishes_read (fun _ => rfl) fun rows => ?_
      cases rows with
      | nil => exact finishes_abortWork (scoped_pure _)
      | cons id rows =>
        exact finishes_apart (apart_orThrow _) fun id => initCharacter_finishes id _

theorem deleteCharacter_scoped (accountId characterId : Int) :
    Scoped (CharacterManager.deleteCharacter accountId characterId) := by
  refine scoped_tryCatch ?_ fun _ => scoped_pure _
  refine scoped_withWork (finishes_lock (by simp) rfl fun rows => ?_)
  exact finishes_commitWork (by simp) (scoped_pure _)

/-! ## The handlers -/

namespace EventHandler

theorem sendResponse_scoped (socket : Option Socket) (status : Bytes) (message : Json) :
    Scoped (sendResponse socket status message) :=
  scoped_call rfl fun _ => rfl

theorem withSession_scoped (data : ClientDataStruct) (unauthorized : String) (hash₀ : Bytes)
    (clientId₀ : Int) (eventType : String) {body : M Unit} (hbody : Scoped body) :
    Scoped (withSession data unauthorized hash₀ clientId₀ eventType body) := by
  unfold withSession
  split_ifs
  · exact sendResponse_scoped _ _ _
  · refine scoped_bind (scoped_call rfl fun _ => rfl) fun valid => ?_
    cases valid with
    | false => exact sendResponse_scoped _ _ _
    | true => exact hbody

theorem handleAuthentificateClientEvent_scoped (p : Platform) (event : Event) :
    Scoped (handleAuthentificateClientEvent p event) := by
  unfold handleAuthentificateClientEvent
  split
  · refine scoped_bind (scoped_tryCatch (scoped_bind scoped_acquire fun _ => scoped_pure _)
      fun _ => scoped_pure _) fun acquired => ?_
    cases acquired with
    | false => exact sendResponse_scoped _ _ _
    | true =>
      refine scoped_bind (scoped_call rfl fun _ => rfl) fun address => ?_
      refine scoped_bind (authenticate_scoped _ _ _ _ _) fun outcome => ?_
      unfold answerAuthentification
      split_ifs
      · exact sendResponse_scoped _ _ _
      · refine scoped_bind (scoped_call rfl fun _ => rfl) fun current => ?_
        split
        · exact sendResponse_scoped _ _ _
        · exact sendResponse_scoped _ _ _
        · exact sendResponse_scoped _ _ _
  · exact scoped_pure _

theorem handleGetCharactersListEvent_scoped (event : Event) :
    Scoped (handleGetCharactersListEvent event) := by
  unfold handleGetCharactersListEvent
  split
  · refine withSession_scoped _ _ _ _ _ ?_
    refine scoped_bind (scoped_bind (scoped_call rfl fun _ => rfl) fun now =>
      scoped_call rfl fun _ => rfl) fun touched => ?_
    refine scoped_bind (scoped_call rfl fun _ => rfl) fun current => ?_
    cases current with
    | none => exact sendResponse_scoped _ _ _
    | some current =>
      refine scoped_bind scoped_acquire fun _ => ?_
      refine scoped_bind (getCharactersList_scoped _) fun charactersList => ?_
      refine scoped_bind (scoped_mapM (fun character => ?_) charactersList) fun _ =>
        sendResponse_scoped _ _ _
      exact scoped_bind (getCharacterEquipmentPreview_scoped _) fun _ => scoped_pure _
  · exact scoped_pure _

theorem handleCreateCharacterEvent_scoped (event : Event) :
    Scoped (handleCreateCharacterEvent event) := by
  unfold handleCreateCharacterEvent
  split
  · refine withSession_scoped _ _ _ _ _ (scoped_bind scoped_acquire fun _ => ?_)
    refine scoped_bind (createCharacter_scoped _ _ _ _ _) fun result => ?_
    split_ifs
    · exact sendResponse_scoped _ _ _
    · exact sendResponse_scoped _ _ _
  · exact scoped_pure _

theorem handleDeleteCharacterEvent_scoped (event : Event) :
    Scoped (handleDeleteCharacterEvent event) := by
  unfold handleDeleteCharacterEvent
  split
  · refine withSession_scoped _ _ _ _ _ ?_
    dsimp only
    split_ifs
    · exact sendResponse_scoped _ _ _
    · refine scoped_bind scoped_acquire fun _ => ?_
      refine scoped_bind (deleteCharacter_scoped _ _) fun deleted => ?_
      split_ifs
      · exact sendResponse_scoped _ _ _
      · exact sendResponse_scoped _ _ _
  · exact scoped_pure _

theorem answerCreationOptions_scoped (data : ClientDataStruct) :
    Scoped (answerCreationOptions data) := by
  refine scoped_bind scoped_acquire fun _ => scoped_withWork ?_
  refine finishes_read (fun _ => rfl) fun classRows => ?_
  refine finishes_read (fun _ => rfl) fun raceRows => ?_
  refine finishes_read (fun _ => rfl) fun genderRows => ?_
  refine finishes_commitWork (by simp) ?_
  refine scoped_bind (scoped_mapM (fun row => ?_) classRows) fun classes => ?_
  · exact scoped_bind (apart_orThrow _).scoped fun _ => scoped_pure _
  refine scoped_bind (scoped_mapM (fun row => ?_) raceRows) fun races => ?_
  · exact scoped_bind (apart_orThrow _).scoped fun _ => scoped_pure _
  refine scoped_bind (scoped_mapM (fun row => ?_) genderRows) fun genders => ?_
  · exact scoped_bind (apart_orThrow _).scoped fun _ => scoped_pure _
  exact sendResponse_scoped _ _ _

theorem handleGetCharacterCreationOptionsEvent_scoped (event : Event) :
    Scoped (handleGetCharacterCreationOptionsEvent event) := by
  unfold handleGetCharacterCreationOptionsEvent
  split
  · refine scoped_tryCatch ?_ fun _ => scoped_pure _
    exact withSession_scoped _ _ _ _ _ (answerCreationOptions_scoped _)
  · exact scoped_pure _

theorem handleDisconnectClientEvent_scoped (event : Event) :
    Scoped (handleDisconnectClientEvent event) := by
  unfold handleDisconnectClientEvent
  split
  · rename_i data _
    have hmismatch : Scoped (disconnectMismatch data) := by
      unfold disconnectMismatch
      split_ifs
      · exact scoped_bind (scoped_call rfl fun _ => rfl) fun _ => scoped_pure _
      · exact scoped_pure _
    have hnotify : Scoped (getClientsDataMap >>= fun clients => clients.forM fun client =>
        sendResponse client.socket (str "success")
          (answer (str "Client disconnected!") [] data.clientId "disconnectClient")) := by
      refine scoped_bind (scoped_call rfl fun _ => rfl) fun clients => ?_
      exact scoped_forM (fun client => sendResponse_scoped _ _ _) clients
    refine scoped_bind hmismatch fun mismatch => ?_
    cases mismatch with
    | true => exact hnotify
    | false => exact scoped_bind (scoped_call rfl fun _ => rfl) fun _ => hnotify
  · exact scoped_pure _

theorem handleRegisterAccountEvent_scoped (p : Platform) (event : Event) :
    Scoped (handleRegisterAccountEvent p event) := by
  unfold handleRegisterAccountEvent
  split
  · refine scoped_tryCatch (scoped_bind scoped_acquire fun _ => ?_) fun _ => ?_
    · refine scoped_bind (registerAccount_scoped _ _ _ _ _ _) fun result => ?_
      split
      split_ifs
      · exact sendResponse_scoped _ _ _
      · exact sendResponse_scoped _ _ _
    · split_ifs
      · exact sendResponse_scoped _ _ _
      · exact scoped_pure _
  · exact scoped_pure _

theorem dispatchEvent_scoped (p : Platform) (event : Event) : Scoped (dispatchEvent p event) := by
  unfold dispatchEvent
  split
  · unfold handlePingClientEvent
    split
    · exact sendResponse_scoped _ _ _
    · exact scoped_pure _
  · exact handleAuthentificateClientEvent_scoped p event
  · exact handleRegisterAccountEvent_scoped p event
  · exact handleGetCharactersListEvent_scoped event
  · exact handleCreateCharacterEvent_scoped event
  · exact handleDeleteCharacterEvent_scoped event
  · exact handleGetCharacterCreationOptionsEvent_scoped event
  · exact handleDisconnectClientEvent_scoped event

end EventHandler

theorem periodicCleanup_scoped (cleanupIntervalMs : Int) :
    Scoped (periodicCleanup cleanupIntervalMs) := by
  refine scoped_bind (scoped_tryCatch (scoped_bind scoped_acquire fun _ => ?_)
    fun _ => scoped_pure _) fun _ => ?_
  · refine scoped_withWork (finishes_lock (by simp) rfl fun _ => ?_)
    exact (finishes_commit (by simp)).mono (fun _ _ hw => hw) fun _ _ => trivial
  · exact scoped_bind (scoped_call rfl fun _ => rfl) fun now =>
      scoped_bind (scoped_call rfl fun _ => rfl) fun _ => scoped_pure _

/-- Every task stays in the scopes of its transactions, and has closed them all at its end. -/
theorem program_scoped (p : Platform) (cfg : ServerConfig) (job : Job) :
    Obeys workScope.may (fun h _ => workScope.state h = .outside) []
      ((loginServer p cfg).program job) := by
  cases job with
  | event event => exact obeys_task (EventHandler.dispatchEvent_scoped p event [] rfl)
  | cleanup => exact obeys_task (periodicCleanup_scoped _ [] rfl)

end LoginServer
