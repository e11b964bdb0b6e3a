import LoginServer.Services.Calls
import LoginServer.Server.LoginServer

/-!
# What the handlers call

`CallsFor event` says of the calls that the handler of `event` makes what depends on its
payload alone: it validates no session but the one that the request names, deletes no
character but the one that the request names for the account of the request, searches for a
user and counts a failed login for a login request only, stores no socket, and every error
that it sends has the shape that makes it machine readable.
-/

namespace LoginServer

open Database Interleaving

/-- An entry that the call stores has no socket. -/
def Cmd.storesSocketless : Cmd → Bool
  | .storeClientData d => d.socket.isNone
  | _ => true

/-- What a task for `event` may call. -/
structure CallsFor (event : Event) (c : Cmd) : Prop where
  stores : c.storesSocketless = true
  session : ∀ id hash, c = .validateSession id hash →
    ∃ data, event.eventData = .clientData data ∧ id = data.clientId ∧ hash = data.hash
  deletion : ∀ characterId accountId, c = .execPrepared (.deleteCharacter characterId accountId) →
    ∃ data, event.eventData = .clientData data ∧ accountId = data.clientId ∧
      characterId = data.characterData.characterId
  error : ∀ socket message, c = .sendResponse socket (str "error") message →
    IsErrorMessage message
  login : c.isLogin = true → event.type = .AUTH_CLIENT

/-- The calls that say nothing of the payload: the common ones of the services, and those on
the pool, the session store and the socket. -/
def Cmd.isPlain : Cmd → Bool
  | .validateSession _ _ | .sendResponse _ _ _ => false
  | .getClientData _ | .nowMs | .touchSession _ _ | .removeClientData _ | .getClientsDataMap
  | .sweepExpiredSessions _ _ | .acquire | .remoteEndpoint _ => true
  | c => c.isCommon

theorem Cmd.storesSocketless_of_isPlain {c : Cmd} (hc : c.isPlain = true) :
    c.storesSocketless = true := by
  cases c with
  | storeClientData d => exact @Cmd.isSocketless_of_isCommon (.storeClientData d) hc
  | _ => rfl

theorem Cmd.not_isLogin_of_isPlain {c : Cmd} (hc : c.isPlain = true) : c.isLogin = false := by
  unfold Cmd.isPlain at hc
  split at hc <;> first | rfl | cases hc | exact Cmd.not_isLogin_of_isCommon hc

theorem callsFor_plain {event : Event} {c : Cmd} (hc : c.isPlain = true) : CallsFor event c := by
  refine ⟨Cmd.storesSocketless_of_isPlain hc, ?_, ?_, ?_, ?_⟩
  · rintro id hash rfl
    cases hc
  · rintro characterId accountId rfl
    cases hc
  · rintro socket message rfl
    cases hc
  · intro hlogin
    rw [Cmd.not_isLogin_of_isPlain hc] at hlogin
    cases hlogin

theorem callsFor_common {event : Event} {c : Cmd} (hc : c.isCommon = true) :
    CallsFor event c := by
  refine callsFor_plain ?_
  cases c with
  | execPrepared q => cases q <;> first | rfl | exact hc
  | _ => first | rfl | exact hc

section Rules

variable {α β : Type} {throws : Prop} {event : Event}

theorem IsCommon.callsFor {m : M α} (hm : IsCommon throws m) :
    Makes (CallsFor event) True m :=
  hm.mono (fun _ hc => callsFor_common hc) fun _ => trivial

theorem callsFor_acquire {g : Unit → M β} (hg : Makes (CallsFor event) True (g ())) :
    Makes (CallsFor event) True (acquire >>= g) :=
  makes_bind (makes_bind (makes_call (callsFor_plain rfl)) fun r => makes_orThrow r) fun _ => hg

theorem callsFor_success (socket : Option Socket) (message : Json) :
    Makes (CallsFor event) True (sendResponse socket (str "success") message) := by
  refine makes_call ⟨rfl, ?_, ?_, ?_, ?_⟩
  · intro id hash heq
    cases heq
  · intro characterId accountId heq
    cases heq
  · intro socket' message' heq
    exact absurd (Cmd.sendResponse.inj heq).2.1 success_ne_error
  · intro hlogin
    cases hlogin

theorem callsFor_error (socket : Option Socket) {message : Json}
    (hmessage : IsErrorMessage message) :
    Makes (CallsFor event) True (sendResponse socket (str "error") message) := by
  refine makes_call ⟨rfl, ?_, ?_, ?_, ?_⟩
  · intro id hash heq
    cases heq
  · intro characterId accountId heq
    cases heq
  · intro socket' message' heq
    obtain ⟨-, -, rfl⟩ := Cmd.sendResponse.inj heq
    exact hmessage
  · intro hlogin
    cases hlogin

end Rules

/-! ## The errors -/

theorem header_foldl_setBody (body : List (String × Json)) (b : ResponseBuilder) :
    (body.foldl (fun b e => b.setBody e.1 e.2) b).header = b.header := by
  induction body generalizing b with
  | nil => rfl
  | cons e body ih => rw [List.foldl_cons, ih, header_setBody]

theorem lookup_foldl_setBody {body : List (String × Json)} {key : String}
    (hbody : ∀ e ∈ body, key ≠ e.1) (b : ResponseBuilder) :
    (body.foldl (fun b e => b.setBody e.1 e.2) b).body.lookup (str key) =
      b.body.lookup (str key) := by
  induction body generalizing b with
  | nil => rfl
  | cons e body ih =>
    rw [List.foldl_cons, ih fun e he => hbody e (List.mem_cons_of_mem _ he), lookup_setBody,
      if_neg (hbody e List.mem_cons_self)]

namespace EventHandler

theorem isErrorMessage_answer (code : String) (hash : Bytes) (clientId : Int)
    (eventType : String) : IsErrorMessage (answer (str code) hash clientId eventType) :=
  @isErrorMessage_build _ (str code) (by simp [lookup_setHeader]) (by simp [lookup_setBody])

theorem isErrorMessage_authError (data : ClientDataStruct) (code : String)
    {body : List (String × Json)} (hbody : ∀ e ∈ body, "errorCode" ≠ e.1) :
    IsErrorMessage (authError data code body) := by
  refine @isErrorMessage_build _ (str code) ?_ ?_
  · rw [header_foldl_setBody]
    simp [lookup_setHeader]
  · rw [lookup_foldl_setBody hbody]
    rfl

/-! ## The handlers -/

variable {event : Event} {data : ClientDataStruct}

/-- The session that is validated is the one that the request names. -/
theorem validateSession_calls (hdata : event.eventData = .clientData data) :
    CallsFor event (.validateSession data.clientId data.hash) := by
  refine ⟨rfl, fun _ _ heq => ?_, fun _ _ heq => ?_, fun _ _ heq => ?_, fun hlogin => ?_⟩
  · cases heq
    exact ⟨data, hdata, rfl, rfl⟩
  · cases heq
  · cases heq
  · cases hlogin

theorem withSession_calls {unauthorized : String} {hash₀ : Bytes} {clientId₀ : Int}
    {eventType : String} {body : M Unit} (hdata : event.eventData = .clientData data)
    (hbody : Makes (CallsFor event) True body) :
    Makes (CallsFor event) True (withSession data unauthorized hash₀ clientId₀ eventType body) := by
  unfold withSession
  split_ifs
  · exact callsFor_error _ (isErrorMessage_answer ..)
  · refine makes_bind (makes_call (validateSession_calls hdata)) fun valid => ?_
    cases valid with
    | false => exact callsFor_error _ (isErrorMessage_answer ..)
    | true => exact hbody

theorem answerAuthentification_calls (outcome : AuthOutcome) :
    Makes (CallsFor event) True (answerAuthentification data outcome) := by
  unfold answerAuthentification
  split_ifs
  · exact callsFor_error _ (isErrorMessage_authError _ _ (by simp))
  · refine makes_bind (makes_call (c := .getClientData _) (callsFor_plain rfl)) fun current => ?_
    split
    · exact callsFor_error _ (isErrorMessage_authError _ _ (by simp))
    · exact callsFor_error _ (isErrorMessage_authError _ _ (by simp))
    · exact callsFor_success _ _

theorem callsFor_login (htype : event.type = .AUTH_CLIENT) {c : Cmd} (hc : c.isLogin = true) :
    CallsFor event c := by
  refine ⟨?_, ?_, ?_, ?_, fun _ => htype⟩
  · cases c <;> first | rfl | cases hc
  · rintro id hash rfl
    cases hc
  · rintro characterId accountId rfl
    cases hc
  · rintro socket message rfl
    cases hc

theorem handleAuthentificateClientEvent_calls (p : Platform) (htype : event.type = .AUTH_CLIENT) :
    Makes (CallsFor event) True (handleAuthentificateClientEvent p event) := by
  unfold handleAuthentificateClientEvent
  split
  · rename_i data hdata
    refine makes_bind (makes_tryCatch (callsFor_acquire (makes_pure _)) fun _ => makes_pure _)
      fun acquired => ?_
    cases acquired with
    | false => exact callsFor_error _ (isErrorMessage_authError _ _ (by simp))
    | true =>
      refine makes_bind (makes_call (c := .remoteEndpoint _) (callsFor_plain rfl)) fun address => ?_
      have hcalls := authenticate_makes p.hashPassword data.password
        (address.getD (str "127.0.0.1")) data.clientVersion (fun _ => callsFor_common)
        (callsFor_login htype rfl)
        (callsFor_login htype (c := .execPrepared (.incrementFailedLogins data.login)) rfl)
      refine makes_bind (hcalls.mono (fun _ hc => hc) False.elim) fun outcome => ?_
      exact answerAuthentification_calls outcome
  · exact makes_pure _

theorem answerCharactersList_calls (clientID : Int) :
    Makes (CallsFor event) True (answerCharactersList data clientID) := by
  refine makes_bind (makes_touchSession (callsFor_plain rfl) fun _ => callsFor_plain rfl)
    fun _ => ?_
  refine makes_bind (makes_call (c := .getClientData _) (callsFor_plain rfl)) fun current => ?_
  cases current with
  | none => exact callsFor_error _ (isErrorMessage_answer ..)
  | some current =>
    refine callsFor_acquire ?_
    refine makes_bind (getCharactersList_common clientID).callsFor fun charactersList => ?_
    refine makes_bind (makes_mapM (fun character => ?_) _) fun _ => callsFor_success _ _
    have hpreview := getCharacterEquipmentPreview_common character.characterId
    exact makes_bind hpreview.callsFor fun _ => makes_pure _

theorem handleGetCharactersListEvent_calls :
    Makes (CallsFor event) True (handleGetCharactersListEvent event) := by
  unfold handleGetCharactersListEvent
  split
  · rename_i data hdata
    exact withSession_calls hdata (answerCharactersList_calls _)
  · exact makes_pure _

theorem handleCreateCharacterEvent_calls :
    Makes (CallsFor event) True (handleCreateCharacterEvent event) := by
  unfold handleCreateCharacterEvent
  split
  · rename_i data hdata
    refine withSession_calls hdata (callsFor_acquire ?_)
    refine makes_bind (createCharacter_common _ _ _ _ _).callsFor fun result => ?_
    split_ifs
    · exact callsFor_error _ (isErrorMessage_answer ..)
    · exact callsFor_success _ _
  · exact makes_pure _

/-- The deletion names the character and the account of the request. -/
theorem callsFor_deletion (hdata : event.eventData = .clientData data) :
    CallsFor event
      (.execPrepared (.deleteCharacter data.characterData.characterId data.clientId)) := by
  refine ⟨rfl, fun _ _ heq => ?_, fun _ _ heq => ?_, fun _ _ heq => ?_, fun hlogin => ?_⟩
  · cases heq
  · cases heq
    exact ⟨data, hdata, rfl, rfl⟩
  · cases heq
  · cases hlogin

theorem handleDeleteCharacterEvent_calls :
    Makes (CallsFor event) True (handleDeleteCharacterEvent event) := by
  unfold handleDeleteCharacterEvent
  split
  · rename_i data hdata
    refine withSession_calls hdata ?_
    dsimp only
    split_ifs
    · exact callsFor_error _ (isErrorMessage_answer ..)
    · have hdelete := deleteCharacter_makes (callsFor_plain rfl) (callsFor_plain rfl)
        (callsFor_plain rfl) (callsFor_deletion hdata)
      refine callsFor_acquire (makes_bind (hdelete.mono (fun _ hc => hc) False.elim) ?_)
      intro deleted
      cases deleted with
      | false => exact callsFor_error _ (isErrorMessage_answer ..)
      | true => exact callsFor_success _ _
  · exact makes_pure _

theorem answerCreationOptions_calls : Makes (CallsFor event) True (answerCreationOptions data) := by
  refine callsFor_acquire (makes_withWork (callsFor_plain rfl) (callsFor_plain rfl) ?_)
  refine makes_exec (callsFor_plain rfl) fun classRows => ?_
  refine makes_exec (callsFor_plain rfl) fun raceRows => ?_
  refine makes_exec (callsFor_plain rfl) fun genderRows => ?_
  refine makes_commit (callsFor_plain rfl) ?_
  have hrow : ∀ (id : Int) (g : Int → Json),
      Makes (CallsFor event) True (asInt id >>= fun id => pure (g id)) :=
    fun id g => makes_bind (makes_orThrow _) fun _ => makes_pure _
  refine makes_bind (makes_mapM (fun (row : CharacterClassRow) => hrow row.id _) _) fun _ => ?_
  refine makes_bind (makes_mapM (fun (row : RaceRow) => hrow row.id _) _) fun _ => ?_
  refine makes_bind (makes_mapM (fun (row : CharacterGenderRow) => hrow row.id _) _) fun _ => ?_
  exact callsFor_success _ _

theorem handleGetCharacterCreationOptionsEvent_calls :
    Makes (CallsFor event) True (handleGetCharacterCreationOptionsEvent event) := by
  unfold handleGetCharacterCreationOptionsEvent
  split
  · rename_i data hdata
    exact makes_tryCatch (withSession_calls hdata answerCreationOptions_calls) fun _ => makes_pure _
  · exact makes_pure _

theorem disconnectMismatch_calls (hdata : event.eventData = .clientData data) :
    Makes (CallsFor event) True (disconnectMismatch data) := by
  unfold disconnectMismatch
  split_ifs
  · exact makes_bind (makes_call (validateSession_calls hdata)) fun valid => makes_pure _
  · exact makes_pure _

theorem handleDisconnectClientEvent_calls :
    Makes (CallsFor event) True (handleDisconnectClientEvent event) := by
  unfold handleDisconnectClientEvent
  split
  · rename_i data hdata
    have hbroadcast : ∀ response, Makes (CallsFor event) True
        (do (← getClientsDataMap).forM fun client =>
              sendResponse client.socket (str "success") response) := by
      intro response
      refine makes_bind (makes_call (c := .getClientsDataMap) (callsFor_plain rfl)) ?_
      exact makes_forM fun client => callsFor_success _ _
    refine makes_bind (disconnectMismatch_calls hdata) fun mismatch => ?_
    cases mismatch with
    | true => exact hbroadcast _
    | false =>
      exact makes_bind (makes_call (c := .removeClientData _) (callsFor_plain rfl))
        fun _ => hbroadcast _
  · exact makes_pure _

theorem handlePingClientEvent_calls :
    Makes (CallsFor event) True (handlePingClientEvent event) := by
  unfold handlePingClientEvent
  split
  · exact callsFor_success _ _
  · exact makes_pure _

theorem handleRegisterAccountEvent_calls (p : Platform) :
    Makes (CallsFor event) True (handleRegisterAccountEvent p event) := by
  unfold handleRegisterAccountEvent
  split
  · refine makes_tryCatch (callsFor_acquire ?_) fun _ => ?_
    · refine makes_bind (registerAccount_common _ _ _ _ _ _).callsFor fun result => ?_
      obtain ⟨result, userId, sessionHash⟩ := result
      dsimp only
      split_ifs
      · exact callsFor_error _ (isErrorMessage_answer ..)
      · exact callsFor_success _ _
    · split_ifs
      · exact callsFor_error _ (isErrorMessage_answer ..)
      · exact makes_pure _
  · exact makes_pure _

theorem dispatchEvent_calls (p : Platform) (event : Event) :
    Makes (CallsFor event) True (dispatchEvent p event) := by
  rw [dispatchEvent]
  split
  · exact handlePingClientEvent_calls
  · rename_i htype
    exact handleAuthentificateClientEvent_calls p htype
  · exact handleRegisterAccountEvent_calls p
  · exact handleGetCharactersListEvent_calls
  · exact handleCreateCharacterEvent_calls
  · exact handleDeleteCharacterEvent_calls
  · exact handleGetCharacterCreationOptionsEvent_calls
  · exact handleDisconnectClientEvent_calls

end EventHandler

/-- So does the cleanup branch of the event loop, which works for nobody. -/
theorem periodicCleanup_plain (cleanupIntervalMs : Int) :
    Makes (fun c : Cmd => c.isPlain = true) True (periodicCleanup cleanupIntervalMs) := by
  refine makes_bind (makes_tryCatch ?_ fun _ => makes_pure _) fun _ => ?_
  · refine makes_bind (makes_bind (makes_call (c := .acquire) rfl) fun r => makes_orThrow r) ?_
    intro _
    exact makes_withWork rfl rfl (makes_exec rfl fun _ =>
      makes_bind (makes_call (c := .commitWork) rfl) fun r => makes_orThrow r)
  · exact makes_bind (makes_call (c := .nowMs) rfl) fun now =>
      makes_bind (makes_call (c := .sweepExpiredSessions now _) rfl) fun _ => makes_pure _

end LoginServer
