import LoginServer.Services.Obedience

/-!
# The handlers obey the discipline

One lemma for each handler; `program_obeys` puts them together.
-/

namespace LoginServer

open Database Interleaving

variable {job : Job} {h : Hist} {data : ClientDataStruct}

namespace EventHandler

theorem headerHash_answer (message hash : Bytes) (clientId : Int) (eventType : String) :
    headerHash (answer message hash clientId eventType) = some (.string hash) := by
  simp [answer, headerHash_build, lookup_setHeader]

theorem headerHash_answerWith (message hash : Bytes) (clientId : Int) (eventType key : String)
    (value : Json) :
    headerHash (answerWith message hash clientId eventType key value) = some (.string hash) := by
  simp [answerWith, headerHash_build, lookup_setHeader]

theorem headerHash_authSuccess (current : ClientDataStruct) :
    headerHash (authSuccess current) = some (.string current.hash) := by
  simp [authSuccess, headerHash_build, lookup_setHeader]

theorem headerHash_creationOptions (data : ClientDataStruct) (classes races genders : List Json) :
    headerHash (creationOptions data classes races genders) = some (.string data.hash) := by
  simp [creationOptions, headerHash_build, lookup_setHeader]

theorem headerHash_registerSuccess (sessionHash : Bytes) (userId : Int) (login : Bytes) :
    headerHash (registerSuccess sessionHash userId login) = some (.string sessionHash) := by
  simp [registerSuccess, headerHash_build, lookup_setHeader]

theorem headerHash_pong (timestamps : Option TimestampStruct) :
    headerHash (pong timestamps) = none := by
  cases timestamps <;> simp [pong, headerHash_build, lookup_setHeader]

/-- A success answer whose token may be disclosed. -/
theorem obeysE_sendHash {socket : Option Socket} {message : Json} {hash : Bytes}
    {E : Hist → StdException → Prop} (hhash : headerHash message = some (.string hash))
    (hd : Disclosable job h hash) :
    ObeysE (mayCall job) (fun _ _ => True) E h (sendResponse socket (str "success") message) := by
  refine obeysE_sendSuccess (fun v hv => ?_) trivial
  rw [hhash] at hv
  cases hv
  exact ⟨hash, rfl, hd⟩

theorem withSession_obeys {unauthorized : String} {hash₀ : Bytes} {clientId₀ : Int}
    {eventType : String} {body : M Unit} (hrequest : job.request = some data)
    (hbody : ObeysE (mayCall job) (fun _ _ => True) (fun _ _ => True)
      (⟨.validateSession data.clientId data.hash, true⟩ :: h) body) :
    ObeysE (mayCall job) (fun _ _ => True) (fun _ _ => True) h
      (withSession data unauthorized hash₀ clientId₀ eventType body) := by
  unfold withSession
  split_ifs
  · exact obeysE_sendError trivial
  · refine obeysE_bind.mpr (obeysE_call.mpr ⟨⟨data, hrequest, rfl, rfl⟩, fun valid => ?_⟩)
    cases valid with
    | false => exact obeysE_sendError trivial
    | true => exact hbody

theorem answerAuthentification_obeys {outcome : AuthOutcome}
    (hpost : Authenticator.OutcomePost h outcome) :
    ObeysE (mayCall job) (fun _ _ => True) (fun _ _ => True) h
      (answerAuthentification data outcome) := by
  unfold answerAuthentification
  by_cases hok : outcome.status = .OK
  · rw [if_neg (not_not.mpr hok)]
    obtain ⟨d, h', hh, hid⟩ := hpost hok
    refine obeysE_bind.mpr (obeysE_call.mpr ⟨Or.inr ⟨d, h', hh, hid.symm⟩, fun current => ?_⟩)
    split
    · exact obeysE_sendError trivial
    · exact obeysE_sendError trivial
    · rename_i current _
      refine obeysE_sendHash (headerHash_authSuccess current) ?_
      exact Or.inr (Or.inr (Or.inr ⟨_, current, List.mem_cons_self, rfl⟩))
  · rw [if_pos hok]
    exact obeysE_sendError trivial

theorem handleAuthentificateClientEvent_obeys (p : Platform) (event : Event) :
    ObeysE (mayCall (.event event)) (fun _ _ => True) (fun _ _ => True) []
      (handleAuthentificateClientEvent p event) := by
  unfold handleAuthentificateClientEvent
  split
  · rename_i data hdata
    refine obeysE_bind.mpr (obeysE_tryCatch.mpr (obeysE_bind.mpr (obeysE_acquire trivial ?_ ?_)))
    · refine obeysE_pure.mpr (obeysE_bind.mpr (obeysE_call.mpr ⟨trivial, fun address => ?_⟩))
      refine obeysE_bind.mpr ((Authenticator.authenticate_obeys _ ?_ ?_).mono ?_
        fun _ _ _ => trivial)
      · refine noToken_cons ?_ (noToken_cons ?_ fun _ => List.not_mem_nil) <;>
          exact fun hc => nomatch hc
      · intro data' hdata'
        rw [Job.request, hdata] at hdata'
        cases hdata'
        rfl
      · exact fun h' outcome hpost => answerAuthentification_obeys hpost
    · exact obeysE_pure.mpr (obeysE_sendError trivial)
  · exact obeysE_pure.mpr trivial

/-- The guarded body of the list handler runs right after its session was validated. -/
theorem answerCharactersList_obeys {event : Event} (htype : event.type = .GET_CHARACTERS_LIST)
    (hdata : event.eventData = .clientData data) :
    ObeysE (mayCall (.event event)) (fun _ _ => True) (fun _ _ => True)
      (⟨.validateSession data.clientId data.hash, true⟩ :: h)
      (answerCharactersList data event.clientID) := by
  have hrequest : Job.request (.event event) = some data := Job.request_event.mpr hdata
  refine obeysE_bind.mpr (obeysE_touchSession trivial
    (fun now => ⟨congrArg some htype, data, h, hrequest, rfl, rfl⟩) fun now touched => ?_)
  refine obeysE_bind.mpr (obeysE_call.mpr ⟨Or.inl ⟨now, touched, _, rfl⟩, fun current => ?_⟩)
  cases current with
  | none => exact obeysE_sendError trivial
  | some current =>
    refine obeysE_bind.mpr (obeysE_acquire trivial ?_ trivial)
    refine obeysE_bind.mpr ((CharacterManager.getCharactersList_obeys ?_).extends.mono ?_
      fun _ _ _ => trivial)
    · intro h' hh
      exact ⟨data, hrequest, hh.subset (by simp), event, rfl, rfl⟩
    · rintro h₁ charactersList ⟨-, hh₁⟩
      let P : Hist → Prop := fun h' => ⟨.getClientData data.clientId, some current⟩ ∈ h'
      have hrow : ∀ (character : CharacterDataStruct) (h₂ : Hist), P h₂ →
          ObeysE (mayCall (.event event)) (fun h' _ => P h') (fun h' _ => P h') h₂ (do
            let equip ← CharacterManager.getCharacterEquipmentPreview character.characterId
            return characterJson character equip) := by
        intro character h₂ hmem
        refine obeysE_bind.mpr
          ((CharacterManager.getCharacterEquipmentPreview_obeys _).extends.mono ?_ ?_)
        · exact fun h₃ equip hh₃ => obeysE_pure.mpr (hh₃.2.subset hmem)
        · exact fun h₃ _ hh₃ => hh₃.2.subset hmem
      have hloop := obeysE_mapM hrow charactersList (hh₁.subset (by simp))
      refine obeysE_bind.mpr (hloop.mono (fun h₂ jsons hmem => ?_) fun _ _ _ => trivial)
      refine obeysE_sendHash (headerHash_answerWith ..) ?_
      exact Or.inr (Or.inr (Or.inr ⟨_, current, hmem, rfl⟩))

theorem handleGetCharactersListEvent_obeys {event : Event}
    (htype : event.type = .GET_CHARACTERS_LIST) :
    ObeysE (mayCall (.event event)) (fun _ _ => True) (fun _ _ => True) h
      (handleGetCharactersListEvent event) := by
  unfold handleGetCharactersListEvent
  split
  · rename_i data hdata
    exact withSession_obeys (Job.request_event.mpr hdata) (answerCharactersList_obeys htype hdata)
  · exact obeysE_pure.mpr trivial

theorem request_disclosable (hrequest : job.request = some data) : Disclosable job h data.hash :=
  Or.inr (Or.inl ⟨data, hrequest, rfl⟩)

theorem handleCreateCharacterEvent_obeys (event : Event) :
    ObeysE (mayCall (.event event)) (fun _ _ => True) (fun _ _ => True) h
      (handleCreateCharacterEvent event) := by
  unfold handleCreateCharacterEvent
  split
  · rename_i data hdata
    have hrequest : Job.request (.event event) = some data := Job.request_event.mpr hdata
    refine withSession_obeys hrequest (obeysE_bind.mpr (obeysE_acquire trivial ?_ trivial))
    refine obeysE_bind.mpr ((CharacterManager.createCharacter_obeys ?_).mono ?_
      fun _ _ _ => trivial)
    · exact ⟨data, hrequest, by simp [Validated], rfl⟩
    · intro h' result _
      split_ifs
      · exact obeysE_sendError trivial
      · exact obeysE_sendHash (headerHash_answerWith ..) (request_disclosable hrequest)
  · exact obeysE_pure.mpr trivial

theorem handleDeleteCharacterEvent_obeys (event : Event) :
    ObeysE (mayCall (.event event)) (fun _ _ => True) (fun _ _ => True) h
      (handleDeleteCharacterEvent event) := by
  unfold handleDeleteCharacterEvent
  split
  · rename_i data hdata
    have hrequest : Job.request (.event event) = some data := Job.request_event.mpr hdata
    refine withSession_obeys hrequest ?_
    dsimp only
    split_ifs
    · exact obeysE_sendError trivial
    · refine obeysE_bind.mpr (obeysE_acquire trivial ?_ trivial)
      refine obeysE_bind.mpr ((CharacterManager.deleteCharacter_obeys _ ?_).mono ?_
        fun _ _ _ => trivial)
      · exact ⟨data, hrequest, by simp [Validated], rfl⟩
      · intro h' deleted _
        cases deleted with
        | false => exact obeysE_sendError trivial
        | true => exact obeysE_sendHash (headerHash_answerWith ..) (request_disclosable hrequest)
  · exact obeysE_pure.mpr trivial

theorem obeysE_options {α : Type} {rows : List α} {f : α → M Json} {g : List Json → M Unit}
    (hf : ∀ row h, ObeysE (mayCall job) (fun _ _ => True) (fun _ _ => True) h (f row))
    (hg : ∀ h' jsons, ObeysE (mayCall job) (fun _ _ => True) (fun _ _ => True) h' (g jsons)) :
    ObeysE (mayCall job) (fun _ _ => True) (fun _ _ => True) h (rows.mapM f >>= g) :=
  obeysE_bind.mpr ((obeysE_mapM (P := fun _ => True) (fun row h' _ => hf row h') rows trivial).mono
    (fun h' jsons _ => hg h' jsons) fun _ _ _ => trivial)

theorem handleGetCharacterCreationOptionsEvent_obeys (event : Event) :
    ObeysE (mayCall (.event event)) (fun _ _ => True) (fun _ _ => True) h
      (handleGetCharacterCreationOptionsEvent event) := by
  unfold handleGetCharacterCreationOptionsEvent
  split
  · rename_i data hdata
    have hrequest : Job.request (.event event) = some data := Job.request_event.mpr hdata
    refine obeysE_catch (withSession_obeys hrequest ?_) fun _ _ => obeysE_pure.mpr trivial
    refine obeysE_bind.mpr (obeysE_acquire trivial (obeysE_work ?_) trivial)
    refine obeysE_first rfl trivial fun classRows => obeysE_next rfl trivial fun raceRows => ?_
    refine obeysE_next rfl trivial fun genderRows => obeysE_commit rfl ?_
    refine obeysE_options (fun row h' => obeysE_convert fun _ _ => obeysE_pure.mpr trivial) ?_
    intro h₁ classes
    refine obeysE_options (fun row h' => obeysE_convert fun _ _ => obeysE_pure.mpr trivial) ?_
    intro h₂ races
    refine obeysE_options (fun row h' => obeysE_convert fun _ _ => obeysE_pure.mpr trivial) ?_
    intro h₃ genders
    exact obeysE_sendHash (headerHash_creationOptions ..) (request_disclosable hrequest)
  · exact obeysE_pure.mpr trivial

/-- The entry is removed right after a request that names a session was validated. -/
theorem disconnectMismatch_obeys (hrequest : job.request = some data) :
    ObeysE (mayCall job)
      (fun h' mismatch => mismatch = false → data.clientId ≠ 0 → data.hash ≠ [] →
        ∃ h'', h' = ⟨.validateSession data.clientId data.hash, true⟩ :: h'')
      (fun _ _ => True) h (disconnectMismatch data) := by
  unfold disconnectMismatch
  split_ifs with hnamed
  · refine obeysE_bind.mpr (obeysE_call.mpr
      ⟨⟨data, hrequest, rfl, rfl⟩, fun valid => obeysE_pure.mpr ?_⟩)
    cases valid with
    | false => exact fun hf => nomatch hf
    | true => exact fun _ _ _ => ⟨h, rfl⟩
  · refine obeysE_pure.mpr fun _ hid hhash => absurd ?_ hnamed
    simp [hid, hhash]

theorem handleDisconnectClientEvent_obeys {event : Event}
    (htype : event.type = .DISCONNECT_CLIENT) :
    ObeysE (mayCall (.event event)) (fun _ _ => True) (fun _ _ => True) h
      (handleDisconnectClientEvent event) := by
  unfold handleDisconnectClientEvent
  split
  · rename_i data hdata
    have hrequest : Job.request (.event event) = some data := Job.request_event.mpr hdata
    have hbroadcast : ∀ h', ObeysE (mayCall (.event event)) (fun _ _ => True) (fun _ _ => True) h'
        (do
          let response := answer (str "Client disconnected!") [] data.clientId "disconnectClient"
          (← getClientsDataMap).forM fun client =>
            sendResponse client.socket (str "success") response) := by
      intro h'
      refine obeysE_bind.mpr (obeysE_call.mpr ⟨trivial, fun clients => ?_⟩)
      exact obeysE_forM (P := fun _ => True) (fun client _ h'' _ =>
        obeysE_sendHash (headerHash_answer ..) (Or.inl rfl)) trivial
    refine obeysE_bind.mpr ((disconnectMismatch_obeys hrequest).mono ?_ fun _ _ _ => trivial)
    intro h₁ mismatch hmismatch
    cases mismatch with
    | true => exact hbroadcast h₁
    | false =>
      refine obeysE_bind.mpr (obeysE_call.mpr ⟨?_, fun _ => hbroadcast _⟩)
      exact ⟨congrArg some htype, data, hrequest, rfl, hmismatch rfl⟩
  · exact obeysE_pure.mpr trivial

theorem handlePingClientEvent_obeys (event : Event) :
    ObeysE (mayCall job) (fun _ _ => True) (fun _ _ => True) h (handlePingClientEvent event) := by
  unfold handlePingClientEvent
  split
  · refine obeysE_sendSuccess (fun v hv => ?_) trivial
    rw [headerHash_pong] at hv
    cases hv
  · exact obeysE_pure.mpr trivial

/-- What the caller of `registerAccount` answers. -/
theorem registered_of_post {reg : RegistrationDataStruct} {h : Hist}
    {result : AccountRegisterResult} {userId : Int} {sessionHash : Bytes}
    (hpost : AccountManager.RegisterPost reg.login reg.password reg.email
      [⟨.acquire, some ()⟩] h (result, userId, sessionHash)) (hne : result ≠ .OK) :
    Registered reg (⟨.sendResponse reg.socket (str "error")
      (answer (str (registerFailureCode result)) [] 0 "registerAccount"), ()⟩ :: h) := by
  cases result with
  | OK => exact absurd rfl hne
  | ERR_LOGIN_TAKEN =>
    obtain ⟨rows, rfl⟩ := hpost
    exact .taken
  | ERR_DB => exact .dbError (Or.inl rfl)
  | _ =>
    obtain ⟨rfl, hcode⟩ := hpost
    exact .invalid hcode (fun hc => nomatch hc)

theorem handleRegisterAccountEvent_obeys (p : Platform) {event : Event}
    {reg : RegistrationDataStruct} (hdata : event.eventData = .registration reg) :
    ObeysE (mayCall (.event event)) (fun h' _ => Registered reg h') (fun _ _ => False) []
      (handleRegisterAccountEvent p event) := by
  have hrequest : Job.request (.event event) = none := by rw [Job.request, hdata]
  have hreg : ∃ reg', Job.registration (.event event) = some reg' ∧ reg'.login = reg.login :=
    ⟨reg, Job.registration_event.mpr hdata, rfl⟩
  unfold handleRegisterAccountEvent
  rw [hdata]
  refine obeysE_catch (obeysE_bind.mpr (obeysE_acquire trivial ?_ trivial)) fun h' _ => ?_
  · have hfresh : NoToken [⟨.acquire, some ()⟩] :=
      noToken_cons (c := .acquire) (fun hc => by cases hc) fun _ => List.not_mem_nil
    refine obeysE_bind.mpr ((AccountManager.registerAccount_obeys _ hreg hrequest hfresh).mono ?_
      fun _ _ _ => trivial)
    rintro h₁ ⟨result, userId, sessionHash⟩ hpost
    by_cases hok : result = .OK
    · subst hok
      obtain ⟨d, h₂, ⟨clientVersion, h₃, hmem, hreg, rfl⟩, rfl⟩ := hpost
      refine obeysE_sendSuccess (fun v hv => ?_) (.ok hreg)
      rw [headerHash_registerSuccess] at hv
      cases hv
      exact ⟨sessionHash, rfl, Or.inr (Or.inr (Or.inl (by simp [hmem])))⟩
    · simp only [if_pos hok]
      exact obeysE_sendError (registered_of_post hpost hok)
  · by_cases hsocket : reg.socket.isSome
    · rw [if_pos hsocket]
      exact obeysE_sendError (.dbError (Or.inr rfl))
    · rw [if_neg hsocket]
      exact obeysE_pure.mpr (.unanswered (by simpa using hsocket))

end EventHandler

theorem periodicCleanup_obeys (cleanupIntervalMs : Int) :
    ObeysE (mayCall .cleanup) (fun _ _ => True) (fun _ _ => True) h
      (periodicCleanup cleanupIntervalMs) := by
  have hsweep : ∀ h', ObeysE (mayCall .cleanup) (fun _ _ => True) (fun _ _ => True) h' (do
      let now ← nowMs
      let _ ← sweepExpiredSessions now (2 * cleanupIntervalMs)) := fun h' =>
    obeysE_bind.mpr (obeysE_call.mpr ⟨trivial, fun now =>
      obeysE_bind.mpr (obeysE_call.mpr ⟨rfl, fun _ => obeysE_pure.mpr trivial⟩)⟩)
  refine obeysE_bind.mpr (obeysE_catch (obeysE_bind.mpr (obeysE_acquire trivial ?_ trivial))
    fun h' _ => obeysE_pure.mpr (hsweep h'))
  refine obeysE_work (obeysE_first rfl (Or.inl rfl) fun rows => ?_)
  exact obeysE_commitWork ⟨_, rows, _, rfl, Or.inr rfl⟩ (hsweep _) trivial

/-- A task that is not a registration has nothing to show for itself. -/
theorem jobPost_of_ne {event : Event} (hne : event.type ≠ .REGISTER_ACCOUNT) :
    jobPost (.event event) h := by
  rintro event' reg heq htype -
  cases heq
  exact absurd htype hne

theorem obeysE_jobPost {event : Event} {m : M Unit} (hne : event.type ≠ .REGISTER_ACCOUNT)
    (hm : ObeysE (mayCall (.event event)) (fun _ _ => True) (fun _ _ => True) h m) :
    ObeysE (mayCall (.event event)) (fun h' _ => jobPost (.event event) h')
      (fun h' _ => jobPost (.event event) h') h m :=
  hm.mono (fun _ _ _ => jobPost_of_ne hne) fun _ _ _ => jobPost_of_ne hne

namespace EventHandler

theorem dispatchEvent_obeys (p : Platform) (event : Event) :
    ObeysE (mayCall (.event event)) (fun h' _ => jobPost (.event event) h')
      (fun h' _ => jobPost (.event event) h') [] (dispatchEvent p event) := by
  unfold dispatchEvent
  cases htype : event.type with
  | PING_CLIENT => exact obeysE_jobPost (by simp [htype]) (handlePingClientEvent_obeys event)
  | AUTH_CLIENT =>
    exact obeysE_jobPost (by simp [htype]) (handleAuthentificateClientEvent_obeys p event)
  | DISCONNECT_CLIENT =>
    exact obeysE_jobPost (by simp [htype]) (handleDisconnectClientEvent_obeys htype)
  | GET_CHARACTERS_LIST =>
    exact obeysE_jobPost (by simp [htype]) (handleGetCharactersListEvent_obeys htype)
  | CREATE_CHARACTER =>
    exact obeysE_jobPost (by simp [htype]) (handleCreateCharacterEvent_obeys event)
  | DELETE_CHARACTER =>
    exact obeysE_jobPost (by simp [htype]) (handleDeleteCharacterEvent_obeys event)
  | GET_CHARACTER_CREATION_OPTIONS =>
    exact obeysE_jobPost (by simp [htype]) (handleGetCharacterCreationOptionsEvent_obeys event)
  | REGISTER_ACCOUNT =>
    cases hdata : event.eventData with
    | registration reg =>
      refine (handleRegisterAccountEvent_obeys p hdata).mono ?_ fun _ _ hf => hf.elim
      rintro h' - hpost event' reg' heq - hdata'
      cases heq
      rw [hdata] at hdata'
      cases hdata'
      exact hpost
    | clientData data =>
      simp only [handleRegisterAccountEvent, hdata]
      refine obeysE_pure.mpr ?_
      rintro event' reg' heq - hdata'
      cases heq
      rw [hdata] at hdata'
      cases hdata'

end EventHandler

/-- Every task obeys the discipline, and ends in its postcondition. -/
theorem program_obeys (p : Platform) (cfg : ServerConfig) (job : Job) :
    Obeys (mayCall job) (fun h _ => jobPost job h) [] ((loginServer p cfg).program job) := by
  cases job with
  | event event => exact obeys_task (EventHandler.dispatchEvent_obeys p event)
  | cleanup =>
    have hpost : ∀ h', jobPost .cleanup h' := fun h' event reg heq => by cases heq
    exact obeys_task ((periodicCleanup_obeys _).mono (fun h' _ _ => hpost h')
      fun h' _ _ => hpost h')

end LoginServer
