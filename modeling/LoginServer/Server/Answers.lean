import LoginServer.Network.Dispatch
import LoginServer.Server.Schedule
import LoginServer.Services.Calls

/-!
# How often a request is answered

`requests_answered_iff` follows every handler through all answers of the environment: a
task sends exactly one response to the requesting socket if and only if nothing was
thrown that its handler does not turn into an answer (`Unharmed`). What the list, create
and delete handlers leave uncaught is a failed `pool_.acquire()`; the options handler
catches every exception and answers none.

The services send nothing and acquire nothing: they are mute, and that is all that is
needed of them here.
-/

namespace LoginServer

open Database Interleaving

variable {h : Hist}

/-! ## Programs that neither send nor acquire -/

def Cmd.isMute : Cmd → Bool
  | .acquire | .sendResponse _ _ _ => false
  | _ => true

/-- The program makes mute calls only, and throws only if `throws`. -/
abbrev IsMute {α : Type} (throws : Prop) (m : M α) : Prop :=
  Makes (fun c : Cmd => c.isMute = true) throws m

theorem mute_call {throws : Prop} {c : Cmd} (hc : c.isMute = true) : IsMute throws (call c) :=
  fun _ => obeysE_call.mpr ⟨hc, fun _ => trivial⟩

theorem isMute_of_isService {c : Cmd} (hc : c.isService = true) : c.isMute = true := by
  cases c <;> first | rfl | cases hc

theorem mute_of_service {α : Type} {throws : Prop} {m : M α} (hm : IsService throws m) :
    IsMute throws m :=
  hm.mono (fun _ => isMute_of_isService) id

/-! ## Counting the answers -/

/-- The response of a request that came from `socket`. -/
def isAnswerTo (socket : Socket) : (Σ c, Cmd.Reply c) → Bool
  | ⟨.sendResponse socket' _ _, _⟩ => socket' = some socket
  | _ => false

def answersTo (socket : Socket) (h : Hist) : Nat := h.countP (isAnswerTo socket)

/-- The call threw, or returned an id of a creation option that no `int` can hold. -/
def throws : (Σ c, Cmd.Reply c) → Bool
  | ⟨.acquire, none⟩ | ⟨.beginWork, none⟩ | ⟨.execPrepared _, none⟩ | ⟨.commitWork, none⟩ => true
  | ⟨.execPrepared .getCharacterClasses, some rows⟩ => rows.any fun r => (integer r.id).isNone
  | ⟨.execPrepared .getCharacterRaces, some rows⟩ => rows.any fun r => (integer r.id).isNone
  | ⟨.execPrepared .getCharacterGenders, some rows⟩ => rows.any fun r => (integer r.id).isNone
  | _ => false

/-- Nothing was thrown that the handler for a type does not answer. -/
def Unharmed (type : EventType) (h : Hist) : Prop :=
  match type with
  | .GET_CHARACTERS_LIST | .CREATE_CHARACTER | .DELETE_CHARACTER => ⟨.acquire, none⟩ ∉ h
  | .GET_CHARACTER_CREATION_OPTIONS => ∀ e ∈ h, throws e = false
  | _ => True

variable {socket : Socket}

theorem answersTo_cons_of_mute {c : Cmd} (hc : c.isMute = true) (r : c.Reply) :
    answersTo socket (⟨c, r⟩ :: h) = answersTo socket h := by
  refine List.countP_cons_of_neg ?_
  cases c <;> first | exact Bool.false_ne_true | cases hc

@[simp] theorem answersTo_send (status : Bytes) (message : Json)
    (r : (Cmd.sendResponse (some socket) status message).Reply) :
    answersTo socket (⟨.sendResponse (some socket) status message, r⟩ :: h) =
      answersTo socket h + 1 :=
  List.countP_cons_of_pos (by simp [isAnswerTo])

@[simp] theorem answersTo_acquire (r : Option Unit) :
    answersTo socket (⟨.acquire, r⟩ :: h) = answersTo socket h :=
  List.countP_cons_of_neg (by simp [isAnswerTo])

/-- No answer yet, and no failed acquisition. -/
structure Silent (socket : Socket) (h : Hist) : Prop where
  unanswered : answersTo socket h = 0
  acquired : ⟨.acquire, none⟩ ∉ h

theorem silent_nil : Silent socket [] := ⟨rfl, List.not_mem_nil⟩

theorem Silent.cons (hs : Silent socket h) {c : Cmd} (hc : c.isMute = true) (r : c.Reply) :
    Silent socket (⟨c, r⟩ :: h) := by
  refine ⟨(answersTo_cons_of_mute hc r).trans hs.unanswered, fun hmem => ?_⟩
  rcases List.mem_cons.mp hmem with heq | hmem
  · cases heq
    cases hc
  · exact hs.acquired hmem

theorem Silent.acquire (hs : Silent socket h) : Silent socket (⟨.acquire, some ()⟩ :: h) := by
  refine ⟨(answersTo_acquire _).trans hs.unanswered, fun hmem => ?_⟩
  rcases List.mem_cons.mp hmem with heq | hmem
  · cases heq
  · exact hs.acquired hmem

/-- One answer was sent, and no acquisition failed. -/
def Answered (socket : Socket) (h : Hist) : Prop :=
  answersTo socket h = 1 ∧ ⟨.acquire, none⟩ ∉ h

/-- No answer was sent, and an acquisition failed. -/
def Lost (socket : Socket) (h : Hist) : Prop :=
  answersTo socket h = 0 ∧ ⟨.acquire, none⟩ ∈ h

section Handlers

open Authenticator (anyCall)

variable {α β : Type} {Q : Hist → β → Prop} {E : Hist → StdException → Prop}

/-- A mute program that does not throw keeps what mute calls keep. -/
theorem obeysE_mute {P : Hist → Prop} {m : M α} {f : α → M β}
    (hP : ∀ h (c : Cmd) (r : c.Reply), c.isMute = true → P h → P (⟨c, r⟩ :: h))
    (hm : IsMute False m) (hh : P h) (hf : ∀ a h', P h' → ObeysE anyCall Q E h' (f a)) :
    ObeysE anyCall Q E h (m >>= f) := by
  refine obeysE_bind.mpr ((ObeysE.keeps hP (hm h) hh).mono ?_ ?_)
  · rintro h' a ⟨-, hh'⟩
    exact hf a h' hh'
  · rintro h' e ⟨hfalse, -⟩
    exact hfalse.elim

theorem obeysE_silent {m : M α} {f : α → M β} (hm : IsMute False m) (hs : Silent socket h)
    (hf : ∀ a h', Silent socket h' → ObeysE anyCall Q E h' (f a)) :
    ObeysE anyCall Q E h (m >>= f) :=
  obeysE_mute (fun _ _ r hc hh => hh.cons hc r) hm hs hf

theorem obeysE_unanswered {m : M α} {f : α → M β} (hm : IsMute False m)
    (hs : answersTo socket h = 0)
    (hf : ∀ a h', answersTo socket h' = 0 → ObeysE anyCall Q E h' (f a)) :
    ObeysE anyCall Q E h (m >>= f) :=
  obeysE_mute (P := fun h => answersTo socket h = 0)
    (fun _ _ r hc hh => (answersTo_cons_of_mute hc r).trans hh) hm hs hf

theorem obeysE_answer {status : Bytes} {message : Json} (hs : Silent socket h) :
    ObeysE anyCall (fun h' _ => Answered socket h') E h
      (sendResponse (some socket) status message) := by
  refine obeysE_call.mpr ⟨trivial, fun _ => ⟨?_, fun hmem => ?_⟩⟩
  · rw [answersTo_send, hs.unanswered]
  · rcases List.mem_cons.mp hmem with heq | hmem
    · cases heq
    · exact hs.acquired hmem

theorem obeysE_acquireOrLost {f : Unit → M β} (hs : Silent socket h)
    (hf : ∀ h', Silent socket h' → ObeysE anyCall Q (fun h' _ => Lost socket h') h' (f ())) :
    ObeysE anyCall Q (fun h' _ => Lost socket h') h (acquire >>= f) := by
  refine obeysE_bind.mpr (obeysE_acquire trivial (hf _ hs.acquire) ⟨?_, List.mem_cons_self⟩)
  exact (answersTo_acquire _).trans hs.unanswered

namespace EventHandler

variable {data : ClientDataStruct}

/-- The handlers that answer every request but the one that finds no connection. -/
theorem withSession_answered {unauthorized : String} {hash₀ : Bytes} {clientId₀ : Int}
    {eventType : String} {body : M Unit} (hsocket : data.socket = some socket)
    (hbody : ∀ h', Silent socket h' →
      ObeysE anyCall (fun h' _ => Answered socket h') (fun h' _ => Lost socket h') h' body)
    (hs : Silent socket h) :
    ObeysE anyCall (fun h' _ => Answered socket h') (fun h' _ => Lost socket h') h
      (withSession data unauthorized hash₀ clientId₀ eventType body) := by
  unfold withSession
  rw [hsocket]
  by_cases hnamed : (data.clientId = 0 || data.hash.isEmpty) = true
  · rw [if_pos hnamed]
    exact obeysE_answer hs
  · rw [if_neg hnamed]
    refine obeysE_silent (mute_call (c := .validateSession _ _) rfl) hs fun valid h' hs' => ?_
    cases valid with
    | false => exact obeysE_answer hs'
    | true => exact hbody h' hs'

theorem answerCharactersList_answered {clientID : Int} (hsocket : data.socket = some socket)
    (hs : Silent socket h) :
    ObeysE anyCall (fun h' _ => Answered socket h') (fun h' _ => Lost socket h') h
      (answerCharactersList data clientID) := by
  unfold answerCharactersList
  rw [hsocket]
  have htouch : IsMute False (touchSession data.clientId) :=
    makes_touchSession rfl fun _ => rfl
  refine obeysE_silent htouch hs fun _ h₁ hs₁ => ?_
  refine obeysE_silent (mute_call (c := .getClientData _) rfl) hs₁ fun current h₂ hs₂ => ?_
  cases current with
  | none => exact obeysE_answer hs₂
  | some current =>
    refine obeysE_acquireOrLost hs₂ fun h₃ hs₃ => ?_
    refine obeysE_silent (mute_of_service (getCharactersList_common _).service) hs₃
      fun charactersList h₄ hs₄ => ?_
    have hrows : IsMute False (charactersList.mapM fun character => do
        let equip ← CharacterManager.getCharacterEquipmentPreview character.characterId
        return characterJson character equip) :=
      makes_mapM (fun character =>
        makes_bind (mute_of_service (getCharacterEquipmentPreview_common _).service)
          fun _ => makes_pure _) _
    exact obeysE_silent hrows hs₄ fun _ h₅ hs₅ => obeysE_answer hs₅

theorem handleGetCharactersListEvent_answered {event : Event}
    (hdata : event.eventData = .clientData data) (hsocket : data.socket = some socket) :
    ObeysE anyCall (fun h' _ => Answered socket h') (fun h' _ => Lost socket h') []
      (handleGetCharactersListEvent event) := by
  unfold handleGetCharactersListEvent
  rw [hdata]
  exact withSession_answered hsocket (fun h' hs' => answerCharactersList_answered hsocket hs')
    silent_nil

theorem handleCreateCharacterEvent_answered {event : Event}
    (hdata : event.eventData = .clientData data) (hsocket : data.socket = some socket) :
    ObeysE anyCall (fun h' _ => Answered socket h') (fun h' _ => Lost socket h') []
      (handleCreateCharacterEvent event) := by
  unfold handleCreateCharacterEvent
  rw [hdata]
  refine withSession_answered hsocket (fun h₁ hs₁ => ?_) silent_nil
  rw [hsocket]
  refine obeysE_acquireOrLost hs₁ fun h₂ hs₂ => ?_
  refine obeysE_silent (mute_of_service (createCharacter_common _ _ _ _ _).service) hs₂
    fun result h₃ hs₃ => ?_
  split_ifs
  · exact obeysE_answer hs₃
  · exact obeysE_answer hs₃

theorem handleDeleteCharacterEvent_answered {event : Event}
    (hdata : event.eventData = .clientData data) (hsocket : data.socket = some socket) :
    ObeysE anyCall (fun h' _ => Answered socket h') (fun h' _ => Lost socket h') []
      (handleDeleteCharacterEvent event) := by
  unfold handleDeleteCharacterEvent
  rw [hdata]
  refine withSession_answered hsocket (fun h₁ hs₁ => ?_) silent_nil
  rw [hsocket]
  by_cases hid : data.characterData.characterId ≤ 0
  · rw [if_pos hid]
    exact obeysE_answer hs₁
  · rw [if_neg hid]
    refine obeysE_acquireOrLost hs₁ fun h₂ hs₂ => ?_
    refine obeysE_silent (mute_of_service (deleteCharacter_socketless _ _).service) hs₂
      fun deleted h₃ hs₃ => ?_
    cases deleted with
    | false => exact obeysE_answer hs₃
    | true => exact obeysE_answer hs₃

/-! ### The handlers that always answer -/

theorem obeysE_sendOnce {status : Bytes} {message : Json} (hs : answersTo socket h = 0) :
    ObeysE anyCall (fun h' _ => answersTo socket h' = 1) E h
      (sendResponse (some socket) status message) := by
  refine obeysE_call.mpr ⟨trivial, fun _ => ?_⟩
  rw [answersTo_send, hs]

theorem handlePingClientEvent_answered {event : Event}
    (hdata : event.eventData = .clientData data) (hsocket : data.socket = some socket) :
    ObeysE anyCall (fun h' _ => answersTo socket h' = 1) (fun _ _ => False) []
      (handlePingClientEvent event) := by
  unfold handlePingClientEvent
  rw [hdata]
  dsimp only
  rw [hsocket]
  exact obeysE_sendOnce rfl

theorem answerAuthentification_answered {outcome : AuthOutcome}
    (hsocket : data.socket = some socket) (hs : answersTo socket h = 0) :
    ObeysE anyCall (fun h' _ => answersTo socket h' = 1) (fun _ _ => False) h
      (answerAuthentification data outcome) := by
  unfold answerAuthentification
  rw [hsocket]
  by_cases hok : outcome.status ≠ .OK
  · rw [if_pos hok]
    exact obeysE_sendOnce hs
  · rw [if_neg hok]
    refine obeysE_unanswered (mute_call (c := .getClientData _) rfl) hs fun current h' hs' => ?_
    split
    · exact obeysE_sendOnce hs'
    · exact obeysE_sendOnce hs'
    · exact obeysE_sendOnce hs'

theorem handleAuthentificateClientEvent_answered (p : Platform) {event : Event}
    (hdata : event.eventData = .clientData data) (hsocket : data.socket = some socket) :
    ObeysE anyCall (fun h' _ => answersTo socket h' = 1) (fun _ _ => False) []
      (handleAuthentificateClientEvent p event) := by
  unfold handleAuthentificateClientEvent
  rw [hdata]
  dsimp only
  refine obeysE_bind.mpr (obeysE_tryCatch.mpr (obeysE_bind.mpr (obeysE_acquire trivial ?_ ?_)))
  · refine obeysE_pure.mpr ?_
    have hs : answersTo socket [⟨.acquire, some ()⟩] = 0 := answersTo_acquire _
    refine obeysE_unanswered (mute_call (c := .remoteEndpoint _) rfl) hs fun address h₁ hs₁ => ?_
    refine obeysE_unanswered (mute_of_service (authenticate_socketless _ _ _ _ _).service) hs₁
      fun outcome h₂ hs₂ => ?_
    exact answerAuthentification_answered hsocket hs₂
  · refine obeysE_pure.mpr ?_
    dsimp only
    rw [hsocket]
    exact obeysE_sendOnce (answersTo_acquire _)

theorem handleRegisterAccountEvent_answered (p : Platform) {event : Event}
    {reg : RegistrationDataStruct} (hdata : event.eventData = .registration reg)
    (hsocket : reg.socket = some socket) :
    ObeysE anyCall (fun h' _ => answersTo socket h' = 1) (fun _ _ => False) []
      (handleRegisterAccountEvent p event) := by
  unfold handleRegisterAccountEvent
  rw [hdata]
  dsimp only
  rw [hsocket]
  -- only the acquisition throws into the handler of `std::exception`
  refine obeysE_tryCatch.mpr (obeysE_bind.mpr (obeysE_acquire trivial ?_ ?_))
  · have hs : answersTo socket [⟨.acquire, some ()⟩] = 0 := answersTo_acquire _
    refine obeysE_unanswered
      (mute_of_service (registerAccount_common _ _ _ _ _ _).service) hs
      fun result h₁ hs₁ => ?_
    obtain ⟨result, userId, sessionHash⟩ := result
    by_cases hok : result ≠ .OK
    · simp only [if_pos hok]
      exact obeysE_sendOnce hs₁
    · simp only [if_neg hok]
      exact obeysE_sendOnce hs₁
  · exact obeysE_sendOnce (answersTo_acquire _)

/-! ### The handler that answers no exception -/

/-- No answer yet, and nothing thrown. -/
def Clean (socket : Socket) (h : Hist) : Prop :=
  answersTo socket h = 0 ∧ ∀ e ∈ h, throws e = false

theorem Clean.cons (hs : Clean socket h) {c : Cmd} {r : c.Reply} (hc : c.isMute = true)
    (hthrows : throws ⟨c, r⟩ = false) : Clean socket (⟨c, r⟩ :: h) := by
  refine ⟨(answersTo_cons_of_mute hc r).trans hs.1, ?_⟩
  exact List.forall_mem_cons.mpr ⟨hthrows, hs.2⟩

def Sent (socket : Socket) (h : Hist) : Prop :=
  answersTo socket h = 1 ∧ ∀ e ∈ h, throws e = false

def Dropped (socket : Socket) (h : Hist) : Prop :=
  answersTo socket h = 0 ∧ ∃ e ∈ h, throws e = true

theorem dropped_of_throws (hs : answersTo socket h = 0) {c : Cmd} {r : c.Reply}
    (hanswer : answersTo socket (⟨c, r⟩ :: h) = answersTo socket h)
    (hthrows : throws ⟨c, r⟩ = true) : Dropped socket (⟨c, r⟩ :: h) :=
  ⟨hanswer.trans hs, _, List.mem_cons_self, hthrows⟩

theorem Dropped.cons (hs : Dropped socket h) {c : Cmd} (hc : c.isMute = true) (r : c.Reply) :
    Dropped socket (⟨c, r⟩ :: h) := by
  obtain ⟨hanswers, e, hmem, hthrows⟩ := hs
  exact ⟨(answersTo_cons_of_mute hc r).trans hanswers, e, List.mem_cons_of_mem _ hmem, hthrows⟩

theorem obeysE_sendClean {status : Bytes} {message : Json} (hs : Clean socket h) :
    ObeysE anyCall (fun h' _ => Sent socket h') E h
      (sendResponse (some socket) status message) := by
  refine obeysE_call.mpr ⟨trivial, fun _ => ⟨?_, ?_⟩⟩
  · rw [answersTo_send, hs.1]
  · exact List.forall_mem_cons.mpr ⟨rfl, hs.2⟩

/-- The ids of all rows are converted, or one of them throws. -/
theorem obeysE_convertAll {ρ : Type} {id : ρ → Int} {g : ρ → Int → Json} (rows : List ρ) :
    ObeysE anyCall (fun h' _ => h' = h ∧ (rows.any fun r => (integer (id r)).isNone) = false)
      (fun h' _ => h' = h ∧ (rows.any fun r => (integer (id r)).isNone) = true) h
      (rows.mapM fun row => do
        let i ← asInt (id row)
        return g row i) := by
  induction rows with
  | nil =>
    rw [List.mapM_nil]
    exact obeysE_pure.mpr ⟨rfl, rfl⟩
  | cons row rows ih =>
    rw [List.mapM_cons]
    refine obeysE_bind.mpr (obeysE_bind.mpr (obeysE_orThrow (fun i hi => ?_) fun hi => ?_))
    · refine obeysE_pure.mpr (obeysE_bind.mpr (ih.mono ?_ ?_))
      · rintro h' jsons ⟨rfl, hrows⟩
        refine obeysE_pure.mpr ⟨rfl, ?_⟩
        rw [List.any_cons, hi, hrows]
        rfl
      · rintro h' e ⟨rfl, hrows⟩
        refine ⟨rfl, ?_⟩
        rw [List.any_cons, hrows, Bool.or_true]
    · refine ⟨rfl, ?_⟩
      rw [List.any_cons, hi]
      rfl

/-- The conversion of a result, and what comes after it. -/
theorem obeysE_options_clean {ρ : Type} {id : ρ → Int} {g : ρ → Int → Json} {rows : List ρ}
    {f : List Json → M β}
    (hfail : (rows.any fun r => (integer (id r)).isNone) = true → E h ())
    (hf : (rows.any fun r => (integer (id r)).isNone) = false → ∀ jsons,
      ObeysE anyCall Q E h (f jsons)) :
    ObeysE anyCall Q E h
      ((rows.mapM fun row => do
        let i ← asInt (id row)
        return g row i) >>= f) := by
  refine obeysE_bind.mpr ((obeysE_convertAll rows).mono ?_ ?_)
  · rintro h' jsons ⟨rfl, hrows⟩
    exact hf hrows jsons
  · rintro h' e ⟨rfl, hrows⟩
    exact hfail hrows

theorem answerCreationOptions_sent (hsocket : data.socket = some socket)
    (hs : Clean socket h) :
    ObeysE anyCall (fun h' _ => Sent socket h') (fun h' _ => Dropped socket h') h
      (answerCreationOptions data) := by
  unfold answerCreationOptions
  rw [hsocket]
  refine obeysE_bind.mpr (obeysE_acquire trivial ?_ (dropped_of_throws hs.1 (by simp) rfl))
  have hs₁ : Clean socket (⟨.acquire, some ()⟩ :: h) :=
    ⟨(answersTo_acquire _).trans hs.1, List.forall_mem_cons.mpr ⟨rfl, hs.2⟩⟩
  refine obeysE_withWork trivial
    (dropped_of_throws hs₁.1 (answersTo_cons_of_mute rfl _) rfl) ?_
  refine ObeysE.mono (E := fun h' _ => Dropped socket h') (fun _ _ hq => hq)
    (fun h' e hd => ⟨trivial, hd.cons rfl _⟩) ?_
  have hs₂ : Clean socket (⟨.beginWork, some ()⟩ :: ⟨.acquire, some ()⟩ :: h) := hs₁.cons rfl rfl
  refine obeysE_bind.mpr (obeysE_execPrepared trivial (fun classRows => ?_)
    (dropped_of_throws hs₂.1 (answersTo_cons_of_mute rfl _) rfl))
  have hn₃ : answersTo socket (⟨.execPrepared .getCharacterClasses, some classRows⟩ :: _) = 0 :=
    (answersTo_cons_of_mute rfl _).trans hs₂.1
  refine obeysE_bind.mpr (obeysE_execPrepared trivial (fun raceRows => ?_)
    (dropped_of_throws hn₃ (answersTo_cons_of_mute rfl _) rfl))
  have hn₄ : answersTo socket (⟨.execPrepared .getCharacterRaces, some raceRows⟩ :: _) = 0 :=
    (answersTo_cons_of_mute rfl _).trans hn₃
  refine obeysE_bind.mpr (obeysE_execPrepared trivial (fun genderRows => ?_)
    (dropped_of_throws hn₄ (answersTo_cons_of_mute rfl _) rfl))
  have hn₅ : answersTo socket (⟨.execPrepared .getCharacterGenders, some genderRows⟩ :: _) = 0 :=
    (answersTo_cons_of_mute rfl _).trans hn₄
  refine obeysE_bind.mpr (obeysE_commitWork trivial ?_
    (dropped_of_throws hn₅ (answersTo_cons_of_mute rfl _) rfl))
  have hn₆ : answersTo socket (⟨.commitWork, some ()⟩ :: _) = 0 :=
    (answersTo_cons_of_mute rfl _).trans hn₅
  -- an id that does not fit makes the statement that returned it one that throws
  refine obeysE_options_clean (fun hfail => ⟨hn₆, ⟨.execPrepared .getCharacterClasses,
    some classRows⟩, by simp, hfail⟩) fun hclasses classes => ?_
  refine obeysE_options_clean (fun hfail => ⟨hn₆, ⟨.execPrepared .getCharacterRaces,
    some raceRows⟩, by simp, hfail⟩) fun hraces races => ?_
  refine obeysE_options_clean (fun hfail => ⟨hn₆, ⟨.execPrepared .getCharacterGenders,
    some genderRows⟩, by simp, hfail⟩) fun hgenders genders => ?_
  refine obeysE_sendClean ⟨hn₆, ?_⟩
  refine List.forall_mem_cons.mpr ⟨rfl, List.forall_mem_cons.mpr ⟨hgenders, ?_⟩⟩
  exact List.forall_mem_cons.mpr ⟨hraces, List.forall_mem_cons.mpr ⟨hclasses, hs₂.2⟩⟩

theorem handleGetCharacterCreationOptionsEvent_sent {event : Event}
    (hdata : event.eventData = .clientData data) (hsocket : data.socket = some socket) :
    ObeysE anyCall (fun h' _ => Sent socket h' ∨ Dropped socket h') (fun _ _ => False) []
      (handleGetCharacterCreationOptionsEvent event) := by
  have hclean : Clean socket [] := ⟨rfl, by simp⟩
  unfold handleGetCharacterCreationOptionsEvent
  rw [hdata]
  refine obeysE_tryCatch.mpr (ObeysE.mono (fun _ _ hq => Or.inl hq)
    (fun h' e hd => obeysE_pure.mpr (Or.inr hd)) ?_)
  unfold withSession
  rw [hsocket]
  by_cases hnamed : (data.clientId = 0 || data.hash.isEmpty) = true
  · rw [if_pos hnamed]
    exact obeysE_sendClean hclean
  · rw [if_neg hnamed]
    refine obeysE_bind.mpr (obeysE_call.mpr ⟨trivial, fun valid => ?_⟩)
    have hs : Clean socket [⟨.validateSession data.clientId data.hash, valid⟩] :=
      hclean.cons rfl rfl
    cases valid with
    | false => exact obeysE_sendClean hs
    | true => exact answerCreationOptions_sent hsocket hs

end EventHandler

end Handlers

/-! ## Every request -/

theorem dispatchEvent_answers (p : Platform) {event : Event} (hwf : event.WellFormed)
    (htype : event.type ≠ .DISCONNECT_CLIENT) (hsocket : event.replySocket = some socket) :
    Obeys (fun _ _ => True) (fun h' _ => answersTo socket h' = 1 ↔ Unharmed event.type h') []
      (task (EventHandler.dispatchEvent p event)) := by
  refine obeys_task ?_
  unfold EventHandler.dispatchEvent Unharmed
  have hanswered : ∀ h', Answered socket h' →
      (answersTo socket h' = 1 ↔ ⟨.acquire, none⟩ ∉ h') :=
    fun h' hq => iff_of_true hq.1 hq.2
  have hlost : ∀ h', Lost socket h' → (answersTo socket h' = 1 ↔ ⟨.acquire, none⟩ ∉ h') := by
    intro h' he
    refine iff_of_false ?_ (not_not.mpr he.2)
    rw [he.1]
    exact Nat.zero_ne_one
  cases hdata : event.eventData with
  | registration reg =>
    have hregister : event.type = .REGISTER_ACCOUNT := hwf.payload.mp ⟨reg, hdata⟩
    rw [hregister]
    have hreg : reg.socket = some socket := by
      rw [Event.replySocket, hdata] at hsocket
      exact hsocket
    refine (EventHandler.handleRegisterAccountEvent_answered p hdata hreg).mono ?_ ?_
    · exact fun h' _ hq => iff_of_true hq trivial
    · exact fun h' _ he => he.elim
  | clientData data =>
    have hclient : data.socket = some socket := by
      rw [Event.replySocket, hdata] at hsocket
      exact hsocket
    cases ht : event.type with
    | DISCONNECT_CLIENT => exact absurd ht htype
    | REGISTER_ACCOUNT =>
      obtain ⟨reg, hreg⟩ := hwf.payload.mpr ht
      rw [hdata] at hreg
      cases hreg
    | PING_CLIENT =>
      refine (EventHandler.handlePingClientEvent_answered hdata hclient).mono ?_ ?_
      · exact fun h' _ hq => iff_of_true hq trivial
      · exact fun h' _ he => he.elim
    | AUTH_CLIENT =>
      refine (EventHandler.handleAuthentificateClientEvent_answered p hdata hclient).mono ?_ ?_
      · exact fun h' _ hq => iff_of_true hq trivial
      · exact fun h' _ he => he.elim
    | GET_CHARACTERS_LIST =>
      exact (EventHandler.handleGetCharactersListEvent_answered hdata hclient).mono
        (fun h' _ => hanswered h') fun h' _ => hlost h'
    | CREATE_CHARACTER =>
      exact (EventHandler.handleCreateCharacterEvent_answered hdata hclient).mono
        (fun h' _ => hanswered h') fun h' _ => hlost h'
    | DELETE_CHARACTER =>
      exact (EventHandler.handleDeleteCharacterEvent_answered hdata hclient).mono
        (fun h' _ => hanswered h') fun h' _ => hlost h'
    | GET_CHARACTER_CREATION_OPTIONS =>
      refine (EventHandler.handleGetCharacterCreationOptionsEvent_sent hdata hclient).mono ?_ ?_
      · rintro h' - (⟨hone, hunharmed⟩ | ⟨hzero, e, hmem, hthrows⟩)
        · exact iff_of_true hone hunharmed
        · refine iff_of_false ?_ fun hunharmed => ?_
          · rw [hzero]
            exact Nat.zero_ne_one
          · rw [hunharmed e hmem] at hthrows
            cases hthrows
      · exact fun h' _ he => he.elim

/-- A dispatched request is answered exactly once, on the socket it came from, if and only
if nothing was thrown that its handler only logs. -/
theorem requests_answered_iff (p : Platform) (limits : VersionLimits) (ctx : FrameContext)
    (message : Bytes) (event : Event)
    (hmem : event ∈ (processMessage p limits ctx message).events)
    (htype : event.type ≠ .DISCONNECT_CLIENT) (hist : Hist)
    (hends : Ends [] (task (EventHandler.dispatchEvent p event)) hist ()) :
    answersTo ctx.clientSocket hist = 1 ↔ Unharmed event.type hist :=
  obeys_iff_ends.mp (dispatchEvent_answers p (processMessage_wellFormed p limits ctx message event
    hmem) htype (replySocket_of_mem hmem htype)) hist () hends

/-- So it is in the running server, once the task has finished. -/
theorem Server.reach_answered_iff {p : Platform} {cfg : ServerConfig} {s₀ : Server}
    {meets : ServerState → ServerLabel → Prop} {c : ServerState} (h₀ : s₀.Initial)
    (hreach : (loginServer p cfg).Reach meets s₀.boot c) {t : Nat} {event : Event} {hist : Hist}
    (hthread : c.threads t = some ⟨.event event, hist, .pure ()⟩)
    (htype : event.type ≠ .DISCONNECT_CLIENT) :
    ∃ socket, event.replySocket = some socket ∧
      (answersTo socket hist = 1 ↔ Unharmed event.type hist) := by
  obtain ⟨-, hjobs⟩ := Server.reach_events (P := fun event => ∃ ctx message,
    event ∈ (processMessage p cfg.limits ctx message).events)
    (fun ctx message event hmem => ⟨ctx, message, hmem⟩) h₀ hreach
  obtain ⟨ctx, message, hmem⟩ := hjobs t _ hthread event rfl
  have hsocket := replySocket_of_mem hmem htype
  have hanswers := dispatchEvent_answers p
    (processMessage_wellFormed p cfg.limits ctx message event hmem) htype hsocket
  exact ⟨ctx.clientSocket, hsocket, obeys_iff_ends.mp hanswers hist ()
    (System.ends_of_finished (fun _ => rfl) hreach hthread)⟩

/-! ## A request that is not answered -/

open Schedule Sample

def listSessionText : Bytes :=
  messageText ("\"eventType\":\"getCharactersList\",\"clientId\":1," ++
    "\"hash\":\"11111111-1111-4111-8111-111111111111\"") ""

def listSessionJson : Json :=
  messageJson [(str "eventType", .string (str "getCharactersList")),
    (str "clientId", .number 1), (str "hash", .string tokenA)] []

def listPlatform : Platform :=
  .ofTables [(loginText, loginJson), (listSessionText, listSessionJson)] digests

def listContext : FrameContext := ⟨1, some (str "127.0.0.1"), 0⟩

/-- The task of thread `t` has finished with `n` answers to `socket`. -/
def finished (t : Nat) (type : EventType) (socket : Socket) (n : Nat) (c : ServerState) : Bool :=
  match c.threads t with
  | some ⟨.event event, hist, .pure ()⟩ =>
    event.type = type && event.replySocket = some socket && answersTo socket hist = n
  | _ => false

theorem exists_of_finished {t : Nat} {type : EventType} {n : Nat} {c : ServerState}
    (h : finished t type socket n c = true) :
    ∃ event hist, c.threads t = some ⟨.event event, hist, .pure ()⟩ ∧ event.type = type ∧
      event.replySocket = some socket ∧ answersTo socket hist = n := by
  unfold finished at h
  split at h
  · rename_i event hist hthread
    simp only [Bool.and_eq_true, decide_eq_true_eq] at h
    exact ⟨event, hist, hthread, h.1.1, h.1.2, h.2⟩
  · cases h

def listEvent : Event where
  type := .GET_CHARACTERS_LIST
  clientID := 1
  eventData := .clientData { clientId := 1, hash := tokenA, socket := some 1 }
  currentClientSocket := some 1
  timestamps := some {}

/-- A list request whose session is not the stored one. -/
theorem requests_answered_iff_invalid :
    answersTo 1 [⟨.sendResponse (some 1) (str "error") (EventHandler.answer
        (str "ERR_SESSION_INVALID") tokenA 1 "getCharactersList"), ()⟩,
      ⟨.validateSession 1 tokenA, false⟩] = 1 ↔
    Unharmed .GET_CHARACTERS_LIST [⟨.sendResponse (some 1) (str "error") (EventHandler.answer
        (str "ERR_SESSION_INVALID") tokenA 1 "getCharactersList"), ()⟩,
      ⟨.validateSession 1 tokenA, false⟩] :=
  requests_answered_iff listPlatform config.limits listContext listSessionText listEvent
    (by decide +kernel) (by decide) _ ⟨false, (), rfl, rfl⟩

/-- A client logs in and asks for its characters; no connection is to be had in time, the
exception leaves the handler, and the task ends without an answer. -/
theorem list_without_connection_unanswered : ∃ c event hist,
    (loginServer listPlatform config).Reach (fun _ _ => True)
      (Server.over { users := [anna] }).boot c ∧
    c.threads 1 = some ⟨.event event, hist, .pure ()⟩ ∧ event.type = .GET_CHARACTERS_LIST ∧
    event.replySocket = some 1 ∧ answersTo 1 hist = 0 := by
  obtain ⟨c, hreach, hfinished⟩ := exists_reach listPlatform config
    (Server.over { users := [anna] })
    (P := fun c => finished 1 .GET_CHARACTERS_LIST 1 0 c = true)
    ([frame 1 loginText, frame 1 listSessionText, .spawn 0 .dispatch] ++ login 0 tokenA ++
      calls 0 2 ++ [.spawn 1 .dispatch] ++ calls 1 4 ++ [.run 1 { fails := true }])
    (by decide +kernel)
  obtain ⟨event, hist, hthread⟩ := exists_of_finished hfinished
  exact ⟨c, event, hist, hreach, hthread⟩

end LoginServer
