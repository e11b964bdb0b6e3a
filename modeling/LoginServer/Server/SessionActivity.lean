import LoginServer.Interleaving.Logged
import LoginServer.Server.Effects
import LoginServer.Server.Schedule
import LoginServer.Services.Calls

/-!
# Sessions in use and the sweep

The server runs with a log of its calls, stamped with `steady_clock`. What the sweep
looks at, `lastSeenMs`, is the time that the latest `storeClientData` or `touchSession` for
the id has written (`Activity.seen`). Of the requests that pass `validateSession` only those
for the list go on to touch the session (`Activity.touched`); a session that is used in other
ways only is swept. A touch reads the clock before it takes the mutex, so it can also put an
older time in the place of a later one (`Overtaken`).
-/

namespace LoginServer

open Database Interleaving

variable {p : Platform} {cfg : ServerConfig} {job : Job} {h : Hist}

/-! ## A list request touches its session -/

/-- After a validation a list request can only touch the session, reading the clock first. -/
def mayTouch (job : Job) (h : Hist) (c : Cmd) : Prop :=
  job.type = some .GET_CHARACTERS_LIST → ∀ id hash h',
    (h = ⟨.validateSession id hash, true⟩ :: h' → c = .nowMs) ∧
    ∀ now, h = ⟨.nowMs, now⟩ :: ⟨.validateSession id hash, true⟩ :: h' → c = .touchSession id now

/-- The last call was not a successful validation, nor a look at the clock. -/
def Unvalidated : Hist → Prop
  | ⟨.validateSession _ _, true⟩ :: _ => False
  | ⟨.nowMs, _⟩ :: _ => False
  | _ => True

theorem Unvalidated.mayTouch (hh : Unvalidated h) (c : Cmd) : mayTouch job h c := by
  refine fun _ id hash h' => ⟨?_, fun now => ?_⟩
  · rintro rfl
    exact hh.elim
  · rintro rfl
    exact hh.elim

def Cmd.leadsToTouch : Cmd → Bool
  | .validateSession _ _ | .nowMs => true
  | _ => false

theorem unvalidated_cons {c : Cmd} (hc : c.leadsToTouch = false) (r : c.Reply) :
    Unvalidated (⟨c, r⟩ :: h) := by
  cases c with
  | validateSession | nowMs => cases hc
  | _ => trivial

/-- A program that validates nothing may be run after anything but a validation. -/
theorem obeysE_touch {α : Type} {m : M α}
    (hm : Makes (fun c : Cmd => c.leadsToTouch = false) True m) (hh : Unvalidated h) :
    ObeysE (mayTouch job) (fun _ _ => True) (fun _ _ => True) h m := by
  refine ((hm h).strengthen (P := Unvalidated) ?_ ?_ hh).mono ?_ ?_
  · exact fun h c r hc _ => unvalidated_cons hc r
  · exact fun h c _ hh => hh.mayTouch c
  · exact fun _ _ _ => trivial
  · exact fun _ _ _ => trivial

theorem notValidate_call {throws : Prop} {c : Cmd} (hc : c.leadsToTouch = false) :
    Makes (fun c : Cmd => c.leadsToTouch = false) throws (call c) :=
  fun _ => obeysE_call.mpr ⟨hc, fun _ => trivial⟩

theorem notValidate_of_service {α : Type} {m : M α} (hm : IsService False m) :
    Makes (fun c : Cmd => c.leadsToTouch = false) True m :=
  hm.mono (fun c hc => by cases c <;> first | rfl | cases hc) fun _ => trivial

theorem answerCharactersList_touch {data : ClientDataStruct} {clientID : Int} {h' : Hist} :
    ObeysE (mayTouch job) (fun _ _ => True) (fun _ _ => True)
      (⟨.validateSession data.clientId data.hash, true⟩ :: h')
      (EventHandler.answerCharactersList data clientID) := by
  unfold EventHandler.answerCharactersList
  refine obeysE_bind.mpr (obeysE_touchSession ?_ (fun now => ?_) fun now touched => ?_)
  · refine fun _ id hash h'' => ⟨fun _ => rfl, fun now heq => ?_⟩
    cases heq
  · refine fun _ id hash h'' => ⟨fun heq => ?_, fun now' heq => ?_⟩
    · cases heq
    · cases heq
      rfl
  · refine obeysE_touch (makes_bind (notValidate_call rfl) fun current => ?_)
      (unvalidated_cons rfl touched)
    cases current with
    | none => exact notValidate_call rfl
    | some current =>
      refine makes_bind (makes_bind (notValidate_call (c := .acquire) rfl) fun r => ?_) fun _ => ?_
      · exact makes_orThrow r
      have hlist := getCharactersList_common clientID
      refine makes_bind (notValidate_of_service hlist.service) fun _ => ?_
      refine makes_bind (makes_mapM (fun character => ?_) _) fun _ => notValidate_call rfl
      have hpreview := getCharacterEquipmentPreview_common character.characterId
      exact makes_bind (notValidate_of_service hpreview.service) fun _ => makes_pure _

theorem handleGetCharactersListEvent_touch (event : Event) :
    ObeysE (mayTouch job) (fun _ _ => True) (fun _ _ => True) []
      (EventHandler.handleGetCharactersListEvent event) := by
  unfold EventHandler.handleGetCharactersListEvent
  have hnil : Unvalidated [] := trivial
  split
  · rename_i data hdata
    unfold EventHandler.withSession
    split_ifs
    · exact obeysE_touch (notValidate_call rfl) hnil
    · refine obeysE_bind.mpr (obeysE_bind.mpr
        (obeysE_call.mpr ⟨hnil.mayTouch _, fun valid => obeysE_pure.mpr ?_⟩))
      cases valid with
      | false => exact obeysE_touch (notValidate_call rfl) trivial
      | true => exact answerCharactersList_touch
  · exact obeysE_pure.mpr trivial

theorem program_touches (p : Platform) (cfg : ServerConfig) (job : Job) :
    Obeys (mayTouch job) (fun _ _ => True) [] ((loginServer p cfg).program job) := by
  by_cases htype : job.type = some .GET_CHARACTERS_LIST
  · cases job with
    | cleanup => cases htype
    | event event =>
      have hlist : event.type = .GET_CHARACTERS_LIST := Option.some.inj htype
      have hdispatch : ObeysE (mayTouch (.event event)) (fun _ _ => True) (fun _ _ => True) []
          (EventHandler.dispatchEvent p event) := by
        rw [EventHandler.dispatchEvent, hlist]
        exact handleGetCharactersListEvent_touch event
      exact obeys_task hdispatch
  · exact obeys_of_forall (fun _ _ hlist => absurd hlist htype) _

/-! ## The server with a log -/

/-- A configuration of the server, with the log of all calls so far. -/
abbrev TimedState := Config Job Cmd Cmd.Reply (Server × List (Entry Cmd Cmd.Reply Int))

def timedServer (p : Platform) (cfg : ServerConfig) :
    System Job Start Cmd Cmd.Reply (Server × List (Entry Cmd Cmd.Reply Int)) Choice Outside :=
  (loginServer p cfg).logged Server.steadyMs

/-- The time that a store or a touch of the session writes. A store reads the clock under the
mutex, a touch has read it before. -/
def refreshedAt (id : Int) (e : Entry Cmd Cmd.Reply Int) : Option Int :=
  match e.call with
  | ⟨.storeClientData d, _⟩ => if d.clientId = id then some e.note else none
  | ⟨.touchSession id' now, _⟩ => if id' = id then some now else none
  | _ => none

section Calls

variable {f : SqlFunctions} {t : Nat} {x : Choice} {s s' : Server} {cmd : Cmd} {r : cmd.Reply}

/-- An entry after a call was refreshed by it, or was there before. -/
theorem exec_seen (hexec : s.exec f t cmd x = some (r, s')) {id : Int} (hid : id ≠ 0)
    {entry : ClientDataStruct} (hentry : s'.clientData.find id = some entry) :
    refreshedAt id ⟨s.steadyMs, t, ⟨cmd, r⟩⟩ = some entry.lastSeenMs ∨
    (refreshedAt id ⟨s.steadyMs, t, ⟨cmd, r⟩⟩ = none ∧ s.clientData.find id = some entry) := by
  rw [Server.exec_clientData hexec] at hentry
  cases cmd with
  | storeClientData d =>
    change (s.clientData.storeClientData d s.steadyMs).find id = some entry at hentry
    rw [ClientData.find_storeClientData] at hentry
    split_ifs at hentry with hsame
    · cases hentry
      exact Or.inl (if_pos hsame.symm)
    · exact Or.inr ⟨if_neg fun heq => hsame heq.symm, hentry⟩
  | touchSession id' now =>
    change (s.clientData.touchSession id' 0 now).2.find id = some entry at hentry
    rw [ClientData.find_touchSession] at hentry
    split_ifs at hentry with hsame
    · obtain ⟨entry', -, rfl⟩ := Option.map_eq_some_iff.mp hentry
      exact Or.inl (if_pos hsame.1.symm)
    · refine Or.inr ⟨if_neg fun heq => hsame ⟨heq.symm, ?_⟩, hentry⟩
      rw [heq]
      exact hid
  | removeClientData id' =>
    change (s.clientData.removeClientData id').2.find id = some entry at hentry
    rw [ClientData.find_removeClientData] at hentry
    split_ifs at hentry
    exact Or.inr ⟨rfl, hentry⟩
  | sweepExpiredSessions now ttlMs =>
    change (s.clientData.sweepExpiredSessions now ttlMs).2.find id = some entry at hentry
    rw [ClientData.find_sweepExpiredSessions, Option.filter_eq_some_iff] at hentry
    exact Or.inr ⟨rfl, hentry.1⟩
  | _ => exact Or.inr ⟨rfl, hentry⟩

end Calls

theorem start_steadyMs {a : Start} {s s' : Server}
    (h : (loginServer p cfg).start a s = some (job, s')) : s'.steadyMs = s.steadyMs := by
  obtain ⟨queue, rfl⟩ := start_cases h
  rfl

theorem outside_steadyMs {o : Outside} {s s' : Server}
    (h : (loginServer p cfg).outside o s = some s') : s.steadyMs ≤ s'.steadyMs := by
  rcases outside_cases h with ⟨queue, rfl⟩ | ⟨clock, steadyMs, -, hsteadyMs, rfl⟩
  · exact le_rfl
  · exact hsteadyMs

/-! ## What the log says of the session store -/

/-- The type of the request that thread `t` handles. -/
def requestType (c : TimedState) (t : Nat) : Option EventType := (c.job? t).bind Job.type

/-- A store or touch of the session has written a time from `since` on. -/
def RefreshedSince (id since : Int) (log : List (Entry Cmd Cmd.Reply Int)) : Prop :=
  ∃ e ∈ log, ∃ stamp, refreshedAt id e = some stamp ∧ since ≤ stamp

/-- The thread is between its validation `e` and its touch. -/
def AboutToTouch (c : TimedState) (e : Entry Cmd Cmd.Reply Int) : Prop :=
  (∃ h', c.hist e.thread = e.call :: h') ∨
  ∃ now h', c.hist e.thread = ⟨.nowMs, now⟩ :: e.call :: h'

structure Activity (c : TimedState) : Prop where
  started : ∀ e ∈ c.shared.2, c.threads e.thread ≠ none
  past : ∀ e ∈ c.shared.2, e.note ≤ c.shared.1.steadyMs
  inOrder : c.shared.2.Pairwise fun e e' => e'.note ≤ e.note
  clock : ∀ t now, ⟨.nowMs, now⟩ ∈ c.hist t → now ≤ c.shared.1.steadyMs
  stamped : ∀ e ∈ c.shared.2, ∀ id stamp, refreshedAt id e = some stamp → stamp ≤ e.note
  valid : ∀ e ∈ c.shared.2, ∀ id hash, e.call = ⟨.validateSession id hash, true⟩ → id ≠ 0
  /-- An entry was last seen at its latest refresh. -/
  seen : ∀ id entry, id ≠ 0 → c.shared.1.clientData.find id = some entry →
    c.shared.2.findSome? (refreshedAt id) = some entry.lastSeenMs
  /-- What a thread has just read from the clock is not older than its calls. -/
  read : ∀ e ∈ c.shared.2, ∀ now h', c.hist e.thread = ⟨.nowMs, now⟩ :: h' → e.note ≤ now
  /-- A validated list request is just about to touch the session, or has touched it. -/
  touched : ∀ e ∈ c.shared.2, ∀ id hash, e.call = ⟨.validateSession id hash, true⟩ →
    requestType c e.thread = some .GET_CHARACTERS_LIST →
    AboutToTouch c e ∨ RefreshedSince id e.note c.shared.2

section Step

variable {c : TimedState} {t : Nat} {x : Choice} {hist : Hist} {cmd : Cmd}
  {k : cmd.Reply → Program Cmd Cmd.Reply Unit} {r : cmd.Reply} {s : Server}

theorem requestType_of_threads {th : Thread Job Cmd Cmd.Reply} (hthread : c.threads t = some th) :
    requestType c t = th.job.type := by
  rw [requestType, Config.job?, hthread]
  rfl

theorem requestType_set_of_ne {t' : Nat} (hne : t' ≠ t) (th : Thread Job Cmd Cmd.Reply)
    (s : Server × List (Entry Cmd Cmd.Reply Int)) :
    requestType (c.set t th s) t' = requestType c t' := by
  rw [requestType, Config.job?, Config.threads_set_of_ne c hne]
  rfl

theorem RefreshedSince.cons {id since : Int} {log : List (Entry Cmd Cmd.Reply Int)}
    (h : RefreshedSince id since log) (e : Entry Cmd Cmd.Reply Int) :
    RefreshedSince id since (e :: log) := by
  obtain ⟨e', he', hstamp⟩ := h
  exact ⟨e', List.mem_cons_of_mem _ he', hstamp⟩

/-- No call writes a time that is still to come. -/
theorem Activity.stamped_call (hI : Activity c)
    (hmay : mayCall job hist cmd) (hthread : c.threads t = some ⟨job, hist, .op cmd k⟩)
    {id stamp : Int} (hstamp : refreshedAt id ⟨c.shared.1.steadyMs, t, ⟨cmd, r⟩⟩ = some stamp) :
    stamp ≤ c.shared.1.steadyMs := by
  cases cmd with
  | storeClientData d =>
    simp only [refreshedAt] at hstamp
    split_ifs at hstamp
    cases hstamp
    exact le_rfl
  | touchSession id' now =>
    simp only [refreshedAt] at hstamp
    split_ifs at hstamp
    cases hstamp
    obtain ⟨-, data, h', -, -, rfl⟩ := hmay
    refine hI.clock t stamp ?_
    rw [Config.hist_of_threads hthread]
    exact List.mem_cons_self
  | _ => cases hstamp

/-- A list request goes on from its validation to its touch. -/
theorem Activity.touched_call (hI : Activity c) (htouch : mayTouch job hist cmd)
    (hthread : c.threads t = some ⟨job, hist, .op cmd k⟩)
    {e : Entry Cmd Cmd.Reply Int} (he : e ∈ c.shared.2) {id : Int} {hash : Bytes}
    (hcall : e.call = ⟨.validateSession id hash, true⟩) (ht : e.thread = t)
    (htype : job.type = some .GET_CHARACTERS_LIST) (hbefore : AboutToTouch c e) :
    (∃ h' now, (⟨cmd, r⟩ :: hist : Hist) = ⟨.nowMs, now⟩ :: e.call :: h') ∨
      RefreshedSince id e.note (⟨c.shared.1.steadyMs, t, ⟨cmd, r⟩⟩ :: c.shared.2) := by
  have hhist : c.hist e.thread = hist := by
    rw [ht, Config.hist_of_threads hthread]
  rcases hbefore with ⟨h', heq⟩ | ⟨now, h', heq⟩
  · rw [hhist, hcall] at heq
    obtain rfl := (htouch htype id hash h').1 heq
    exact Or.inl ⟨h', r, by rw [heq, hcall]⟩
  · have hread := hI.read e he now _ heq
    rw [hhist, hcall] at heq
    obtain rfl := (htouch htype id hash h').2 now heq
    exact Or.inr ⟨_, List.mem_cons_self, now, if_pos rfl, hread⟩

theorem Activity.call (hI : Activity c) (hmay : mayCall job hist cmd)
    (htouch : mayTouch job hist cmd) (hthread : c.threads t = some ⟨job, hist, .op cmd k⟩)
    (hexec : c.shared.1.exec p.toSqlFunctions t cmd x = some (r, s)) :
    Activity (c.set t ⟨job, ⟨cmd, r⟩ :: hist, k r⟩
      (s, ⟨c.shared.1.steadyMs, t, ⟨cmd, r⟩⟩ :: c.shared.2)) := by
  have hsteady : s.steadyMs = c.shared.1.steadyMs := (exec_frame hexec).2.2.1
  have hhist : c.hist t = hist := Config.hist_of_threads hthread
  refine ⟨List.forall_mem_cons.mpr ⟨?_, fun e he => ?_⟩,
    List.forall_mem_cons.mpr ⟨hsteady.ge, fun e he => (hI.past e he).trans hsteady.ge⟩,
    List.pairwise_cons.mpr ⟨hI.past, hI.inOrder⟩, fun t' now hmem => ?_,
    List.forall_mem_cons.mpr ⟨fun id stamp => hI.stamped_call hmay hthread, hI.stamped⟩,
    List.forall_mem_cons.mpr ⟨?_, hI.valid⟩, fun id entry hid hentry => ?_,
    fun e he now h' heq => ?_, List.forall_mem_cons.mpr ⟨?_, fun e he id hash hcall htype => ?_⟩⟩
  · rw [Config.threads_set_self]
    exact Option.some_ne_none _
  · by_cases ht : e.thread = t
    · rw [ht, Config.threads_set_self]
      exact Option.some_ne_none _
    · rw [Config.threads_set_of_ne c ht]
      exact hI.started e he
  · rw [Config.hist_set, ← hhist] at hmem
    rw [Config.shared_set, hsteady]
    rcases mem_update hmem with hold | ⟨rfl, heq⟩
    · exact hI.clock t' now hold
    · cases heq
      have hread : c.shared.1.steadyMs = now := (Prod.mk.inj (Option.some.inj hexec)).1
      exact hread.ge
  · intro id hash hcall
    cases hcall
    have hvalid := (Prod.mk.inj (Option.some.inj hexec)).1
    exact (ClientData.validateSession_iff.mp hvalid).1
  · rw [Config.shared_set] at hentry ⊢
    rw [List.findSome?_cons]
    rcases exec_seen hexec hid hentry with hrefreshed | ⟨hnone, hbefore⟩
    · rw [hrefreshed]
    · rw [hnone]
      exact hI.seen id entry hid hbefore
  · rw [Config.hist_set] at heq
    by_cases ht : e.thread = t
    · rw [ht, Function.update_self] at heq
      cases heq
      rw [← (Prod.mk.inj (Option.some.inj hexec)).1]
      rcases List.mem_cons.mp he with rfl | he
      · exact le_rfl
      · exact hI.past e he
    · rw [Function.update_of_ne ht] at heq
      rcases List.mem_cons.mp he with rfl | he
      · exact absurd rfl ht
      · exact hI.read e he now h' heq
  · intro id hash hcall _
    refine Or.inl (Or.inl ⟨hist, ?_⟩)
    rw [Config.hist_set, Function.update_self]
  · by_cases ht : e.thread = t
    · have htype' : requestType c e.thread = some .GET_CHARACTERS_LIST := by
        rw [ht, requestType_of_threads (Config.threads_set_self ..)] at htype
        rw [ht, requestType_of_threads hthread]
        exact htype
      rcases hI.touched e he id hash hcall htype' with habout | hrefreshed
      · rw [ht, requestType_of_threads hthread] at htype'
        refine (hI.touched_call htouch hthread he hcall ht htype' habout).imp_left ?_
        rintro ⟨h', now, heq⟩
        refine Or.inr ⟨now, h', ?_⟩
        rw [Config.hist_set, ht, Function.update_self]
        exact heq
      · exact Or.inr (hrefreshed.cons _)
    · rw [requestType_set_of_ne ht] at htype
      rw [AboutToTouch, Config.hist_set, Function.update_of_ne ht]
      exact (hI.touched e he id hash hcall htype).imp_right fun h => h.cons _

theorem Activity.spawn (hI : Activity c) {a : Start} {prog : Program Cmd Cmd.Reply Unit}
    (hfree : c.threads t = none)
    (hstart : (loginServer p cfg).start a c.shared.1 = some (job, s)) :
    Activity (c.set t ⟨job, [], prog⟩ (s, c.shared.2)) := by
  have hne : ∀ e ∈ c.shared.2, e.thread ≠ t := fun e he ht => hI.started e he (ht ▸ hfree)
  have hhist : Config.hist (c.set t ⟨job, [], prog⟩ (s, c.shared.2)) = c.hist :=
    Config.hist_set_start hfree ..
  refine ⟨fun e he => ?_, fun e he => ?_, hI.inOrder, ?_, hI.stamped, hI.valid, ?_, ?_, ?_⟩
  · rw [Config.threads_set_of_ne c (hne e he)]
    exact hI.started e he
  · exact (hI.past e he).trans (start_steadyMs hstart).ge
  · rw [hhist, Config.shared_set, start_steadyMs hstart]
    exact hI.clock
  · rw [Config.shared_set, (start_sameData hstart).clientData]
    exact hI.seen
  · rw [hhist]
    exact hI.read
  · intro e he id hash hcall htype
    rw [requestType_set_of_ne (hne e he)] at htype
    rw [AboutToTouch, hhist]
    exact hI.touched e he id hash hcall htype

theorem Activity.outside (hI : Activity c) {o : Outside}
    (ho : (loginServer p cfg).outside o c.shared.1 = some s) :
    Activity ⟨c.threads, (s, c.shared.2)⟩ := by
  have hsteady := outside_steadyMs ho
  refine ⟨hI.started, fun e he => (hI.past e he).trans hsteady, hI.inOrder,
    fun t now hmem => (hI.clock t now hmem).trans hsteady, hI.stamped, hI.valid, ?_, hI.read,
    hI.touched⟩
  dsimp only
  rw [(outside_sameData ho).clientData]
  exact hI.seen

end Step

/-- No thread has started, and nothing is in the log. -/
def Server.bootTimed (s : Server) : TimedState := s.boot.withLog []

theorem activity_boot {s₀ : Server} (h₀ : s₀.Initial) : Activity s₀.bootTimed := by
  have hnone : ∀ e, e ∉ s₀.bootTimed.shared.2 := fun e => List.not_mem_nil
  refine ⟨fun e he => absurd he (hnone e), fun e he => absurd he (hnone e), List.Pairwise.nil,
    fun t now hmem => ?_, fun e he => absurd he (hnone e), fun e he => absurd he (hnone e),
    fun id entry _ hentry => ?_, fun e he => absurd he (hnone e), fun e he => absurd he (hnone e)⟩
  · cases hmem
  · change s₀.clientData.find id = some entry at hentry
    rw [h₀.clientData] at hentry
    cases hentry

theorem reach_activity {s₀ : Server} {c : TimedState} (h₀ : s₀.Initial)
    (hreach : (timedServer p cfg).Reach (fun _ _ => True) s₀.bootTimed c) : Activity c := by
  refine hreach.invariant (activity_boot h₀) fun c l c' hreach hI _ hstep => ?_
  have hcalls : System.AllObedient mayCall jobPost c :=
    System.reach_obedient (M := timedServer p cfg) (program_obeys p cfg) (fun _ => rfl) hreach
  have htouches : System.AllObedient mayTouch (fun _ _ => True) c :=
    System.reach_obedient (M := timedServer p cfg) (program_touches p cfg) (fun _ => rfl) hreach
  cases System.logged_step_cases hstep with
  | call _ hthread hexec =>
    exact hI.call (hcalls _ _ hthread).allowed (htouches _ _ hthread).allowed hthread hexec
  | spawn _ hfree hstart => exact hI.spawn hfree hstart
  | outside _ ho => exact hI.outside ho

/-! ## The sweep -/

/-- The requests that name a session and are no logins. -/
def EventType.usesSession : EventType → Bool
  | .GET_CHARACTERS_LIST | .CREATE_CHARACTER | .DELETE_CHARACTER
  | .GET_CHARACTER_CREATION_OPTIONS => true
  | _ => false

/-- The call in which a request of the account passed `validateSession`. -/
structure Passed (c : TimedState) (id : Int) (e : Entry Cmd Cmd.Reply Int) : Prop where
  logged : e ∈ c.shared.2
  request : ∃ type, requestType c e.thread = some type ∧ type.usesSession
  call : ∃ hash, e.call = ⟨.validateSession id hash, true⟩

/-- A request that does not touch its session, or has not come to it. -/
def Untouching (c : TimedState) (e : Entry Cmd Cmd.Reply Int) : Prop :=
  requestType c e.thread ≠ some .GET_CHARACTERS_LIST ∨ AboutToTouch c e

/-- After a store or touch that has written a time from `since` on, the session was touched by
a request that had read the clock before `since`, and nothing has refreshed it again. -/
def Overtaken (id since : Int) (log : List (Entry Cmd Cmd.Reply Int)) : Prop :=
  ∃ later e earlier now touched, log = later ++ e :: earlier ∧
    (∀ e' ∈ later, refreshedAt id e' = none) ∧
    e.call = ⟨.touchSession id now, touched⟩ ∧ now < since ∧ RefreshedSince id since earlier

/-- Each stored session for which a request has passed since then was also refreshed, if the
request does not touch it, and was not overtaken. -/
def RefreshedBeside (c : TimedState) (since : Int) : Prop :=
  ∀ id e, c.shared.1.clientData.find id ≠ none → Passed c id e → since ≤ e.note →
    (Untouching c e → RefreshedSince id since c.shared.2) ∧ ¬ Overtaken id since c.shared.2

variable {c : TimedState}

/-- The latest refresh of a session that was not overtaken is none that is too old. -/
theorem Activity.overtaken (hI : Activity c) {id since stamp : Int}
    (hlatest : c.shared.2.findSome? (refreshedAt id) = some stamp) (hold : stamp < since)
    (hrefreshed : RefreshedSince id since c.shared.2) : Overtaken id since c.shared.2 := by
  obtain ⟨later, e, earlier, hlog, hstamp, hnone⟩ := List.findSome?_eq_some_iff.mp hlatest
  have hearlier : RefreshedSince id since earlier := by
    obtain ⟨e', he', stamp', hstamp', hsince⟩ := hrefreshed
    rw [hlog, List.mem_append, List.mem_cons] at he'
    rcases he' with hlater | rfl | hearlier
    · rw [hnone e' hlater] at hstamp'
      cases hstamp'
    · rw [hstamp] at hstamp'
      cases hstamp'
      omega
    · exact ⟨e', hearlier, stamp', hstamp', hsince⟩
  have hinOrder := hI.inOrder
  rw [hlog] at hinOrder
  have hbefore := (List.pairwise_cons.mp (List.pairwise_append.mp hinOrder).2.1).1
  obtain ⟨note, thread, ⟨cmd, r⟩⟩ := e
  cases cmd with
  | touchSession id' now =>
    simp only [refreshedAt] at hstamp
    split_ifs at hstamp with hid
    obtain rfl := hid
    cases hstamp
    exact ⟨later, _, earlier, stamp, r, hlog, hnone, rfl, hold, hearlier⟩
  | storeClientData d =>
    -- a store is stamped when it is made, so after everything before it
    exfalso
    simp only [refreshedAt] at hstamp
    split_ifs at hstamp
    cases hstamp
    obtain ⟨e', he', stamp', hstamp', hsince⟩ := hearlier
    have hmem : e' ∈ c.shared.2 := by
      rw [hlog]
      exact List.mem_append_right _ (List.mem_cons_of_mem _ he')
    have hle := hI.stamped e' hmem id stamp' hstamp'
    have hle' : e'.note ≤ stamp := hbefore e' he'
    omega
  | _ => cases hstamp

theorem Overtaken.latest {id since : Int} {log : List (Entry Cmd Cmd.Reply Int)}
    (h : Overtaken id since log) :
    ∃ now, log.findSome? (refreshedAt id) = some now ∧ now < since := by
  obtain ⟨later, e, earlier, now, touched, hlog, hnone, hcall, hold, -⟩ := h
  have hstamp : refreshedAt id e = some now := by
    rw [refreshedAt, hcall]
    exact if_pos rfl
  refine ⟨now, ?_, hold⟩
  rw [hlog, List.findSome?_append, List.findSome?_eq_none_iff.mpr hnone, Option.none_or,
    List.findSome?_cons, hstamp]

theorem Activity.ne_zero (hI : Activity c) {id : Int} {e : Entry Cmd Cmd.Reply Int}
    (hpassed : Passed c id e) : id ≠ 0 := by
  obtain ⟨hash, hcall⟩ := hpassed.call
  exact hI.valid e hpassed.logged id hash hcall

/-- A request that touches its session has refreshed it after it passed. -/
theorem Activity.refreshed (hI : Activity c) {id since : Int} {e : Entry Cmd Cmd.Reply Int}
    (hpassed : Passed c id e) (hrecent : since ≤ e.note) (htouches : ¬ Untouching c e) :
    RefreshedSince id since c.shared.2 := by
  obtain ⟨hlist, hnot⟩ := not_or.mp htouches
  obtain ⟨hash, hcall⟩ := hpassed.call
  obtain ⟨e', he', stamp, hstamp, hle⟩ :=
    (hI.touched e hpassed.logged id hash hcall (not_not.mp hlist)).resolve_left hnot
  exact ⟨e', he', stamp, hstamp, hrecent.trans hle⟩

/-- What a sweep removes, by the log. -/
theorem mem_swept_iff {c' : TimedState} {l : ServerLabel} {t : Nat} {nowMs ttlMs : Int}
    {ids : List Int} (hstep : (timedServer p cfg).Step c l c')
    (hsweep : c'.shared.2 =
      ⟨c.shared.1.steadyMs, t, ⟨.sweepExpiredSessions nowMs ttlMs, ids⟩⟩ :: c.shared.2) (id : Int) :
    id ∈ ids ↔ ∃ entry, c.shared.1.clientData.find id = some entry ∧
      entry.lastSeenMs < nowMs - ttlMs := by
  have hids : ids = (c.shared.1.clientData.sweepExpiredSessions nowMs ttlMs).1 := by
    cases System.logged_step_cases hstep with
    | call _ hthread hexec =>
      obtain ⟨heq, -⟩ := List.cons.inj hsweep
      cases heq
      exact (Prod.mk.inj (Option.some.inj hexec)).1.symm
    | spawn => exact absurd hsweep.symm (List.cons_ne_self _ _)
    | outside => exact absurd hsweep.symm (List.cons_ne_self _ _)
  rw [hids, ClientData.mem_sweepExpiredSessions]
  simp only [ClientData.isExpired, decide_eq_true_eq]
  refine exists_congr fun entry => and_congr_right fun _ => ?_
  omega

/-- A sweep removes no session that a request has used in the last `ttlMs` milliseconds, if and
only if those that were not touched were refreshed in another way, and no touch has put an older
time in the place of a later one. -/
theorem swept_sessions_idle_iff (p : Platform) (cfg : ServerConfig) {s₀ : Server}
    {c c' : TimedState} {l : ServerLabel} {t : Nat} {nowMs ttlMs : Int} {ids : List Int}
    (h₀ : s₀.Initial) (hreach : (timedServer p cfg).Reach (fun _ _ => True) s₀.bootTimed c)
    (hstep : (timedServer p cfg).Step c l c')
    (hsweep : c'.shared.2 =
      ⟨c.shared.1.steadyMs, t, ⟨.sweepExpiredSessions nowMs ttlMs, ids⟩⟩ :: c.shared.2) :
    (∀ id ∈ ids, ∀ e, Passed c id e → e.note < nowMs - ttlMs) ↔
      RefreshedBeside c (nowMs - ttlMs) := by
  have hI := reach_activity h₀ hreach
  have hremoved := mem_swept_iff hstep hsweep
  constructor
  · intro hidle id e hstored hpassed hrecent
    obtain ⟨entry, hentry⟩ := Option.ne_none_iff_exists'.mp hstored
    have hlatest := hI.seen id entry (hI.ne_zero hpassed) hentry
    have hkept : nowMs - ttlMs ≤ entry.lastSeenMs := by
      by_contra hold
      have hmem := (hremoved id).mpr ⟨entry, hentry, not_le.mp hold⟩
      exact absurd (hidle id hmem e hpassed) (not_lt.mpr hrecent)
    constructor
    · intro _
      obtain ⟨e', he', hstamp⟩ := List.exists_of_findSome?_eq_some hlatest
      exact ⟨e', he', _, hstamp, hkept⟩
    · intro hovertaken
      obtain ⟨now, hnow, hold⟩ := hovertaken.latest
      rw [hlatest] at hnow
      cases hnow
      omega
  · intro hrefreshed id hid e hpassed
    obtain ⟨entry, hentry, hold⟩ := (hremoved id).mp hid
    by_contra hrecent
    rw [not_lt] at hrecent
    have hstored : c.shared.1.clientData.find id ≠ none := by
      rw [hentry]
      exact Option.some_ne_none _
    obtain ⟨hbeside, hkept⟩ := hrefreshed id e hstored hpassed hrecent
    have hlatest := hI.seen id entry (hI.ne_zero hpassed) hentry
    refine hkept (hI.overtaken hlatest hold ?_)
    by_cases huntouching : Untouching c e
    · exact hbeside huntouching
    · exact hI.refreshed hpassed hrecent huntouching

/-! ## A session that is used and swept -/

section Sweep

open Schedule Sample

def optionsText : Bytes :=
  messageText ("\"eventType\":\"getCharacterCreationOptions\",\"clientId\":1," ++
    "\"hash\":\"11111111-1111-4111-8111-111111111111\"") ""

def optionsJson : Json :=
  messageJson [(str "eventType", .string (str "getCharacterCreationOptions")),
    (str "clientId", .number 1), (str "hash", .string tokenA)] []

def optionsPlatform : Platform :=
  .ofTables [(loginText, loginJson), (optionsText, optionsJson)] digests

/-- Anna logs in; a hundred seconds later a request for the options passes; after another
twenty seconds and a millisecond the cleanup is about to sweep. -/
def beforeSweep : List ServerLabel :=
  [frame 1 loginText, .spawn 0 .dispatch] ++ login 0 tokenA ++
    [.outside (.tick 100000000 100000), frame 1 optionsText, .spawn 1 .dispatch] ++ calls 1 1 ++
    [.outside (.tick 120001000 120001), .spawn 2 .cleanup] ++ calls 2 5

def isSweepOf (id nowMs ttlMs : Int) : (Σ c, Cmd.Reply c) → Bool
  | ⟨.sweepExpiredSessions nowMs' ttlMs', ids⟩ =>
    nowMs' = nowMs && ttlMs' = ttlMs && ids.contains id
  | _ => false

def isPassOf (id : Int) : (Σ c, Cmd.Reply c) → Bool
  | ⟨.validateSession id' _, true⟩ => id' = id
  | _ => false

/-- Thread 2 sweeps the session 1, which an options request has used since time 1. -/
def sweepsUsed (c : TimedState) : Bool :=
  (((timedServer optionsPlatform config).next c (.run 2 {})).any fun c' =>
    c'.shared.2.head?.any fun e => isSweepOf 1 120001 120000 e.call) &&
  c.shared.2.any fun e => isPassOf 1 e.call && 1 ≤ e.note &&
    requestType c e.thread = some .GET_CHARACTER_CREATION_OPTIONS

theorem exists_sweepsUsed : ∃ (c c' : TimedState) (ids : List Int)
    (e : Entry Cmd Cmd.Reply Int),
    (timedServer optionsPlatform config).Reach (fun _ _ => True)
      (Server.over { users := [anna] }).bootTimed c ∧
    (timedServer optionsPlatform config).Step c (.run 2 {}) c' ∧
    c'.shared.2 =
      ⟨c.shared.1.steadyMs, 2, ⟨.sweepExpiredSessions 120001 120000, ids⟩⟩ :: c.shared.2 ∧
    1 ∈ ids ∧ Passed c 1 e ∧ 120001 - 120000 ≤ e.note := by
  have hrun : ((timedServer optionsPlatform config).runLabels (fun _ _ => true)
      (Server.over { users := [anna] }).bootTimed beforeSweep).any sweepsUsed = true := by
    decide +kernel
  obtain ⟨c, hc, hused⟩ := (Option.any_eq_true _ _).mp hrun
  have hreach := (System.reach_of_runLabels hc).mono fun _ _ _ => trivial
  simp only [sweepsUsed, Bool.and_eq_true, decide_eq_true_eq, List.any_eq_true] at hused
  obtain ⟨hsweeps, e, he, ⟨hpass, hrecent⟩, htype⟩ := hused
  obtain ⟨c', hnext, hhead⟩ := (Option.any_eq_true _ _).mp hsweeps
  have hstep := System.step_of_next hnext
  have hsweep : ∃ ids : List Int, c'.shared.2 =
      ⟨c.shared.1.steadyMs, 2, ⟨.sweepExpiredSessions 120001 120000, ids⟩⟩ :: c.shared.2 ∧
      1 ∈ ids := by
    cases System.logged_step_cases hstep with
    | @call t x job hist cmd k r s hlabel hthread hexec =>
      cases hlabel
      change isSweepOf 1 120001 120000 ⟨cmd, r⟩ = true at hhead
      unfold isSweepOf at hhead
      split at hhead
      · rename_i nowMs ttlMs ids heq
        cases heq
        simp only [Bool.and_eq_true, decide_eq_true_eq] at hhead
        obtain ⟨⟨rfl, rfl⟩, hmem⟩ := hhead
        exact ⟨ids, rfl, List.contains_iff_mem.mp hmem⟩
      · cases hhead
    | spawn hlabel => cases hlabel
    | outside hlabel => cases hlabel
  obtain ⟨ids, hlog, hmem⟩ := hsweep
  have hcall : ∃ hash, e.call = ⟨.validateSession 1 hash, true⟩ := by
    unfold isPassOf at hpass
    split at hpass
    · rename_i id hash heq
      rw [of_decide_eq_true hpass] at heq
      exact ⟨hash, heq⟩
    · cases hpass
  refine ⟨c, c', ids, e, hreach, hstep, hlog, hmem, ⟨he, ⟨_, htype, rfl⟩, hcall⟩, hrecent⟩

theorem swept_sessions_idle_iff_options : ∃ (c : TimedState) (ids : List Int),
    (timedServer optionsPlatform config).Reach (fun _ _ => True)
      (Server.over { users := [anna] }).bootTimed c ∧
    ((∀ id ∈ ids, ∀ e, Passed c id e → e.note < 120001 - 120000) ↔
      RefreshedBeside c (120001 - 120000)) := by
  obtain ⟨c, c', ids, e, hreach, hstep, hlog, -⟩ := exists_sweepsUsed
  exact ⟨c, ids, hreach, swept_sessions_idle_iff optionsPlatform config (Server.over_initial rfl)
    hreach hstep hlog⟩

/-- A session is swept twenty seconds after a request has used it. -/
theorem used_session_swept : ∃ (c c' : TimedState) (ids : List Int),
    (timedServer optionsPlatform config).Reach (fun _ _ => True)
      (Server.over { users := [anna] }).bootTimed c ∧
    (timedServer optionsPlatform config).Step c (.run 2 {}) c' ∧
    c'.shared.2 =
      ⟨c.shared.1.steadyMs, 2, ⟨.sweepExpiredSessions 120001 120000, ids⟩⟩ :: c.shared.2 ∧
    ¬ ∀ id ∈ ids, ∀ e, Passed c id e → e.note < 120001 - 120000 := by
  obtain ⟨c, c', ids, e, hreach, hstep, hlog, hmem, hpassed, hrecent⟩ := exists_sweepsUsed
  exact ⟨c, c', ids, hreach, hstep, hlog, fun hidle =>
    absurd (hidle 1 hmem e hpassed) (not_lt.mpr hrecent)⟩

end Sweep

end LoginServer
