import LoginServer.Network.Dispatch
import LoginServer.Server.Alone
import LoginServer.Server.HandlerCalls
import LoginServer.Server.SessionActivity

/-!
# Notices of a disconnect

`handleDisconnectClientEvent` sends a notice to the socket of every entry in the session
store. What a login or a registration stores is a record whose socket was never set
(`Cmd.storesSocketless`), and no other operation sets one, so every entry has a null
socket, and `sendResponse` enqueues nothing on it: nobody is ever told.

The connection of a client is the one that its login or registration came from, which the
log of the calls tells.
-/

namespace LoginServer

open Database Interleaving

variable {p : Platform} {cfg : ServerConfig} {c c' : ServerState} {l : ServerLabel}
  {f : SqlFunctions} {t : Nat} {x : Choice} {s s' s₀ : Server} {job : Job} {h : Hist}

/-! ## What the handlers store -/

abbrev StoresNoSocket {α : Type} (m : M α) : Prop :=
  Makes (fun c : Cmd => c.storesSocketless = true) True m

theorem dispatchEvent_stores (p : Platform) (event : Event) :
    StoresNoSocket (EventHandler.dispatchEvent p event) :=
  (EventHandler.dispatchEvent_calls p event).mono (fun _ hc => hc.stores) id

theorem periodicCleanup_stores (cleanupIntervalMs : Int) :
    StoresNoSocket (periodicCleanup cleanupIntervalMs) :=
  (periodicCleanup_plain cleanupIntervalMs).mono (fun _ => Cmd.storesSocketless_of_isPlain) id

/-! ## Whom a disconnect answers -/

/-- The socket is that of an entry that the task has read. -/
def SocketRead (h : Hist) (socket : Option Socket) : Prop :=
  ∃ (clients : List ClientDataStruct) (client : ClientDataStruct),
    ⟨.getClientsDataMap, clients⟩ ∈ h ∧ client ∈ clients ∧ client.socket = socket

/-- No task stores a socket, and a disconnect answers only on sockets that it has read. -/
def mayNotify (job : Job) (h : Hist) (c : Cmd) : Prop :=
  c.storesSocketless = true ∧
  (job.type = some .DISCONNECT_CLIENT → ∀ socket status message,
    c = .sendResponse socket status message → SocketRead h socket)

/-- A call that stores nothing and answers nobody. -/
def Cmd.isSilent : Cmd → Bool
  | .storeClientData _ => false
  | .sendResponse _ _ _ => false
  | _ => true

theorem mayNotify_of_silent {c : Cmd} (hc : c.isSilent = true) : mayNotify job h c := by
  constructor
  · cases c with
    | storeClientData d => cases hc
    | _ => rfl
  · rintro - socket status message rfl
    cases hc

theorem disconnectMismatch_notify (data : ClientDataStruct) :
    ObeysE (mayNotify job) (fun _ _ => True) (fun _ _ => True) h
      (EventHandler.disconnectMismatch data) := by
  unfold EventHandler.disconnectMismatch
  split_ifs
  · refine obeysE_bind.mpr (obeysE_call.mpr ⟨mayNotify_of_silent rfl, fun _ => ?_⟩)
    exact obeysE_pure.mpr trivial
  · exact obeysE_pure.mpr trivial

theorem handleDisconnectClientEvent_notify (event : Event) :
    ObeysE (mayNotify job) (fun _ _ => True) (fun _ _ => True) h
      (EventHandler.handleDisconnectClientEvent event) := by
  unfold EventHandler.handleDisconnectClientEvent
  split
  · rename_i data hdata
    have hbroadcast : ∀ h' response, ObeysE (mayNotify job) (fun _ _ => True) (fun _ _ => True) h'
        (do (← getClientsDataMap).forM fun client =>
              sendResponse client.socket (str "success") response) := by
      intro h' response
      refine obeysE_bind.mpr (obeysE_call.mpr ⟨mayNotify_of_silent rfl, fun clients => ?_⟩)
      refine (obeysE_forM (P := fun h => ⟨.getClientsDataMap, clients⟩ ∈ h) ?_
        List.mem_cons_self).mono (fun _ _ _ => trivial) fun _ _ _ => trivial
      intro client hclient h₁ hread
      refine obeysE_call.mpr ⟨⟨rfl, ?_⟩, fun _ => List.mem_cons_of_mem _ hread⟩
      rintro - socket status message heq
      cases heq
      exact ⟨clients, client, hread, hclient, rfl⟩
    refine obeysE_bind.mpr ((disconnectMismatch_notify data).mono ?_ fun _ _ _ => trivial)
    intro h₁ mismatch _
    cases mismatch with
    | true => exact hbroadcast h₁ _
    | false =>
      exact obeysE_bind.mpr (obeysE_call.mpr ⟨mayNotify_of_silent rfl, fun _ => hbroadcast _ _⟩)
  · exact obeysE_pure.mpr trivial

theorem StoresNoSocket.notify {α : Type} {m : M α} (hm : StoresNoSocket m)
    (htype : job.type ≠ some .DISCONNECT_CLIENT) :
    ObeysE (mayNotify job) (fun _ _ => True) (fun _ _ => True) h m := by
  refine (hm.obeysE fun h c hc => ?_).mono (fun _ _ _ => trivial) fun _ _ _ => trivial
  exact ⟨hc, fun heq => absurd heq htype⟩

theorem dispatchEvent_notify (p : Platform) (event : Event) :
    ObeysE (mayNotify (.event event)) (fun _ _ => True) (fun _ _ => True) h
      (EventHandler.dispatchEvent p event) := by
  by_cases htype : event.type = .DISCONNECT_CLIENT
  · rw [EventHandler.dispatchEvent, htype]
    exact handleDisconnectClientEvent_notify event
  · have hstores := dispatchEvent_stores p event
    exact hstores.notify fun heq => htype (Option.some.inj heq)

theorem program_notifies (p : Platform) (cfg : ServerConfig) (job : Job) :
    Obeys (mayNotify job) (fun _ _ => True) [] ((loginServer p cfg).program job) := by
  cases job with
  | cleanup =>
    have hcleanup := periodicCleanup_stores cfg.sessionCleanupMs
    exact obeys_task (hcleanup.notify fun htype => by cases htype)
  | event event => exact obeys_task (dispatchEvent_notify p event)

/-! ## No entry has a socket -/

/-- No entry of the session store has a socket. -/
def NoSockets (c : ClientData) : Prop := ∀ id entry, c.find id = some entry → entry.socket = none

theorem NoSockets.getClientsDataMap {c : ClientData} (hc : NoSockets c) :
    ∀ client ∈ c.getClientsDataMap, client.socket = none := by
  intro client hclient
  obtain ⟨⟨id, entry⟩, hentry, rfl⟩ := List.mem_map.mp hclient
  exact hc id entry (ClientData.mem_find_iff.mpr hentry)

theorem NoSockets.put {c : ClientData} (hc : NoSockets c) (id : Int) {entry : ClientDataStruct}
    (hentry : entry.socket = none) : NoSockets (c.put id entry) := by
  intro id' entry' hfind
  rw [ClientData.find_put] at hfind
  split_ifs at hfind
  · cases hfind
    exact hentry
  · exact hc id' entry' hfind

theorem updateField_socket {entry entry' : ClientDataStruct} {field value : Bytes}
    (hupdate : ClientData.updateField entry field value = some entry') :
    entry'.socket = entry.socket := by
  unfold ClientData.updateField at hupdate
  split_ifs at hupdate
  · obtain ⟨n, -, rfl⟩ := Option.map_eq_some_iff.mp hupdate
    rfl
  · obtain ⟨n, -, rfl⟩ := Option.map_eq_some_iff.mp hupdate
    rfl
  · cases hupdate
    rfl
  · cases hupdate
    rfl

/-- Only `storeClientData` could put a socket into the store. -/
theorem NoSockets.apply {c : ClientData} (hc : NoSockets c) {op : SessionOp}
    (hop : ∀ d nowMs, op = .storeClientData d nowMs → d.socket = none) :
    NoSockets (op.apply c) := by
  cases op with
  | storeClientData d nowMs => exact hc.put d.clientId (hop d nowMs rfl)
  | updateClientData id field value nowMs =>
    change NoSockets (c.updateClientData id field value nowMs)
    unfold ClientData.updateClientData
    split
    · rename_i entry hentry
      split
      · rename_i entry' hupdate
        exact hc.put id ((updateField_socket hupdate).trans (hc id entry hentry))
      · exact hc
    · exact hc
  | updateCharacterData id characterData nowMs =>
    change NoSockets (c.updateCharacterData id characterData nowMs)
    unfold ClientData.updateCharacterData
    split
    · rename_i entry hentry
      exact hc.put id (hc id entry hentry)
    · exact hc
  | touchSession id now nowMs =>
    change NoSockets (c.touchSession id now nowMs).2
    unfold ClientData.touchSession
    by_cases hzero : id = 0
    · rw [if_pos hzero]
      exact hc
    · rw [if_neg hzero]
      dsimp only
      split
      · exact hc
      · rename_i entry hentry
        exact hc.put id (hc id entry hentry)
  | removeClientData id =>
    intro id' entry hentry
    change (c.removeClientData id).2.find id' = some entry at hentry
    rw [ClientData.find_removeClientData] at hentry
    split_ifs at hentry
    exact hc id' entry hentry
  | sweepExpiredSessions nowMs ttlMs =>
    intro id entry hentry
    change (c.sweepExpiredSessions nowMs ttlMs).2.find id = some entry at hentry
    rw [ClientData.find_sweepExpiredSessions, Option.filter_eq_some_iff] at hentry
    exact hc id entry hentry.1

theorem NoSockets.call {cmd : Cmd} {r : cmd.Reply} (hs : NoSockets s.clientData)
    (hstores : cmd.storesSocketless = true) (hexec : s.exec f t cmd x = some (r, s')) :
    NoSockets s'.clientData := by
  rw [Server.exec_clientData hexec]
  cases hop : s.sessionOp cmd with
  | none => exact hs
  | some op =>
    refine hs.apply fun d nowMs hstore => ?_
    rw [hstore] at hop
    cases cmd with
    | storeClientData d' =>
      cases hop
      exact Option.isNone_iff_eq_none.mp hstores
    | _ => cases hop

/-! ## A disconnect enqueues nothing -/

structure Frame where
  socket : Socket
  status : Bytes
  message : Json

/-- The frame that a call enqueues: a null socket has no write queue. -/
def frameOf : (Σ c, Cmd.Reply c) → Option Frame
  | ⟨.sendResponse (some socket) status message, _⟩ => some ⟨socket, status, message⟩
  | _ => none

/-- The frames that a task has enqueued, the latest first. -/
def enqueued (h : Hist) : List Frame := h.filterMap frameOf

/-- The task has read no socket, and as a disconnect it has enqueued nothing. -/
structure Unheard (job : Job) (h : Hist) : Prop where
  read : ∀ clients : List ClientDataStruct, ⟨.getClientsDataMap, clients⟩ ∈ h →
    ∀ client ∈ clients, client.socket = none
  quiet : job.type = some .DISCONNECT_CLIENT → enqueued h = []

theorem Unheard.nil (job : Job) : Unheard job [] :=
  ⟨fun _ hread => absurd hread List.not_mem_nil, fun _ => rfl⟩

theorem Unheard.call {cmd : Cmd} {r : cmd.Reply} (hh : Unheard job h) (hs : NoSockets s.clientData)
    (hmay : mayNotify job h cmd) (hexec : s.exec f t cmd x = some (r, s')) :
    Unheard job (⟨cmd, r⟩ :: h) := by
  constructor
  · intro clients hread
    rcases List.mem_cons.mp hread with heq | hbefore
    · cases heq
      have hclients := (Prod.mk.inj (Option.some.inj hexec)).1
      rw [← hclients]
      exact hs.getClientsDataMap
    · exact hh.read clients hbefore
  · intro htype
    have hnone : frameOf ⟨cmd, r⟩ = none := by
      unfold frameOf
      split
      · rename_i socket status message _ heq
        cases heq
        obtain ⟨clients, client, hread, hclient, hsocket⟩ := hmay.2 htype _ _ _ rfl
        rw [hh.read clients hread client hclient] at hsocket
        cases hsocket
      · rfl
    rw [enqueued, List.filterMap_cons_none hnone]
    exact hh.quiet htype

/-- The store has no socket, and no task has read one. -/
structure Silence (c : ServerState) : Prop where
  store : NoSockets c.shared.clientData
  unheard : ∀ t th, c.threads t = some th → Unheard th.job th.hist

theorem silence_boot (h₀ : s₀.Initial) : Silence s₀.boot := by
  refine ⟨fun id entry hentry => ?_, fun t th hthread => ?_⟩
  · change s₀.clientData.find id = some entry at hentry
    rw [h₀.clientData, ClientData.find_empty] at hentry
    cases hentry
  · cases hthread

theorem Server.reach_silence {meets : ServerState → ServerLabel → Prop} (h₀ : s₀.Initial)
    (hreach : (loginServer p cfg).Reach meets s₀.boot c) : Silence c := by
  refine hreach.invariant (silence_boot h₀) fun c l c' hreach hI _ hstep => ?_
  have hob : System.AllObedient mayNotify (fun _ _ => True) c :=
    System.reach_obedient (program_notifies p cfg) (fun _ => rfl) hreach
  cases hstep with
  | @run t x job hist cmd k r s hthread hexec =>
    have hmay := (hob t _ hthread).allowed
    refine ⟨hI.store.call hmay.1 hexec, Config.forall_threads_set ?_ fun t' th _ => ?_⟩
    · exact (hI.unheard t _ hthread).call hI.store hmay hexec
    · exact hI.unheard t' th
  | @spawn t a job s hfree hstart =>
    refine ⟨?_, Config.forall_threads_set (Unheard.nil job) fun t' th _ => hI.unheard t' th⟩
    rw [Config.shared_set, (start_sameData hstart).clientData]
    exact hI.store
  | @outside o s ho =>
    refine ⟨?_, hI.unheard⟩
    change NoSockets s.clientData
    rw [(outside_sameData ho).clientData]
    exact hI.store

/-- Whatever else runs, a disconnect has enqueued nothing. -/
theorem Server.reach_disconnect_quiet {meets : ServerState → ServerLabel → Prop}
    (h₀ : s₀.Initial) (hreach : (loginServer p cfg).Reach meets s₀.boot c)
    {th : Thread Job Cmd Cmd.Reply} (hthread : c.threads t = some th)
    (htype : th.job.type = some .DISCONNECT_CLIENT) : enqueued th.hist = [] :=
  ((Server.reach_silence h₀ hreach).unheard t th hthread).quiet htype

/-! ## Who should be told -/

/-- The connection that the request came from. -/
def Job.connection : Job → Option Socket
  | .event e => e.currentClientSocket
  | .cleanup => none

/-- The call stores an entry for the account. -/
def storesEntry (id : Int) : (Σ c, Cmd.Reply c) → Bool
  | ⟨.storeClientData d, _⟩ => d.clientId = id
  | _ => false

/-- The connection that the latest login or registration of the account came from. -/
def connectionOf (c : TimedState) (id : Int) : Option Socket := do
  let e ← c.shared.2.find? fun e => storesEntry id e.call
  let job ← c.job? e.thread
  job.connection

/-- The frames that a task has enqueued on the connection. -/
def framesTo (socket : Socket) (h : Hist) : List (Bytes × Json) :=
  (enqueued h).filterMap fun frame =>
    if frame.socket = socket then some (frame.status, frame.message) else none

/-- The notice that names the client. -/
def notice (clientId : Int) : Bytes × Json :=
  (str "success",
    EventHandler.answer (str "Client disconnected!") [] clientId "disconnectClient")

/-- A client other than `id` that is logged in, with its connection still open. -/
structure OpenPeer (c : TimedState) (isOpen : Socket → Prop) (id peer : Int) (socket : Socket) :
    Prop where
  other : peer ≠ id
  loggedIn : c.shared.1.clientData.find peer ≠ none
  connection : connectionOf c peer = some socket
  isOpen : isOpen socket

/-- After the calls of a disconnect from `c` every other client has been told once, or,
if the session did not validate, nobody was told. -/
structure NotifiesOthers (c : TimedState) (isOpen : Socket → Prop) (event : Event) (h : Hist) :
    Prop where
  valid : ∀ data, event.eventData = .clientData data →
    c.shared.1.clientData.validateSession data.clientId data.hash = true →
    ∀ peer socket, OpenPeer c isOpen data.clientId peer socket →
      framesTo socket h = [notice data.clientId]
  invalid : ∀ data, event.eventData = .clientData data →
    c.shared.1.clientData.validateSession data.clientId data.hash = false →
    ∀ socket, notice data.clientId ∉ framesTo socket h

theorem clientData_of_env {allow : Choice → Prop}
    (henv : ((loginServer p cfg).alone t allow).env s s') : s'.clientData = s.clientData := by
  induction henv with
  | refl => rfl
  | tail _ hlast ih =>
    obtain ⟨o, ho⟩ := hlast
    exact (outside_sameData ho).clientData.trans ih

/-- A disconnect that has the server to itself enqueues nothing. -/
theorem alone_disconnect_quiet {event : Event} {allow : Choice → Prop}
    {r : Except StdException Unit} (htype : event.type = .DISCONNECT_CLIENT)
    (hs : NoSockets s.clientData)
    (hruns : ((loginServer p cfg).alone t allow).Runs [] s (EventHandler.dispatchEvent p event).run
      h s' r) : enqueued h = [] := by
  have hcall : ∀ (h : Hist) cmd (x : Choice) r (s s₁ s₂ : Server), mayNotify (.event event) h cmd →
      NoSockets s.clientData ∧ Unheard (.event event) h → allow x →
      s.exec p.toSqlFunctions t cmd x = some (r, s₁) →
      ((loginServer p cfg).alone t allow).env s₁ s₂ →
      NoSockets s₂.clientData ∧ Unheard (.event event) (⟨cmd, r⟩ :: h) := by
    rintro h cmd x r s s₁ s₂ hmay ⟨hstore, hunheard⟩ - hexec henv
    refine ⟨?_, hunheard.call hstore hmay hexec⟩
    rw [clientData_of_env henv]
    exact hstore.call hmay.1 hexec
  have hsat := Machine.sat_of_obeys (M := (loginServer p cfg).alone t allow) hcall
    (dispatchEvent_notify p event) ⟨hs, Unheard.nil (.event event)⟩
  have hend := (Machine.sat_iff_runs.mp hsat h s' r hruns).2
  exact hend.2.quiet (congrArg some htype)

theorem Server.reach_noSockets (h₀ : s₀.Initial) {c : TimedState}
    (hreach : (timedServer p cfg).Reach (fun _ _ => True) s₀.bootTimed c) :
    NoSockets c.shared.1.clientData :=
  (Server.reach_silence h₀ (System.reach_erase_any hreach)).store

/-- A disconnect tells everybody who should be told, if and only if there is nobody. -/
theorem disconnect_notifies_iff (p : Platform) (cfg : ServerConfig) {s₀ s : Server}
    {c : TimedState} {event : Event} {isOpen : Socket → Prop} {t : Nat} {allow : Choice → Prop}
    {h : Hist} {r : Except StdException Unit} (h₀ : s₀.Initial)
    (hreach : (timedServer p cfg).Reach (fun _ _ => True) s₀.bootTimed c)
    (htype : event.type = .DISCONNECT_CLIENT)
    (hruns : ((loginServer p cfg).alone t allow).Runs [] c.shared.1
      (EventHandler.dispatchEvent p event).run h s r) :
    NotifiesOthers c isOpen event h ↔
      ¬ ∃ data, event.eventData = .clientData data ∧
        c.shared.1.clientData.validateSession data.clientId data.hash = true ∧
        ∃ peer socket, OpenPeer c isOpen data.clientId peer socket := by
  have hquiet := alone_disconnect_quiet htype (Server.reach_noSockets h₀ hreach) hruns
  have hnone : ∀ socket, framesTo socket h = [] := by
    intro socket
    rw [framesTo, hquiet]
    rfl
  constructor
  · rintro hnotifies ⟨data, hdata, hvalid, peer, socket, hpeer⟩
    have htold := hnotifies.valid data hdata hvalid peer socket hpeer
    rw [hnone socket] at htold
    cases htold
  · intro hnobody
    refine ⟨fun data hdata hvalid peer socket hpeer => ?_, fun data _ _ socket => ?_⟩
    · exact absurd ⟨data, hdata, hvalid, peer, socket, hpeer⟩ hnobody
    · rw [hnone socket]
      exact List.not_mem_nil

/-! ## Two clients, one of whom leaves -/

section Leaving

open Schedule Sample

def bert : UserRow := { id := 2, login := str "bert", password := hashOfPassword1, lastLogin := 0 }

def bertText : Bytes :=
  messageText "\"eventType\":\"authentificationClient\""
    "\"login\":\"bert\",\"password\":\"password1\",\"clientVersion\":\"1.0.0\""

def bertJson : Json :=
  messageJson [(str "eventType", .string (str "authentificationClient"))]
    [(str "login", .string (str "bert")), (str "password", .string (str "password1")),
      (str "clientVersion", .string (str "1.0.0"))]

def leaveText : Bytes :=
  messageText ("\"eventType\":\"disconnectClient\",\"clientId\":1," ++
    "\"hash\":\"11111111-1111-4111-8111-111111111111\"") ""

def leaveJson : Json :=
  messageJson [(str "eventType", .string (str "disconnectClient")),
    (str "clientId", .number 1), (str "hash", .string tokenA)] []

def leavePlatform : Platform :=
  .ofTables [(loginText, loginJson), (bertText, bertJson), (leaveText, leaveJson)] digests

/-- What Anna's disconnect from socket 1 is queued as. -/
def leaveEvent : Event where
  type := .DISCONNECT_CLIENT
  clientID := 1
  eventData := .clientData { clientId := 1, hash := tokenA }
  currentClientSocket := some 1
  timestamps := some { serverRecvMs := 0 }

example : (processMessage leavePlatform config.limits ⟨1, some (str "127.0.0.1"), 0⟩
    leaveText).events = [leaveEvent] := by
  decide +kernel

/-- The server with the accounts of Anna and Bert. -/
def twoAccounts : Server := .over { users := [anna, bert] }

/-- Anna logs in from socket 1. -/
def annaIn : List ServerLabel := [frame 1 loginText, .spawn 0 .dispatch] ++ login 0 tokenA

/-- Bert logs in from socket 2. -/
def bertIn : List ServerLabel := [frame 2 bertText, .spawn 1 .dispatch] ++ login 1 tokenB

/-- After the schedule Anna's disconnect has run alone. -/
structure LeftAfter (c : TimedState) (h : Hist) (s : Server) (r : Except StdException Unit) :
    Prop where
  reach : (timedServer leavePlatform config).Reach (fun _ _ => True) twoAccounts.bootTimed c
  runs : ((loginServer leavePlatform config).alone 2 noFault).Runs [] c.shared.1
    (EventHandler.dispatchEvent leavePlatform leaveEvent).run h s r

theorem exists_leftAfter (schedule : List ServerLabel) {P : TimedState → Hist → Prop}
    [∀ c h, Decidable (P c h)]
    (hrun : ((timedServer leavePlatform config).runLabels (fun _ _ => true) twoAccounts.bootTimed
      schedule).any (fun c =>
        (((loginServer leavePlatform config).alone 2 noFault).play {} [] [] c.shared.1
          (EventHandler.dispatchEvent leavePlatform leaveEvent).run).any
        fun x => decide (P c x.1)) = true) : ∃ c h s r, LeftAfter c h s r ∧ P c h := by
  obtain ⟨c, hc, hplayed⟩ := (Option.any_eq_true _ _).mp hrun
  have hreach := (System.reach_of_runLabels hc).mono fun _ _ _ => trivial
  have hallow : ∀ x : Choice, x = {} ∨ x ∈ [] → noFault x := by
    rintro x (rfl | hx)
    · rfl
    · cases hx
  obtain ⟨h, s, r, hruns, hP⟩ := exists_run_alone leavePlatform config 2 noFault c.shared.1
    (EventHandler.dispatchEvent leavePlatform leaveEvent) [] hallow
    (P := fun h _ _ => P c h) hplayed
  exact ⟨c, h, s, r, ⟨hreach, hruns⟩, hP⟩

/-- Anna leaves, and nobody else is there. -/
theorem disconnect_notifies_iff_anna : ∃ c h s r, LeftAfter c h s r ∧
    NotifiesOthers c (fun _ => True) leaveEvent h := by
  obtain ⟨c, h, s, r, hleft, honly⟩ := exists_leftAfter annaIn
    (P := fun c _ => c.shared.1.clientData.clientDataMap.keys = [1]) (by decide +kernel)
  refine ⟨c, h, s, r, hleft, ?_⟩
  refine (disconnect_notifies_iff leavePlatform config (Server.over_initial rfl) hleft.reach rfl
    hleft.runs).mpr ?_
  rintro ⟨data, hdata, -, peer, socket, hpeer⟩
  cases hdata
  have hkey : peer ∈ c.shared.1.clientData.clientDataMap.keys := by
    obtain ⟨entry, hentry⟩ := Option.ne_none_iff_exists'.mp hpeer.loggedIn
    exact List.mem_map_of_mem (ClientData.mem_find_iff.mp hentry)
  rw [honly] at hkey
  exact hpeer.other (List.mem_singleton.mp hkey)

/-- Anna leaves with a valid session, and Bert is not told. -/
theorem disconnect_tells_nobody : ∃ c h s r, LeftAfter c h s r ∧
    ¬ NotifiesOthers c (fun _ => True) leaveEvent h := by
  obtain ⟨c, h, s, r, hleft, hvalid, hin, hsocket, hframes⟩ := exists_leftAfter (annaIn ++ bertIn)
    (P := fun c h => c.shared.1.clientData.validateSession 1 tokenA = true ∧
      (c.shared.1.clientData.find 2).isSome = true ∧ connectionOf c 2 = some 2 ∧
      (framesTo 2 h).length = 0) (by decide +kernel)
  refine ⟨c, h, s, r, hleft, fun hnotifies => ?_⟩
  have hloggedIn : c.shared.1.clientData.find 2 ≠ none := Option.isSome_iff_ne_none.mp hin
  have htold := hnotifies.valid _ rfl hvalid 2 2 ⟨by decide, hloggedIn, hsocket, trivial⟩
  rw [htold] at hframes
  cases hframes

end Leaving

end LoginServer
