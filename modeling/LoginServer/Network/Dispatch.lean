import LoginServer.Network.ProcessMessage

/-!
# What becomes of a request at dispatch

Two questions about `processMessage`.

* Which requests are heard: a request under one of the documented event types leads to
  one event of that type or to one error response exactly if it passes the guard of its
  block (`Guard`); otherwise it leads to nothing (`processMessage_answers_iff`).
* Which versions the gate lets through: those inside the configured limits, and with the
  right answer outside them, exactly if no subtraction that the gate executes leaves the
  range of an `int` (`version_gate_exact`).
-/

namespace LoginServer

open JSONParser

/-! ## The requests that are heard -/

/-- `header.eventType` of the requests for an event. -/
def EventType.wireName : EventType → String
  | .PING_CLIENT => "pingClient"
  | .AUTH_CLIENT => "authentificationClient"
  | .DISCONNECT_CLIENT => "disconnectClient"
  | .GET_CHARACTERS_LIST => "getCharactersList"
  | .CREATE_CHARACTER => "createCharacter"
  | .DELETE_CHARACTER => "deleteCharacter"
  | .REGISTER_ACCOUNT => "registerAccount"
  | .GET_CHARACTER_CREATION_OPTIONS => "getCharacterCreationOptions"

namespace Processed

/-- One event of type `type` was pushed and nothing sent. -/
def Pushes (r : Processed) (type : EventType) : Prop :=
  ∃ event, r.events = [event] ∧ event.type = type ∧ r.responses = []

/-- One error response was sent and nothing pushed. -/
def Rejects (r : Processed) : Prop := r.events = [] ∧ ∃ response, r.responses = [response]

/-- The request was either pushed or rejected. -/
def Answers (r : Processed) (type : EventType) : Prop := r.Pushes type ∨ r.Rejects

/-- Never both. -/
theorem not_pushes_and_rejects {r : Processed} {type : EventType} :
    ¬ (r.Pushes type ∧ r.Rejects) := by
  rintro ⟨⟨event, hevents, -, -⟩, hnone, -⟩
  rw [hevents] at hnone
  cases hnone

theorem not_answers_empty (type : EventType) : ¬ Answers {} type := by
  rintro (⟨event, hevents, -, -⟩ | ⟨-, response, hresponses⟩)
  · cases hevents
  · cases hresponses

end Processed

theorem processEvent_answers (ctx : FrameContext) (type : EventType) (data : ClientDataStruct)
    (timestamps : TimestampStruct) : (processEvent ctx type data timestamps).Answers type :=
  .inl ⟨_, rfl, rfl, rfl⟩

theorem gated_answers {limits : VersionLimits} {clientVersion eventType : Bytes}
    {pushed : Processed} {type : EventType} (h : pushed.Answers type) :
    (gated limits clientVersion eventType pushed).Answers type := by
  unfold gated
  split
  · rename_i error _
    exact .inr ⟨rfl, error, rfl⟩
  · exact h

theorem processRegistration_answers (limits : VersionLimits) (ctx : FrameContext)
    (jsonData : Json) (timestamps : TimestampStruct) :
    (processRegistration limits ctx jsonData timestamps).Answers .REGISTER_ACCOUNT := by
  unfold processRegistration
  split
  · exact .inr ⟨rfl, malformedError, rfl⟩
  · exact gated_answers (.inl ⟨_, rfl, rfl, rfl⟩)

/-- The guard of the block for a type: a login and a password, or a session. -/
def Guard (jsonData : Json) : EventType → Prop
  | .AUTH_CLIENT =>
    (parseClientData jsonData).login ≠ [] ∧ (parseClientData jsonData).password ≠ []
  | .PING_CLIENT | .REGISTER_ACCOUNT => True
  | _ => (parseClientData jsonData).hash ≠ [] ∧ (parseClientData jsonData).clientId ≠ 0

instance (jsonData : Json) (type : EventType) : Decidable (Guard jsonData type) := by
  cases type <;> unfold Guard <;> infer_instance

theorem processJson_answers_iff (limits : VersionLimits) (ctx : FrameContext) (jsonData : Json)
    (type : EventType) (hname : parseEventType jsonData = str type.wireName) :
    (processJson limits ctx jsonData).Answers type ↔ Guard jsonData type := by
  have hempty := Processed.not_answers_empty type
  unfold processJson
  simp only [hname]
  cases type with
  | PING_CLIENT =>
    simp only [EventType.wireName, str_inj, String.reduceEq, false_and, if_false, if_true]
    exact iff_of_true (processEvent_answers ..) trivial
  | REGISTER_ACCOUNT =>
    simp only [EventType.wireName, str_inj, String.reduceEq, false_and, if_false, if_true]
    exact iff_of_true (processRegistration_answers ..) trivial
  | AUTH_CLIENT =>
    simp only [EventType.wireName, str_inj, String.reduceEq, false_and, true_and, if_false]
    split_ifs with hguard
    · exact iff_of_true (gated_answers (processEvent_answers ..)) hguard
    · exact iff_of_false hempty hguard
  | _ =>
    simp only [EventType.wireName, str_inj, String.reduceEq, false_and, true_and, if_false]
    split_ifs with hguard
    · exact iff_of_true (processEvent_answers ..) hguard
    · exact iff_of_false hempty hguard

theorem processMessage_of_parse {p : Platform} {limits : VersionLimits} {ctx : FrameContext}
    {message : Bytes} {jsonData : Json} (hparse : p.parse message = some jsonData) :
    processMessage p limits ctx message = processJson limits ctx jsonData := by
  rw [processMessage, hparse]

/-- A request is pushed or rejected exactly if it passes the guard of its block. -/
theorem processMessage_answers_iff (p : Platform) (limits : VersionLimits) (ctx : FrameContext)
    (message : Bytes) (jsonData : Json) (type : EventType)
    (hparse : p.parse message = some jsonData)
    (hname : parseEventType jsonData = str type.wireName) :
    (processMessage p limits ctx message).Answers type ↔ Guard jsonData type := by
  rw [processMessage_of_parse hparse]
  exact processJson_answers_iff limits ctx jsonData type hname

theorem mem_gated {limits : VersionLimits} {clientVersion eventType : Bytes} {pushed : Processed}
    {event : Event} (h : event ∈ (gated limits clientVersion eventType pushed).events) :
    checkClientVersion limits clientVersion eventType = none ∧ event ∈ pushed.events := by
  unfold gated at h
  split at h
  · cases h
  · rename_i hcheck
    exact ⟨hcheck, h⟩

/-- The socket that the handler of an event answers. -/
def Event.replySocket (event : Event) : Option Socket :=
  match event.eventData with
  | .clientData data => data.socket
  | .registration reg => reg.socket

/-- Every event but a disconnect carries the socket that its frame came from. -/
theorem replySocket_of_mem {p : Platform} {limits : VersionLimits} {ctx : FrameContext}
    {message : Bytes} {event : Event}
    (hmem : event ∈ (processMessage p limits ctx message).events)
    (htype : event.type ≠ .DISCONNECT_CLIENT) :
    event.replySocket = some ctx.clientSocket := by
  have hevent : ∀ {type data timestamps}, data.socket = some ctx.clientSocket →
      event ∈ (processEvent ctx type data timestamps).events →
      event.replySocket = some ctx.clientSocket := by
    intro type data timestamps hsocket hmem
    obtain rfl := List.mem_singleton.mp hmem
    exact hsocket
  unfold processMessage at hmem
  split at hmem
  · cases hmem
  · unfold processJson at hmem
    dsimp only at hmem
    split_ifs at hmem
    · exact hevent rfl (mem_gated hmem).2
    · exact hevent rfl hmem
    · exact hevent rfl hmem
    · obtain rfl := List.mem_singleton.mp hmem
      exact absurd rfl htype
    · exact hevent rfl hmem
    · unfold processRegistration at hmem
      split at hmem
      · cases hmem
      · obtain rfl := List.mem_singleton.mp (mem_gated hmem).2
        rfl
    · exact hevent rfl hmem
    · exact hevent rfl hmem
    · cases hmem

/-- A platform that knows one document. -/
def Platform.knowing (message : Bytes) (jsonData : Json) : Platform where
  lower := id
  timestampText := fun _ => []
  sha256 := id
  parse := fun m => if m = message then some jsonData else none

def sampleLimits : VersionLimits := ⟨str "0.1.0", str "0.1.0"⟩

def sampleContext : FrameContext := ⟨1, some (str "127.0.0.1"), 0⟩

def listText : Bytes :=
  str "\x7b\"header\":\x7b\"eventType\":\"getCharactersList\"\x7d,\"body\":\x7b\x7d\x7d"

def listJson : Json :=
  .object [(str "header", .object [(str "eventType", .string (str "getCharactersList"))]),
    (str "body", .object [])]

theorem parse_knowing (message : Bytes) (jsonData : Json) :
    (Platform.knowing message jsonData).parse message = some jsonData :=
  if_pos rfl

theorem processMessage_answers_iff_list :
    (processMessage (.knowing listText listJson) sampleLimits sampleContext listText).Answers
      .GET_CHARACTERS_LIST ↔ Guard listJson .GET_CHARACTERS_LIST :=
  processMessage_answers_iff _ _ _ _ listJson _ (parse_knowing ..) (by decide)

/-- A request for the list without `clientId` and `hash` is neither answered nor queued. -/
theorem list_without_session_vanishes :
    (Platform.knowing listText listJson).parse listText = some listJson ∧
    parseEventType listJson = str "getCharactersList" ∧
    ¬ (processMessage (.knowing listText listJson) sampleLimits sampleContext listText).Answers
      .GET_CHARACTERS_LIST := by
  refine ⟨parse_knowing .., by decide, ?_⟩
  rw [processMessage_of_parse (parse_knowing ..)]
  intro hanswers
  have hguard := (processJson_answers_iff _ _ _ .GET_CHARACTERS_LIST (by decide)).mp hanswers
  exact absurd hguard (by decide)

/-! ## The versions that pass -/

/-- The three versions that the gate compares. -/
structure Parsed (limits : VersionLimits) (clientVersion : Bytes) (client vmin vmax : Version) :
    Prop where
  client : parseVersion clientVersion = some client
  vmin : parseVersion limits.minClientVersion = some vmin
  vmax : parseVersion limits.maxClientVersion = some vmax

/-- `p(min) ≤ p(client) ≤ p(max)`. -/
def Inside (limits : VersionLimits) (clientVersion : Bytes) : Prop :=
  ∃ client vmin vmax, Parsed limits clientVersion client vmin vmax ∧
    vmin ≤ client ∧ client ≤ vmax

/-- `p(min) ≤ p(client)` and `p(max) < p(client)`. -/
def TooNew (limits : VersionLimits) (clientVersion : Bytes) : Prop :=
  ∃ client vmin vmax, Parsed limits clientVersion client vmin vmax ∧
    vmin ≤ client ∧ vmax < client

/-- The client version that the gate in front of an event looked at. -/
def Event.gatedVersion (event : Event) : Option Bytes :=
  match event.type, event.eventData with
  | .AUTH_CLIENT, .clientData data => some data.clientVersion
  | .REGISTER_ACCOUNT, .registration reg => some reg.clientVersion
  | _, _ => none

/-- The gate decides by the lexicographic order. -/
structure GateCorrect (limits : VersionLimits) (clientVersion : Bytes) : Prop where
  admits : ∀ eventType,
    checkClientVersion limits clientVersion eventType = none ↔ Inside limits clientVersion
  pushes : ∀ p ctx message, ∀ event ∈ (processMessage p limits ctx message).events,
    event.gatedVersion = some clientVersion → Inside limits clientVersion
  tooNew : ∀ eventType,
    checkClientVersion limits clientVersion eventType =
      some (versionError limits eventType "ERR_VERSION_TOO_NEW") ↔ TooNew limits clientVersion
  outdated : ∀ eventType,
    checkClientVersion limits clientVersion eventType =
      some (versionError limits eventType "ERR_VERSION_OUTDATED") ↔
      ¬ Inside limits clientVersion ∧ ¬ TooNew limits clientVersion

/-- Every subtraction that the gate executes has the exact difference as its result. -/
def SubtractionsExact (limits : VersionLimits) (clientVersion : Bytes) : Prop :=
  ∀ client vmin vmax, Parsed limits clientVersion client vmin vmax →
    compareVersions client vmin = client.difference vmin ∧
    (0 ≤ compareVersions client vmin → compareVersions client vmax = client.difference vmax)

/-- The first components in which the client's version differs from the minimum are less
than `2 ^ 31` apart, and so are those in which it differs from the maximum, if it is not
below the minimum. -/
def NoWrap (limits : VersionLimits) (clientVersion : Bytes) : Prop :=
  ∀ client vmin vmax, Parsed limits clientVersion client vmin vmax →
    IsInt32 (client.difference vmin) ∧ (vmin ≤ client → IsInt32 (client.difference vmax))

theorem versionError_inj {limits : VersionLimits} {eventType : Bytes} {code code' : String}
    (h : versionError limits eventType code = versionError limits eventType code') :
    code = code' := by
  simpa [versionError] using h

namespace Parsed

variable {limits : VersionLimits} {clientVersion eventType : Bytes}
  {client vmin vmax : Version}

/-- The three versions are what the strings say. -/
theorem exists_iff (h : Parsed limits clientVersion client vmin vmax)
    {P : Version → Version → Version → Prop} :
    (∃ client' vmin' vmax', Parsed limits clientVersion client' vmin' vmax' ∧
      P client' vmin' vmax') ↔ P client vmin vmax := by
  constructor
  · rintro ⟨client', vmin', vmax', h', hP⟩
    obtain rfl := Option.some.inj (h.client.symm.trans h'.client)
    obtain rfl := Option.some.inj (h.vmin.symm.trans h'.vmin)
    obtain rfl := Option.some.inj (h.vmax.symm.trans h'.vmax)
    exact hP
  · intro hP
    exact ⟨client, vmin, vmax, h, hP⟩

theorem inside_iff (h : Parsed limits clientVersion client vmin vmax) :
    Inside limits clientVersion ↔ vmin ≤ client ∧ client ≤ vmax :=
  h.exists_iff (P := fun client vmin vmax => vmin ≤ client ∧ client ≤ vmax)

theorem tooNew_iff (h : Parsed limits clientVersion client vmin vmax) :
    TooNew limits clientVersion ↔ vmin ≤ client ∧ vmax < client :=
  h.exists_iff (P := fun client vmin vmax => vmin ≤ client ∧ vmax < client)

theorem check (h : Parsed limits clientVersion client vmin vmax) :
    checkClientVersion limits clientVersion eventType =
      if compareVersions client vmin < 0 then
        some (versionError limits eventType "ERR_VERSION_OUTDATED")
      else if compareVersions client vmax > 0 then
        some (versionError limits eventType "ERR_VERSION_TOO_NEW")
      else none := by
  rw [checkClientVersion, h.client, h.vmin, h.vmax]

theorem isInt32 (h : Parsed limits clientVersion client vmin vmax) :
    client.IsInt32 ∧ vmin.IsInt32 ∧ vmax.IsInt32 :=
  ⟨isInt32_of_parseVersion h.client, isInt32_of_parseVersion h.vmin,
    isInt32_of_parseVersion h.vmax⟩

end Parsed

theorem check_unparsed {limits : VersionLimits} {clientVersion : Bytes} (eventType : Bytes)
    (h : ∀ client vmin vmax, ¬ Parsed limits clientVersion client vmin vmax) :
    checkClientVersion limits clientVersion eventType =
      some (versionError limits eventType "ERR_VERSION_OUTDATED") := by
  unfold checkClientVersion
  split
  · rename_i client vmin vmax hclient hmin hmax
    exact absurd ⟨hclient, hmin, hmax⟩ (h client vmin vmax)
  · rfl

/-- Outside the limits is one of too new and outdated. -/
theorem tooNew_ne_outdated {limits : VersionLimits} {eventType : Bytes} :
    versionError limits eventType "ERR_VERSION_TOO_NEW" ≠
      versionError limits eventType "ERR_VERSION_OUTDATED" := by
  intro h
  exact absurd (versionError_inj h) (by decide)

/-- An event that the gate applies to is only pushed if the gate returned true. -/
theorem check_of_mem_processMessage {p : Platform} {limits : VersionLimits} {ctx : FrameContext}
    {message clientVersion : Bytes} {event : Event}
    (hmem : event ∈ (processMessage p limits ctx message).events)
    (hversion : event.gatedVersion = some clientVersion) :
    ∃ eventType, checkClientVersion limits clientVersion eventType = none := by
  have hother : ∀ {type data timestamps}, type ≠ .AUTH_CLIENT → type ≠ .REGISTER_ACCOUNT →
      event ∉ (processEvent ctx type data timestamps).events := by
    intro type data timestamps hauth hregister hevent
    obtain rfl := List.mem_singleton.mp hevent
    cases type <;> first | exact hauth rfl | exact hregister rfl | cases hversion
  unfold processMessage at hmem
  split at hmem
  · cases hmem
  · rename_i jsonData hparse
    unfold processJson at hmem
    dsimp only at hmem
    split_ifs at hmem
    · obtain ⟨hcheck, hevent⟩ := mem_gated hmem
      obtain rfl := List.mem_singleton.mp hevent
      obtain rfl := Option.some.inj hversion
      exact ⟨_, hcheck⟩
    · exact absurd hmem (hother (by decide) (by decide))
    · exact absurd hmem (hother (by decide) (by decide))
    · exact absurd hmem (hother (by decide) (by decide))
    · exact absurd hmem (hother (by decide) (by decide))
    · unfold processRegistration at hmem
      split at hmem
      · cases hmem
      · obtain ⟨hcheck, hevent⟩ := mem_gated hmem
        obtain rfl := List.mem_singleton.mp hevent
        obtain rfl := Option.some.inj hversion
        exact ⟨_, hcheck⟩
    · exact absurd hmem (hother (by decide) (by decide))
    · exact absurd hmem (hother (by decide) (by decide))
    · cases hmem

/-- What the gate answers when no subtraction wraps. -/
theorem check_of_noWrap {limits : VersionLimits} {clientVersion eventType : Bytes}
    {client vmin vmax : Version} (h : Parsed limits clientVersion client vmin vmax)
    (hmin : IsInt32 (client.difference vmin))
    (hmax : vmin ≤ client → IsInt32 (client.difference vmax)) :
    checkClientVersion limits clientVersion eventType =
      if client < vmin then some (versionError limits eventType "ERR_VERSION_OUTDATED")
      else if vmax < client then some (versionError limits eventType "ERR_VERSION_TOO_NEW")
      else none := by
  obtain ⟨hclient32, hmin32, hmax32⟩ := h.isInt32
  have hneg := compareVersions_neg_iff hclient32 hmin32
  rw [if_pos hmin] at hneg
  rw [h.check]
  by_cases hlt : client < vmin
  · rw [if_pos (hneg.mpr hlt), if_pos hlt]
  · have hpos := compareVersions_pos_iff hclient32 hmax32
    rw [if_pos (hmax (not_lt.mp hlt))] at hpos
    rw [if_neg (mt hneg.mp hlt), if_neg hlt]
    exact if_congr hpos rfl rfl

theorem gateCorrect_of_noWrap {limits : VersionLimits} {clientVersion : Bytes}
    (h : NoWrap limits clientVersion) : GateCorrect limits clientVersion := by
  by_cases hparsed : ∃ client vmin vmax, Parsed limits clientVersion client vmin vmax
  · obtain ⟨client, vmin, vmax, hp⟩ := hparsed
    obtain ⟨hmin, hmax⟩ := h client vmin vmax hp
    have hadmits : ∀ eventType, checkClientVersion limits clientVersion eventType = none ↔
        Inside limits clientVersion := by
      intro eventType
      rw [check_of_noWrap hp hmin hmax, hp.inside_iff]
      split_ifs <;> simp [*, ← not_lt]
    refine ⟨hadmits, fun p ctx message event hmem hversion => ?_, fun eventType => ?_,
      fun eventType => ?_⟩
    · obtain ⟨eventType, hcheck⟩ := check_of_mem_processMessage hmem hversion
      exact (hadmits eventType).mp hcheck
    · rw [check_of_noWrap hp hmin hmax, hp.tooNew_iff]
      split_ifs with hlt hgt
      · simp [tooNew_ne_outdated.symm, hlt]
      · simp [hgt, not_lt.mp hlt]
      · simp [hgt]
    · rw [check_of_noWrap hp hmin hmax, hp.tooNew_iff, hp.inside_iff]
      split_ifs with hlt hgt
      · simp [hlt]
      · simp [tooNew_ne_outdated, hgt, not_lt.mp hlt]
      · simp [not_lt.mp hlt, not_lt.mp hgt]
  · have hnone : ∀ client vmin vmax, ¬ Parsed limits clientVersion client vmin vmax :=
      fun client vmin vmax hp => hparsed ⟨client, vmin, vmax, hp⟩
    have hinside : ¬ Inside limits clientVersion :=
      fun ⟨client, vmin, vmax, hp, _⟩ => hnone client vmin vmax hp
    have htooNew : ¬ TooNew limits clientVersion :=
      fun ⟨client, vmin, vmax, hp, _⟩ => hnone client vmin vmax hp
    refine ⟨fun eventType => ?_, fun p ctx message event hmem hversion => ?_, fun eventType => ?_,
      fun eventType => ?_⟩
    · rw [check_unparsed eventType hnone]
      exact iff_of_false (by simp) hinside
    · obtain ⟨eventType, hcheck⟩ := check_of_mem_processMessage hmem hversion
      rw [check_unparsed eventType hnone] at hcheck
      cases hcheck
    · rw [check_unparsed eventType hnone]
      refine iff_of_false (fun heq => ?_) htooNew
      exact tooNew_ne_outdated (Option.some.inj heq).symm
    · rw [check_unparsed eventType hnone]
      exact iff_of_true rfl ⟨hinside, htooNew⟩

theorem noWrap_of_gateCorrect {limits : VersionLimits} {clientVersion : Bytes}
    (h : GateCorrect limits clientVersion) : NoWrap limits clientVersion := by
  intro client vmin vmax hp
  obtain ⟨hclient32, hmin32, hmax32⟩ := hp.isInt32
  have hneg := compareVersions_neg_iff hclient32 hmin32
  have hpos := compareVersions_pos_iff hclient32 hmax32
  have houtdated := h.outdated []
  rw [hp.check, hp.inside_iff, hp.tooNew_iff] at houtdated
  have hfirst : IsInt32 (client.difference vmin) := by
    by_contra hwrap
    rw [if_neg hwrap] at hneg
    rcases lt_trichotomy client vmin with hlt | heq | hgt
    · -- the gate takes a client below the minimum for one above it
      have hout := houtdated.mpr ⟨fun hle => absurd hle.1 hlt.not_ge,
        fun hle => absurd hle.1 hlt.not_ge⟩
      rw [if_neg (mt hneg.mp hlt.not_gt)] at hout
      split_ifs at hout
      exact tooNew_ne_outdated (Option.some.inj hout)
    · apply hwrap
      rw [heq, Version.difference]
      simp [IsInt32]
    · have hout := houtdated.mp (if_pos (hneg.mpr hgt))
      rcases le_or_gt client vmax with hle | hgt'
      · exact hout.1 ⟨hgt.le, hle⟩
      · exact hout.2 ⟨hgt.le, hgt'⟩
  refine ⟨hfirst, fun hmin => ?_⟩
  rw [if_pos hfirst] at hneg
  have hcheck : checkClientVersion limits clientVersion [] = _ := hp.check
  rw [if_neg (mt hneg.mp hmin.not_gt)] at hcheck
  by_contra hwrap
  rw [if_neg hwrap] at hpos
  rcases lt_trichotomy client vmax with hlt | heq | hgt
  · rw [if_pos (hpos.mpr hlt)] at hcheck
    have htooNew := ((h.tooNew []).mp hcheck)
    rw [hp.tooNew_iff] at htooNew
    exact absurd htooNew.2 hlt.not_gt
  · apply hwrap
    rw [heq, Version.difference]
    simp [IsInt32]
  · rw [if_neg (mt hpos.mp hgt.not_gt)] at hcheck
    have hinside := (h.admits []).mp hcheck
    rw [hp.inside_iff] at hinside
    exact absurd hinside.2 hgt.not_ge

theorem subtractionsExact_iff {limits : VersionLimits} {clientVersion : Bytes} :
    SubtractionsExact limits clientVersion ↔ NoWrap limits clientVersion := by
  unfold SubtractionsExact NoWrap
  refine forall₃_congr fun client vmin vmax => forall_congr' fun hp => ?_
  obtain ⟨hclient32, hmin32, -⟩ := hp.isInt32
  have hneg := compareVersions_neg_iff hclient32 hmin32
  rw [compareVersions_eq_difference_iff, compareVersions_eq_difference_iff]
  refine and_congr_right fun hmin => ?_
  rw [if_pos hmin] at hneg
  rw [← not_lt, hneg, not_lt]

/-- The gate decides by the lexicographic order exactly if no difference that it needs
leaves the range of an `int`, and just then none of its subtractions overflows. -/
theorem version_gate_exact (limits : VersionLimits) (clientVersion : Bytes) :
    (GateCorrect limits clientVersion ↔ NoWrap limits clientVersion) ∧
    (SubtractionsExact limits clientVersion ↔ NoWrap limits clientVersion) :=
  ⟨⟨noWrap_of_gateCorrect, gateCorrect_of_noWrap⟩, subtractionsExact_iff⟩

/-- A client below the minimum of the default limits is told that it is too new. -/
theorem version_below_minimum_too_new :
    Parsed sampleLimits (str "0.-2147483648.0") ⟨0, -2147483648, 0⟩ ⟨0, 1, 0⟩ ⟨0, 1, 0⟩ ∧
    (⟨0, -2147483648, 0⟩ : Version) < ⟨0, 1, 0⟩ ∧
    checkClientVersion sampleLimits (str "0.-2147483648.0") (str "registerAccount") =
      some (versionError sampleLimits (str "registerAccount") "ERR_VERSION_TOO_NEW") ∧
    ¬ GateCorrect sampleLimits (str "0.-2147483648.0") := by
  have hp : Parsed sampleLimits (str "0.-2147483648.0") ⟨0, -2147483648, 0⟩ ⟨0, 1, 0⟩ ⟨0, 1, 0⟩ :=
    ⟨by decide, by decide, by decide⟩
  refine ⟨hp, by decide, ?_, fun h => ?_⟩
  · rw [hp.check]
    rfl
  · have hwrap := (noWrap_of_gateCorrect h _ _ _ hp).1
    exact absurd hwrap (by decide)

end LoginServer
