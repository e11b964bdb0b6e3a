import LoginServer.Network.Connections
import LoginServer.Network.Responses
import LoginServer.Nlohmann.RoundTrip
import LoginServer.Server.HandlerCalls

/-!
# Error frames

The errors come from three places: the framing layer, `processMessage`, and the handlers.
Each is an `IsErrorMessage`, so that `generateResponseMessage` can give it its
`body.errorCode`. What a client reads back is the document up to the order of members,
which `dump` and `parse` do not keep; `Json.Same` is equality up to that order.
-/

namespace LoginServer

open Database Interleaving

/-! ## Documents that are written and read back -/

/-- What `dump` writes `parse` reads back. -/
def RoundTrips (parse : Bytes → Option Json) (dump : Dump) : Prop :=
  ∀ j text, dump j = some text → ∃ j', parse text = some j' ∧ j.Same j'

open Classical Nlohmann in
/-- `dump` of what `nlohmann::json` can hold, with numbers that are read back. -/
noncomputable def dumpHeld (strtod : Bytes → UInt64) (to_chars : UInt64 → Bytes) : Dump := fun j =>
  if Representable (WritesFloat strtod to_chars) j then dump to_chars j else none

theorem roundTrips_dumpHeld (strtod : Bytes → UInt64) (to_chars : UInt64 → Bytes) :
    RoundTrips (Nlohmann.parse strtod) (dumpHeld strtod to_chars) := by
  intro j text hdump
  obtain ⟨hheld, hdump⟩ := Option.ite_none_right_eq_some.mp hdump
  exact ⟨Nlohmann.canonical j, Nlohmann.parse_dump hheld hdump, Nlohmann.same_canonical hheld⟩

/-! ## The error paths -/

namespace NetworkManager

/-- The only response of the framing layer is the oversize error. -/
def LogsOversize (nm : NetworkManager) : Prop :=
  ∀ s status message, (s, .sendResponse status message) ∈ nm.framingLog →
    status = str "error" ∧ message = oversizeError

variable {nm : NetworkManager} {clientSocket : Socket}

theorem LogsOversize.log (h : nm.LogsOversize) {e : FramingEvent}
    (he : ∀ status message, e = .sendResponse status message →
      status = str "error" ∧ message = oversizeError) :
    (nm.log clientSocket e).LogsOversize := by
  intro s status message hmem
  rcases List.mem_append.mp hmem with hold | hnew
  · exact h s status message hold
  · obtain ⟨-, heq⟩ := Prod.mk.inj (List.mem_singleton.mp hnew)
    exact he status message heq.symm

theorem LogsOversize.oversize (h : nm.LogsOversize) :
    (nm.log clientSocket (.sendResponse (str "error") oversizeError)).LogsOversize :=
  h.log fun status message heq => by
    cases heq
    exact ⟨rfl, rfl⟩

theorem LogsOversize.extractLoop (k : Nat) (h : nm.LogsOversize) (accumulatedData : Bytes) :
    (extractLoop clientSocket k nm accumulatedData).1.LogsOversize := by
  induction k generalizing nm accumulatedData with
  | zero => exact h
  | succ k ih =>
    unfold NetworkManager.extractLoop
    split
    · dsimp only
      split_ifs
      · exact h.oversize
      · exact h
      · exact ih (h.log fun _ _ heq => by cases heq) _
    · exact h

theorem LogsOversize.extractV2Messages (h : nm.LogsOversize) (accumulatedData : Bytes) :
    (nm.extractV2Messages clientSocket accumulatedData).LogsOversize := by
  have hloop := @LogsOversize.extractLoop nm clientSocket MAX_MESSAGES_PER_READ h accumulatedData
  unfold NetworkManager.extractV2Messages
  split
  · rename_i heq
    rw [heq] at hloop
    exact hloop
  · rename_i heq
    rw [heq] at hloop
    split_ifs
    · exact hloop
    · exact hloop.oversize
    · exact hloop

theorem LogsOversize.setBuffer (h : nm.LogsOversize) (entry : Option Bytes) :
    (nm.setBuffer clientSocket entry).LogsOversize :=
  h

theorem LogsOversize.close (h : nm.LogsOversize) : (nm.close clientSocket).LogsOversize := h

theorem LogsOversize.reapSocket (h : nm.LogsOversize) :
    (nm.reapSocket clientSocket).LogsOversize :=
  h

theorem LogsOversize.handleClientData (h : nm.LogsOversize) (dataBuffer : Bytes) :
    (nm.handleClientData clientSocket dataBuffer).LogsOversize := by
  unfold NetworkManager.handleClientData
  have hmoved := @LogsOversize.setBuffer nm clientSocket h
    ((nm.socketBuffers clientSocket).map fun _ => [])
  generalize nm.setBuffer clientSocket ((nm.socketBuffers clientSocket).map fun _ => []) = nm'
    at hmoved
  dsimp only
  split
  · refine LogsOversize.close (LogsOversize.log (hmoved.setBuffer none) ?_)
    intro _ _ heq
    cases heq
  · exact hmoved.extractV2Messages _

theorem LogsOversize.readCompleted (h : nm.LogsOversize) (dataBuffer : Bytes) :
    (nm.readCompleted clientSocket dataBuffer).LogsOversize := by
  unfold NetworkManager.readCompleted
  split
  · exact h.handleClientData dataBuffer
  · exact h.reapSocket

theorem logsOversize_readAll (reads : List (Socket × Bytes)) (h : nm.LogsOversize) :
    (nm.readAll reads).LogsOversize := by
  unfold readAll
  induction reads generalizing nm with
  | nil => exact h
  | cons r reads ih => exact ih (h.readCompleted r.2)

end NetworkManager

/-- The messages from which the server makes an error response: those of the framing layer,
of `processMessage`, and of the handlers, whatever the answers to their calls are. -/
inductive ErrorPath (p : Platform) (limits : VersionLimits) : Json → Prop where
  | framing {reads : List (Socket × Bytes)} {clientSocket : Socket} {status : Bytes}
    {message : Json}
    (h : (clientSocket, .sendResponse status message) ∈
      (NetworkManager.fresh.readAll reads).framingLog) : ErrorPath p limits message
  | message {ctx : FrameContext} {text : Bytes} {message : Json}
    (h : message ∈ (processMessage p limits ctx text).responses) : ErrorPath p limits message
  | handler {event : Event} {socket : Option Socket} {message : Json} {h : Hist}
    {r : Except StdException Unit}
    (hends : Ends [] (EventHandler.dispatchEvent p event).run h r)
    (hsent : ⟨.sendResponse socket (str "error") message, ()⟩ ∈ h) : ErrorPath p limits message

theorem isErrorMessage_fixed {header body : List (Bytes × Json)} {code : Bytes}
    (hmessage : header.lookup (str "message") = some (.string code))
    (hcode : body.lookup (str "errorCode") = none) :
    IsErrorMessage (.object [(str "header", .object header), (str "body", .object body)]) :=
  ⟨header, body, code, rfl, hmessage, hcode⟩

theorem str_beq_of_ne {s t : String} (h : s ≠ t) : (str s == str t) = false :=
  beq_false_of_ne fun heq => h (str_inj.mp heq)

theorem isErrorMessage_oversizeError : IsErrorMessage NetworkManager.oversizeError :=
  isErrorMessage_fixed (by simp [List.lookup_cons]; rfl) rfl

theorem isErrorMessage_malformedError : IsErrorMessage malformedError :=
  isErrorMessage_fixed (by simp [List.lookup_cons]; rfl) rfl

theorem isErrorMessage_versionError (limits : VersionLimits) (eventType : Bytes)
    (errorCode : String) : IsErrorMessage (versionError limits eventType errorCode) :=
  isErrorMessage_fixed (by simp [List.lookup_cons]; rfl)
    (by simp [List.lookup_cons, str_beq_of_ne])

theorem isErrorMessage_processMessage {p : Platform} {limits : VersionLimits} {ctx : FrameContext}
    {text : Bytes} :
    ∀ message ∈ (processMessage p limits ctx text).responses, IsErrorMessage message := by
  intro message hmessage
  unfold processMessage at hmessage
  split at hmessage
  · rw [List.mem_singleton.mp hmessage]
    exact isErrorMessage_malformedError
  · rcases processJson_responses _ _ _ message hmessage with
      ⟨eventType, errorCode, rfl⟩ | ⟨-, rfl⟩
    · exact isErrorMessage_versionError limits eventType errorCode
    · exact isErrorMessage_malformedError

theorem ErrorPath.isErrorMessage {p : Platform} {limits : VersionLimits} {message : Json}
    (h : ErrorPath p limits message) : IsErrorMessage message := by
  cases h with
  | @framing reads _ _ _ h =>
    have hlogs : (NetworkManager.fresh.readAll reads).LogsOversize :=
      NetworkManager.logsOversize_readAll reads fun _ _ _ h => by cases h
    rw [(hlogs _ _ _ h).2]
    exact isErrorMessage_oversizeError
  | message h => exact isErrorMessage_processMessage _ h
  | handler hends hsent =>
    have hcalls := (EventHandler.dispatchEvent_calls p _).forall_mem_of_ends hends _ hsent
    exact hcalls.error _ _ rfl

/-! ## What the client reads -/

/-- The frame that `sendResponse` makes of a generated text is one frame around `dump`. -/
theorem scanFrame_frameResponse {dumped : Bytes}
    (hframe : frameResponse (dumped ++ str "\n") ≠ []) :
    scanFrame (frameResponse (dumped ++ str "\n")) = .frame dumped [] := by
  have hnewline : str "\n" = [10] := by decide
  rw [hnewline] at hframe ⊢
  have hstrip : frameResponse (dumped ++ [10]) = packFramedMessage dumped := by
    rw [frameResponse, if_pos List.getLast?_concat, List.dropLast_concat]
  rw [hstrip] at hframe ⊢
  have hfits : dumped.length ≤ protocol.kMaxFrameBytes := by
    by_contra hlong
    exact hframe (if_pos (Nat.not_le.mp hlong))
  have hscan := scanFrame_pack [] hfits
  rwa [List.append_nil] at hscan

/-- A document that says in a machine readable way what is wrong. -/
def MachineReadable (j : Json) : Prop :=
  ∃ header body code, j.find? (str "header") = some header ∧ j.find? (str "body") = some body ∧
    header.find? (str "status") = some (.string (str "error")) ∧
    header.find? (str "message") = some (.string code) ∧
    body.is_object ∧ body.find? (str "errorCode") = some (.string code)

theorem machineReadable_of_same {header body j' : Json} {code : Bytes}
    (hsame : (responseOf header body).Same j')
    (hstatus : header.find? (str "status") = some (.string (str "error")))
    (hmessage : header.find? (str "message") = some (.string code))
    (hbody : body.is_object) (hcode : body.find? (str "errorCode") = some (.string code)) :
    j'.is_object ∧ MachineReadable j' := by
  have hheader : header.is_object := by
    cases header <;> first | rfl | cases hstatus
  have hfindHeader : (responseOf header body).find? (str "header") = some header := by
    simp [responseOf, Json.find?]
  have hfindBody : (responseOf header body).find? (str "body") = some body := by
    have hne : (str "body" == str "header") = false := beq_false_of_ne header_ne_body.symm
    simp [responseOf, Json.find?, List.lookup_cons, hne]
  obtain ⟨hobject, header', hheader', hsameHeader⟩ := hsame.find? rfl hfindHeader
  obtain ⟨-, body', hbody', hsameBody⟩ := hsame.find? rfl hfindBody
  obtain ⟨-, status', hstatus', hsameStatus⟩ := hsameHeader.find? hheader hstatus
  obtain ⟨-, message', hmessage', hsameMessage⟩ := hsameHeader.find? hheader hmessage
  obtain ⟨-, code', hcode', hsameCode⟩ := hsameBody.find? hbody hcode
  rw [hsameStatus.string] at hstatus'
  rw [hsameMessage.string] at hmessage'
  rw [hsameCode.string] at hcode'
  exact ⟨hobject, header', body', code, hheader', hbody', hstatus', hmessage',
    hsameBody.is_object hbody, hcode'⟩

/-- Every error frame is machine readable, and the two generators agree: the second response
is the first with the four members of the time stamps in its header. -/
theorem error_frames_machine_readable (p : Platform) (dump : Dump)
    (hround : RoundTrips p.parse dump) (limits : VersionLimits) :
    (∀ message, ErrorPath p limits message → ∀ currentTimestamp text,
      generateResponseMessage dump currentTimestamp (str "error") message = some text →
      frameResponse text ≠ [] →
      ∃ logical j, scanFrame (frameResponse text) = .frame logical [] ∧
        p.parse logical = some j ∧ j.is_object ∧ MachineReadable j) ∧
    ∀ currentTimestamp nowMs status message timestamps,
      (message.member (str "header")).is_object → (message.member (str "body")).is_object →
      ∃ header body,
        responseDocument currentTimestamp status message =
          .object [(str "header", header), (str "body", body)] ∧
        responseDocumentWithTimestamps currentTimestamp nowMs status message timestamps =
          .object [(str "header",
              (((header.set (str "serverRecvMs") (.number timestamps.serverRecvMs)).set
                (str "serverSendMs") (.number nowMs)).set
                (str "clientSendMsEcho") (.number timestamps.clientSendMsEcho)).set
                (str "requestId") (.string timestamps.requestId)), (str "body", body)] := by
  constructor
  · intro message hpath currentTimestamp text htext hframe
    obtain ⟨dumped, hdump, rfl⟩ := Option.map_eq_some_iff.mp htext
    obtain ⟨j, hparse, hsame⟩ := hround _ _ hdump
    obtain ⟨header, body, code, hdocument, hstatus, hmessage, hbody, hcode⟩ :=
      @responseDocument_error currentTimestamp _ hpath.isErrorMessage
    rw [hdocument] at hsame
    obtain ⟨hobject, hreadable⟩ := machineReadable_of_same hsame hstatus hmessage hbody hcode
    exact ⟨dumped, j, scanFrame_frameResponse hframe, hparse, hobject, hreadable⟩
  · intro currentTimestamp nowMs status message timestamps _ hbody
    exact ⟨_, _, responseDocument_eq hbody, responseDocumentWithTimestamps_eq hbody timestamps⟩

/-! ### The malformed error of one moment -/

def malformedMoment : Bytes := str "2026-01-01 00:00:00.000"

def malformedText : Bytes :=
  str ("\x7b\"body\":\x7b\"errorCode\":\"ERR_MALFORMED\"\x7d,\"header\":\x7b\"eventType\":" ++
    "\"unknown\",\"message\":\"ERR_MALFORMED\",\"status\":\"error\",\"timestamp\":" ++
    "\"2026-01-01 00:00:00.000\",\"version\":\"1.0\"\x7d\x7d")

def malformedHeader : List (Bytes × Json) :=
  [(str "eventType", .string (str "unknown")),
    (str "message", .string protocol.kErrMalformed), (str "status", .string (str "error")),
    (str "timestamp", .string malformedMoment), (str "version", .string protocol.kProtocolVersion)]

def malformedBody : List (Bytes × Json) := [(str "errorCode", .string protocol.kErrMalformed)]

theorem representable_of_strings {P : UInt64 → Prop} {members : List (Bytes × Json)}
    (hkeys : (members.map Prod.fst).Nodup) (h : ∀ m ∈ members, ∃ s, m.2 = .string s) :
    Nlohmann.Representable P (.object members) := by
  refine .object hkeys fun m hm => ?_
  obtain ⟨s, hs⟩ := h m hm
  rw [hs]
  exact .string s

theorem representable_malformed {P : UInt64 → Prop} :
    Nlohmann.Representable P (responseOf (.object malformedHeader) (.object malformedBody)) := by
  refine .object (by decide +kernel) fun m hm => ?_
  simp only [List.mem_cons, List.not_mem_nil, or_false] at hm
  rcases hm with rfl | rfl
  · exact representable_of_strings (by decide +kernel) (by simp [malformedHeader])
  · exact representable_of_strings (by decide +kernel) (by simp [malformedBody])

/-- No number is written or read here. -/
def malformedPlatform : Platform where
  lower := id
  timestampText := fun _ => []
  sha256 := fun _ => []
  parse := Nlohmann.parse fun _ => 0

/-- What comes back for a byte that is no JSON. -/
theorem error_frames_machine_readable_malformed :
    ∃ logical j, scanFrame (frameResponse (malformedText ++ str "\n")) = .frame logical [] ∧
      Nlohmann.parse (fun _ => 0) logical = some j ∧ j.is_object ∧ MachineReadable j := by
  have hpath : ErrorPath malformedPlatform ⟨str "0.1.0", str "0.1.0"⟩ malformedError := by
    refine @ErrorPath.message _ _ ⟨0, none, 0⟩ (str "x") _ ?_
    have hparse : malformedPlatform.parse (str "x") = none := rfl
    rw [processMessage, hparse]
    exact List.mem_singleton_self _
  have hdocument : responseDocument malformedMoment (str "error") malformedError =
      responseOf (.object malformedHeader) (.object malformedBody) := rfl
  have hdump : dumpHeld (fun _ => 0) (fun _ => [])
      (responseOf (.object malformedHeader) (.object malformedBody)) = some malformedText :=
    (if_pos representable_malformed).trans rfl
  refine (error_frames_machine_readable malformedPlatform _ (roundTrips_dumpHeld _ fun _ => [])
    ⟨str "0.1.0", str "0.1.0"⟩).1 malformedError hpath malformedMoment _ ?_
    (frameResponse_ne_nil (by decide +kernel))
  rw [generateResponseMessage, hdocument, hdump]
  rfl

end LoginServer
