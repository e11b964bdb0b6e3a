import LoginServer.Data.DataStructs
import LoginServer.Utils.Numeral
import LoginServer.Utils.ResponseBuilder
import LoginServer.Utils.WireFraming

/-!
# `generateResponseMessage`

The two overloads, up to `dump`. An error response gets a `body.errorCode` that repeats
`header.message`, unless the body has one already.
-/

namespace LoginServer

/-! ## `TimestampUtils::getCurrentTimestamp` -/

/-- What `localtime_r` makes of a moment, with the milliseconds. -/
structure LocalTime where
  year : Fin 10000
  month : Fin 13
  day : Fin 32
  hour : Fin 24
  minute : Fin 60
  second : Fin 61
  ms : Fin 1000

/-- The digits of a number, with zeros in front. -/
def zeroPadded : Nat → Nat → Bytes
  | 0, _ => []
  | width + 1, n => zeroPadded width (n / 10) ++ [.ofNat (48 + n % 10)]

/-- `"%Y-%m-%d %H:%M:%S"`, a point and the milliseconds. -/
def getCurrentTimestamp (now : LocalTime) : Bytes :=
  zeroPadded 4 now.year ++ str "-" ++ zeroPadded 2 now.month ++ str "-" ++ zeroPadded 2 now.day ++
    str " " ++ zeroPadded 2 now.hour ++ str ":" ++ zeroPadded 2 now.minute ++ str ":" ++
    zeroPadded 2 now.second ++ str "." ++ zeroPadded 3 now.ms

theorem length_zeroPadded (width n : Nat) : (zeroPadded width n).length = width := by
  induction width generalizing n with
  | zero => rfl
  | succ width ih => rw [zeroPadded, List.length_append, ih, List.length_singleton]

theorem length_getCurrentTimestamp (now : LocalTime) : (getCurrentTimestamp now).length = 23 := by
  have hstr : ∀ s ∈ ["-", " ", ":", "."], (str s).length = 1 := by decide +kernel
  simp [getCurrentTimestamp, length_zeroPadded, hstr]

theorem isDigit_zeroPadded (width n : Nat) : ∀ b ∈ zeroPadded width n, isDigit b := by
  induction width generalizing n with
  | zero => simp [zeroPadded]
  | succ width ih =>
    intro b hb
    rcases List.mem_append.mp hb with hb | hb
    · exact ih _ b hb
    · obtain rfl := List.mem_singleton.mp hb
      exact isDigit_digit (Nat.mod_lt _ (by decide))

/-- The moment is written with digits, `-`, `:`, a point and a blank. -/
theorem mem_getCurrentTimestamp {now : LocalTime} {b : UInt8} (h : b ∈ getCurrentTimestamp now) :
    isDigit b ∨ b ∈ str "- :." := by
  have hstr : str "- :." = str "-" ++ str " " ++ str ":" ++ str "." := by decide +kernel
  have hdigit : ∀ width n, b ∈ zeroPadded width n → isDigit b :=
    fun width n => isDigit_zeroPadded width n b
  simp only [getCurrentTimestamp, List.mem_append] at h
  rw [hstr]
  simp only [List.mem_append]
  grind

/-! ## The documents -/

namespace Json

/-- `j[key][key'] = value`. -/
def setIn (j : Json) (key key' : Bytes) (value : Json) : Json :=
  j.set key ((j.member key).set key' value)

end Json

/-- The statements after `response["body"] = message["body"]`, the same in both overloads. -/
def mirrorErrorCode (status : Bytes) (response : Json) : Json :=
  let header := response.member (str "header")
  let body := response.member (str "body")
  if status = str "error" ∧ header.contains (str "message") ∧
      (header.member (str "message")).is_string ∧
      (¬ body.is_object ∨ ¬ body.contains (str "errorCode")) then
    let response := if body.is_object then response else response.set (str "body") (.object [])
    response.setIn (str "body") (str "errorCode") (header.member (str "message"))
  else response

/-- The document of `generateResponseMessage(status, message)`. -/
def responseDocument (currentTimestamp status : Bytes) (message : Json) : Json :=
  let response := Json.null.set (str "header") (message.member (str "header"))
  let response := response.setIn (str "header") (str "status") (.string status)
  let response := response.setIn (str "header") (str "timestamp") (.string currentTimestamp)
  let response := response.setIn (str "header") (str "version") (.string protocol.kProtocolVersion)
  let response := response.set (str "body") (message.member (str "body"))
  mirrorErrorCode status response

def addTimestampsToHeader (json : Json) (timestamps : TimestampStruct) : Json :=
  let json :=
    if json.contains (str "header") then json else json.set (str "header") (.object [])
  let json := json.setIn (str "header") (str "serverRecvMs") (.number timestamps.serverRecvMs)
  let json := json.setIn (str "header") (str "serverSendMs") (.number timestamps.serverSendMs)
  let json := json.setIn (str "header") (str "clientSendMsEcho")
    (.number timestamps.clientSendMsEcho)
  json.setIn (str "header") (str "requestId") (.string timestamps.requestId)

/-- The document of `generateResponseMessage(status, message, timestamps)`; `nowMs` is the
instant of `currentTimestamp`. -/
def responseDocumentWithTimestamps (currentTimestamp : Bytes) (nowMs : Int) (status : Bytes)
    (message : Json) (timestamps : TimestampStruct) : Json :=
  let response := Json.null.set (str "header") (message.member (str "header"))
  let response := response.setIn (str "header") (str "status") (.string status)
  let response := response.setIn (str "header") (str "timestamp") (.string currentTimestamp)
  let response := response.setIn (str "header") (str "version") (.string protocol.kProtocolVersion)
  let finalTimestamps := { timestamps with serverSendMs := nowMs }
  let response := addTimestampsToHeader response finalTimestamps
  let response := response.set (str "body") (message.member (str "body"))
  mirrorErrorCode status response

/-- `nlohmann::json::dump`; `none` when it throws on a text that is not UTF-8. -/
abbrev Dump := Json → Option Bytes

def generateResponseMessage (dump : Dump) (currentTimestamp status : Bytes) (message : Json) :
    Option Bytes :=
  (dump (responseDocument currentTimestamp status message)).map fun text => text ++ str "\n"

def generateResponseMessageWithTimestamps (dump : Dump) (currentTimestamp : Bytes) (nowMs : Int)
    (status : Bytes) (message : Json) (timestamps : TimestampStruct) : Option Bytes :=
  (dump (responseDocumentWithTimestamps currentTimestamp nowMs status message timestamps)).map
    fun text => text ++ str "\n"

/-! ## The documents of a message with a header and a body -/

/-- The header that every response has. -/
def responseHeader (currentTimestamp status : Bytes) (header : Json) : Json :=
  ((header.set (str "status") (.string status)).set (str "timestamp")
    (.string currentTimestamp)).set (str "version") (.string protocol.kProtocolVersion)

/-- The four members of the time stamps. -/
def timestampedHeader (header : Json) (timestamps : TimestampStruct) : Json :=
  (((header.set (str "serverRecvMs") (.number timestamps.serverRecvMs)).set (str "serverSendMs")
    (.number timestamps.serverSendMs)).set (str "clientSendMsEcho")
    (.number timestamps.clientSendMsEcho)).set (str "requestId") (.string timestamps.requestId)

/-- The body that every response has, given the header. -/
def responseBody (status : Bytes) (header body : Json) : Json :=
  if status = str "error" ∧ header.contains (str "message") ∧
      (header.member (str "message")).is_string ∧ ¬ body.contains (str "errorCode") then
    body.set (str "errorCode") (header.member (str "message"))
  else body

/-- The response of these two parts. -/
def responseOf (header body : Json) : Json :=
  .object [(str "header", header), (str "body", body)]

theorem header_ne_body : str "header" ≠ str "body" := by
  rw [ne_eq, str_inj]
  decide

@[simp] theorem member_header_responseOf (header body : Json) :
    (responseOf header body).member (str "header") = header := by
  simp [responseOf, Json.member, Json.find?]

@[simp] theorem member_body_responseOf (header body : Json) :
    (responseOf header body).member (str "body") = body := by
  have hne : (str "body" == str "header") = false := beq_false_of_ne header_ne_body.symm
  simp [responseOf, Json.member, Json.find?, List.lookup_cons, hne]

theorem setIn_body_responseOf (header body value : Json) (key : Bytes) :
    (responseOf header body).setIn (str "body") key value =
      responseOf header (body.set key value) := by
  rw [Json.setIn, member_body_responseOf]
  simp [responseOf, Json.set, Json.setMember]

theorem mirrorErrorCode_responseOf {status : Bytes} {header body : Json} (hbody : body.is_object) :
    mirrorErrorCode status (responseOf header body) =
      responseOf header (responseBody status header body) := by
  unfold mirrorErrorCode responseBody
  simp only [member_header_responseOf, member_body_responseOf, hbody, if_true, not_true, false_or,
    setIn_body_responseOf]
  split <;> rfl

/-- What is built before the body is set. -/
def headerOnly (header : Json) : Json := .object [(str "header", header)]

theorem setIn_headerOnly (header value : Json) (key : Bytes) :
    (headerOnly header).setIn (str "header") key value = headerOnly (header.set key value) := by
  simp [headerOnly, Json.setIn, Json.set, Json.setMember, Json.member, Json.find?]

theorem set_body_headerOnly (header body : Json) :
    (headerOnly header).set (str "body") body = responseOf header body := by
  simp [headerOnly, responseOf, Json.set, Json.setMember]

theorem contains_headerOnly (header : Json) :
    (headerOnly header).contains (str "header") = true := by
  simp [headerOnly, Json.contains, Json.find?]

variable {currentTimestamp status : Bytes} {nowMs : Int} {message : Json}

theorem responseDocument_eq (hbody : (message.member (str "body")).is_object) :
    responseDocument currentTimestamp status message =
      responseOf (responseHeader currentTimestamp status (message.member (str "header")))
        (responseBody status
          (responseHeader currentTimestamp status (message.member (str "header")))
          (message.member (str "body"))) := by
  have hstart : Json.null.set (str "header") (message.member (str "header")) =
      headerOnly (message.member (str "header")) := rfl
  simp only [responseDocument, hstart, setIn_headerOnly, set_body_headerOnly]
  exact mirrorErrorCode_responseOf hbody

theorem addTimestampsToHeader_headerOnly (header : Json) (timestamps : TimestampStruct) :
    addTimestampsToHeader (headerOnly header) timestamps =
      headerOnly (timestampedHeader header timestamps) := by
  simp only [addTimestampsToHeader, contains_headerOnly, if_true, setIn_headerOnly]
  rfl

/-- The time stamps do not touch the message. -/
theorem find?_timestampedHeader {header : Json} (hheader : header.is_object)
    (timestamps : TimestampStruct) {key : Bytes}
    (hkey : key ∉ [str "serverRecvMs", str "serverSendMs", str "clientSendMsEcho",
      str "requestId"]) :
    (timestampedHeader header timestamps).find? key = header.find? key := by
  simp only [List.mem_cons, List.not_mem_nil, or_false, not_or] at hkey
  obtain ⟨h₁, h₂, h₃, h₄⟩ := hkey
  simp only [timestampedHeader, Json.find?_set, Json.is_object_set, hheader, h₁, h₂, h₃, h₄,
    if_false]

theorem responseBody_timestampedHeader {header : Json} (hheader : header.is_object)
    (timestamps : TimestampStruct) (body : Json) :
    responseBody status (timestampedHeader header timestamps) body =
      responseBody status header body := by
  have hmessage : (timestampedHeader header timestamps).find? (str "message") =
      header.find? (str "message") :=
    find?_timestampedHeader hheader timestamps (by simp)
  unfold responseBody Json.contains Json.member
  rw [hmessage]

theorem responseDocumentWithTimestamps_eq (hbody : (message.member (str "body")).is_object)
    (timestamps : TimestampStruct) :
    responseDocumentWithTimestamps currentTimestamp nowMs status message timestamps =
      responseOf
        (timestampedHeader
          (responseHeader currentTimestamp status (message.member (str "header")))
          { timestamps with serverSendMs := nowMs })
        (responseBody status
          (responseHeader currentTimestamp status (message.member (str "header")))
          (message.member (str "body"))) := by
  have hstart : Json.null.set (str "header") (message.member (str "header")) =
      headerOnly (message.member (str "header")) := rfl
  simp only [responseDocumentWithTimestamps, hstart, setIn_headerOnly,
    addTimestampsToHeader_headerOnly, set_body_headerOnly]
  have hheader :
      (responseHeader currentTimestamp status (message.member (str "header"))).is_object = true :=
    Json.is_object_set ..
  rw [← responseBody_timestampedHeader hheader { timestamps with serverSendMs := nowMs }]
  exact mirrorErrorCode_responseOf hbody

/-! ## The parts of an error response -/

theorem find?_responseHeader {header : Json} (hheader : header.is_object) (key : Bytes) :
    (responseHeader currentTimestamp status header).find? key =
      if key = str "version" then some (.string protocol.kProtocolVersion)
      else if key = str "timestamp" then some (.string currentTimestamp)
      else if key = str "status" then some (.string status)
      else header.find? key := by
  simp only [responseHeader, Json.find?_set, Json.is_object_set, hheader]

/-- An error message becomes a response whose error code is its message. -/
theorem responseDocument_error (h : IsErrorMessage message) :
    ∃ header body code,
      responseDocument currentTimestamp (str "error") message = responseOf header body ∧
      header.find? (str "status") = some (.string (str "error")) ∧
      header.find? (str "message") = some (.string code) ∧
      body.is_object ∧ body.find? (str "errorCode") = some (.string code) := by
  obtain ⟨header, body, code, rfl, hmessage, hcode⟩ := h.parts
  have hisBody : ((responseOf (.object header) (.object body)).member (str "body")).is_object =
      true := by
    rw [member_body_responseOf]
    rfl
  have hdocument := @responseDocument_eq currentTimestamp (str "error") _ hisBody
  rw [member_header_responseOf, member_body_responseOf] at hdocument
  have hfind : (responseHeader currentTimestamp (str "error") (.object header)).find?
      (str "message") = some (.string code) := by
    rw [find?_responseHeader rfl, if_neg (by simp), if_neg (by simp), if_neg (by simp)]
    exact hmessage
  have hbody : responseBody (str "error")
      (responseHeader currentTimestamp (str "error") (.object header)) (.object body) =
        (Json.object body).set (str "errorCode") (.string code) := by
    unfold responseBody
    rw [if_pos]
    · rw [Json.member, hfind]
      rfl
    · refine ⟨rfl, ?_, ?_, ?_⟩
      · rw [Json.contains, hfind]
        rfl
      · rw [Json.member, hfind]
        rfl
      · have hnone : (Json.object body).find? (str "errorCode") = none := hcode
        rw [Json.contains, hnone]
        simp
  refine ⟨_, _, code, hdocument, ?_, hfind, ?_, ?_⟩
  · rw [find?_responseHeader rfl]
    simp
  · rw [hbody]
    exact Json.is_object_set ..
  · rw [hbody, Json.find?_set _ _ _ _ rfl, if_pos rfl]

end LoginServer
