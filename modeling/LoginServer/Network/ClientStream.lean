import LoginServer.Network.Wire
import LoginServer.Nlohmann.RoundTrip

/-!
# What a client reads

`generateResponseMessage` dumps a document, `sendResponse` frames the text and queues the
frame, and the write queues put it on the wire. A client that splits what it has received
into frames and parses each of them reads the documents that were posted, in their order,
up to the frame that is still on its way (`client_reads_responses`).
-/

namespace LoginServer

open Nlohmann protocol Streams

namespace Nlohmann.Representable

variable {P : UInt64 → Prop} {j value : Json}

theorem find? {v : Json} {key : Bytes} (hj : Representable P j) (h : j.find? key = some v) :
    Representable P v := by
  cases hj with
  | @object members hkeys hvalues =>
    exact hvalues (key, v) ((Relations.lookup_eq_some_iff_mem hkeys).mp h)
  | _ => cases h

theorem member (hj : Representable P j) (key : Bytes) : Representable P (j.member key) := by
  rw [Json.member]
  cases h : j.find? key with
  | none => exact .null
  | some v => exact hj.find? h

theorem keys_setMember (members : List (Bytes × Json)) (key : Bytes) (value : Json) :
    (Json.setMember members key value).map Prod.fst =
      if key ∈ members.map Prod.fst then members.map Prod.fst
      else members.map Prod.fst ++ [key] := by
  induction members with
  | nil => rfl
  | cons m rest ih =>
    obtain ⟨k, v⟩ := m
    rw [Json.setMember]
    by_cases hk : k = key
    · simp [hk]
    · have hne : key ≠ k := Ne.symm hk
      rw [if_neg hk, List.map_cons, ih]
      by_cases hmem : key ∈ rest.map Prod.fst
      · simp [hmem]
      · simp [hmem, hne]

theorem set (hj : Representable P j) (key : Bytes) (hvalue : Representable P value) :
    Representable P (j.set key value) := by
  have hsingle : Representable P (.object [(key, value)]) := by
    refine .object (List.nodup_singleton _) fun m hm => ?_
    obtain rfl := List.mem_singleton.mp hm
    exact hvalue
  cases hj with
  | @object members hkeys hvalues =>
    refine .object ?_ fun m hm => ?_
    · rw [keys_setMember]
      split_ifs with hmem
      · exact hkeys
      · exact hkeys.append (List.nodup_singleton _) (by simpa using hmem)
    · rcases mem_setMember hm with rfl | hold
      · exact hvalue
      · exact hvalues m hold
  | _ => exact hsingle

theorem setIn (hj : Representable P j) (key key' : Bytes) (hvalue : Representable P value) :
    Representable P (j.setIn key key' value) :=
  hj.set key ((hj.member key).set key' hvalue)

theorem mirrorErrorCode {response : Json} (status : Bytes) (h : Representable P response) :
    Representable P (mirrorErrorCode status response) := by
  unfold LoginServer.mirrorErrorCode
  have hcode := (h.member (str "header")).member (str "message")
  dsimp only
  split
  · split
    · exact h.setIn _ _ hcode
    · exact (h.set _ (.object (by simp) (by simp))).setIn _ _ hcode
  · exact h

variable {message : Json}

theorem responseDocument (hmessage : Representable P message) (currentTimestamp status : Bytes) :
    Representable P (responseDocument currentTimestamp status message) := by
  refine mirrorErrorCode status (Representable.set ?_ _ (hmessage.member _))
  have hheader := (@Representable.null P).set (str "header") (hmessage.member (str "header"))
  exact ((hheader.setIn _ _ (.string _)).setIn _ _ (.string _)).setIn _ _ (.string _)

/-- The milliseconds of the time stamps are `long long`s. -/
def TimestampsFit (timestamps : TimestampStruct) (nowMs : Int) : Prop :=
  ∀ n ∈ [timestamps.serverRecvMs, nowMs, timestamps.clientSendMsEcho], -2 ^ 63 ≤ n ∧ n < 2 ^ 63

theorem addTimestampsToHeader (hj : Representable P j) {timestamps : TimestampStruct}
    (h : TimestampsFit timestamps timestamps.serverSendMs) :
    Representable P (addTimestampsToHeader j timestamps) := by
  have hnumber : ∀ n ∈ [timestamps.serverRecvMs, timestamps.serverSendMs,
      timestamps.clientSendMsEcho], Representable P (.number n) := by
    intro n hn
    have hfits := h n hn
    exact .number ⟨hfits.1, by omega⟩
  unfold LoginServer.addTimestampsToHeader
  refine setIn (setIn (setIn (setIn ?_ _ _ ?_) _ _ ?_) _ _ ?_) _ _ (.string _)
  · split
    · exact hj
    · exact hj.set _ (.object (by simp) (by simp))
  · exact hnumber _ (by simp)
  · exact hnumber _ (by simp)
  · exact hnumber _ (by simp)

theorem responseDocumentWithTimestamps (hmessage : Representable P message)
    (currentTimestamp status : Bytes) {nowMs : Int} {timestamps : TimestampStruct}
    (h : TimestampsFit timestamps nowMs) :
    Representable P
      (responseDocumentWithTimestamps currentTimestamp nowMs status message timestamps) := by
  refine mirrorErrorCode status (Representable.set ?_ _ (hmessage.member _))
  have hheader := (@Representable.null P).set (str "header") (hmessage.member (str "header"))
  refine addTimestampsToHeader ?_ h
  exact ((hheader.setIn _ _ (.string _)).setIn _ _ (.string _)).setIn _ _ (.string _)

end Nlohmann.Representable

/-! ## The payload of a response -/

/-- The payload that `sendResponse` queues for the document of a generated message, where
it fits a frame. -/
inductive IsResponse (strtod : Bytes → UInt64) (to_chars : UInt64 → Bytes) :
    Json → Bytes → Prop where
  | plain {currentTimestamp status text : Bytes} {message : Json}
    (hmessage : Representable (WritesFloat strtod to_chars) message)
    (htext : generateResponseMessage (dump to_chars) currentTimestamp status message = some text)
    (hfits : frameResponse text ≠ []) :
    IsResponse strtod to_chars (responseDocument currentTimestamp status message)
      (frameResponse text)
  | timestamped {currentTimestamp status text : Bytes} {nowMs : Int} {message : Json}
    {timestamps : TimestampStruct}
    (hmessage : Representable (WritesFloat strtod to_chars) message)
    (hfit : Representable.TimestampsFit timestamps nowMs)
    (htext : generateResponseMessageWithTimestamps (dump to_chars) currentTimestamp nowMs status
      message timestamps = some text)
    (hfits : frameResponse text ≠ []) :
    IsResponse strtod to_chars
      (responseDocumentWithTimestamps currentTimestamp nowMs status message timestamps)
      (frameResponse text)

theorem frameResponse_newline (dumped : Bytes) :
    frameResponse (dumped ++ str "\n") = packFramedMessage dumped := by
  have hnewline : str "\n" = [10] := by decide
  rw [hnewline, frameResponse, if_pos List.getLast?_concat, List.dropLast_concat]

/-- The frame holds what `dump` wrote, and a parser reads the document back from it. -/
theorem IsResponse.frame {strtod : Bytes → UInt64} {to_chars : UInt64 → Bytes} {document : Json}
    {bytes : Bytes} (h : IsResponse strtod to_chars document bytes) :
    ∃ text j, bytes = wireCodec.encode text ∧ wireCodec.Valid text ∧
      parse strtod text = some j ∧ document.Same j := by
  have hframe : ∀ text, Representable (WritesFloat strtod to_chars) document →
      (dump to_chars document).map (fun dumped => dumped ++ str "\n") = some text →
      frameResponse text ≠ [] → ∃ dumped j, frameResponse text = wireCodec.encode dumped ∧
        wireCodec.Valid dumped ∧ parse strtod dumped = some j ∧ document.Same j := by
    intro text hdocument htext hfits
    obtain ⟨dumped, hdump, rfl⟩ := Option.map_eq_some_iff.mp htext
    rw [frameResponse_newline] at hfits ⊢
    have hvalid : dumped.length ≤ kMaxFrameBytes := by
      by_contra hlong
      exact hfits (if_pos (Nat.not_le.mp hlong))
    exact ⟨dumped, canonical document, rfl, hvalid, parse_dump hdocument hdump,
      same_canonical hdocument⟩
  cases h with
  | plain hmessage htext hfits => exact hframe _ (hmessage.responseDocument _ _) htext hfits
  | timestamped hmessage hfit htext hfits =>
    exact hframe _ (hmessage.responseDocumentWithTimestamps _ _ hfit) htext hfits

/-- The documents of payloads, the texts of their frames, and what a parser makes of them. -/
theorem frames_of_responses {strtod : Bytes → UInt64} {to_chars : UInt64 → Bytes}
    {payloads : List Payload}
    (h : ∀ data ∈ payloads, ∃ document, IsResponse strtod to_chars document data.bytes) :
    ∃ documents texts,
      List.Forall₂ (IsResponse strtod to_chars) documents (payloads.map (·.bytes)) ∧
      bytesOf payloads = packAll texts ∧ (∀ text ∈ texts, wireCodec.Valid text) ∧
      List.Forall₂ (fun document text => ∃ j, parse strtod text = some j ∧ document.Same j)
        documents texts := by
  induction payloads with
  | nil => exact ⟨[], [], .nil, rfl, by simp, .nil⟩
  | cons data payloads ih =>
    obtain ⟨documents, texts, hresponses, hbytes, hvalid, hread⟩ :=
      ih fun data' hdata' => h data' (List.mem_cons_of_mem _ hdata')
    obtain ⟨document, hdocument⟩ := h data List.mem_cons_self
    obtain ⟨text, j, hframe, htext, hparse, hsame⟩ := hdocument.frame
    refine ⟨document :: documents, text :: texts, .cons hdocument hresponses, ?_, ?_,
      .cons ⟨j, hparse, hsame⟩ hread⟩
    · rw [bytesOf, List.map_cons, List.flatten_cons, hframe]
      exact congrArg (wireCodec.encode text ++ ·) hbytes
    · exact List.forall_mem_cons.mpr ⟨htext, hvalid⟩

/-- A client of the socket reads the documents posted to it, in their order and each at most
once. What is left of the bytes is the part of a frame that it has not received whole, never
a framing error; of an open socket on which nothing waits it has read all documents. -/
def ReadsResponses (strtod : Bytes → UInt64) (to_chars : UInt64 → Bytes) (w : Wire)
    (s : SocketId) : Prop :=
  ∃ documents texts,
    List.Forall₂ (IsResponse strtod to_chars) documents ((w.writes.posted s).map (·.bytes)) ∧
    List.Forall₂ (fun document text => ∃ j, parse strtod text = some j ∧ document.Same j)
      documents texts ∧
    referenceDecoding (w.sent s) <+: texts ∧
    (∃ rest, w.sent s = packAll (referenceDecoding (w.sent s)) ++ rest ∧
      scanFrame rest = .more) ∧
    (w.Drained s → referenceDecoding (w.sent s) = texts)

/-- Whatever the strands, the transfers and the closing sockets do, clients read responses. -/
theorem client_reads_responses (strtod : Bytes → UInt64) (to_chars : UInt64 → Bytes) {w : Wire}
    (h : Wire.Reach (fun bytes => ∃ document, IsResponse strtod to_chars document bytes) w)
    (s : SocketId) : ReadsResponses strtod to_chars w s := by
  obtain ⟨documents, texts, hresponses, hbytes, hvalid, hread⟩ :=
    frames_of_responses (h.payloads.posted s)
  have hsent : w.sent s <+: wireCodec.encodeAll texts := by
    rw [show wireCodec.encodeAll texts = bytesOf (w.writes.posted s) from hbytes.symm]
    exact h.inv.sent_prefix_posted s
  refine ⟨documents, texts, hresponses, hread, ?_, ?_, ?_⟩
  · have hdecode := wireCodec.decode_mono hsent
    rwa [wireCodec.decode_encodeAll hvalid] at hdecode
  · obtain ⟨rest, hrest, hmore⟩ := wireCodec.exists_rest_of_sent hvalid hsent
    refine ⟨rest, hrest, ?_⟩
    rcases eq_or_ne rest [] with rfl | hne
    · rfl
    · exact hmore hne
  · intro hdrained
    rw [h.inv.sent_eq_posted hdrained, hbytes]
    exact wireCodec.decode_encodeAll hvalid

/-! ### Two responses on one socket -/

/-- A response without a message. -/
def bareText : Bytes :=
  str "\x7b\"body\":null,\"header\":\x7b\"status\":\"ok\",\"timestamp\":\"\"," ++
    str "\"version\":\"1.0\"\x7d\x7d\n"

theorem isResponse_bare : IsResponse (fun _ => 0) (fun _ => [])
    (responseDocument [] (str "ok") .null) (frameResponse bareText) :=
  .plain .null (show _ = some bareText from rfl) (by decide)

theorem Wire.Reach.write {P : Bytes → Prop} {w w' : Wire} (h : Wire.Reach P w) (l : WireLabel)
    (hl : ∀ s bytes, l ≠ .write (.enqueueWrite s bytes)) (hstep : w.step l = some w') :
    Wire.Reach P w' :=
  h.step (fun s bytes heq => absurd heq (hl s bytes)) hstep

/-- The first has been transferred in two pieces; of the second nine bytes have. -/
theorem client_reads_responses_part :
    ∃ w : Wire, w.sent 0 = frameResponse bareText ++ (frameResponse bareText).take 9 ∧
      ReadsResponses (fun _ => 0) (fun _ => []) w 0 := by
  have hresponse : ∀ s bytes, WireLabel.write (.enqueueWrite 0 (frameResponse bareText)) =
      .write (.enqueueWrite s bytes) →
      ∃ document, IsResponse (fun _ => 0) (fun _ => []) document bytes := by
    intro s bytes heq
    cases heq
    exact ⟨_, isResponse_bare⟩
  have hfirst := Wire.Reach.init |>.write (.write (.accept 7)) nofun rfl
    |>.step hresponse rfl |>.write (.write (.post 0)) nofun rfl
    |>.write (.write (.runTask 0)) nofun rfl |>.write (.transfer 0 50) nofun rfl
    |>.write (.transfer 0 500) nofun rfl |>.write (.write (.complete 0 false)) nofun rfl
    |>.write (.write (.runTask 0)) nofun rfl
  have hsecond := hfirst |>.step hresponse rfl |>.write (.write (.post 0)) nofun rfl
    |>.write (.write (.runTask 0)) nofun rfl |>.write (.transfer 0 9) nofun rfl
  exact ⟨_, rfl, client_reads_responses _ _ hsecond 0⟩

end LoginServer
