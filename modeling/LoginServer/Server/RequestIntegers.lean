import LoginServer.Network.ProcessMessage
import LoginServer.Server.HandlerCalls
import LoginServer.Utils.RequestFields

/-!
# The integers of a request

The extractors test `is_number_integer()`, which any 64-bit value passes, and then read a
32-bit `int`: what they return is the value modulo 2³². An id is therefore taken at face
value where it fits an `int` or becomes 0, and everywhere else the request acts for
another id.
-/

namespace LoginServer

open Database Interleaving JSONParser

/-- The id is 0 or the integer that the document has there. -/
def AtFaceValue (jsonData : Json) (field : IntegerField) (n : Int) : Prop :=
  n = 0 ∨ field.inDocument jsonData = some (.number n)

/-- Every integer of the document that is read fits an `int` or is a multiple of 2³². -/
def IntegersInRange (jsonData : Json) : Prop :=
  ∀ (field : IntegerField) (n : Int), field.inDocument jsonData = some (.number n) →
    IsInt32 n ∨ (2 : Int) ^ 32 ∣ n

theorem bmod_eq_zero_iff {n : Int} : n.bmod (2 ^ 32) = 0 ↔ (2 : Int) ^ 32 ∣ n := by
  rw [Int.bmod_def]
  split <;> omega

theorem atFaceValue_iff (jsonData : Json) :
    (∀ field : IntegerField, AtFaceValue jsonData field (field.parsed jsonData)) ↔
      IntegersInRange jsonData := by
  constructor
  · intro h field n hn
    rw [← bmod_eq_self_iff, ← bmod_eq_zero_iff, ← IntegerField.parsed_of_number hn]
    rcases h field with hzero | hsame
    · exact Or.inr hzero
    · rw [hn] at hsame
      cases hsame
      exact Or.inl rfl
  · intro h field
    by_cases hnumber : ∃ n, field.inDocument jsonData = some (.number n)
    · obtain ⟨n, hn⟩ := hnumber
      unfold AtFaceValue
      rw [IntegerField.parsed_of_number hn, hn]
      rcases h field n hn with hfits | hzero
      · rw [bmod_eq_self_iff.mpr hfits]
        exact Or.inr rfl
      · exact Or.inl (bmod_eq_zero_iff.mpr hzero)
    · push Not at hnumber
      exact Or.inl (IntegerField.parsed_of_not_number hnumber)

/-! ## From the document to the calls -/

/-- The ids of the payload are those of the document. -/
def HasParsedIds (jsonData : Json) (event : Event) : Prop :=
  ∀ data, event.eventData = .clientData data →
    data.clientId = (parseClientData jsonData).clientId ∧
      (data.characterData.characterId = 0 ∨
        data.characterData.characterId = (parseCharacterData jsonData).characterId)

variable {limits : VersionLimits} {ctx : FrameContext} {jsonData : Json}

theorem processEvent_parsedIds {type : EventType} {data : ClientDataStruct}
    {timestamps : TimestampStruct} (hid : data.clientId = (parseClientData jsonData).clientId)
    (hcharacter : data.characterData.characterId = 0 ∨
      data.characterData.characterId = (parseCharacterData jsonData).characterId) :
    ∀ event ∈ (processEvent ctx type data timestamps).events, HasParsedIds jsonData event := by
  intro event hevent data' hdata
  obtain rfl := List.mem_singleton.mp hevent
  cases hdata
  exact ⟨hid, hcharacter⟩

theorem gated_events {clientVersion eventType : Bytes} {pushed : Processed} {P : Event → Prop}
    (h : ∀ event ∈ pushed.events, P event) :
    ∀ event ∈ (gated limits clientVersion eventType pushed).events, P event := by
  unfold gated
  split
  · simp
  · exact h

theorem processRegistration_parsedIds {timestamps : TimestampStruct} :
    ∀ event ∈ (processRegistration limits ctx jsonData timestamps).events,
      HasParsedIds jsonData event := by
  unfold processRegistration
  split
  · simp
  · refine gated_events fun event hevent data hdata => ?_
    obtain rfl := List.mem_singleton.mp hevent
    cases hdata

theorem processJson_parsedIds :
    ∀ event ∈ (processJson limits ctx jsonData).events, HasParsedIds jsonData event := by
  unfold processJson
  dsimp only
  split_ifs
  · exact gated_events (processEvent_parsedIds rfl (Or.inl rfl))
  · exact processEvent_parsedIds rfl (Or.inl rfl)
  · exact processEvent_parsedIds rfl (Or.inr rfl)
  · exact processEvent_parsedIds rfl (Or.inl rfl)
  · exact processEvent_parsedIds rfl (Or.inl rfl)
  · exact processRegistration_parsedIds
  · exact processEvent_parsedIds rfl (Or.inl rfl)
  · exact processEvent_parsedIds rfl (Or.inr rfl)
  · simp

/-- The ids that a call validates a session for or deletes are at face value. -/
structure ActsAtFaceValue (jsonData : Json) (c : Cmd) : Prop where
  session : ∀ id hash, c = .validateSession id hash → AtFaceValue jsonData .clientId id
  deletion : ∀ characterId accountId, c = .execPrepared (.deleteCharacter characterId accountId) →
    AtFaceValue jsonData .characterId characterId ∧ AtFaceValue jsonData .clientId accountId

theorem actsAtFaceValue {event : Event} {c : Cmd} (hids : HasParsedIds jsonData event)
    (hfields : ∀ field : IntegerField, AtFaceValue jsonData field (field.parsed jsonData))
    (hc : CallsFor event c) : ActsAtFaceValue jsonData c := by
  have hclient : AtFaceValue jsonData .clientId (parseClientData jsonData).clientId :=
    hfields .clientId
  have hcharacter : AtFaceValue jsonData .characterId (parseCharacterData jsonData).characterId :=
    hfields .characterId
  constructor
  · intro id hash heq
    obtain ⟨data, hdata, rfl, -⟩ := hc.session id hash heq
    exact (hids data hdata).1 ▸ hclient
  · intro characterId accountId heq
    obtain ⟨data, hdata, rfl, rfl⟩ := hc.deletion characterId accountId heq
    obtain ⟨hid, hzero | hparsed⟩ := hids data hdata
    · exact ⟨Or.inl hzero, hid ▸ hclient⟩
    · exact ⟨hparsed ▸ hcharacter, hid ▸ hclient⟩

/-- The integers of a document are parsed, validated and acted on at face value or as 0,
whatever the calls of the task are answered, exactly if those that it has in the six places
fit an `int` or are multiples of 2³². -/
theorem integers_at_face_value_iff (p : Platform) (limits : VersionLimits) (ctx : FrameContext)
    (jsonData : Json) :
    ((∀ field : IntegerField, AtFaceValue jsonData field (field.parsed jsonData)) ∧
        ∀ event ∈ (processJson limits ctx jsonData).events, ∀ h r,
          Ends [] (EventHandler.dispatchEvent p event).run h r →
          ∀ e ∈ h, ActsAtFaceValue jsonData e.1) ↔
      IntegersInRange jsonData := by
  rw [← atFaceValue_iff]
  refine and_iff_left_of_imp ?_
  intro hfields event hevent h r hends
  have hids := processJson_parsedIds event hevent
  have hcalls := (EventHandler.dispatchEvent_calls p event).mono
    (fun _ hc => actsAtFaceValue hids hfields hc) id
  exact hcalls.forall_mem_of_ends hends

/-- A deletion in the name of account 7, although no `int` has the ids of the document. -/
def aliasedDeletion : Json :=
  .object [(str "header", .object [(str "eventType", .string (str "deleteCharacter")),
      (str "clientId", .number 4294967303), (str "hash", .string (str "abc"))]),
    (str "body", .object [(str "characterId", .number (-4294967254))])]

theorem aliasedDeletion_not_at_face_value :
    IntegerField.clientId.inDocument aliasedDeletion = some (.number 4294967303) ∧
      IntegerField.clientId.parsed aliasedDeletion = 7 ∧
      IntegerField.characterId.inDocument aliasedDeletion = some (.number (-4294967254)) ∧
      IntegerField.characterId.parsed aliasedDeletion = 42 ∧
      ¬ AtFaceValue aliasedDeletion .clientId (IntegerField.clientId.parsed aliasedDeletion) ∧
      ¬ AtFaceValue aliasedDeletion .characterId
        (IntegerField.characterId.parsed aliasedDeletion) := by
  have hclient : IntegerField.clientId.inDocument aliasedDeletion = some (.number 4294967303) := rfl
  have hcharacter : IntegerField.characterId.inDocument aliasedDeletion =
      some (.number (-4294967254)) := rfl
  have hclient' : IntegerField.clientId.parsed aliasedDeletion = 7 := by decide
  have hcharacter' : IntegerField.characterId.parsed aliasedDeletion = 42 := by decide
  refine ⟨hclient, hclient', hcharacter, hcharacter', ?_, ?_⟩
  · rw [hclient', AtFaceValue, hclient]
    simp
  · rw [hcharacter', AtFaceValue, hcharacter]
    simp

end LoginServer
