import LoginServer.Database.CreationRoom
import LoginServer.Interleaving.Sequential
import LoginServer.Server.Effects

/-!
# A task that has the server to itself

`Solo s store clientData uuids sequences now` is what is known of the server while one
thread makes all the calls: everything but the clocks and the queue. Between two calls
only time passes and frames arrive, so `Solo` is kept; there is one rule for each call,
with the outcomes that the call can have. `FailsIn allow` says that the environment may
let a call fail.
-/

namespace LoginServer

open Database Interleaving

/-- What is known of the server while one thread makes all the calls. -/
structure Solo (s : Server) (store : Database.Store) (clientData : ClientData)
    (uuids : List Bytes) (sequences : Sequences) (now : Time) : Prop where
  store_eq : s.store = store
  clientData_eq : s.clientData = clientData
  uuids_eq : s.uuids = uuids
  sequences_eq : s.sequences = sequences
  clock : now ≤ s.clock

/-- The environment may let a call fail. -/
def FailsIn (allow : Choice → Prop) : Prop := ∃ x, allow x ∧ x.fails = true

/-- The choices of an environment that lets nothing fail. -/
def noFault (x : Choice) : Prop := x.fails = false

theorem not_failsIn_noFault : ¬ FailsIn noFault := by
  rintro ⟨x, hallow, hfails⟩
  rw [noFault, hfails] at hallow
  cases hallow

variable {p : Platform} {cfg : ServerConfig} {t : Nat} {allow : Choice → Prop}
  {store : Database.Store} {clientData : ClientData} {uuids : List Bytes}
  {sequences : Sequences} {now start : Time} {db : Database} {log : List Write}
  {s : Server} {h : Hist}

theorem Solo.later {s' : Server} (hs : Solo s store clientData uuids sequences now)
    (henv : ((loginServer p cfg).alone t allow).env s s') :
    Solo s' store clientData uuids sequences now ∧ s.clock ≤ s'.clock := by
  induction henv with
  | refl => exact ⟨hs, le_rfl⟩
  | tail _ hlast ih =>
    obtain ⟨hsolo, hclock⟩ := ih
    obtain ⟨o, ho⟩ := hlast
    rcases outside_cases ho with ⟨queue, rfl⟩ | ⟨clock, steadyMs, hle, -, rfl⟩
    · exact ⟨⟨hsolo.1, hsolo.2, hsolo.3, hsolo.4, hsolo.5⟩, hclock⟩
    · have hnow : now ≤ clock := le_trans hsolo.5 hle
      exact ⟨⟨hsolo.1, hsolo.2, hsolo.3, hsolo.4, hnow⟩, le_trans hclock hle⟩

/-- Of a server that nobody else calls, everything is known. -/
theorem solo_of_store {store : Database.Store} (hstore : s.store = store) :
    Solo s store s.clientData s.uuids s.sequences s.clock :=
  ⟨hstore, rfl, rfl, rfl, le_rfl⟩

theorem Solo.withStore (hs : Solo s store clientData uuids sequences now)
    (store' : Database.Store) :
    Solo (s.withStore store') store' clientData uuids sequences now :=
  ⟨rfl, hs.2, hs.3, hs.4, hs.5⟩

/-- What is known of the time is only a bound. -/
theorem Solo.atClock (hs : Solo s store clientData uuids sequences now) :
    Solo s store clientData uuids sequences s.clock :=
  ⟨hs.1, hs.2, hs.3, hs.4, le_rfl⟩

/-! ## One rule for each call -/

section Rules

variable {E : Hist → Server → StdException → Prop}

theorem satE_call {c : Cmd} {Q : Hist → Server → c.Reply → Prop}
    (hQ : ∀ x r s₁ s₂, allow x → s.exec p.toSqlFunctions t c x = some (r, s₁) →
      ((loginServer p cfg).alone t allow).env s₁ s₂ → Q (⟨c, r⟩ :: h) s₂ r) :
    ((loginServer p cfg).alone t allow).SatE Q E h s (call c) :=
  Machine.satE_lift.mpr (Machine.sat_call.mpr hQ)

theorem satE_orThrow {α : Type} {a : Option α} {Q : Hist → Server → α → Prop}
    (hsome : ∀ x, a = some x → Q h s x) (hnone : a = none → E h s ()) :
    ((loginServer p cfg).alone t allow).SatE Q E h s (orThrow a) := by
  cases a with
  | none => exact hnone rfl
  | some x => exact hsome x rfl

/-- A call that may throw. -/
theorem satE_callOrThrow {α : Type} {c : Cmd} (f : c.Reply → Option α)
    {Q : Hist → Server → α → Prop}
    (hQ : ∀ x r s₁ s₂, allow x → s.exec p.toSqlFunctions t c x = some (r, s₁) →
      ((loginServer p cfg).alone t allow).env s₁ s₂ →
      (∀ a, f r = some a → Q (⟨c, r⟩ :: h) s₂ a) ∧ (f r = none → E (⟨c, r⟩ :: h) s₂ ())) :
    ((loginServer p cfg).alone t allow).SatE Q E h s (call c >>= fun r => orThrow (f r)) := by
  refine Machine.satE_bind.mpr (satE_call fun x r s₁ s₂ hallow hexec henv => ?_)
  obtain ⟨hsome, hnone⟩ := hQ x r s₁ s₂ hallow hexec henv
  exact satE_orThrow hsome hnone

theorem thrown {α : Type} {P : α → Prop} {N : Prop} (hN : N) :
    (∀ a, (none : Option α) = some a → P a) ∧ ((none : Option α) = none → N) := by
  simp [hN]

theorem returned {α : Type} {x : α} {P : α → Prop} {N : Prop} (hP : P x) :
    (∀ a, some x = some a → P a) ∧ (some x = none → N) := by
  simp [hP]

theorem satE_beginWork {Q : Hist → Server → Unit → Prop}
    (hs : Solo s (.idle db) clientData uuids sequences now)
    (hok : ∀ s', Solo s' (.alone writes db t s.clock []) clientData uuids sequences s.clock →
      Q (⟨.beginWork, some ()⟩ :: h) s' ())
    (hfail : ∀ s', FailsIn allow → Solo s' (.idle db) clientData uuids sequences s.clock →
      E (⟨.beginWork, none⟩ :: h) s' ()) :
    ((loginServer p cfg).alone t allow).SatE Q E h s beginWork := by
  refine satE_callOrThrow (c := .beginWork) id fun x r s₁ s₂ hallow hexec henv => ?_
  simp only [Server.exec] at hexec
  have hidle : (s.store.active t).isSome = false := by
    rw [hs.1]
    rfl
  rw [hidle, Bool.or_false] at hexec
  split_ifs at hexec with hfails
  · cases hexec
    exact thrown (hfail s₂ ⟨x, hallow, hfails⟩ (hs.atClock.later henv).1)
  · cases hexec
    rw [hs.1, Transactions.Store.begin_idle writes] at henv
    exact returned (hok s₂ ((hs.atClock.withStore _).later henv).1)

/-- The connection carries one transaction at a time. -/
theorem satE_beginWork_nested {Q : Hist → Server → Unit → Prop}
    (hs : Solo s (.alone writes db t start log) clientData uuids sequences now)
    (hfail : ∀ s', Solo s' (.alone writes db t start log) clientData uuids sequences now →
      E (⟨.beginWork, none⟩ :: h) s' ()) :
    ((loginServer p cfg).alone t allow).SatE Q E h s beginWork := by
  refine satE_callOrThrow (c := .beginWork) id fun x r s₁ s₂ hallow hexec henv => ?_
  simp only [Server.exec] at hexec
  have hactive : (s.store.active t).isSome = true := by
    rw [hs.1, Transactions.Store.active_alone]
    rfl
  rw [hactive, Bool.or_true, if_pos rfl] at hexec
  cases hexec
  exact thrown (hfail s₂ (hs.later henv).1)

theorem satE_execPrepared {q : Query} {Q : Hist → Server → q.Rows → Prop}
    (hs : Solo s (.alone writes db t start log) clientData uuids sequences now)
    (hok : ∀ rows ws seq' s',
      q.run (log.foldl applyWrite db) start sequences p.toSqlFunctions = some (rows, ws, seq') →
      Solo s' (.alone writes db t start (log ++ ws)) clientData uuids seq' now →
      Q (⟨.execPrepared q, some rows⟩ :: h) s' rows)
    (hfail : ∀ s', FailsIn allow ∨
      q.run (log.foldl applyWrite db) start sequences p.toSqlFunctions = none →
      Solo s' (.alone writes db t start log) clientData uuids sequences now →
      E (⟨.execPrepared q, none⟩ :: h) s' ()) :
    ((loginServer p cfg).alone t allow).SatE Q E h s (execPrepared q) := by
  refine satE_callOrThrow (c := .execPrepared q) id fun x r s₁ s₂ hallow hexec henv => ?_
  simp only [Server.exec, Server.execStatement] at hexec
  rw [hs.1, hs.4, Transactions.Store.active_alone] at hexec
  dsimp only at hexec
  rw [Transactions.Store.view_alone] at hexec
  split_ifs at hexec with hfails
  · cases hexec
    exact thrown (hfail s₂ (Or.inl ⟨x, hallow, hfails⟩) (hs.later henv).1)
  · split at hexec
    · rename_i hrun
      cases hexec
      exact thrown (hfail s₂ (Or.inr hrun) (hs.later henv).1)
    · rename_i rows ws seq' hrun
      rw [Transactions.Store.blocked_alone, if_neg Bool.false_ne_true] at hexec
      rw [Transactions.Store.record_alone] at hexec
      cases hexec
      have hs₁ : Solo { s with store := .alone writes db t start (log ++ ws), sequences := seq' }
          (.alone writes db t start (log ++ ws)) clientData uuids seq' now :=
        ⟨rfl, hs.2, hs.3, rfl, hs.5⟩
      exact returned (hok rows ws seq' s₂ hrun (hs₁.later henv).1)

theorem satE_commitWork {Q : Hist → Server → Unit → Prop}
    (hs : Solo s (.alone writes db t start log) clientData uuids sequences now)
    (hok : ∀ s', Solo s' (.idle (log.foldl applyWrite db)) clientData uuids sequences now →
      Q (⟨.commitWork, some ()⟩ :: h) s' ())
    (hfail : ∀ s', FailsIn allow → Solo s' (.idle db) clientData uuids sequences now →
      E (⟨.commitWork, none⟩ :: h) s' ()) :
    ((loginServer p cfg).alone t allow).SatE Q E h s commitWork := by
  refine satE_callOrThrow (c := .commitWork) id fun x r s₁ s₂ hallow hexec henv => ?_
  simp only [Server.exec] at hexec
  rw [hs.1, Transactions.Store.active_alone] at hexec
  dsimp only at hexec
  split_ifs at hexec with hfails
  · cases hexec
    rw [Transactions.Store.close_alone] at henv
    exact thrown (hfail s₂ ⟨x, hallow, hfails⟩ ((hs.withStore _).later henv).1)
  · cases hexec
    rw [Transactions.Store.commit_alone] at henv
    exact returned (hok s₂ ((hs.withStore _).later henv).1)

theorem satE_abortWork {Q : Hist → Server → Unit → Prop}
    (hs : Solo s (.alone writes db t start log) clientData uuids sequences now)
    (hok : ∀ s', Solo s' (.idle db) clientData uuids sequences now →
      Q (⟨.abortWork, ()⟩ :: h) s' ()) :
    ((loginServer p cfg).alone t allow).SatE Q E h s abortWork := by
  refine satE_call fun x r s₁ s₂ _ hexec henv => ?_
  cases hexec
  rw [hs.1, Transactions.Store.close_alone] at henv
  exact hok s₂ ((hs.withStore _).later henv).1

theorem satE_randomUuid {Q : Hist → Server → Bytes → Prop}
    (hs : Solo s store clientData uuids sequences now)
    (hok : ∀ token s', IsUuidText token → token ∉ uuids →
      Solo s' store clientData (token :: uuids) sequences now →
      Q (⟨.randomUuid, token⟩ :: h) s' token) :
    ((loginServer p cfg).alone t allow).SatE Q E h s randomUuid := by
  refine satE_call fun x r s₁ s₂ _ hexec henv => ?_
  simp only [Server.exec, hs.3] at hexec
  split_ifs at hexec with hfresh
  rw [not_or, not_not] at hfresh
  cases hexec
  have hs₁ : Solo { s with uuids := x.uuid :: uuids } store clientData (x.uuid :: uuids) sequences
      now := ⟨hs.1, hs.2, rfl, hs.4, hs.5⟩
  exact hok _ s₂ hfresh.1 hfresh.2 (hs₁.later henv).1

theorem satE_storeClientData {Q : Hist → Server → Unit → Prop} {d : ClientDataStruct}
    (hs : Solo s store clientData uuids sequences now)
    (hok : ∀ nowMs s', Solo s' store (clientData.storeClientData d nowMs) uuids sequences now →
      Q (⟨.storeClientData d, ()⟩ :: h) s' ()) :
    ((loginServer p cfg).alone t allow).SatE Q E h s (storeClientData d) := by
  refine satE_call fun x r s₁ s₂ _ hexec henv => ?_
  cases hexec
  rw [hs.2] at henv
  have hs₁ : Solo (s.withClientData (clientData.storeClientData d s.steadyMs)) store
      (clientData.storeClientData d s.steadyMs) uuids sequences now :=
    ⟨hs.1, rfl, hs.3, hs.4, hs.5⟩
  exact hok s.steadyMs s₂ (hs₁.later henv).1

theorem satE_validateSession {Q : Hist → Server → Bool → Prop} {id : Int} {hash : Bytes}
    (hs : Solo s store clientData uuids sequences now)
    (hok : ∀ s', Solo s' store clientData uuids sequences now →
      Q (⟨.validateSession id hash, clientData.validateSession id hash⟩ :: h) s'
        (clientData.validateSession id hash)) :
    ((loginServer p cfg).alone t allow).SatE Q E h s (validateSession id hash) := by
  refine satE_call fun x r s₁ s₂ _ hexec henv => ?_
  cases hexec
  rw [hs.2]
  exact hok s₂ (hs.later henv).1

theorem satE_touchSession {Q : Hist → Server → Bool → Prop} {id : Int}
    (hs : Solo s store clientData uuids sequences now)
    (hok : ∀ nowMs touched s',
      Solo s' store (clientData.touchSession id 0 nowMs).2 uuids sequences now →
      Q (⟨.touchSession id nowMs, touched⟩ :: ⟨.nowMs, nowMs⟩ :: h) s' touched) :
    ((loginServer p cfg).alone t allow).SatE Q E h s (touchSession id) := by
  refine Machine.satE_bind.mpr (satE_call fun x nowMs s₁ s₂ _ hexec henv => ?_)
  cases hexec
  have hs₂ := (hs.later henv).1
  refine satE_call fun x r s₃ s₄ _ hexec henv => ?_
  cases hexec
  rw [hs₂.2] at henv ⊢
  have hs₃ : Solo (s₂.withClientData (clientData.touchSession id 0 s.steadyMs).2) store
      (clientData.touchSession id 0 s.steadyMs).2 uuids sequences now :=
    ⟨hs₂.1, rfl, hs₂.3, hs₂.4, hs₂.5⟩
  exact hok s.steadyMs _ s₄ (hs₃.later henv).1

theorem satE_getClientData {Q : Hist → Server → Option ClientDataStruct → Prop} {id : Int}
    (hs : Solo s store clientData uuids sequences now)
    (hok : ∀ s', Solo s' store clientData uuids sequences now →
      Q (⟨.getClientData id, clientData.getClientData id⟩ :: h) s' (clientData.getClientData id)) :
    ((loginServer p cfg).alone t allow).SatE Q E h s (getClientData id) := by
  refine satE_call fun x r s₁ s₂ _ hexec henv => ?_
  cases hexec
  rw [hs.2]
  exact hok s₂ (hs.later henv).1

theorem satE_acquire {Q : Hist → Server → Unit → Prop}
    (hs : Solo s store clientData uuids sequences now)
    (hok : ∀ s', Solo s' store clientData uuids sequences now →
      Q (⟨.acquire, some ()⟩ :: h) s' ())
    (hfail : ∀ s', FailsIn allow → Solo s' store clientData uuids sequences now →
      E (⟨.acquire, none⟩ :: h) s' ()) :
    ((loginServer p cfg).alone t allow).SatE Q E h s acquire := by
  refine satE_callOrThrow (c := .acquire) id fun x r s₁ s₂ hallow hexec henv => ?_
  change some (if x.fails then none else some (), s) = some (r, s₁) at hexec
  split_ifs at hexec with hfails
  · cases hexec
    exact thrown (hfail s₂ ⟨x, hallow, hfails⟩ (hs.later henv).1)
  · cases hexec
    exact returned (hok s₂ (hs.later henv).1)

theorem satE_sendResponse {Q : Hist → Server → Unit → Prop} {socket : Option Socket}
    {status : Bytes} {message : Json} (hs : Solo s store clientData uuids sequences now)
    (hok : ∀ s', Solo s' store clientData uuids sequences now →
      Q (⟨.sendResponse socket status message, ()⟩ :: h) s' ()) :
    ((loginServer p cfg).alone t allow).SatE Q E h s (sendResponse socket status message) := by
  refine satE_call fun x r s₁ s₂ _ hexec henv => ?_
  cases hexec
  exact hok s₂ (hs.later henv).1

/-- No call takes an id back. -/
theorem sat_sequences {α : Type} (m : M α) :
    ((loginServer p cfg).alone t allow).Sat
      (fun _ s' _ => s.sequences.characters ≤ s'.sequences.characters) h s m.run := by
  refine Machine.sat_invariant (fun c x r s₀ s₁ s₂ hle _ hexec henv => ?_) le_rfl
  have hcall : s₀.sequences.characters ≤ s₁.sequences.characters := by
    cases Server.exec_cases hexec with
    | statement _ hrun => exact characters_of_run hrun
    | _ => exact le_rfl
  rw [((solo_of_store rfl).later henv).1.sequences_eq]
  exact hle.trans hcall

/-- The transaction is open or has ended, and nothing of it is committed. -/
def SoloWithin (t : Nat) (s : Server) (db : Database) (clientData : ClientData)
    (uuids : List Bytes) (now : Time) : Prop :=
  ∃ store sequences, Solo s store clientData uuids sequences now ∧ store.close t = .idle db

theorem Solo.within_idle (hs : Solo s (.idle db) clientData uuids sequences now) :
    SoloWithin t s db clientData uuids now :=
  ⟨_, sequences, hs, Transactions.Store.close_idle db t⟩

theorem Solo.within_alone
    (hs : Solo s (.alone writes db t start log) clientData uuids sequences now) :
    SoloWithin t s db clientData uuids now :=
  ⟨_, sequences, hs, Transactions.Store.close_alone writes db t start log⟩

theorem satE_unwindWork {Q : Hist → Server → Unit → Prop}
    (hs : SoloWithin t s db clientData uuids now)
    (hok : ∀ seq' s', Solo s' (.idle db) clientData uuids seq' now →
      Q (⟨.unwindWork, ()⟩ :: h) s' ()) :
    ((loginServer p cfg).alone t allow).SatE Q E h s unwindWork := by
  obtain ⟨store, sequences, hs, hclose⟩ := hs
  refine satE_call fun x r s₁ s₂ _ hexec henv => ?_
  cases hexec
  rw [hs.1, hclose] at henv
  exact hok sequences s₂ ((hs.withStore _).later henv).1

/-- The scope of a transaction: when an exception leaves it, everything that it has not
committed is gone. -/
theorem satE_withWork {α : Type} {body : M α} {Q : Hist → Server → α → Prop}
    (hs : Solo s (.idle db) clientData uuids sequences now)
    (hbegin : ∀ s', FailsIn allow → Solo s' (.idle db) clientData uuids sequences s.clock →
      E (⟨.beginWork, none⟩ :: h) s' ())
    (hbody : ∀ s', Solo s' (.alone writes db t s.clock []) clientData uuids sequences s.clock →
      ((loginServer p cfg).alone t allow).SatE Q
        (fun h' s' _ => ∃ db' clientData' uuids', SoloWithin t s' db' clientData' uuids' s.clock ∧
          ∀ seq' s'', Solo s'' (.idle db') clientData' uuids' seq' s.clock →
            E (⟨.unwindWork, ()⟩ :: h') s'' ())
        (⟨.beginWork, some ()⟩ :: h) s' body) :
    ((loginServer p cfg).alone t allow).SatE Q E h s (withWork body) := by
  refine Machine.satE_bind.mpr (satE_beginWork hs (fun s' hs' => ?_) hbegin)
  refine Machine.satE_tryCatch.mpr ((hbody s' hs').mono (fun _ _ _ hq => hq) ?_)
  rintro h' s₁ e ⟨db', clientData', uuids', hwithin, hE⟩
  refine Machine.satE_bind.mpr (satE_unwindWork hwithin fun seq' s₂ hs₂ => ?_)
  exact Machine.satE_throw.mpr (hE seq' s₂ hs₂)

end Rules

/-! ## Runs in which nothing fails -/

section Going

variable {α : Type} {a : α} {s' : Server} {h' : Hist}

theorem runs_beginWork {k : Option Unit → Program Cmd Cmd.Reply α} (hallow : allow {})
    (hstore : s.store = .idle db)
    (hk : ((loginServer p cfg).alone t allow).Runs (⟨.beginWork, some ()⟩ :: h)
      (s.withStore (.alone writes db t s.clock [])) (k (some ())) h' s' a) :
    ((loginServer p cfg).alone t allow).Runs h s (.op .beginWork k) h' s' a := by
  refine ⟨{}, some (), _, _, hallow, ?_, .refl, hk⟩
  change s.exec p.toSqlFunctions t .beginWork {} = _
  simp only [Server.exec, hstore, Transactions.Store.begin_idle writes]
  rfl

theorem runs_execPrepared {q : Query} {rows : q.Rows} {ws : List Write}
    {k : Option q.Rows → Program Cmd Cmd.Reply α} (hallow : allow {})
    (hstore : s.store = .alone writes db t start log)
    (hrun : q.run (log.foldl applyWrite db) start s.sequences p.toSqlFunctions =
      some (rows, ws, s.sequences))
    (hk : ((loginServer p cfg).alone t allow).Runs (⟨.execPrepared q, some rows⟩ :: h)
      (s.withStore (.alone writes db t start (log ++ ws))) (k (some rows)) h' s' a) :
    ((loginServer p cfg).alone t allow).Runs h s (.op (.execPrepared q) k) h' s' a := by
  refine ⟨{}, some rows, _, _, hallow, ?_, .refl, hk⟩
  change s.execStatement p.toSqlFunctions t q {} = _
  simp only [Server.execStatement, hstore, Transactions.Store.active_alone,
    Transactions.Store.view_alone]
  have hrun : q.run (log.foldl writes.apply db) start s.sequences p.toSqlFunctions =
      some (rows, ws, s.sequences) := hrun
  rw [hrun]
  simp only [Transactions.Store.blocked_alone, Transactions.Store.record_alone]
  rfl

/-- A statement that the data do not allow. -/
theorem runs_execPrepared_none {q : Query} {k : Option q.Rows → Program Cmd Cmd.Reply α}
    (hallow : allow {}) (hstore : s.store = .alone writes db t start log)
    (hrun : q.run (log.foldl applyWrite db) start s.sequences p.toSqlFunctions = none)
    (hk : ((loginServer p cfg).alone t allow).Runs (⟨.execPrepared q, none⟩ :: h) s (k none) h'
      s' a) :
    ((loginServer p cfg).alone t allow).Runs h s (.op (.execPrepared q) k) h' s' a := by
  refine ⟨{}, none, _, _, hallow, ?_, .refl, hk⟩
  change s.execStatement p.toSqlFunctions t q {} = _
  simp only [Server.execStatement, hstore, Transactions.Store.active_alone,
    Transactions.Store.view_alone]
  have hrun : q.run (log.foldl writes.apply db) start s.sequences p.toSqlFunctions = none := hrun
  rw [hrun]
  rfl

theorem runs_commitWork {k : Option Unit → Program Cmd Cmd.Reply α} (hallow : allow {})
    (hstore : s.store = .alone writes db t start log)
    (hk : ((loginServer p cfg).alone t allow).Runs (⟨.commitWork, some ()⟩ :: h)
      (s.withStore (.idle (log.foldl applyWrite db))) (k (some ())) h' s' a) :
    ((loginServer p cfg).alone t allow).Runs h s (.op .commitWork k) h' s' a := by
  refine ⟨{}, some (), _, _, hallow, ?_, .refl, hk⟩
  change s.exec p.toSqlFunctions t .commitWork {} = _
  simp only [Server.exec, hstore, Transactions.Store.active_alone,
    Transactions.Store.commit_alone]
  rfl

theorem runs_unwindWork {k : Unit → Program Cmd Cmd.Reply α} (hallow : allow {})
    (hstore : s.store = .alone writes db t start log)
    (hk : ((loginServer p cfg).alone t allow).Runs (⟨.unwindWork, ()⟩ :: h)
      (s.withStore (.idle db)) (k ()) h' s' a) :
    ((loginServer p cfg).alone t allow).Runs h s (.op .unwindWork k) h' s' a := by
  refine ⟨{}, (), _, _, hallow, ?_, .refl, hk⟩
  change s.exec p.toSqlFunctions t .unwindWork {} = _
  simp only [Server.exec, hstore, Transactions.Store.close_alone]

end Going

section Can

/-- A call after which nothing else happens. -/
theorem canE_call {c : Cmd} {x : Choice} {r : c.Reply} {s₁ : Server}
    {Q : Hist → Server → c.Reply → Prop} (hallow : allow x)
    (hexec : s.exec p.toSqlFunctions t c x = some (r, s₁)) (hQ : Q (⟨c, r⟩ :: h) s₁ r) :
    ((loginServer p cfg).alone t allow).CanE Q h s (call c) :=
  Machine.canE_call hallow hexec .refl hQ

theorem canE_callOrThrow {α : Type} {c : Cmd} {x : Choice} {r : c.Reply} {s₁ s₂ : Server} {a : α}
    (f : c.Reply → Option α) {Q : Hist → Server → α → Prop} (hallow : allow x)
    (hexec : s.exec p.toSqlFunctions t c x = some (r, s₁))
    (henv : ((loginServer p cfg).alone t allow).env s₁ s₂) (hr : f r = some a)
    (hQ : Q (⟨c, r⟩ :: h) s₂ a) :
    ((loginServer p cfg).alone t allow).CanE Q h s (call c >>= fun r => orThrow (f r)) := by
  refine Machine.canE_bind (Machine.canE_call hallow hexec henv ?_)
  rw [hr]
  exact Machine.canE_pure hQ

theorem canE_beginWork {Q : Hist → Server → Unit → Prop} (hallow : allow {})
    (hstore : s.store = .idle db)
    (hQ : Q (⟨.beginWork, some ()⟩ :: h) (s.withStore (.alone writes db t s.clock [])) ()) :
    ((loginServer p cfg).alone t allow).CanE Q h s beginWork := by
  refine canE_callOrThrow (c := .beginWork) id hallow (r := some ()) ?_ .refl rfl hQ
  simp only [Server.exec, hstore, Transactions.Store.begin_idle writes]
  rfl

theorem canE_execPrepared {q : Query} {Q : Hist → Server → q.Rows → Prop} {rows : q.Rows}
    {ws : List Write} {seq' : Sequences} (hallow : allow {})
    (hstore : s.store = .alone writes db t start log)
    (hrun : q.run (log.foldl applyWrite db) start s.sequences p.toSqlFunctions =
      some (rows, ws, seq'))
    (hQ : Q (⟨.execPrepared q, some rows⟩ :: h)
      { s with store := .alone writes db t start (log ++ ws), sequences := seq' } rows) :
    ((loginServer p cfg).alone t allow).CanE Q h s (execPrepared q) := by
  refine canE_callOrThrow (c := .execPrepared q) id hallow (r := some rows) ?_ .refl rfl hQ
  have hrun : q.run (log.foldl writes.apply db) start s.sequences p.toSqlFunctions =
      some (rows, ws, seq') := hrun
  simp only [Server.exec, Server.execStatement, hstore, Transactions.Store.active_alone,
    Transactions.Store.view_alone, hrun, Transactions.Store.blocked_alone,
    Transactions.Store.record_alone]
  rfl

/-- After a commit any amount of time may pass. -/
theorem canE_commitWork {Q : Hist → Server → Unit → Prop} {later : Time} (hallow : allow {})
    (hstore : s.store = .alone writes db t start log) (hlater : s.clock ≤ later)
    (hQ : Q (⟨.commitWork, some ()⟩ :: h)
      { s with store := .idle (log.foldl applyWrite db), clock := later } ()) :
    ((loginServer p cfg).alone t allow).CanE Q h s commitWork := by
  have hexec : s.exec p.toSqlFunctions t .commitWork {} =
      some (some (), s.withStore (.idle (log.foldl applyWrite db))) := by
    simp only [Server.exec, hstore, Transactions.Store.active_alone,
      Transactions.Store.commit_alone]
    rfl
  refine canE_callOrThrow (c := .commitWork) id hallow hexec
    (.tail .refl ⟨.tick later s.steadyMs, ?_⟩) rfl hQ
  exact if_pos ⟨hlater, le_rfl⟩

theorem canE_abortWork {Q : Hist → Server → Unit → Prop} (hallow : allow {})
    (hstore : s.store = .alone writes db t start log)
    (hQ : Q (⟨.abortWork, ()⟩ :: h) (s.withStore (.idle db)) ()) :
    ((loginServer p cfg).alone t allow).CanE Q h s abortWork := by
  refine canE_call (x := {}) (c := .abortWork) hallow rfl ?_
  rw [hstore, Transactions.Store.close_alone]
  exact hQ

theorem canE_randomUuid {Q : Hist → Server → Bytes → Prop} {token : Bytes}
    (hallow : allow { uuid := token }) (htoken : IsUuidText token) (hfresh : token ∉ s.uuids)
    (hQ : Q (⟨.randomUuid, token⟩ :: h) { s with uuids := token :: s.uuids } token) :
    ((loginServer p cfg).alone t allow).CanE Q h s randomUuid := by
  refine canE_call (c := .randomUuid) hallow (if_neg ?_) hQ
  exact not_or.mpr ⟨not_not.mpr htoken, hfresh⟩

theorem canE_storeClientData {Q : Hist → Server → Unit → Prop} {d : ClientDataStruct}
    (hallow : allow {})
    (hQ : Q (⟨.storeClientData d, ()⟩ :: h)
      (s.withClientData (s.clientData.storeClientData d s.steadyMs)) ()) :
    ((loginServer p cfg).alone t allow).CanE Q h s (storeClientData d) :=
  canE_call (x := {}) (c := .storeClientData d) hallow rfl hQ

theorem canE_withWork {α : Type} {body : M α} {Q : Hist → Server → α → Prop} (hallow : allow {})
    (hstore : s.store = .idle db)
    (hbody : ((loginServer p cfg).alone t allow).CanE Q (⟨.beginWork, some ()⟩ :: h)
      (s.withStore (.alone writes db t s.clock [])) body) :
    ((loginServer p cfg).alone t allow).CanE Q h s (withWork body) :=
  Machine.canE_bind (canE_beginWork hallow hstore (Machine.canE_tryCatch hbody))

end Can

/-! ## Runs exist -/

/-- No other thread has a transaction open. -/
def Undisturbed (t : Nat) (store : Database.Store) : Prop :=
  ∃ db, store = .idle db ∨ ∃ start log, store = .alone writes db t start log

/-- While no other transaction is open, every call but for a token is answered. -/
theorem exec_answers {f : SqlFunctions} {c : Cmd} (hc : c ≠ .randomUuid)
    (hs : Undisturbed t s.store) :
    ∃ r s₁, s.exec f t c {} = some (r, s₁) ∧ Undisturbed t s₁.store := by
  have hclosed : Undisturbed t (s.store.close t) := by
    obtain ⟨db, hidle | ⟨start, log, halone⟩⟩ := hs
    · exact ⟨db, Or.inl (hidle ▸ Transactions.Store.close_idle db t)⟩
    · exact ⟨db, Or.inl (halone ▸ Transactions.Store.close_alone writes db t start log)⟩
  cases c with
  | randomUuid => exact absurd rfl hc
  | abortWork => exact ⟨_, _, rfl, hclosed⟩
  | unwindWork => exact ⟨_, _, rfl, hclosed⟩
  | beginWork =>
    obtain ⟨db, hidle | ⟨start, log, halone⟩⟩ := hs
    · refine ⟨some (), s.withStore (.alone writes db t s.clock []), ?_, db, Or.inr ⟨_, _, rfl⟩⟩
      simp only [Server.exec, hidle, Transactions.Store.begin_idle writes]
      rfl
    · refine ⟨none, s, ?_, db, Or.inr ⟨start, log, halone⟩⟩
      simp only [Server.exec, halone, Transactions.Store.active_alone]
      rfl
  | commitWork =>
    obtain ⟨db, hidle | ⟨start, log, halone⟩⟩ := hs
    · refine ⟨none, s, ?_, db, Or.inl hidle⟩
      simp only [Server.exec, hidle]
      rfl
    · refine ⟨some (), s.withStore (.idle (log.foldl applyWrite db)), ?_, _, Or.inl rfl⟩
      simp only [Server.exec, halone, Transactions.Store.active_alone,
        Transactions.Store.commit_alone]
      rfl
  | execPrepared q =>
    obtain ⟨db, hidle | ⟨start, log, halone⟩⟩ := hs
    · refine ⟨none, s, ?_, db, Or.inl hidle⟩
      simp only [Server.exec, Server.execStatement, hidle]
      rfl
    · cases hrun : q.run (log.foldl writes.apply db) start s.sequences f with
      | none =>
        refine ⟨none, s, ?_, db, Or.inr ⟨start, log, halone⟩⟩
        simp only [Server.exec, Server.execStatement, halone, Transactions.Store.active_alone,
          Transactions.Store.view_alone, hrun]
        rfl
      | some outcome =>
        obtain ⟨rows, ws, seq'⟩ := outcome
        refine ⟨some rows,
          { s with store := .alone writes db t start (log ++ ws), sequences := seq' }, ?_, db,
          Or.inr ⟨_, _, rfl⟩⟩
        simp only [Server.exec, Server.execStatement, halone, Transactions.Store.active_alone,
          Transactions.Store.view_alone, hrun, Transactions.Store.blocked_alone,
          Transactions.Store.record_alone]
        rfl
  | _ => exact ⟨_, _, rfl, hs⟩

/-- A program that generates no token comes to its end. -/
theorem exists_runs_of_makes {α : Type} {m : M α} {throws : Prop} (hallow : allow {})
    (hm : Makes (fun c : Cmd => c ≠ .randomUuid) throws m) (hstore : s.store = .idle db) :
    ∃ h' s' r, ((loginServer p cfg).alone t allow).Runs h s m.run h' s' r := by
  refine Machine.exists_runs (I := fun s => Undisturbed t s.store) (fun c s hc hs => ?_) (hm h)
    ⟨db, Or.inl hstore⟩
  obtain ⟨r, s₁, hexec, hs₁⟩ := exec_answers hc hs
  exact ⟨{}, r, s₁, s₁, hallow, hexec, .refl, hs₁⟩

/-! ## Runs that compute -/

/-- The run in which every call after the choices `xs` goes well. -/
theorem exists_run_alone (p : Platform) (cfg : ServerConfig) (t : Nat) (allow : Choice → Prop)
    {α : Type} (s : Server) (m : M α) (xs : List Choice) (hallow : ∀ x, x = {} ∨ x ∈ xs → allow x)
    {P : Hist → Server → Except StdException α → Prop} [∀ h s r, Decidable (P h s r)]
    (h : (((loginServer p cfg).alone t allow).play {} xs [] s m.run).any
      (fun x => decide (P x.1 x.2.1 x.2.2)) = true) :
    ∃ h' s' r, ((loginServer p cfg).alone t allow).Runs [] s m.run h' s' r ∧ P h' s' r := by
  obtain ⟨⟨h', s', r⟩, hplay, hP⟩ := (Option.any_eq_true _ _).mp h
  have hrefl : ∀ s, ((loginServer p cfg).alone t allow).env s s := fun s => .refl
  exact ⟨h', s', r, Machine.runs_of_play hrefl hallow hplay, of_decide_eq_true hP⟩

end LoginServer
