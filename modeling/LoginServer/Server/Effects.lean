import LoginServer.Server.Obedience
import LoginServer.Transactions.Tables

/-!
# What a step does to the database

`step_cases` splits the steps of the server into the calls of a thread and those that
change neither a history nor the data. `exec_store` says once what a call does to the
transactions, and `Write.From` what a statement may write.

A transaction's log is a matter of what its thread has done since it began: that is
`Ledger`, which every run keeps.
-/

namespace LoginServer

open Database Interleaving

variable {p : Platform} {cfg : ServerConfig} {c c' : ServerState} {l : ServerLabel}

/-! ## The steps of the server -/

/-- What starting a thread and what happens outside leave as it is. -/
structure Server.SameData (s s' : Server) : Prop where
  clientData : s'.clientData = s.clientData
  store : s'.store = s.store
  uuids : s'.uuids = s.uuids
  clock : s.clock ≤ s'.clock

theorem start_sameData {a : Start} {s s' : Server} {job : Job}
    (h : (loginServer p cfg).start a s = some (job, s')) : s.SameData s' := by
  obtain ⟨queue, rfl⟩ := start_cases h
  exact ⟨rfl, rfl, rfl, le_rfl⟩

theorem outside_sameData {o : Outside} {s s' : Server}
    (h : (loginServer p cfg).outside o s = some s') : s.SameData s' := by
  rcases outside_cases h with ⟨queue, rfl⟩ | ⟨clock, steadyMs, hclock, -, rfl⟩
  · exact ⟨rfl, rfl, rfl, le_rfl⟩
  · exact ⟨rfl, rfl, rfl, hclock⟩

/-- Thread `t` makes the call `cmd` and is answered `r`. -/
structure Calls (p : Platform) (c : ServerState) (t : Nat) (x : Choice) (job : Job) (cmd : Cmd)
    (r : cmd.Reply) (c' : ServerState) : Prop where
  thread : ∃ k, c.threads t = some ⟨job, c.hist t, .op cmd k⟩
  exec : c.shared.exec p.toSqlFunctions t cmd x = some (r, c'.shared)
  hist : c'.hist = Function.update c.hist t (⟨cmd, r⟩ :: c.hist t)

theorem step_cases (hstep : (loginServer p cfg).Step c l c') :
    (∃ t x job cmd r, l = .run t x ∧ Calls p c t x job cmd r c') ∨
    (c'.hist = c.hist ∧ c.shared.SameData c'.shared) := by
  cases hstep with
  | @run t x job hist cmd k r s hthread hexec =>
    have hhist : c.hist t = hist := Config.hist_of_threads hthread
    refine Or.inl ⟨t, x, job, cmd, r, rfl, ⟨k, ?_⟩, hexec, ?_⟩
    · rw [hhist]
      exact hthread
    · rw [Config.hist_set, hhist]
  | spawn hfree hstart =>
    exact Or.inr ⟨Config.hist_set_start hfree _ _ _, start_sameData hstart⟩
  | outside h => exact Or.inr ⟨rfl, outside_sameData h⟩

theorem Calls.pending {t : Nat} {x : Choice} {job : Job} {cmd : Cmd} {r : cmd.Reply}
    (h : Calls p c t x job cmd r c') : c.pending t = some cmd := by
  obtain ⟨k, hthread⟩ := h.thread
  exact Config.pending_eq_some.mpr ⟨job, c.hist t, k, hthread⟩

/-- The threads of every run obey the discipline. -/
theorem Server.reach_obedient {meets : ServerState → ServerLabel → Prop} {s₀ : Server}
    (h : (loginServer p cfg).Reach meets s₀.boot c) : System.AllObedient mayCall jobPost c :=
  System.reach_obedient (program_obeys p cfg) (fun _ => rfl) h

theorem Calls.may {t : Nat} {x : Choice} {job : Job} {cmd : Cmd} {r : cmd.Reply}
    (h : Calls p c t x job cmd r c') (hob : System.AllObedient mayCall jobPost c) :
    mayCall job (c.hist t) cmd := by
  obtain ⟨k, hthread⟩ := h.thread
  exact (hob t _ hthread).allowed

theorem Calls.lawful {t : Nat} {x : Choice} {job : Job} {cmd : Cmd} {r : cmd.Reply}
    (h : Calls p c t x job cmd r c') (hob : System.AllObedient mayCall jobPost c) :
    System.Lawful (mayCall job) (c.hist t) := by
  obtain ⟨k, hthread⟩ := h.thread
  exact (hob t _ hthread).lawful

/-- An invariant of the histories and the transactions that every call keeps holds in
every run. -/
theorem Server.reach_callInvariant {meets : ServerState → ServerLabel → Prop} {s₀ : Server}
    {I : (Nat → Hist) → Database.Store → Prop} (hboot : I s₀.boot.hist s₀.store)
    (hcalls : ∀ (c c' : ServerState) (t : Nat) (x : Choice) (job : Job) (cmd : Cmd)
      (r : cmd.Reply), (loginServer p cfg).Reach meets s₀.boot c → I c.hist c.shared.store →
      meets c (.run t x) → Calls p c t x job cmd r c' →
      I (Function.update c.hist t (⟨cmd, r⟩ :: c.hist t)) c'.shared.store)
    (h : (loginServer p cfg).Reach meets s₀.boot c) : I c.hist c.shared.store := by
  refine h.invariant (I := fun c => I c.hist c.shared.store) hboot ?_
  intro c l c' hreach hI hmeets hstep
  rcases step_cases hstep with ⟨t, x, job, cmd, r, rfl, hcall⟩ | ⟨hhist, hsame⟩
  · rw [hcall.hist]
    exact hcalls c c' t x job cmd r hreach hI hmeets hcall
  · rw [hhist, hsame.store]
    exact hI

/-- A call only adds to the histories. -/
theorem suffix_update (hist : Nat → Hist) (t t' : Nat) (e : Σ c, Cmd.Reply c) :
    hist t' <:+ Function.update hist t (e :: hist t) t' := by
  by_cases ht' : t' = t
  · subst ht'
    rw [Function.update_self]
    exact List.suffix_cons e _
  · exact ⟨[], (Function.update_of_ne ht' _ _).symm⟩

theorem mem_update {hist : Nat → Hist} {t t' : Nat} {e e' : Σ c, Cmd.Reply c}
    (hmem : e ∈ Function.update hist t (e' :: hist t) t') : e ∈ hist t' ∨ t' = t ∧ e = e' := by
  by_cases ht' : t' = t
  · subst ht'
    rw [Function.update_self] at hmem
    exact (List.mem_cons.mp hmem).symm.imp_right fun heq => ⟨rfl, heq⟩
  · rw [Function.update_of_ne ht'] at hmem
    exact Or.inl hmem

/-- What no call changes: the queue, the clocks, and but for a generated token the tokens. -/
theorem exec_frame {f : SqlFunctions} {t : Nat} {cmd : Cmd} {x : Choice} {s s' : Server}
    {r : cmd.Reply} (h : s.exec f t cmd x = some (r, s')) :
    s'.eventQueue = s.eventQueue ∧ s'.clock = s.clock ∧ s'.steadyMs = s.steadyMs ∧
      (cmd ≠ .randomUuid → s'.uuids = s.uuids) := by
  cases Server.exec_cases h with
  | randomUuid => exact ⟨rfl, rfl, rfl, fun hne => absurd rfl hne⟩
  | _ => exact ⟨rfl, rfl, rfl, fun _ => rfl⟩

/-! ## The transactions -/

/-- How a call of thread `t` changes the transactions. -/
inductive StoreEffect (f : SqlFunctions) (t : Nat) (x : Choice) (s : Server) :
    (cmd : Cmd) → cmd.Reply → Database.Store → Prop where
  | begin (hidle : s.store.active t = none) :
    StoreEffect f t x s .beginWork (some ()) (s.store.begin t s.clock)
  | statement {q : Query} {rows : q.Rows} {ws : List Write} {sequences : Sequences}
    {txn : Transactions.Txn Write} (hactive : s.store.active t = some txn)
    (hrun : q.run (s.store.view writes t) txn.start s.sequences f = some (rows, ws, sequences)) :
    StoreEffect f t x s (.execPrepared q) (some rows) (s.store.record writes t ws)
  | commit {txn : Transactions.Txn Write} (hactive : s.store.active t = some txn)
    (hok : x.fails = false) :
    StoreEffect f t x s .commitWork (some ()) (s.store.commit writes t)
  | rollback : StoreEffect f t x s .commitWork none (s.store.close t)
  | abort : StoreEffect f t x s .abortWork () (s.store.close t)
  | unwind : StoreEffect f t x s .unwindWork () (s.store.close t)
  | idle (hidle : s.store.active t = none) : StoreEffect f t x s .commitWork none s.store
  | keep {cmd : Cmd} {r : cmd.Reply} (hkeeps : ∀ h, current (⟨cmd, r⟩ :: h) = ⟨cmd, r⟩ :: current h)
    (hquery : ∀ q (rows : q.Rows), (⟨cmd, r⟩ : Σ c, Cmd.Reply c) ≠ ⟨.execPrepared q, some rows⟩) :
    StoreEffect f t x s cmd r s.store

variable {f : SqlFunctions} {t : Nat} {x : Choice} {s s' : Server}

theorem exec_store {cmd : Cmd} {r : cmd.Reply} (h : s.exec f t cmd x = some (r, s')) :
    StoreEffect f t x s cmd r s'.store := by
  cases Server.exec_cases h with
  | session hop =>
    have hquery : ∀ q (rows : q.Rows),
        (⟨cmd, r⟩ : Σ c, Cmd.Reply c) ≠ ⟨.execPrepared q, some rows⟩ := by
      intro q rows heq
      cases heq
      cases hop
    refine .keep (fun h => ?_) hquery
    cases cmd with
    | storeClientData | touchSession | removeClientData | sweepExpiredSessions => rfl
    | _ => cases hop
  | read hreads =>
    have hquery : ∀ q (rows : q.Rows),
        (⟨cmd, r⟩ : Σ c, Cmd.Reply c) ≠ ⟨.execPrepared q, some rows⟩ := by
      intro q rows heq
      cases heq
      cases hreads
    refine .keep (fun h => ?_) hquery
    cases cmd with
    | getClientData | validateSession | nowMs | getClientsDataMap | acquire | remoteEndpoint
    | sendResponse => rfl
    | _ => cases hreads
  | beginFailed => exact .keep (fun _ => rfl) fun q rows heq => by cases heq
  | begin hidle => exact .begin hidle
  | statementFailed => exact .keep (fun _ => rfl) fun q rows heq => by cases heq
  | statement hactive hrun => exact .statement hactive hrun
  | commitIdle hidle => exact .idle hidle
  | commitFailed => exact .rollback
  | commit hactive hok => exact .commit hactive hok
  | abort => exact .abort
  | unwind => exact .unwind
  | randomUuid => exact .keep (fun _ => rfl) fun q rows heq => by cases heq

/-- Another transaction stays as it is. -/
theorem StoreEffect.active_of_ne {cmd : Cmd} {r : cmd.Reply} {store : Database.Store} {t' : Nat}
    (h : StoreEffect f t x s cmd r store) (hne : t' ≠ t) :
    store.active t' = s.store.active t' := by
  cases h with
  | begin _ => exact Transactions.Store.active_begin_of_ne hne _
  | statement _ _ => exact Transactions.Store.active_record_of_ne writes hne _
  | commit _ _ => exact Transactions.Store.active_close_of_ne hne
  | rollback => exact Transactions.Store.active_close_of_ne hne
  | abort => exact Transactions.Store.active_close_of_ne hne
  | unwind => exact Transactions.Store.active_close_of_ne hne
  | idle _ => rfl
  | keep _ _ => rfl

/-- The committed data changes by a commit only, to what the transaction has seen. -/
theorem StoreEffect.committed {cmd : Cmd} {r : cmd.Reply} {store : Database.Store}
    (h : StoreEffect f t x s cmd r store) :
    store.committed = s.store.committed ∨
    ((⟨cmd, r⟩ : Σ c, Cmd.Reply c) = ⟨.commitWork, some ()⟩ ∧ x.fails = false ∧
      store.committed = s.store.view writes t) := by
  cases h with
  | commit hactive hok => exact Or.inr ⟨rfl, hok, rfl⟩
  | _ => exact Or.inl rfl

/-- A statement that the open transaction has executed after a call was executed before,
or by this call. -/
theorem StoreEffect.executed {cmd : Cmd} {r : cmd.Reply} {store : Database.Store} {h : Hist}
    (heffect : StoreEffect f t x s cmd r store) {q : Query} {rows : q.Rows}
    (hmem : ⟨.execPrepared q, some rows⟩ ∈ current (⟨cmd, r⟩ :: h)) :
    store.committed = s.store.committed ∧
    (⟨.execPrepared q, some rows⟩ ∈ current h ∨
      (⟨cmd, r⟩ : Σ c, Cmd.Reply c) = ⟨.execPrepared q, some rows⟩ ∧
      ∃ now ws seq', q.run (s.store.view writes t) now s.sequences f = some (rows, ws, seq')) := by
  cases heffect with
  | statement hactive hrun =>
    refine ⟨rfl, ?_⟩
    rcases List.mem_cons.mp hmem with heq | hold
    · cases heq
      exact Or.inr ⟨rfl, _, _, _, hrun⟩
    · exact Or.inl hold
  | keep hkeeps hquery =>
    refine ⟨rfl, ?_⟩
    rw [hkeeps] at hmem
    rcases List.mem_cons.mp hmem with heq | hold
    · exact absurd heq.symm (hquery _ _)
    · exact Or.inl hold
  | _ => cases hmem

/-! ## What a statement writes -/

/-- `w.From q`: the statement `q` may make the write `w`. -/
def Database.Write.From : Write → Query → Prop
  | .insertUser row, .registerUser login _ _ _ _ =>
    varchar 50 (upToNul login) = some row.login
  | .setFailedLogins _ _ _, .incrementFailedLogins _ => True
  | .resetFailedLogins _ _ _ _, .resetFailedLogins _ _ _ => True
  | .insertSession row, .createUserSession userId tokenHash _ =>
    row.userId = userId ∧ varchar 255 (upToNul tokenHash) = some row.tokenHash
  | .revokeSession _ _, .revokeUserSessions _ => True
  | .deleteSession _, .cleanupExpiredSessions => True
  | .insertCharacter row, .createCharacter accountId name _ _ _ =>
    row.ownerId = accountId ∧ varchar 20 (upToNul name) = some row.name ∧ row.deletedAt = none
  | .softDelete id ownerId _, .deleteCharacter characterId accountId =>
    id = characterId ∧ ownerId = accountId
  | .insertState _, .initCharacterState _ => True
  | .insertPosition _, .initCharacterPosition _ => True
  | .insertSkill _, .initCharacterDefaultSkills _ _ => True
  | .insertItem _, .initCharacterStarterItems _ _ => True
  | .insertCurrency _, .initCharacterStarterCurrencies _ _ => True
  | .addCurrency _ _ _, .initCharacterStarterCurrencies _ _ => True
  | _, _ => False

theorem forall_mem_of_mapM {α β : Type} {g : α → Option β} {P : β → Prop}
    (hg : ∀ a b, g a = some b → P b) {as : List α} {bs : List β} (h : as.mapM g = some bs) :
    ∀ b ∈ bs, P b := by
  intro b hb
  obtain ⟨a, -, ha⟩ := Transactions.forall₂_exists (Transactions.forall₂_of_mapM h).flip hb
  exact hg a b ha

theorem from_of_run {db : Database} {now : Time} {seq seq' : Sequences} {q : Query}
    {rows : q.Rows} {ws : List Write} (h : q.run db now seq f = some (rows, ws, seq')) :
    ∀ w ∈ ws, w.From q := by
  cases q with
  | incrementFailedLogins login =>
    obtain ⟨ws', hws, heq⟩ := Option.map_eq_some_iff.mp h
    cases heq
    refine forall_mem_of_mapM (fun r w hw => ?_) hws
    obtain ⟨n, -, rfl⟩ := Option.map_eq_some_iff.mp hw
    trivial
  | resetFailedLogins userId ip clientVersion =>
    obtain ⟨ws', hws, heq⟩ := Option.map_eq_some_iff.mp h
    cases heq
    refine forall_mem_of_mapM (fun r w hw => ?_) hws
    obtain ⟨n, -, rfl⟩ := Option.map_eq_some_iff.mp hw
    trivial
  | createUserSession userId tokenHash clientVersion =>
    simp only [Query.run, createUserSession] at h
    split at h
    · rename_i tokenHash' clientVersion' htoken hversion
      split_ifs at h
      · cases h
        simp
      · cases h
        exact List.forall_mem_singleton.mpr ⟨rfl, htoken⟩
    · cases h
  | cleanupExpiredSessions =>
    cases h
    exact List.forall_mem_map.mpr fun r _ => trivial
  | revokeUserSessions userId =>
    cases h
    exact List.forall_mem_map.mpr fun r _ => trivial
  | createCharacter accountId name classSlug raceSlug genderSlug =>
    simp only [Query.run, createCharacter] at h
    split at h
    · cases h
      simp
    · split at h
      · rename_i name' slot hname hslot
        split_ifs at h
        cases h
        intro w hw
        obtain ⟨row, hrow, rfl⟩ := List.mem_map.mp hw
        obtain ⟨x, -, rfl⟩ := List.mem_map.mp hrow
        exact ⟨rfl, hname, rfl⟩
      · cases h
  | initCharacterState characterId =>
    simp only [Query.run, initCharacterState] at h
    split_ifs at h
    · cases h
      simp
    · cases h
      exact List.forall_mem_singleton.mpr trivial
  | initCharacterPosition characterId =>
    simp only [Query.run, initCharacterPosition] at h
    split_ifs at h
    cases h
    exact List.forall_mem_singleton.mpr trivial
  | initCharacterDefaultSkills characterId classId =>
    cases h
    exact List.forall_mem_map.mpr fun r _ => trivial
  | initCharacterStarterItems characterId classId =>
    simp only [Query.run, initCharacterStarterItems] at h
    split at h
    · cases h
    · split_ifs at h
      cases h
      exact List.forall_mem_map.mpr fun r _ => trivial
  | initCharacterStarterCurrencies characterId classId =>
    cases h
    intro w hw
    obtain ⟨r, -, rfl⟩ := List.mem_map.mp hw
    split_ifs
    · trivial
    · trivial
  | deleteCharacter characterId accountId =>
    cases h
    intro w hw
    obtain ⟨r, hr, rfl⟩ := List.mem_map.mp hw
    have hrow := (List.mem_filter.mp hr).2
    simp only [Bool.and_eq_true, decide_eq_true_eq] at hrow
    exact hrow.1
  | registerUser login password email ip clientVersion =>
    simp only [Query.run, registerUser] at h
    split at h
    · rename_i login' _ _ _ hlogin _ _ _
      cases h
      exact List.forall_mem_singleton.mpr hlogin
    · cases h
  | _ =>
    cases h
    simp

/-! ## The ledger -/

/-- Every uncommitted write comes from a statement of the open transaction. -/
def Ledger (hist : Nat → Hist) (store : Database.Store) : Prop :=
  ∀ t, ∀ w ∈ store.log t, ∃ (q : Query) (rows : q.Rows),
    ⟨.execPrepared q, some rows⟩ ∈ current (hist t) ∧ w.From q

theorem Ledger.log_eq_nil {hist : Nat → Hist} {store : Database.Store} {t : Nat}
    (h : Ledger hist store) (hnone : ∀ q (rows : q.Rows),
      ⟨.execPrepared q, some rows⟩ ∈ current (hist t) → ∀ w : Write, ¬ w.From q) :
    store.log t = [] := by
  refine List.eq_nil_iff_forall_not_mem.mpr fun w hw => ?_
  obtain ⟨q, rows, hmem, hfrom⟩ := h t w hw
  exact hnone q rows hmem w hfrom

theorem Ledger.log_of_current_nil {hist : Nat → Hist} {store : Database.Store} {t : Nat}
    (h : Ledger hist store) (hcurrent : current (hist t) = []) : store.log t = [] :=
  h.log_eq_nil fun q rows hmem => by
    rw [hcurrent] at hmem
    cases hmem

theorem StoreEffect.log_of_ne {cmd : Cmd} {r : cmd.Reply} {store : Database.Store} {t' : Nat}
    (h : StoreEffect f t x s cmd r store) (hne : t' ≠ t) : store.log t' = s.store.log t' := by
  rw [Transactions.Store.log, h.active_of_ne hne]
  rfl

/-- The thread's own uncommitted writes after a call. -/
theorem StoreEffect.log_self {cmd : Cmd} {r : cmd.Reply} {store : Database.Store}
    (h : StoreEffect f t x s cmd r store) :
    store.log t = [] ∨
    (store.log t = s.store.log t ∧ ∀ h, current (⟨cmd, r⟩ :: h) = ⟨cmd, r⟩ :: current h) ∨
    ∃ (q : Query) (rows : q.Rows) (ws : List Write) (seq' : Sequences) (now : Time),
      (⟨cmd, r⟩ : Σ c, Cmd.Reply c) = ⟨.execPrepared q, some rows⟩ ∧
      q.run (s.store.view writes t) now s.sequences f = some (rows, ws, seq') ∧
      store.log t = s.store.log t ++ ws := by
  cases h with
  | begin _ => exact Or.inl (Transactions.Store.log_begin_self _)
  | statement hactive hrun =>
    exact Or.inr (Or.inr ⟨_, _, _, _, _, rfl, hrun,
      Transactions.Store.log_record_self writes hactive _⟩)
  | commit _ _ => exact Or.inl (Transactions.Store.log_commit_self writes)
  | rollback => exact Or.inl Transactions.Store.log_close_self
  | abort => exact Or.inl Transactions.Store.log_close_self
  | unwind => exact Or.inl Transactions.Store.log_close_self
  | idle hidle => exact Or.inl (Transactions.Store.log_of_not_active hidle)
  | keep hkeeps _ => exact Or.inr (Or.inl ⟨rfl, hkeeps⟩)

theorem Ledger.call {hist : Nat → Hist} {cmd : Cmd} {r : cmd.Reply} {store : Database.Store}
    (h : Ledger hist s.store) (heffect : StoreEffect f t x s cmd r store) :
    Ledger (Function.update hist t (⟨cmd, r⟩ :: hist t)) store := by
  intro t' w hw
  by_cases ht : t' = t
  · subst ht
    rw [Function.update_self]
    rcases heffect.log_self with hnil | ⟨hsame, hkeeps⟩ | ⟨q, rows, ws, seq', now, heq, hrun, hlog⟩
    · rw [hnil] at hw
      cases hw
    · rw [hsame] at hw
      obtain ⟨q, rows, hmem, hfrom⟩ := h t' w hw
      refine ⟨q, rows, ?_, hfrom⟩
      rw [hkeeps]
      exact List.mem_cons_of_mem _ hmem
    · have hcurrent : current (⟨cmd, r⟩ :: hist t') = ⟨cmd, r⟩ :: current (hist t') := by
        rw [heq]
        rfl
      rw [hcurrent]
      rw [hlog] at hw
      rcases List.mem_append.mp hw with hold | hnew
      · obtain ⟨q', rows', hmem, hfrom⟩ := h t' w hold
        exact ⟨q', rows', List.mem_cons_of_mem _ hmem, hfrom⟩
      · exact ⟨q, rows, by rw [heq]; exact List.mem_cons_self, from_of_run hrun w hnew⟩
  · rw [Function.update_of_ne ht]
    rw [heffect.log_of_ne ht] at hw
    exact h t' w hw

theorem Server.reach_ledger {meets : ServerState → ServerLabel → Prop} {s₀ : Server}
    (h₀ : s₀.Initial) (h : (loginServer p cfg).Reach meets s₀.boot c) :
    Ledger c.hist c.shared.store := by
  refine Server.reach_callInvariant (I := Ledger) ?_ ?_ h
  · intro t w hw
    have hnil : s₀.store.log t = [] := by
      refine Transactions.Store.log_of_not_active ?_
      rw [h₀.store]
      rfl
    rw [hnil] at hw
    cases hw
  · intro c c' t x job cmd r _ hI _ hcall
    exact hI.call (exec_store hcall.exec)

/-! ## The events -/

/-- The events that wait and those that tasks work on are as `processMessage` made them. -/
structure EventsWellFormed (c : ServerState) : Prop where
  queue : ∀ event ∈ c.shared.eventQueue, event.WellFormed
  jobs : ∀ t th, c.threads t = some th → ∀ event, th.job = .event event → event.WellFormed

/-- What holds of the events of every frame holds of all events that wait or are worked
on. -/
theorem Server.reach_events {meets : ServerState → ServerLabel → Prop} {s₀ : Server}
    {P : Event → Prop}
    (hP : ∀ ctx message, ∀ event ∈ (processMessage p cfg.limits ctx message).events, P event)
    (h₀ : s₀.Initial) (h : (loginServer p cfg).Reach meets s₀.boot c) :
    (∀ event ∈ c.shared.eventQueue, P event) ∧
      ∀ t th, c.threads t = some th → ∀ event, th.job = .event event → P event := by
  induction h with
  | refl =>
    refine ⟨fun event hmem => ?_, fun t th ht => nomatch ht⟩
    change event ∈ s₀.eventQueue at hmem
    rw [h₀.eventQueue] at hmem
    cases hmem
  | step _ _ hs ih =>
    obtain ⟨hqueue, hjobs⟩ := ih
    cases hs with
    | @run t x job hist cmd k r s hthread hexec =>
      have hjob : ∀ event, job = .event event → P event := hjobs t _ hthread
      refine ⟨?_, Config.forall_threads_set hjob fun t' th' _ => hjobs t' th'⟩
      rw [Config.shared_set, (exec_frame hexec).1]
      exact hqueue
    | @spawn t a job s hfree hstart =>
      cases a with
      | cleanup =>
        cases hstart
        exact ⟨hqueue, Config.forall_threads_set (fun event heq => nomatch heq)
          fun t' th' _ => hjobs t' th'⟩
      | dispatch =>
        simp only [loginServer] at hstart
        split at hstart
        · cases hstart
        · rename_i event rest heq
          cases hstart
          rw [heq, List.forall_mem_cons] at hqueue
          refine ⟨hqueue.2, Config.forall_threads_set (fun event' hevent => ?_)
            fun t' th' _ => hjobs t' th'⟩
          cases hevent
          exact hqueue.1
    | @outside o s ho =>
      refine ⟨fun event hmem => ?_, hjobs⟩
      cases o with
      | frame ctx message =>
        cases ho
        rcases List.mem_append.mp hmem with hold | hnew
        · exact hqueue event hold
        · exact hP ctx message event hnew
      | tick clock steadyMs =>
        simp only [loginServer] at ho
        split_ifs at ho
        cases ho
        exact hqueue event hmem

theorem Server.reach_eventsWellFormed {meets : ServerState → ServerLabel → Prop} {s₀ : Server}
    (h₀ : s₀.Initial) (h : (loginServer p cfg).Reach meets s₀.boot c) : EventsWellFormed c := by
  obtain ⟨hqueue, hjobs⟩ := Server.reach_events (processMessage_wellFormed p cfg.limits) h₀ h
  exact ⟨hqueue, hjobs⟩

end LoginServer
