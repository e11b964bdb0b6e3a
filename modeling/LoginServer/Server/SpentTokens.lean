import LoginServer.Server.SessionScripts
import LoginServer.Server.Sessions

/-!
# Tokens that have stopped being valid

A disconnect removes the entry of its account, the sweep drops idle entries, and a later
login replaces the entry of its account. The token that was in the entry then validates no
more, for any account and for good.

The argument is about where the entries come from. Each was stored by a login
(`Server.reach_entriesStored`), no token is stored twice (`not_stored_again`), and the
logins that have stored one token stored it for one account (`account_of_stored`).
-/

namespace LoginServer

open Database Interleaving

variable {p : Platform} {cfg : ServerConfig} {c c' c'' : ServerState} {l : ServerLabel}
  {s₀ : Server} {meets : ServerState → ServerLabel → Prop} {job : Job} {h : Hist} {t t' : Nat}
  {d d' : ClientDataStruct} {id : Int} {hash : Bytes}

/-! ## Where the entries come from -/

/-- Some login has stored an entry with this token for this account. -/
def Stored (hist : Nat → Hist) (id : Int) (hash : Bytes) : Prop :=
  ∃ t d, ⟨.storeClientData d, ()⟩ ∈ hist t ∧ d.clientId = id ∧ d.hash = hash

theorem Stored.update {hist : Nat → Hist} (hstored : Stored hist id hash) (t : Nat)
    (e : Σ c, Cmd.Reply c) : Stored (Function.update hist t (e :: hist t)) id hash := by
  obtain ⟨t', d, hmem, hid, hhash⟩ := hstored
  exact ⟨t', d, (suffix_update hist t t' e).subset hmem, hid, hhash⟩

theorem Stored.reach (hstored : Stored c.hist id hash)
    (h : (loginServer p cfg).Reach meets c c') : Stored c'.hist id hash := by
  refine h.invariant (I := fun c => Stored c.hist id hash) hstored fun c l c' _ hI _ hstep => ?_
  rcases step_cases hstep with ⟨t, x, job, cmd, r, -, hcall⟩ | ⟨hhist, -⟩
  · rw [hcall.hist]
    exact hI.update t _
  · rw [hhist]
    exact hI

/-- Every entry has been stored by a login, for its account and with its token. -/
def EntriesStored (hist : Nat → Hist) (clientData : ClientData) : Prop :=
  ∀ id entry, clientData.find id = some entry → Stored hist id entry.hash

theorem EntriesStored.call {hist : Nat → Hist} {f : SqlFunctions} {cmd : Cmd} {x : Choice}
    {s s' : Server} {r : cmd.Reply} (hI : EntriesStored hist s.clientData)
    (hexec : s.exec f t cmd x = some (r, s')) :
    EntriesStored (Function.update hist t (⟨cmd, r⟩ :: hist t)) s'.clientData := by
  intro id entry hentry
  rcases exec_find hexec hentry with ⟨d, rfl, hid, hhash⟩ | ⟨entry', hentry', hhash⟩
  · refine ⟨t, d, ?_, hid, hhash.symm⟩
    rw [Function.update_self]
    exact List.mem_cons_self
  · rw [← hhash]
    exact (hI id entry' hentry').update t _

theorem Server.reach_entriesStored (h₀ : s₀.Initial)
    (h : (loginServer p cfg).Reach meets s₀.boot c) :
    EntriesStored c.hist c.shared.clientData := by
  refine h.invariant (I := fun c => EntriesStored c.hist c.shared.clientData) ?_
    fun c l c' _ hI _ hstep => ?_
  · intro id entry hentry
    rw [Server.boot, h₀.clientData, ClientData.find_empty] at hentry
    cases hentry
  · rcases step_cases hstep with ⟨t, x, job, cmd, r, -, hcall⟩ | ⟨hhist, hsame⟩
    · rw [hcall.hist]
      exact hI.call hcall.exec
    · rw [hhist, hsame.clientData]
      exact hI

/-! ## A token is stored once -/

theorem exists_lawful (h : (loginServer p cfg).Reach meets s₀.boot c)
    {e : Σ c, Cmd.Reply c} (hmem : e ∈ c.hist t) :
    ∃ job, System.Lawful (mayCall job) (c.hist t) := by
  cases hthread : c.threads t with
  | none =>
    rw [Config.hist, hthread] at hmem
    cases hmem
  | some th =>
    rw [Config.hist_of_threads hthread]
    exact ⟨th.job, (Server.reach_obedient h t th hthread).lawful⟩

/-- A thread creates sessions for one user at most. -/
theorem user_unique (hl : System.Lawful (mayCall job) h) {userId userId' : Int}
    {tokenHash tokenHash' clientVersion clientVersion' : Bytes}
    (hmem : ⟨.execPrepared (.createUserSession userId tokenHash clientVersion), some ()⟩ ∈ h)
    (hmem' : ⟨.execPrepared (.createUserSession userId' tokenHash' clientVersion'), some ()⟩ ∈ h) :
    userId = userId' := by
  induction h with
  | nil => cases hmem
  | cons e h ih =>
    obtain ⟨hmay, hl⟩ := hl
    rcases List.mem_cons.mp hmem with rfl | hold
    · rcases List.mem_cons.mp hmem' with heq | hold'
      · cases heq
        rfl
      · exact absurd hold' (not_mem_of_mayCreate hl hmay _ _ _)
    · rcases List.mem_cons.mp hmem' with rfl | hold'
      · exact absurd hold (not_mem_of_mayCreate hl hmay _ _ _)
      · exact ih hl hold hold'

/-- Who has stored a token has generated it. -/
theorem generated_of_stored (hl : System.Lawful (mayCall job) h)
    (hstored : ⟨.storeClientData d, ()⟩ ∈ h) : ⟨.randomUuid, d.hash⟩ ∈ h :=
  (commits_of_stored hl hstored).generated hl

theorem thread_of_stored (h : (loginServer p cfg).Reach meets s₀.boot c)
    (hstored : ⟨.storeClientData d, ()⟩ ∈ c.hist t)
    (hgenerated : ⟨.randomUuid, d.hash⟩ ∈ c.hist t') : t = t' := by
  obtain ⟨job, hl⟩ := exists_lawful h hstored
  exact (Server.reach_tokenInv h).apart t t' d.hash (generated_of_stored hl hstored) hgenerated

/-- One token belongs to one account. -/
theorem account_of_stored (h : (loginServer p cfg).Reach meets s₀.boot c) {id' : Int}
    (hstored : Stored c.hist id hash) (hstored' : Stored c.hist id' hash) : id = id' := by
  obtain ⟨t, d, hmem, rfl, rfl⟩ := hstored
  obtain ⟨t', d', hmem', rfl, hhash⟩ := hstored'
  obtain ⟨job, hl⟩ := exists_lawful h hmem'
  obtain rfl := thread_of_stored h hmem (hhash ▸ generated_of_stored hl hmem')
  obtain ⟨clientVersion, hcreate⟩ := (commits_of_stored hl hmem).mem_create
  obtain ⟨clientVersion', hcreate'⟩ := (commits_of_stored hl hmem').mem_create
  exact user_unique hl hcreate hcreate'

/-- A login stores a token that none has stored before. -/
theorem not_stored_again (h : (loginServer p cfg).Reach meets s₀.boot c) {x : Choice}
    {r : Cmd.Reply (.storeClientData d)} (hcall : Calls p c t x job (.storeClientData d) r c') :
    ¬ Stored c.hist id d.hash := by
  rintro ⟨t', d', hmem, -, hhash⟩
  have hl := hcall.lawful (Server.reach_obedient h)
  obtain ⟨clientVersion, h₁, hhead⟩ := hcall.may (Server.reach_obedient h)
  have hcreated :
      ⟨.execPrepared (.createUserSession d.clientId d.hash clientVersion), some ()⟩ ∈ c.hist t := by
    rw [hhead]
    simp
  obtain rfl := thread_of_stored h hmem (hhash ▸ generated_of_create hl hcreated)
  -- the session of the earlier entry was created before that of this one
  rw [hhead] at hl hmem
  have hearlier := mem_of_cons (mem_of_cons hmem (by simp)) (by simp)
  obtain ⟨clientVersion', hcreate⟩ := (commits_of_stored hl.2.2 hearlier).mem_create
  exact not_mem_of_mayCreate hl.2.2 hl.2.1 _ _ _ hcreate

/-! ## Spent tokens -/

/-- The token was in an entry, and is in none now. -/
structure Spent (hash : Bytes) (c : ServerState) : Prop where
  stored : ∃ id, Stored c.hist id hash
  absent : ∀ id entry, c.shared.clientData.find id = some entry → entry.hash ≠ hash

theorem Spent.step (hI : Spent hash c) (h : (loginServer p cfg).Reach meets s₀.boot c)
    (hstep : (loginServer p cfg).Step c l c') : Spent hash c' := by
  obtain ⟨id, hstored⟩ := hI.stored
  rcases step_cases hstep with ⟨t, x, job, cmd, r, -, hcall⟩ | ⟨hhist, hsame⟩
  · refine ⟨⟨id, ?_⟩, fun id' entry hentry => ?_⟩
    · rw [hcall.hist]
      exact hstored.update t _
    · rcases exec_find hcall.exec hentry with ⟨d, rfl, -, hhash⟩ | ⟨entry', hentry', hhash⟩
      · rintro rfl
        rw [hhash] at hstored
        exact not_stored_again h hcall hstored
      · rw [← hhash]
        exact hI.absent id' entry' hentry'
  · refine ⟨⟨id, ?_⟩, ?_⟩
    · rw [hhist]
      exact hstored
    · rw [hsame.clientData]
      exact hI.absent

theorem Spent.reach (hI : Spent hash c) (h : (loginServer p cfg).Reach meets s₀.boot c)
    (h' : (loginServer p cfg).Reach meets c c') : Spent hash c' :=
  h'.invariant (I := Spent hash) hI fun _ _ _ hreach hI _ hstep => hI.step (h.trans hreach) hstep

theorem Spent.not_valid (hI : Spent hash c) (id : Int) :
    c.shared.clientData.validateSession id hash = false := by
  rw [← Bool.not_eq_true, ClientData.validateSession_iff]
  rintro ⟨-, -, entry, hentry, hhash⟩
  exact hI.absent id entry hentry hhash

/-- A token that has stopped being valid is never valid again. Once it was valid for an
account and then was not, it is valid for no account in any later state, whichever logins,
disconnects and sweeps follow. -/
theorem spent_tokens_stay_invalid (h₀ : s₀.Initial)
    (h : (loginServer p cfg).Reach meets s₀.boot c)
    (h' : (loginServer p cfg).Reach meets c c') (h'' : (loginServer p cfg).Reach meets c' c'')
    (hvalid : c.shared.clientData.validateSession id hash = true)
    (hinvalid : c'.shared.clientData.validateSession id hash = false) (id' : Int) :
    c''.shared.clientData.validateSession id' hash = false := by
  obtain ⟨hid, hhash, entry, hentry, rfl⟩ := ClientData.validateSession_iff.mp hvalid
  have hstored : Stored c'.hist id entry.hash :=
    (Server.reach_entriesStored h₀ h id entry hentry).reach h'
  have hspent : Spent entry.hash c' := by
    refine ⟨⟨id, hstored⟩, fun id₁ entry₁ hentry₁ hsame => ?_⟩
    have hstored₁ := Server.reach_entriesStored h₀ (h.trans h') id₁ entry₁ hentry₁
    rw [hsame] at hstored₁
    obtain rfl := account_of_stored (h.trans h') hstored hstored₁
    have hvalid' := ClientData.validateSession_iff.mpr ⟨hid, hhash, entry₁, hentry₁, hsame⟩
    rw [hinvalid] at hvalid'
    cases hvalid'
  exact (hspent.reach (h.trans h') h'').not_valid id'

open Sample Schedule

/-- A client logs in, disconnects and logs in again. -/
theorem spent_tokens_stay_invalid_anna : ∃ c c' c'',
    (loginServer platform config).Reach (fun _ _ => True) server.boot c ∧
    (loginServer platform config).Reach (fun _ _ => True) c c' ∧
    (loginServer platform config).Reach (fun _ _ => True) c' c'' ∧
    c.shared.clientData.validateSession 1 tokenA = true ∧
    c'.shared.clientData.validateSession 1 tokenA = false ∧
    c''.shared.clientData.validateSession 1 tokenB = true ∧
    ∀ id, c''.shared.clientData.validateSession id tokenA = false := by
  have hrun : ((loginServer platform config).runLabels (fun _ _ => true) server.boot
      ([frame 1 loginText, .spawn 0 .dispatch] ++ login 0 tokenA ++ calls 0 2)).any (fun c =>
        c.shared.clientData.validateSession 1 tokenA &&
        ((loginServer platform config).runLabels (fun _ _ => true) c
          ([frame 1 disconnectText, .spawn 1 .dispatch] ++ calls 1 2)).any (fun c' =>
            !c'.shared.clientData.validateSession 1 tokenA &&
            ((loginServer platform config).runLabels (fun _ _ => true) c'
              ([frame 2 loginText, .spawn 2 .dispatch] ++ login 2 tokenB)).any (fun c'' =>
                c''.shared.clientData.validateSession 1 tokenB))) = true := by
    decide +kernel
  obtain ⟨c, hc, hrun⟩ := (Option.any_eq_true _ _).mp hrun
  obtain ⟨hvalid, hrun⟩ := Bool.and_eq_true_iff.mp hrun
  obtain ⟨c', hc', hrun⟩ := (Option.any_eq_true _ _).mp hrun
  obtain ⟨hinvalid, hrun⟩ := Bool.and_eq_true_iff.mp hrun
  obtain ⟨c'', hc'', hvalid'⟩ := (Option.any_eq_true _ _).mp hrun
  rw [Bool.not_eq_true'] at hinvalid
  have hreach := (System.reach_of_runLabels hc).mono fun _ _ _ => trivial
  have hreach' := (System.reach_of_runLabels hc').mono fun _ _ _ => trivial
  have hreach'' := (System.reach_of_runLabels hc'').mono fun _ _ _ => trivial
  exact ⟨c, c', c'', hreach, hreach', hreach'', hvalid, hinvalid, hvalid',
    spent_tokens_stay_invalid (Server.over_initial rfl) hreach hreach' hreach'' hvalid hinvalid⟩

end LoginServer
