import LoginServer.Server.Schedule

/-!
# Sessions under concurrency

The handlers use the session store in two or three separate calls: they validate a
session and then touch, read or remove its entry, or store an entry and then read it
back. The calls are keyed by the account alone, so what lies between them is a window:
a login of the same account that stores its entry there replaces the one that was meant.

`Watched` is the invariant of all these windows. A thread is in one while `uses` holds
of its next call, and `NoStoreDuring uses` are the steps that do not store into it.
-/

namespace LoginServer

open Database Interleaving

variable {p : Platform} {cfg : ServerConfig} {c c' : ServerState} {l : ServerLabel}

/-! ## Windows -/

/-- No entry is stored for an account that the next call of another thread uses. -/
def NoStoreDuring (uses : Hist → Cmd → Int → Prop) (c : ServerState) : ServerLabel → Prop
  | .run t _ => ∀ d, c.pending t = some (.storeClientData d) → ∀ t', t' ≠ t →
    ∀ cmd, c.pending t' = some cmd → ¬ uses (c.hist t') cmd d.clientId
  | _ => True

theorem NoStoreDuring.of_serial {uses : Hist → Cmd → Int → Prop} (h : System.Serial c l) :
    NoStoreDuring uses c l := by
  cases l with
  | run t x =>
    intro d _ t' ht' cmd hpending
    rw [h t' ht'] at hpending
    cases hpending
  | spawn _ _ => trivial
  | outside _ => trivial

/-- The entry that a next call uses, if there is one, has a hash in `P`. -/
def Watched (uses : Hist → Cmd → Int → Prop) (P : Job → Hist → Bytes → Prop)
    (c : ServerState) : Prop :=
  ∀ t job hist cmd k, c.threads t = some ⟨job, hist, .op cmd k⟩ → ∀ a, uses hist cmd a →
    ∀ entry, c.shared.clientData.find a = some entry → P job hist entry.hash

/-- Where the entry of an account comes from after a call: it was stored by the call, or
was there before, with the same hash. -/
theorem exec_find {f : SqlFunctions} {t : Nat} {cmd : Cmd} {x : Choice} {s s' : Server}
    {r : cmd.Reply} (h : s.exec f t cmd x = some (r, s')) {a : Int} {entry : ClientDataStruct}
    (hf : s'.clientData.find a = some entry) :
    (∃ d, cmd = .storeClientData d ∧ d.clientId = a ∧ entry.hash = d.hash) ∨
    ∃ entry', s.clientData.find a = some entry' ∧ entry'.hash = entry.hash := by
  rw [Server.exec_clientData h] at hf
  cases hop : s.sessionOp cmd with
  | none =>
    simp only [hop] at hf
    exact Or.inr ⟨entry, hf, rfl⟩
  | some op =>
    simp only [hop] at hf
    rcases SessionOp.find_apply s.clientData op a with ⟨d, nowMs, rfl, hid, hstored⟩ | ⟨-, hrest⟩
    · rw [hstored] at hf
      cases hf
      refine Or.inl ⟨d, ?_, hid, rfl⟩
      cases cmd <;> simp only [Server.sessionOp] at hop <;> cases hop
      rfl
    · rcases hrest with ⟨-, hnone⟩ | ⟨-, hnone, hsome⟩
      · rw [hnone] at hf
        cases hf
      · cases hold : s.clientData.find a with
        | none =>
          rw [hnone hold] at hf
          cases hf
        | some old =>
          obtain ⟨entry', hentry', hident, -⟩ := hsome old hold
          rw [hentry'] at hf
          cases hf
          exact Or.inr ⟨old, rfl, (congrArg (fun i => i.2.1) hident).symm⟩

/-- A step keeps the windows, if the calling thread enters its next one properly. -/
theorem Watched.step {uses : Hist → Cmd → Int → Prop} {P : Job → Hist → Bytes → Prop}
    (hI : Watched uses P c) (hob : System.AllObedient mayCall jobPost c)
    (hmeets : NoStoreDuring uses c l) (hstep : (loginServer p cfg).Step c l c')
    (hown : ∀ t x job hist cmd k r s next, c.threads t = some ⟨job, hist, .op cmd k⟩ →
      c.shared.exec p.toSqlFunctions t cmd x = some (r, s) →
      System.Lawful (mayCall job) (⟨cmd, r⟩ :: hist) → mayCall job (⟨cmd, r⟩ :: hist) next →
      ∀ a, uses (⟨cmd, r⟩ :: hist) next a → ∀ entry, s.clientData.find a = some entry →
      P job (⟨cmd, r⟩ :: hist) entry.hash)
    (hstart : ∀ job next, mayCall job [] next → ∀ a, uses [] next a → ∀ hash, P job [] hash) :
    Watched uses P c' := by
  have hob' := hob.step (program_obeys p cfg) hstep
  intro t' job' hist' cmd' k' hthread' a huses entry hentry
  have hnext : mayCall job' hist' cmd' := (hob' t' _ hthread').allowed
  have hlawful := (hob' t' _ hthread').lawful
  cases hstep with
  | @run t x job hist cmd k r s hthread hexec =>
    by_cases ht : t' = t
    · subst ht
      rw [Config.threads_set_self] at hthread'
      obtain ⟨rfl, rfl, hprog⟩ := Thread.mk.inj (Option.some.inj hthread')
      exact hown t' x job hist cmd k r s cmd' hthread hexec hlawful hnext a huses entry hentry
    · rw [Config.threads_set_of_ne c ht] at hthread'
      rcases exec_find hexec hentry with ⟨d, rfl, rfl, -⟩ | ⟨entry', hentry', hhash⟩
      · have hhist : c.hist t' = hist' := Config.hist_of_threads hthread'
        rw [← hhist] at huses
        exact absurd huses (hmeets d (Config.pending_eq_some.mpr ⟨job, hist, k, hthread⟩) t' ht cmd'
          (Config.pending_eq_some.mpr ⟨job', hist', k', hthread'⟩))
      · rw [← hhash]
        exact hI t' job' hist' cmd' k' hthread' a huses entry' hentry'
  | @spawn t start job s hfree hs =>
    by_cases ht : t' = t
    · subst ht
      rw [Config.threads_set_self] at hthread'
      obtain ⟨rfl, rfl, hprog⟩ := Thread.mk.inj (Option.some.inj hthread')
      exact hstart job cmd' hnext a huses entry.hash
    · rw [Config.threads_set_of_ne c ht] at hthread'
      rw [Config.shared_set, (start_sameData hs).clientData] at hentry
      exact hI t' job' hist' cmd' k' hthread' a huses entry hentry
  | @outside o s ho =>
    rw [(outside_sameData ho).clientData] at hentry
    exact hI t' job' hist' cmd' k' hthread' a huses entry hentry

/-! ## The token in an answer -/

/-- The calls that lead a thread to read the entry of an account. -/
def readsEntry (h : Hist) : Cmd → Int → Prop
  | .nowMs, a => ∃ hash h', h = ⟨.validateSession a hash, true⟩ :: h'
  | .touchSession id _, a => id = a
  | .getClientData id, a => id = a
  | _, _ => False

/-- The tokens that a thread's own request or login is about. -/
def Entitled (job : Job) (h : Hist) (hash : Bytes) : Prop :=
  (∃ data, job.request = some data ∧ hash = data.hash) ∨ ⟨.randomUuid, hash⟩ ∈ h

theorem Entitled.mono {job : Job} {h h' : Hist} {hash : Bytes} (he : Entitled job h hash)
    (hh : h <:+ h') : Entitled job h' hash :=
  he.imp_right fun hmem => hh.subset hmem

/-- The token that a login stores is the one it has generated. -/
theorem stored_token_generated {job : Job} {d : ClientDataStruct} {h : Hist}
    (hl : System.Lawful (mayCall job) (⟨.storeClientData d, ()⟩ :: h)) :
    ⟨.randomUuid, d.hash⟩ ∈ h := by
  obtain ⟨⟨clientVersion, h', rfl⟩, -, ⟨-, h'', rfl, hgen⟩, -⟩ := hl
  obtain ⟨h₃, rfl | rfl⟩ := hgen
  · simp
  · simp

/-- Every entry that a thread has read had a token it is entitled to at that moment. -/
def ReadsEntitled (c : ServerState) : Prop :=
  ∀ t th, c.threads t = some th → ∀ h₂ id entry h₁,
    th.hist = h₂ ++ ⟨.getClientData id, some entry⟩ :: h₁ → Entitled th.job h₁ entry.hash

theorem watched_readsEntry (hI : Watched readsEntry Entitled c)
    (hob : System.AllObedient mayCall jobPost c) (hmeets : NoStoreDuring readsEntry c l)
    (hstep : (loginServer p cfg).Step c l c') : Watched readsEntry Entitled c' := by
  refine hI.step hob hmeets hstep ?_ ?_
  · intro t x job hist cmd k r s next hthread hexec hlawful hnext a huses entry hentry
    cases next with
    | nowMs =>
      obtain ⟨hash, h', heq⟩ := huses
      obtain ⟨he, -⟩ := List.cons.inj heq
      cases he
      obtain ⟨hvalid, rfl⟩ := Prod.mk.inj (Option.some.inj hexec)
      obtain ⟨-, -, entry', hentry', hhash⟩ := ClientData.validateSession_iff.mp hvalid
      rw [hentry] at hentry'
      cases hentry'
      obtain ⟨data, hrequest, -, rfl⟩ : mayCall job hist (.validateSession a hash) := hlawful.1
      exact Or.inl ⟨data, hrequest, hhash⟩
    | touchSession id now =>
      obtain rfl : id = a := huses
      obtain ⟨-, data, h', hrequest, rfl, heq⟩ := hnext
      obtain ⟨he, rfl⟩ := List.cons.inj heq
      cases he
      obtain rfl : s = c.shared := (Prod.mk.inj (Option.some.inj hexec)).2.symm
      exact (hI t job _ _ k hthread _ ⟨_, _, rfl⟩ entry hentry).mono (List.suffix_cons _ _)
    | getClientData id =>
      obtain rfl : id = a := huses
      rcases hnext with ⟨now, r', h', heq⟩ | ⟨d, h', heq, rfl⟩
      · obtain ⟨he, -⟩ := List.cons.inj heq
        cases he
        rcases exec_find hexec hentry with ⟨d, hd, -⟩ | ⟨entry', hentry', hhash⟩
        · cases hd
        · rw [← hhash]
          exact (hI t job hist _ k hthread id rfl entry' hentry').mono (List.suffix_cons _ _)
      · obtain ⟨he, -⟩ := List.cons.inj heq
        cases he
        have hhash : entry.hash = d.hash := by
          cases hexec
          rw [Server.withClientData, ClientData.find_storeClientData, if_pos rfl] at hentry
          cases hentry
          rfl
        rw [hhash]
        exact Or.inr (List.mem_cons_of_mem _ (stored_token_generated hlawful))
    | _ => exact huses.elim
  · intro job next hnext a huses hash
    cases next with
    | nowMs =>
      obtain ⟨hash', h', heq⟩ := huses
      cases heq
    | touchSession id now =>
      obtain ⟨-, data, h', -, -, heq⟩ := hnext
      cases heq
    | getClientData id =>
      rcases hnext with ⟨now, r', h', heq⟩ | ⟨d, h', heq, -⟩
      · cases heq
      · cases heq
    | _ => exact huses.elim

theorem ReadsEntitled.step (hI : ReadsEntitled c) (hw : Watched readsEntry Entitled c)
    (hstep : (loginServer p cfg).Step c l c') : ReadsEntitled c' := by
  cases hstep with
  | @run t x job hist cmd k r s hthread hexec =>
    refine Config.forall_threads_set ?_ fun t' th' _ => hI t' th'
    intro h₂ id entry h₁ heq
    cases h₂ with
    | nil =>
      obtain ⟨he, rfl⟩ := List.cons.inj heq
      cases he
      have hget : c.shared.clientData.getClientData id = some entry :=
        congrArg Prod.fst (Option.some.inj hexec)
      have hfind : c.shared.clientData.find id = some entry := by
        unfold ClientData.getClientData at hget
        split_ifs at hget
        exact hget
      exact hw t job hist _ k hthread id rfl entry hfind
    | cons e h₂ =>
      obtain ⟨-, heq⟩ := List.cons.inj heq
      exact hI t _ hthread h₂ id entry h₁ heq
  | spawn hfree hstart =>
    refine Config.forall_threads_set ?_ fun t' th' _ => hI t' th'
    intro h₂ id entry h₁ heq
    cases h₂ <;> cases heq
  | outside h => exact hI

/-- The token in a success answer is none, that of the request, or one that the same
task has generated. -/
def DisclosesOwnTokens (c : ServerState) : Prop :=
  ∀ t th, c.threads t = some th → ∀ h₂ socket message h₁,
    th.hist = h₂ ++ ⟨.sendResponse socket (str "success") message, ()⟩ :: h₁ →
    ∀ v, headerHash message = some v → ∃ hash, v = .string hash ∧
      (hash = [] ∨ (∃ data, th.job.request = some data ∧ hash = data.hash) ∨
        ⟨.randomUuid, hash⟩ ∈ h₁)

/-- As long as no login stores its entry while another task is about to read that of the
same account, tokens go only to the connection that obtained or presented them. -/
theorem discloses_own_tokens {s₀ : Server}
    (h : (loginServer p cfg).Reach (NoStoreDuring readsEntry) s₀.boot c) :
    DisclosesOwnTokens c := by
  have hinv : Watched readsEntry Entitled c ∧ ReadsEntitled c := by
    refine h.invariant (I := fun c => Watched readsEntry Entitled c ∧ ReadsEntitled c) ?_ ?_
    · exact ⟨fun t job hist cmd k ht => (nomatch ht), fun t th ht => (nomatch ht)⟩
    · intro c l c' hreach hI hmeets hstep
      have hob := Server.reach_obedient hreach
      exact ⟨watched_readsEntry hI.1 hob hmeets hstep, hI.2.step hI.1 hstep⟩
  intro t th ht h₂ socket message h₁ hsent v hv
  have hlawful := (Server.reach_obedient h t th ht).lawful
  rw [hsent] at hlawful
  obtain ⟨hash, rfl, hdisclosable⟩ := hlawful.may_of_append rfl v hv
  refine ⟨hash, rfl, ?_⟩
  rcases hdisclosable with hnil | hrequest | hgenerated | ⟨id, entry, hmem, rfl⟩
  · exact Or.inl hnil
  · exact Or.inr (Or.inl hrequest)
  · exact Or.inr (Or.inr hgenerated)
  · obtain ⟨h₃, h₄, rfl⟩ := List.append_of_mem hmem
    have hread := hinv.2 t th ht
      (h₂ ++ ⟨.sendResponse socket (str "success") message, ()⟩ :: h₃) id entry h₄ (by simp [hsent])
    exact Or.inr (hread.mono ((List.suffix_cons _ _).trans (List.suffix_append _ _)))

/-! ## The entry that a disconnect removes -/

def removesEntry (_ : Hist) : Cmd → Int → Prop
  | .removeClientData id, a => id = a
  | _, _ => False

/-- The hash is that of the request, if the request names a session. -/
def NamedBy (job : Job) (_ : Hist) (hash : Bytes) : Prop :=
  ∀ data, job.request = some data → data.clientId ≠ 0 → data.hash ≠ [] → hash = data.hash

theorem watched_removesEntry (hI : Watched removesEntry NamedBy c)
    (hob : System.AllObedient mayCall jobPost c) (hmeets : NoStoreDuring removesEntry c l)
    (hstep : (loginServer p cfg).Step c l c') : Watched removesEntry NamedBy c' := by
  refine hI.step hob hmeets hstep ?_ ?_
  · intro t x job hist cmd k r s next hthread hexec hlawful hnext a huses entry hentry data hdata
      hid hhash
    cases next with
    | removeClientData id =>
      obtain rfl : id = a := huses
      obtain ⟨-, data', hrequest, rfl, hvalidated⟩ := hnext
      rw [hdata] at hrequest
      cases hrequest
      obtain ⟨h', heq⟩ := hvalidated hid hhash
      obtain ⟨he, -⟩ := List.cons.inj heq
      cases he
      obtain ⟨hvalid, rfl⟩ := Prod.mk.inj (Option.some.inj hexec)
      obtain ⟨-, -, entry', hentry', hhash'⟩ := ClientData.validateSession_iff.mp hvalid
      rw [hentry] at hentry'
      cases hentry'
      exact hhash'
    | _ => exact huses.elim
  · intro job next hnext a huses hash data hdata hid hhash
    cases next with
    | removeClientData id =>
      obtain ⟨-, data', hrequest, rfl, hvalidated⟩ := hnext
      rw [hdata] at hrequest
      cases hrequest
      obtain ⟨h', heq⟩ := hvalidated hid hhash
      cases heq
    | _ => exact huses.elim

/-- A call after which an account has no entry any more is a removal or a sweep. -/
theorem exec_evicts {f : SqlFunctions} {t : Nat} {cmd : Cmd} {x : Choice} {s s' : Server}
    {r : cmd.Reply} (h : s.exec f t cmd x = some (r, s')) {a : Int} {entry : ClientDataStruct}
    (hf : s.clientData.find a = some entry) (hnone : s'.clientData.find a = none) :
    cmd = .removeClientData a ∨ ∃ nowMs ttlMs, cmd = .sweepExpiredSessions nowMs ttlMs := by
  rw [Server.exec_clientData h] at hnone
  cases hop : s.sessionOp cmd with
  | none =>
    simp only [hop, hf] at hnone
    cases hnone
  | some op =>
    simp only [hop] at hnone
    rcases SessionOp.find_apply s.clientData op a with ⟨d, nowMs, rfl, -, hstored⟩ | ⟨hstore, hrest⟩
    · rw [hstored] at hnone
      cases hnone
    · rcases hrest with ⟨hends, -⟩ | ⟨-, -, hsome⟩
      · cases cmd <;> simp only [Server.sessionOp] at hop <;> cases hop
        · exact absurd hends (hstore _ _ rfl)
        · exact hends.elim
        · obtain rfl := hends
          exact Or.inl rfl
        · exact Or.inr ⟨_, _, rfl⟩
      · obtain ⟨entry', hentry', -⟩ := hsome entry hf
        rw [hentry'] at hnone
        cases hnone

/-- An entry that disappears in this step is swept, or removed by a disconnect of its
account; if the request names a session, that is the hash of the entry. -/
def EvictsNamed (c : ServerState) (l : ServerLabel) (c' : ServerState) : Prop :=
  ∀ a entry, c.shared.clientData.find a = some entry → c'.shared.clientData.find a = none →
    ∃ t x th, l = .run t x ∧ c.threads t = some th ∧
      (th.job = .cleanup ∨
        th.job.type = some .DISCONNECT_CLIENT ∧ ∃ data, th.job.request = some data ∧
          data.clientId = a ∧ (data.clientId ≠ 0 → data.hash ≠ [] → entry.hash = data.hash))

/-- As long as no login stores its entry while a disconnect is about to remove that of
the same account, a disconnect evicts only the session that it names. -/
theorem disconnect_evicts_named {s₀ : Server}
    (h : (loginServer p cfg).Reach (NoStoreDuring removesEntry) s₀.boot c)
    (hstep : (loginServer p cfg).Step c l c') : EvictsNamed c l c' := by
  have hwatched : Watched removesEntry NamedBy c :=
    h.invariant (fun t job hist cmd k ht => (nomatch ht)) fun c l c' hreach hI hmeets hstep =>
      watched_removesEntry hI (Server.reach_obedient hreach) hmeets hstep
  intro a entry hentry hnone
  rcases step_cases hstep with ⟨t, x, job, cmd, r, rfl, hcall⟩ | ⟨-, hsame⟩
  · obtain ⟨k, hthread⟩ := hcall.thread
    have hmay := hcall.may (Server.reach_obedient h)
    refine ⟨t, x, _, rfl, hthread, ?_⟩
    rcases exec_evicts hcall.exec hentry hnone with rfl | ⟨nowMs, ttlMs, rfl⟩
    · obtain ⟨htype, data, hrequest, rfl, -⟩ := hmay
      refine Or.inr ⟨htype, data, hrequest, rfl, fun hid hhash => ?_⟩
      exact hwatched t job _ _ k hthread _ rfl entry hentry data hrequest hid hhash
    · exact Or.inl hmay
  · rw [hsame.clientData, hentry] at hnone
    cases hnone

/-! ## Two logins of one account -/

/-- The token in the success answer that thread `t` has just sent. -/
def sentToken (c : ServerState) (t : Nat) : Option Bytes :=
  match c.threads t with
  | some ⟨_, ⟨.sendResponse _ status message, _⟩ :: _, _⟩ =>
    if status = str "success" then (headerHash message).bind Json.string? else none
  | _ => none

theorem sentToken_eq_some {t : Nat} {token : Bytes} (h : sentToken c t = some token) :
    ∃ th socket message h₁, c.threads t = some th ∧
      th.hist = ⟨.sendResponse socket (str "success") message, ()⟩ :: h₁ ∧
      headerHash message = some (.string token) := by
  unfold sentToken at h
  split at h
  · rename_i job socket status message r h₁ prog hthread
    split_ifs at h with hstatus
    subst hstatus
    obtain ⟨v, hv, hstring⟩ := Option.bind_eq_some_iff.mp h
    refine ⟨_, socket, message, h₁, hthread, rfl, ?_⟩
    cases v with
    | string s =>
      cases hstring
      exact hv
    | _ => cases hstring
  · cases h

def generatedTokens (h : Hist) : List Bytes :=
  h.filterMap fun
    | ⟨.randomUuid, token⟩ => some token
    | _ => none

theorem mem_generatedTokens {token : Bytes} {h : Hist} (hmem : ⟨.randomUuid, token⟩ ∈ h) :
    token ∈ generatedTokens h :=
  List.mem_filterMap.mpr ⟨_, hmem, rfl⟩

/-- Thread `t` has answered with a token that is neither its request's nor its own. -/
def leaks (t : Nat) (c : ServerState) : Bool :=
  match sentToken c t, c.threads t with
  | some token, some th =>
    !token.isEmpty && !(generatedTokens th.hist).contains token &&
      th.job.request.all fun data => data.hash ≠ token
  | _, _ => false

theorem not_disclosesOwnTokens_of_leaks {t : Nat} (h : leaks t c = true) :
    ¬ DisclosesOwnTokens c := by
  unfold leaks at h
  split at h
  · rename_i token th htoken hthread
    obtain ⟨th', socket, message, h₁, hthread', hhist, hhash⟩ := sentToken_eq_some htoken
    rw [hthread] at hthread'
    cases hthread'
    simp only [Bool.and_eq_true, Bool.not_eq_true', List.isEmpty_eq_false_iff] at h
    obtain ⟨⟨hne, hfresh⟩, hrequest⟩ := h
    intro hown
    obtain ⟨hash, heq, hcases⟩ := hown t th hthread [] socket message h₁ hhist _ hhash
    cases heq
    rcases hcases with hnil | ⟨data, hdata, rfl⟩ | hgenerated
    · exact hne hnil
    · rw [hdata] at hrequest
      simp at hrequest
    · have hmem : token ∈ generatedTokens th.hist :=
        mem_generatedTokens (by rw [hhist]; exact List.mem_cons_of_mem _ hgenerated)
      rw [← List.contains_iff_mem, hfresh] at hmem
      cases hmem
  · cases h

namespace Sample

/-- `disconnectClient` of account 1 with the first token. -/
def disconnectText : Bytes :=
  messageText ("\"eventType\":\"disconnectClient\",\"clientId\":1," ++
    "\"hash\":\"11111111-1111-4111-8111-111111111111\"") ""

def disconnectJson : Json :=
  messageJson [(str "eventType", .string (str "disconnectClient")), (str "clientId", .number 1),
    (str "hash", .string tokenA)] []

def platform : Platform :=
  .ofTables [(loginText, loginJson), (disconnectText, disconnectJson)] digests

/-- One account, without a session. -/
def server : Server := .over { users := [anna] }

end Sample

open Sample Schedule

theorem discloses_own_tokens_login : ∃ c,
    (loginServer platform config).Reach (NoStoreDuring readsEntry) server.boot c ∧
    sentToken c 0 = some tokenA ∧ DisclosesOwnTokens c := by
  obtain ⟨c, hreach, hsent⟩ := exists_reach_serial platform config server
    (P := fun c => sentToken c 0 = some tokenA) 1
    (fun _ _ (_ : true = true) hserial _ _ => NoStoreDuring.of_serial hserial)
    ([frame 1 loginText, .spawn 0 .dispatch] ++ login 0 tokenA ++ calls 0 2)
    (by decide) (by decide +kernel)
  exact ⟨c, hreach, hsent, discloses_own_tokens hreach⟩

/-- Two clients log in to one account. The entry of the second is stored between the
store and the read of the first, whose answer then carries the second token. -/
theorem concurrent_login_token_leaks : ∃ c,
    (loginServer platform config).Reach (fun _ _ => True) server.boot c ∧
    ¬ DisclosesOwnTokens c := by
  obtain ⟨c, hreach, hleaks⟩ := exists_reach platform config server (P := fun c => leaks 0 c = true)
    ([frame 1 loginText, frame 2 loginText, .spawn 0 .dispatch, .spawn 1 .dispatch] ++
      login 0 tokenA ++ login 1 tokenB ++ calls 0 2) (by decide +kernel)
  exact ⟨c, hreach, not_disclosesOwnTokens_of_leaks hleaks⟩

/-- Thread `t` is about to remove an entry whose hash is as `hash` says. -/
def removes (t : Nat) (hash : ClientDataStruct → Bytes → Bool) (c : ServerState) : Bool :=
  match c.threads t with
  | some ⟨.event event, _, .op (.removeClientData id) _⟩ =>
    match Job.request (.event event), c.shared.clientData.find id with
    | some data, some entry =>
      data.clientId ≠ 0 && !data.hash.isEmpty && hash data entry.hash
    | _, _ => false
  | _ => false

theorem not_evictsNamed_of_removes {t : Nat}
    (h : removes t (fun data hash => data.hash ≠ hash) c = true) :
    ∃ c', (loginServer p cfg).Step c (.run t {}) c' ∧ ¬ EvictsNamed c (.run t {}) c' := by
  unfold removes at h
  split at h
  · rename_i event hist id k hthread
    split at h
    · rename_i data entry hdata hentry
      simp only [ne_eq, Bool.and_eq_true, decide_eq_true_eq, Bool.not_eq_true',
        List.isEmpty_eq_false_iff] at h
      obtain ⟨⟨hid, hhash⟩, hother⟩ := h
      refine ⟨_, .run hthread rfl, fun hnamed => ?_⟩
      obtain ⟨t', x, th, heq, hth, hcases⟩ := hnamed id entry hentry (by
        rw [Config.shared_set, Server.withClientData, ClientData.find_removeClientData, if_pos rfl])
      cases heq
      rw [hthread] at hth
      cases hth
      rcases hcases with hjob | ⟨-, data', hrequest, -, hsame⟩
      · cases hjob
      · rw [hdata] at hrequest
        cases hrequest
        exact hother (hsame hid hhash).symm
    · cases h
  · cases h

theorem disconnect_evicts_named_own : ∃ c c',
    (loginServer platform config).Reach (NoStoreDuring removesEntry) server.boot c ∧
    removes 1 (fun data hash => data.hash = hash) c = true ∧
    (loginServer platform config).Step c (.run 1 {}) c' ∧ EvictsNamed c (.run 1 {}) c' := by
  obtain ⟨c, hreach, hremoves⟩ := exists_reach_serial platform config server
    (P := fun c => removes 1 (fun data hash => data.hash = hash) c = true) 2
    (fun _ _ (_ : true = true) hserial _ _ => NoStoreDuring.of_serial hserial)
    ([frame 1 loginText, frame 1 disconnectText, .spawn 0 .dispatch] ++ login 0 tokenA ++
      calls 0 2 ++ [.spawn 1 .dispatch] ++ calls 1 1) (by decide) (by decide +kernel)
  have hstep : ∃ c', (loginServer platform config).Step c (.run 1 {}) c' := by
    unfold removes at hremoves
    split at hremoves
    · rename_i hthread
      exact ⟨_, .run hthread rfl⟩
    · cases hremoves
  obtain ⟨c', hstep⟩ := hstep
  exact ⟨c, c', hreach, hremoves, hstep, disconnect_evicts_named hreach hstep⟩

/-- A client logs in and disconnects. Between the validation and the removal of the
disconnect another login of the account stores its entry, which is then removed. -/
theorem disconnect_evicts_new_login : ∃ c c',
    (loginServer platform config).Reach (fun _ _ => True) server.boot c ∧
    (loginServer platform config).Step c (.run 1 {}) c' ∧ ¬ EvictsNamed c (.run 1 {}) c' := by
  obtain ⟨c, hreach, hremoves⟩ := exists_reach platform config server
    (P := fun c => removes 1 (fun data hash => data.hash ≠ hash) c = true)
    ([frame 1 loginText, frame 2 disconnectText, frame 3 loginText, .spawn 0 .dispatch,
      .spawn 1 .dispatch, .spawn 2 .dispatch] ++ login 0 tokenA ++ calls 1 1 ++ login 2 tokenB)
    (by decide +kernel)
  obtain ⟨c', hstep, hnot⟩ := not_evictsNamed_of_removes hremoves
  exact ⟨c, c', hreach, hstep, hnot⟩

end LoginServer
