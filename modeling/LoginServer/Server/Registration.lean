import LoginServer.Server.Schedule

/-!
# Logins under concurrency

A registration checks that its login is free in one transaction and inserts the account
in another; nothing in the schema forbids a second row with an equal login. From the
check to the end of the registration the task has a claim on the login (`loginClaim`).
The claim is worth something as long as no registration of an equal login commits
during it, which is the condition `RegistrationsApart`.

`RegistrationInv` carries the proof: a claimed login is free in the committed data, a
transaction inserts nothing but the login that it claims, and every account that is
there was there before or belongs to a task that has committed it.
-/

namespace LoginServer

open Database Interleaving

variable {p : Platform} {cfg : ServerConfig} {c c' : ServerState} {l : ServerLabel}

/-! ## The logins of a database -/

def Database.logins (db : Database) : List Bytes := db.users.map (·.login)

/-- The logins that some writes insert. -/
def insertedLogins (ws : List Write) : List Bytes :=
  ws.filterMap fun
    | .insertUser row => some row.login
    | _ => none

theorem logins_updateUser (db : Database) (id : Int) {g : UserRow → UserRow}
    (hg : ∀ row, (g row).login = row.login) : (db.updateUser id g).logins = db.logins := by
  simp only [updateUser, Database.logins, updateWhere, List.map_map]
  refine List.map_congr_left fun row _ => ?_
  simp only [Function.comp_apply]
  split
  · exact hg row
  · rfl

theorem logins_applyWrite (db : Database) (w : Write) :
    (applyWrite db w).logins = db.logins ++ insertedLogins [w] := by
  cases w with
  | insertUser row => simp [applyWrite, Database.logins, insertedLogins]
  | setFailedLogins id attempts lockedUntil =>
    refine (logins_updateUser db id ?_).trans (List.append_nil _).symm
    exact fun _ => rfl
  | resetFailedLogins id now ip clientVersion =>
    refine (logins_updateUser db id ?_).trans (List.append_nil _).symm
    exact fun _ => rfl
  | _ => simp [applyWrite, Database.logins, insertedLogins]

theorem logins_foldl (ws : List Write) (db : Database) :
    (ws.foldl applyWrite db).logins = db.logins ++ insertedLogins ws := by
  induction ws generalizing db with
  | nil => simp [insertedLogins]
  | cons w ws ih =>
    rw [List.foldl_cons, ih, logins_applyWrite, List.append_assoc, insertedLogins, insertedLogins,
      insertedLogins, ← List.filterMap_append]
    rfl

theorem mem_insertedLogins {ws : List Write} {login : Bytes} :
    login ∈ insertedLogins ws ↔ ∃ row : UserRow, .insertUser row ∈ ws ∧ row.login = login := by
  unfold insertedLogins
  rw [List.mem_filterMap]
  constructor
  · rintro ⟨w, hw, heq⟩
    cases w with
    | insertUser row => exact ⟨row, hw, Option.some.inj heq⟩
    | _ => cases heq
  · rintro ⟨row, hw, rfl⟩
    exact ⟨_, hw, rfl⟩

/-- The login is free, or taken, without regard to case. -/
def loginTaken (f : SqlFunctions) (db : Database) (login : Bytes) : Prop :=
  f.lower login ∈ db.logins.map f.lower

theorem checkLoginAvailable_eq_nil {f : SqlFunctions} {db : Database} {login : Bytes} :
    db.checkLoginAvailable f login = [] ↔ ¬ loginTaken f db login := by
  simp [checkLoginAvailable, loginTaken, Database.logins, List.filter_eq_nil_iff]

/-- `register_user` inserts the login as it is, if the column holds it. -/
theorem insertedLogins_of_registerUser {f : SqlFunctions} {db : Database} {now : Time}
    {seq seq' : Sequences} {login password email ip clientVersion : Bytes} {rows : List Int}
    {ws : List Write} (hverbatim : Verbatim 20 login)
    (h : (Query.registerUser login password email ip clientVersion).run db now seq f =
      some (rows, ws, seq')) : insertedLogins ws = [login] := by
  simp only [Query.run, registerUser, hverbatim.upToNul,
    hverbatim.varchar (m := 50) (by decide)] at h
  split at h
  · rename_i heq _ _ _
    cases heq
    cases h
    rfl
  · cases h

/-! ## Claims -/

/-- A claim is as old as the last check, or as the previous claim. -/
theorem loginClaim_cons {e : Σ c, Cmd.Reply c} {h : Hist} {login : Bytes}
    (hc : loginClaim (e :: h) = some login) :
    e = ⟨.execPrepared (.checkLoginAvailable login), some []⟩ ∨ loginClaim h = some login := by
  unfold loginClaim at hc
  split at hc
  · rename_i heq
    obtain ⟨rfl, -⟩ := List.cons.inj heq
    cases hc
    exact Or.inl rfl
  · cases hc
  · cases hc
  · cases hc
  · rename_i heq
    obtain ⟨-, rfl⟩ := List.cons.inj heq
    exact Or.inr hc
  · cases hc

/-- Within a transaction that has executed a statement, only a check changes the claim. -/
theorem loginClaim_keep {cmd : Cmd} {r : cmd.Reply} {h : Hist}
    (hkeeps : current (⟨cmd, r⟩ :: h) = ⟨cmd, r⟩ :: current h) (hopen : current h ≠ [])
    (hcheck : ∀ login, (⟨cmd, r⟩ : Σ c, Cmd.Reply c) ≠
      ⟨.execPrepared (.checkLoginAvailable login), some []⟩) :
    loginClaim (⟨cmd, r⟩ :: h) = loginClaim h := by
  rw [loginClaim.eq_5]
  · exact fun login heq => hcheck login heq
  · intro r' heq
    cases heq
    cases hkeeps
  · intro r' heq
    cases heq
    cases hkeeps
  · rintro r' h' heq rfl
    exact hopen rfl

/-! ## The invariant -/

/-- The task has committed the registration of the login. -/
def Added (login : Bytes) (h : Hist) : Prop :=
  ∃ h₂ h₁, h = h₂ ++ ⟨.commitWork, some ()⟩ :: h₁ ∧ Registers login h₁

theorem added_cons {e : Σ c, Cmd.Reply c} {h : Hist} {login : Bytes} (ha : Added login (e :: h)) :
    (e = ⟨.commitWork, some ()⟩ ∧ Registers login h) ∨ Added login h := by
  obtain ⟨h₂, h₁, heq, hreg⟩ := ha
  cases h₂ with
  | nil =>
    obtain ⟨rfl, rfl⟩ := List.cons.inj heq
    exact Or.inl ⟨rfl, hreg⟩
  | cons e' h₂ =>
    obtain ⟨-, rfl⟩ := List.cons.inj heq
    exact Or.inr ⟨h₂, h₁, rfl, hreg⟩

theorem Added.of_cons {cmd : Cmd} {r : cmd.Reply} {h : Hist} {login : Bytes}
    (ha : Added login (⟨cmd, r⟩ :: h)) (hne : cmd ≠ .commitWork) : Added login h := by
  rcases added_cons ha with ⟨heq, -⟩ | ha
  · cases heq
    exact absurd rfl hne
  · exact ha

theorem not_added_nil (login : Bytes) : ¬ Added login [] := by
  rintro ⟨h₂, h₁, heq, -⟩
  cases h₂ <;> cases heq

theorem Added.cons {h : Hist} {login : Bytes} (ha : Added login h) (e : Σ c, Cmd.Reply c) :
    Added login (e :: h) := by
  obtain ⟨h₂, h₁, rfl, hreg⟩ := ha
  exact ⟨e :: h₂, h₁, rfl, hreg⟩

structure RegistrationInv (f : SqlFunctions) (db₀ : Database) (hist : Nat → Hist)
    (store : Database.Store) : Prop where
  inserting : ∀ t login, Registers login (hist t) →
    insertedLogins (store.log t) = [login] ∧ loginClaim (hist t) = some login
  claimed : ∀ t login, loginClaim (hist t) = some login → ¬ loginTaken f store.committed login
  unique : (store.committed.logins.map f.lower).Nodup
  added : ∀ t login, Added login (hist t) → loginTaken f store.committed login
  apart : ∀ t t' login login', t ≠ t' → Added login (hist t) → Added login' (hist t') →
    f.lower login ≠ f.lower login'
  origin : ∀ login ∈ store.committed.logins, login ∈ db₀.logins ∨ ∃ t, Added login (hist t)
  refused : ∀ t login rows,
    ⟨.execPrepared (.checkLoginAvailable login), some (() :: rows)⟩ ∈ hist t →
    loginTaken f store.committed login

/-- A registration commits only while no other one has a claim on an equal login. -/
def AloneWithLogin (f : SqlFunctions) (hist : Nat → Hist) (t : Nat) : Prop :=
  ∀ login, Registers login (hist t) → ∀ t', t' ≠ t → ∀ login',
    loginClaim (hist t') = some login' → f.lower login' ≠ f.lower login

section Call

variable {f : SqlFunctions} {db₀ : Database} {hist : Nat → Hist} {s : Server}
  {store : Database.Store} {t : Nat} {x : Choice} {job : Job} {cmd : Cmd} {r : cmd.Reply}

/-- A check is the first statement of its transaction. -/
theorem current_of_mayCheck {h : Hist} {login : Bytes}
    (hmay : mayCall job h (.execPrepared (.checkLoginAvailable login))) : current h = [] := by
  rcases hmay.1 with ⟨-, h', rfl⟩ | ⟨q, -, hfollows⟩
  · rfl
  · cases hfollows

theorem run_checkLoginAvailable {db : Database} {now : Time} {seq seq' : Sequences} {h : Hist}
    {login : Bytes} {rows : List Unit} {ws : List Write}
    (hmay : mayCall job h (.execPrepared (.checkLoginAvailable login)))
    (hrun : (Query.checkLoginAvailable login).run db now seq f = some (rows, ws, seq')) :
    db.checkLoginAvailable f login = rows := by
  have hverbatim : Verbatim 20 login := hmay.2
  rw [← hverbatim.upToNul]
  exact congrArg Prod.fst (Option.some.inj hrun)

/-- A registration is the first statement of its transaction, which directly follows
that of its check. -/
theorem claim_of_mayRegister {h : Hist} {login password email ip clientVersion : Bytes}
    (hmay : mayCall job h (.execPrepared (.registerUser login password email ip clientVersion))) :
    Verbatim 20 login ∧ current h = [] ∧ loginClaim h = some login := by
  obtain ⟨-, -, hverbatim, h', rfl⟩ := hmay
  exact ⟨hverbatim, rfl, rfl⟩

/-- What the committed logins become: a commit adds the login that its transaction has
registered. -/
theorem RegistrationInv.committed_logins (hI : RegistrationInv f db₀ hist s.store)
    (hledger : Ledger hist s.store) (heffect : StoreEffect f t x s cmd r store) :
    store.committed.logins = s.store.committed.logins ∨
    ((⟨cmd, r⟩ : Σ c, Cmd.Reply c) = ⟨.commitWork, some ()⟩ ∧ x.fails = false ∧
      ∃ login, Registers login (hist t) ∧
        store.committed.logins = s.store.committed.logins ++ [login]) := by
  rcases heffect.committed with hsame | ⟨hcommit, hok, hview⟩
  · rw [hsame]
    exact Or.inl rfl
  · rw [hview, Transactions.Store.view]
    have hlogins := logins_foldl (s.store.log t) s.store.committed
    cases hinserted : insertedLogins (s.store.log t) with
    | nil =>
      rw [hinserted, List.append_nil] at hlogins
      exact Or.inl hlogins
    | cons login rest =>
      have hmem : login ∈ insertedLogins (s.store.log t) := by simp [hinserted]
      obtain ⟨row, hrow, rfl⟩ := mem_insertedLogins.mp hmem
      obtain ⟨q, rows, hq, hfrom⟩ := hledger t _ hrow
      cases q with
      | registerUser login password email ip clientVersion =>
        have hreg : Registers login (hist t) := ⟨password, email, ip, clientVersion, rows, hq⟩
        rw [(hI.inserting t _ hreg).1] at hlogins
        exact Or.inr ⟨hcommit, hok, login, hreg, hlogins⟩
      | _ => exact hfrom.elim

/-- A commit adds what its transaction has registered. -/
theorem RegistrationInv.committed_of_registers (hI : RegistrationInv f db₀ hist s.store)
    (heffect : StoreEffect f t x s .commitWork (some ()) store) {login : Bytes}
    (hreg : Registers login (hist t)) :
    store.committed.logins = s.store.committed.logins ++ [login] := by
  cases heffect with
  | commit hactive hok =>
    rw [Transactions.Store.committed_commit, Transactions.Store.view, ← (hI.inserting t _ hreg).1]
    exact logins_foldl _ _
  | keep hkeeps hquery => cases hkeeps []

theorem taken_append {db db' : Database} {login : Bytes} {added : List Bytes}
    (h : db'.logins = db.logins ++ added) (ht : loginTaken f db login) :
    loginTaken f db' login := by
  rw [loginTaken, h, List.map_append]
  exact List.mem_append_left _ ht

/-- What has been taken stays taken. -/
theorem RegistrationInv.taken_call (hI : RegistrationInv f db₀ hist s.store)
    (hledger : Ledger hist s.store) (heffect : StoreEffect f t x s cmd r store) {login : Bytes}
    (ht : loginTaken f s.store.committed login) : loginTaken f store.committed login := by
  rcases hI.committed_logins hledger heffect with hsame | ⟨-, -, login', -, hadd⟩
  · rw [loginTaken, hsame]
    exact ht
  · exact taken_append hadd ht

theorem RegistrationInv.inserting_call (hI : RegistrationInv f db₀ hist s.store)
    (hledger : Ledger hist s.store) (heffect : StoreEffect f t x s cmd r store)
    (hmay : mayCall job (hist t) cmd) (login : Bytes)
    (hreg : Registers login (⟨cmd, r⟩ :: hist t)) :
    insertedLogins (store.log t) = [login] ∧ loginClaim (⟨cmd, r⟩ :: hist t) = some login := by
  obtain ⟨password, email, ip, clientVersion, ids, hmem⟩ := hreg
  cases heffect with
  | @statement q rows ws sequences txn hactive hrun =>
    rw [Transactions.Store.log_record_self writes hactive]
    rcases List.mem_cons.mp hmem with heq | hmem
    · cases heq
      obtain ⟨hverbatim, hcurrent, hclaim⟩ := claim_of_mayRegister hmay
      refine ⟨?_, hclaim⟩
      rw [hledger.log_of_current_nil hcurrent, List.nil_append]
      exact insertedLogins_of_registerUser hverbatim hrun
    · obtain ⟨hinserted, hclaim⟩ := hI.inserting t login ⟨_, _, _, _, _, hmem⟩
      have hopen : current (hist t) ≠ [] := List.ne_nil_of_mem hmem
      have hnew : insertedLogins ws = [] := by
        refine List.eq_nil_iff_forall_not_mem.mpr fun login' hlogin' => ?_
        obtain ⟨row, hrow, -⟩ := mem_insertedLogins.mp hlogin'
        have hfrom := from_of_run hrun _ hrow
        cases q with
        | registerUser =>
          exact hopen (claim_of_mayRegister hmay).2.1
        | _ => exact hfrom.elim
      refine ⟨?_, ?_⟩
      · rw [insertedLogins, List.filterMap_append]
        change insertedLogins (s.store.log t) ++ insertedLogins ws = [login]
        rw [hinserted, hnew, List.append_nil]
      · refine (loginClaim_keep rfl hopen fun login' heq => ?_).trans hclaim
        cases heq
        exact hopen (current_of_mayCheck hmay)
  | keep hkeeps hquery =>
    rw [hkeeps] at hmem
    rcases List.mem_cons.mp hmem with heq | hmem
    · exact absurd heq.symm (hquery _ _)
    · obtain ⟨hinserted, hclaim⟩ := hI.inserting t login ⟨_, _, _, _, _, hmem⟩
      refine ⟨hinserted, ?_⟩
      have hopen : current (hist t) ≠ [] := List.ne_nil_of_mem hmem
      refine (loginClaim_keep (hkeeps _) hopen fun login' heq => ?_).trans hclaim
      exact hquery _ _ heq
  | _ => cases hmem

/-- What the thread of the call claims afterwards is free. -/
theorem RegistrationInv.claimed_call (hI : RegistrationInv f db₀ hist s.store)
    (hledger : Ledger hist s.store) (heffect : StoreEffect f t x s cmd r store)
    (hmay : mayCall job (hist t) cmd) (login : Bytes)
    (hclaim : loginClaim (⟨cmd, r⟩ :: hist t) = some login) :
    ¬ loginTaken f store.committed login := by
  rcases loginClaim_cons hclaim with heq | hold
  · cases heq
    cases heffect with
    | @statement _ _ ws sequences txn hactive hrun =>
      rw [Transactions.Store.committed_record]
      have hrows := run_checkLoginAvailable hmay hrun
      rw [Transactions.Store.view_of_log_nil writes
        (hledger.log_of_current_nil (current_of_mayCheck hmay))] at hrows
      exact checkLoginAvailable_eq_nil.mp hrows
    | keep hkeeps hquery => exact absurd rfl (hquery _ _)
  · rcases hI.committed_logins hledger heffect with hsame | ⟨heq, -⟩
    · rw [loginTaken, hsame]
      exact hI.claimed t login hold
    · cases heq
      cases hclaim

/-- What another thread claims stays free. -/
theorem RegistrationInv.claimed_other (hI : RegistrationInv f db₀ hist s.store)
    (hledger : Ledger hist s.store) (heffect : StoreEffect f t x s cmd r store)
    (hmeets : cmd = .commitWork → x.fails = false → AloneWithLogin f hist t) {t' : Nat}
    (ht' : t' ≠ t) (login : Bytes) (hclaim : loginClaim (hist t') = some login) :
    ¬ loginTaken f store.committed login := by
  have hfree := hI.claimed t' login hclaim
  rcases hI.committed_logins hledger heffect with hsame | ⟨heq, hok, login', hreg, hadd⟩
  · rw [loginTaken, hsame]
    exact hfree
  · cases heq
    have hne := hmeets rfl hok login' hreg t' ht' login hclaim
    rw [loginTaken, hadd, List.map_append, List.mem_append]
    rintro (hmem | hmem)
    · exact hfree hmem
    · exact hne (List.mem_singleton.mp hmem)

theorem RegistrationInv.refused_call (hI : RegistrationInv f db₀ hist s.store)
    (hledger : Ledger hist s.store) (heffect : StoreEffect f t x s cmd r store)
    (hmay : mayCall job (hist t) cmd) (login : Bytes) (rows : List Unit)
    (hmem : ⟨.execPrepared (.checkLoginAvailable login), some (() :: rows)⟩ ∈
      (⟨cmd, r⟩ : Σ c, Cmd.Reply c) :: hist t) :
    loginTaken f store.committed login := by
  rcases List.mem_cons.mp hmem with heq | hmem
  · cases heq
    cases heffect with
    | @statement _ _ ws sequences txn hactive hrun =>
      rw [Transactions.Store.committed_record]
      have hrows := run_checkLoginAvailable hmay hrun
      rw [Transactions.Store.view_of_log_nil writes
        (hledger.log_of_current_nil (current_of_mayCheck hmay))] at hrows
      by_contra hfree
      rw [checkLoginAvailable_eq_nil.mpr hfree] at hrows
      cases hrows
    | keep hkeeps hquery => exact absurd rfl (hquery _ _)
  · exact hI.taken_call hledger heffect (hI.refused t login rows hmem)

/-- The registration that a commit adds is of a login that nobody has added. -/
theorem RegistrationInv.apart_call (hI : RegistrationInv f db₀ hist s.store) {login login' : Bytes}
    {t' : Nat} (hreg : Registers login (hist t)) (ha : Added login' (hist t')) :
    f.lower login ≠ f.lower login' := by
  intro heq
  have hfree := hI.claimed t login (hI.inserting t login hreg).2
  have htaken := hI.added t' login' ha
  rw [loginTaken, heq] at hfree
  exact hfree htaken

theorem RegistrationInv.unique_call (hI : RegistrationInv f db₀ hist s.store)
    (hledger : Ledger hist s.store) (heffect : StoreEffect f t x s cmd r store) :
    (store.committed.logins.map f.lower).Nodup := by
  rcases hI.committed_logins hledger heffect with hsame | ⟨-, -, login, hreg, hadd⟩
  · rw [hsame]
    exact hI.unique
  · rw [hadd, List.map_append, List.map_singleton]
    refine hI.unique.append (List.nodup_singleton _) ?_
    rw [List.disjoint_singleton]
    exact hI.claimed t login (hI.inserting t login hreg).2

theorem RegistrationInv.added_call (hI : RegistrationInv f db₀ hist s.store)
    (hledger : Ledger hist s.store) (heffect : StoreEffect f t x s cmd r store) (login : Bytes)
    (ha : Added login (⟨cmd, r⟩ :: hist t)) : loginTaken f store.committed login := by
  rcases added_cons ha with ⟨heq, hreg⟩ | ha
  · cases heq
    rw [loginTaken, hI.committed_of_registers heffect hreg]
    simp
  · exact hI.taken_call hledger heffect (hI.added t login ha)

/-- What the thread of the call has added differs from what another one has. -/
theorem RegistrationInv.apart_other (hI : RegistrationInv f db₀ hist s.store)
    {login login' : Bytes} {t' : Nat} (ht' : t' ≠ t) (ha : Added login (⟨cmd, r⟩ :: hist t))
    (ha' : Added login' (hist t')) : f.lower login ≠ f.lower login' := by
  rcases added_cons ha with ⟨-, hreg⟩ | ha
  · exact hI.apart_call hreg ha'
  · exact hI.apart t t' login login' ht'.symm ha ha'

theorem RegistrationInv.origin_call (hI : RegistrationInv f db₀ hist s.store)
    (hledger : Ledger hist s.store) (heffect : StoreEffect f t x s cmd r store) (login : Bytes)
    (hlogin : login ∈ store.committed.logins) : login ∈ db₀.logins ∨
      ∃ t', Added login (Function.update hist t (⟨cmd, r⟩ :: hist t) t') := by
  have hkeep : ∀ t', Added login (hist t') →
      Added login (Function.update hist t (⟨cmd, r⟩ :: hist t) t') := by
    intro t' ha
    by_cases ht' : t' = t
    · subst ht'
      rw [Function.update_self]
      exact ha.cons _
    · rw [Function.update_of_ne ht']
      exact ha
  have hold : login ∈ s.store.committed.logins →
      login ∈ db₀.logins ∨ ∃ t', Added login (Function.update hist t (⟨cmd, r⟩ :: hist t) t') :=
    fun hmem => (hI.origin login hmem).imp_right fun ⟨t', ha⟩ => ⟨t', hkeep t' ha⟩
  rcases hI.committed_logins hledger heffect with hsame | ⟨heq, -, login', hreg, hadd⟩
  · rw [hsame] at hlogin
    exact hold hlogin
  · rw [hadd, List.mem_append, List.mem_singleton] at hlogin
    rcases hlogin with hmem | rfl
    · exact hold hmem
    · refine Or.inr ⟨t, [], hist t, ?_, hreg⟩
      rw [Function.update_self, List.nil_append, heq]

theorem RegistrationInv.call (hI : RegistrationInv f db₀ hist s.store)
    (hledger : Ledger hist s.store) (heffect : StoreEffect f t x s cmd r store)
    (hmay : mayCall job (hist t) cmd)
    (hmeets : cmd = .commitWork → x.fails = false → AloneWithLogin f hist t) :
    RegistrationInv f db₀ (Function.update hist t (⟨cmd, r⟩ :: hist t)) store := by
  constructor
  case inserting =>
    intro t' login hreg
    by_cases ht' : t' = t
    · subst ht'
      rw [Function.update_self] at hreg ⊢
      exact hI.inserting_call hledger heffect hmay login hreg
    · rw [Function.update_of_ne ht'] at hreg ⊢
      rw [heffect.log_of_ne ht']
      exact hI.inserting t' login hreg
  case claimed =>
    intro t' login hclaim
    by_cases ht' : t' = t
    · subst ht'
      rw [Function.update_self] at hclaim
      exact hI.claimed_call hledger heffect hmay login hclaim
    · rw [Function.update_of_ne ht'] at hclaim
      exact hI.claimed_other hledger heffect hmeets ht' login hclaim
  case unique => exact hI.unique_call hledger heffect
  case added =>
    intro t' login ha
    by_cases ht' : t' = t
    · subst ht'
      rw [Function.update_self] at ha
      exact hI.added_call hledger heffect login ha
    · rw [Function.update_of_ne ht'] at ha
      exact hI.taken_call hledger heffect (hI.added t' login ha)
  case apart =>
    intro t₁ t₂ login₁ login₂ hne ha₁ ha₂
    by_cases ht₁ : t₁ = t
    · subst ht₁
      rw [Function.update_self] at ha₁
      rw [Function.update_of_ne hne.symm] at ha₂
      exact hI.apart_other hne.symm ha₁ ha₂
    · rw [Function.update_of_ne ht₁] at ha₁
      by_cases ht₂ : t₂ = t
      · subst ht₂
        rw [Function.update_self] at ha₂
        exact (hI.apart_other ht₁ ha₂ ha₁).symm
      · rw [Function.update_of_ne ht₂] at ha₂
        exact hI.apart t₁ t₂ login₁ login₂ hne ha₁ ha₂
  case origin => exact hI.origin_call hledger heffect
  case refused =>
    intro t' login rows hmem
    by_cases ht' : t' = t
    · subst ht'
      rw [Function.update_self] at hmem
      exact hI.refused_call hledger heffect hmay login rows hmem
    · rw [Function.update_of_ne ht'] at hmem
      exact hI.taken_call hledger heffect (hI.refused t' login rows hmem)

end Call

/-! ## Runs -/

/-- The steps at which no registration commits while another one, of an equal login, is
between its check and its end. -/
def RegistrationsApart (f : SqlFunctions) (c : ServerState) : ServerLabel → Prop
  | .run t x => c.pending t = some .commitWork → x.fails = false → AloneWithLogin f c.hist t
  | _ => True

/-- A single task meets the condition. -/
theorem RegistrationsApart.of_single {f : SqlFunctions} (hbelow : System.Label.Below 1 l)
    (hnone : ∀ t, 1 ≤ t → c.threads t = none) : RegistrationsApart f c l := by
  cases l with
  | run t x =>
    obtain rfl : t = 0 := Nat.lt_one_iff.mp hbelow
    intro _ _ login _ t' ht' login' hclaim
    rw [Config.hist, hnone t' (Nat.one_le_iff_ne_zero.mpr ht')] at hclaim
    cases hclaim
  | spawn _ _ => trivial
  | outside _ => trivial

theorem Server.reach_registrationInv {s₀ : Server} (h₀ : s₀.Initial)
    (hunique : (s₀.store.committed.logins.map p.lower).Nodup)
    (h : (loginServer p cfg).Reach (RegistrationsApart p.toSqlFunctions) s₀.boot c) :
    RegistrationInv p.toSqlFunctions s₀.store.committed c.hist c.shared.store := by
  refine Server.reach_callInvariant ?_ ?_ h
  · refine RegistrationInv.mk (fun t login hreg => ?_) (fun t login hclaim => nomatch hclaim)
      hunique (fun t login ha => ?_) (fun t t' login login' _ ha => ?_)
      (fun login hmem => Or.inl hmem) (fun t login rows hmem => nomatch hmem)
    · obtain ⟨_, _, _, _, _, hmem⟩ := hreg
      cases hmem
    · exact absurd ha (not_added_nil login)
    · exact absurd ha (not_added_nil login)
  · intro c c' t x job cmd r hreach hI hmeets hcall
    refine hI.call (Server.reach_ledger h₀ hreach) (exec_store hcall.exec)
      (hcall.may (Server.reach_obedient hreach)) fun hcommit => ?_
    subst hcommit
    exact hmeets hcall.pending

/-! ## Answers -/

/-- Task `t`, a registration, has ended with the history `h`. -/
def Ended (c : ServerState) (t : Nat) (reg : RegistrationDataStruct) (h : Hist) : Prop :=
  ∃ event, c.threads t = some ⟨.event event, h, .pure ()⟩ ∧ event.type = .REGISTER_ACCOUNT ∧
    event.eventData = .registration reg

def ReturnsOK (c : ServerState) (t : Nat) (reg : RegistrationDataStruct) : Prop :=
  ∃ userId sessionHash h, Ended c t reg (⟨.sendResponse reg.socket (str "success")
    (EventHandler.registerSuccess sessionHash userId reg.login), ()⟩ :: h)

def ReturnsCode (c : ServerState) (t : Nat) (reg : RegistrationDataStruct) (code : String) :
    Prop :=
  ∃ h, Ended c t reg (⟨.sendResponse reg.socket (str "error")
    (EventHandler.answer (str code) [] 0 "registerAccount"), ()⟩ :: h)

theorem answer_inj {code code' : String}
    (h : EventHandler.answer (str code) [] 0 "registerAccount" =
      EventHandler.answer (str code') [] 0 "registerAccount") : code = code' := by
  simpa [EventHandler.answer, ResponseBuilder.build, ResponseBuilder.setHeader,
    ResponseBuilder.setBody, Json.setMember] using h

theorem sendResponse_inj {socket socket' : Option Socket} {status status' : Bytes}
    {message message' : Json} {h h' : Hist}
    (heq : (⟨.sendResponse socket status message, ()⟩ :: h : Hist) =
      ⟨.sendResponse socket' status' message', ()⟩ :: h') :
    status = status' ∧ message = message' ∧ h = h' := by
  obtain ⟨he, hh⟩ := List.cons.inj heq
  obtain ⟨-, hstatus, hmessage⟩ := Cmd.sendResponse.inj (Sigma.mk.inj he).1
  exact ⟨hstatus, hmessage, hh⟩

/-- A registration that was answered with success has added its login. -/
theorem Registered.added {reg : RegistrationDataStruct} {message : Json} {h : Hist}
    (hsocket : reg.socket ≠ none)
    (hr : Registered reg (⟨.sendResponse reg.socket (str "success") message, ()⟩ :: h)) :
    Added reg.login (⟨.sendResponse reg.socket (str "success") message, ()⟩ :: h) := by
  generalize hg : (⟨.sendResponse reg.socket (str "success") message, ()⟩ :: h : Hist) = full
    at hr ⊢
  cases hr with
  | ok hreg => exact ⟨[_, _], _, rfl, hreg⟩
  | unanswered hnone => exact absurd hnone hsocket
  | _ => exact absurd (sendResponse_inj hg).1 success_ne_error

/-- A registration that was answered ERR_LOGIN_TAKEN has only made the check. -/
theorem Registered.refused {reg : RegistrationDataStruct} {h : Hist} (hsocket : reg.socket ≠ none)
    (hr : Registered reg (⟨.sendResponse reg.socket (str "error")
      (EventHandler.answer (str "ERR_LOGIN_TAKEN") [] 0 "registerAccount"), ()⟩ :: h)) :
    ∃ rows, h = [⟨.abortWork, ()⟩,
      ⟨.execPrepared (.checkLoginAvailable reg.login), some (() :: rows)⟩,
      ⟨.beginWork, some ()⟩, ⟨.acquire, some ()⟩] := by
  generalize hg : (⟨.sendResponse reg.socket (str "error")
    (EventHandler.answer (str "ERR_LOGIN_TAKEN") [] 0 "registerAccount"), ()⟩ :: h : Hist) = full
    at hr
  cases hr with
  | ok hreg => exact absurd (sendResponse_inj hg).1 success_ne_error.symm
  | @taken rows => exact ⟨rows, (sendResponse_inj hg).2.2⟩
  | @invalid code hcode hne =>
    have hmessage := answer_inj (sendResponse_inj hg).2.1
    obtain ⟨htaken, -⟩ :=
      AccountManager.validateRegistration_ne reg.login reg.password reg.email
    rw [hcode] at htaken
    cases code <;> simp_all [EventHandler.registerFailureCode]
  | @dbError code h' hcode =>
    have hmessage := answer_inj (sendResponse_inj hg).2.1
    rcases hcode with rfl | rfl <;> simp at hmessage
  | unanswered hnone => exact absurd hnone hsocket

/-- What a finished registration with valid input was answered. -/
theorem Registered.cases_of_valid {reg : RegistrationDataStruct} {h : Hist}
    (hsocket : reg.socket ≠ none) (hr : Registered reg h)
    (hvalid : AccountManager.validateRegistration reg.login reg.password reg.email = .OK) :
    (∃ userId sessionHash h', h = ⟨.sendResponse reg.socket (str "success")
      (EventHandler.registerSuccess sessionHash userId reg.login), ()⟩ :: h') ∨
    ∃ code h', (code = "ERR_LOGIN_TAKEN" ∨ code = "ERR_REGISTER_FAILED" ∨ code = "ERR_INTERNAL") ∧
      h = ⟨.sendResponse reg.socket (str "error")
        (EventHandler.answer (str code) [] 0 "registerAccount"), ()⟩ :: h' := by
  cases hr with
  | ok hreg => exact Or.inl ⟨_, _, _, rfl⟩
  | taken => exact Or.inr ⟨_, _, Or.inl rfl, rfl⟩
  | invalid hcode hne => exact absurd (hcode.symm.trans hvalid) hne
  | dbError hcode => exact Or.inr ⟨_, _, Or.inr hcode, rfl⟩
  | unanswered hnone => exact absurd hnone hsocket

section Reached

variable {s₀ : Server} {meets : ServerState → ServerLabel → Prop} {t : Nat}
  {reg : RegistrationDataStruct} {h : Hist}

theorem Ended.registered (he : Ended c t reg h)
    (hreach : (loginServer p cfg).Reach meets s₀.boot c) : Registered reg h := by
  obtain ⟨event, hthread, htype, hdata⟩ := he
  exact (Server.reach_obedient hreach t _ hthread).obeys event reg rfl htype hdata

/-- Registrations come from connections, so they can be answered. -/
theorem Ended.socket (h₀ : s₀.Initial) (he : Ended c t reg h)
    (hreach : (loginServer p cfg).Reach meets s₀.boot c) : reg.socket ≠ none := by
  obtain ⟨event, hthread, -, hdata⟩ := he
  exact ((Server.reach_eventsWellFormed h₀ hreach).jobs t _ hthread event rfl).socket reg hdata

theorem Ended.hist (he : Ended c t reg h) : c.hist t = h := by
  obtain ⟨event, hthread, -⟩ := he
  exact Config.hist_of_threads hthread

theorem ReturnsOK.added (hok : ReturnsOK c t reg) (h₀ : s₀.Initial)
    (hreach : (loginServer p cfg).Reach meets s₀.boot c) : Added reg.login (c.hist t) := by
  obtain ⟨userId, sessionHash, h', he⟩ := hok
  rw [he.hist]
  exact (he.registered hreach).added (he.socket h₀ hreach)

theorem ReturnsCode.refused (htaken : ReturnsCode c t reg "ERR_LOGIN_TAKEN") (h₀ : s₀.Initial)
    (hreach : (loginServer p cfg).Reach meets s₀.boot c) :
    (∃ rows, ⟨.execPrepared (.checkLoginAvailable reg.login), some (() :: rows)⟩ ∈ c.hist t) ∧
    ∀ login, ¬ Added login (c.hist t) := by
  obtain ⟨h', he⟩ := htaken
  rw [he.hist]
  obtain ⟨rows, rfl⟩ := (he.registered hreach).refused (he.socket h₀ hreach)
  refine ⟨⟨rows, by simp⟩, fun login ha => ?_⟩
  have ha₁ := (ha.of_cons (by simp)).of_cons (by simp)
  exact not_added_nil login (((ha₁.of_cons (by simp)).of_cons (by simp)).of_cons (by simp))

/-- Who has added a login is the registration of that login. -/
theorem registration_of_added
    (hreach : (loginServer p cfg).Reach meets s₀.boot c) {login : Bytes}
    (ha : Added login (c.hist t)) :
    ∃ th reg, c.threads t = some th ∧ th.job.registration = some reg ∧ reg.login = login := by
  obtain ⟨h₂, h₁, heq, password, email, ip, clientVersion, ids, hmem⟩ := ha
  cases hthread : c.threads t with
  | none =>
    rw [Config.hist, hthread] at heq
    cases h₂ <;> cases heq
  | some th =>
    have hlawful := (Server.reach_obedient hreach t th hthread).lawful
    rw [← Config.hist_of_threads hthread, heq] at hlawful
    obtain ⟨h₄, h₃, hsplit⟩ := List.append_of_mem ((prefix_current h₁).subset hmem)
    have hlawful₁ : System.Lawful (mayCall th.job) h₁ := hlawful.of_append.2
    rw [hsplit] at hlawful₁
    obtain ⟨-, ⟨reg, hreg, rfl⟩, -⟩ := hlawful₁.may_of_append
    exact ⟨th, reg, rfl, hreg, rfl⟩

end Reached

/-- If a registration commits only while no other one, of an equal login, is under way,
then logins stay unique without regard to case; at most one registration of equal logins
returns OK, and exactly one if the login was free and none ended in a database error. -/
theorem logins_unique_ignoring_case {s₀ : Server} (h₀ : s₀.Initial)
    (hunique : (s₀.store.committed.logins.map p.lower).Nodup)
    (h : (loginServer p cfg).Reach (RegistrationsApart p.toSqlFunctions) s₀.boot c) :
    (c.shared.store.committed.logins.map p.lower).Nodup ∧
    (∀ t reg h', Ended c t reg h' →
      AccountManager.validateRegistration reg.login reg.password reg.email = .OK →
      ReturnsOK c t reg ∨ ReturnsCode c t reg "ERR_LOGIN_TAKEN" ∨
        ReturnsCode c t reg "ERR_REGISTER_FAILED" ∨ ReturnsCode c t reg "ERR_INTERNAL") ∧
    (∀ t t' reg reg', ReturnsOK c t reg → ReturnsOK c t' reg' →
      p.lower reg.login = p.lower reg'.login → t = t') ∧
    (∀ login, ¬ loginTaken p.toSqlFunctions s₀.store.committed login →
      (∃ t th reg, c.threads t = some th ∧ th.job.registration = some reg ∧
        p.lower reg.login = p.lower login) →
      (∀ t th reg, c.threads t = some th → th.job.registration = some reg →
        p.lower reg.login = p.lower login →
        ReturnsOK c t reg ∨ ReturnsCode c t reg "ERR_LOGIN_TAKEN") →
      ∃! t, ∃ reg, p.lower reg.login = p.lower login ∧ ReturnsOK c t reg) := by
  have hI := Server.reach_registrationInv h₀ hunique h
  have hone : ∀ t t' reg reg', ReturnsOK c t reg → ReturnsOK c t' reg' →
      p.lower reg.login = p.lower reg'.login → t = t' := by
    intro t t' reg reg' hok hok' heq
    by_contra hne
    exact hI.apart t t' reg.login reg'.login hne (hok.added h₀ h) (hok'.added h₀ h) heq
  refine ⟨hI.unique, fun t reg h' he hvalid => ?_, hone, fun login hfree hsome hall => ?_⟩
  · rcases (he.registered h).cases_of_valid (he.socket h₀ h) hvalid with
      ⟨userId, sessionHash, h'', rfl⟩ | ⟨code, h'', hcode, rfl⟩
    · exact Or.inl ⟨userId, sessionHash, h'', he⟩
    · rcases hcode with rfl | rfl | rfl
      · exact Or.inr (Or.inl ⟨h'', he⟩)
      · exact Or.inr (Or.inr (Or.inl ⟨h'', he⟩))
      · exact Or.inr (Or.inr (Or.inr ⟨h'', he⟩))
  · have hwinner : ∃ t reg, p.lower reg.login = p.lower login ∧ ReturnsOK c t reg := by
      obtain ⟨t, th, reg, hthread, hreg, heq⟩ := hsome
      rcases hall t th reg hthread hreg heq with hok | htaken
      · exact ⟨t, reg, heq, hok⟩
      · obtain ⟨⟨rows, hrefused⟩, -⟩ := htaken.refused h₀ h
        -- whoever took the login before the check has committed it, and so returned OK
        have hmem := hI.refused t reg.login rows hrefused
        obtain ⟨other, hother, hlower⟩ := List.mem_map.mp hmem
        rcases hI.origin other hother with hinitial | ⟨t', ha⟩
        · refine absurd (List.mem_map.mpr ⟨other, hinitial, ?_⟩) hfree
          exact hlower.trans heq
        · obtain ⟨th', reg', hthread', hreg', rfl⟩ := registration_of_added h ha
          have heq' : p.lower reg'.login = p.lower login := hlower.trans heq
          rcases hall t' th' reg' hthread' hreg' heq' with hok | htaken'
          · exact ⟨t', reg', heq', hok⟩
          · exact absurd ha ((htaken'.refused h₀ h).2 _)
    obtain ⟨t, reg, heq, hok⟩ := hwinner
    refine ⟨t, ⟨reg, heq, hok⟩, fun t' ht' => ?_⟩
    obtain ⟨reg', heq', hok'⟩ := ht'
    exact hone t' t reg' reg hok' hok (heq'.trans heq.symm)

namespace Sample

open Schedule

def registerText : Bytes :=
  messageText "\"eventType\":\"registerAccount\""
    "\"login\":\"bobby\",\"password\":\"password1\",\"clientVersion\":\"1.0.0\""

def registerJson : Json :=
  messageJson [(str "eventType", .string (str "registerAccount"))]
    [(str "login", .string (str "bobby")), (str "password", .string (str "password1")),
      (str "clientVersion", .string (str "1.0.0"))]

def registrationPlatform : Platform := .ofTables [(registerText, registerJson)] digests

/-- The calls of a registration up to the end of its check. -/
def checkLogin (t : Nat) : List ServerLabel := calls t 4

/-- Its further calls, up to the commit. -/
def insertAccount (t : Nat) (token : Bytes) : List ServerLabel :=
  calls t 2 ++ [generates t token] ++ calls t 4

/-- Task `t` has answered with success. -/
def succeeded (t : Nat) (c : ServerState) : Bool :=
  match c.hist t with
  | ⟨.sendResponse _ status _, _⟩ :: _ => status = str "success"
  | _ => false

end Sample

open Sample Schedule

theorem logins_unique_ignoring_case_one : ∃ c,
    (loginServer registrationPlatform config).Reach
      (RegistrationsApart registrationPlatform.toSqlFunctions) (Server.over {}).boot c ∧
    succeeded 0 c = true ∧
    (c.shared.store.committed.logins.map registrationPlatform.lower).Nodup := by
  obtain ⟨c, hreach, hsent⟩ := exists_reach_serial registrationPlatform config (.over {})
    (P := fun c => succeeded 0 c = true) 1
    (fun _ _ (_ : true = true) _ hbelow hnone => RegistrationsApart.of_single hbelow hnone)
    ([frame 1 registerText, .spawn 0 .dispatch] ++ checkLogin 0 ++ insertAccount 0 tokenA ++
      calls 0 2) (by decide) (by decide +kernel)
  have hempty : ((Server.over {}).store.committed.logins.map registrationPlatform.lower).Nodup :=
    List.nodup_nil
  exact ⟨c, hreach, hsent,
    (logins_unique_ignoring_case (Server.over_initial rfl) hempty hreach).1⟩

/-- Two registrations of one login. Both find it available before either inserts it, and
then both insert and commit. -/
theorem concurrent_registrations_share_login : ∃ c,
    (loginServer registrationPlatform config).Reach (fun _ _ => True) (Server.over {}).boot c ∧
    ¬ (c.shared.store.committed.logins.map registrationPlatform.lower).Nodup := by
  exact exists_reach registrationPlatform config (.over {})
    (P := fun c => ¬ (c.shared.store.committed.logins.map registrationPlatform.lower).Nodup)
    ([frame 1 registerText, frame 2 registerText, .spawn 0 .dispatch, .spawn 1 .dispatch] ++
      checkLogin 0 ++ checkLogin 1 ++ insertAccount 0 tokenA ++ insertAccount 1 tokenB)
    (by decide +kernel)

end LoginServer
