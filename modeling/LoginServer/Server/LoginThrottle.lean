import LoginServer.Server.LoginSoundness
import LoginServer.Streams.Lockout

/-!
# Guessing the password of one account

Calls of `authenticate` one after the other, with any pauses, for one login. While the
counter can count, the row of the account is a `Streams.Lockout` with the wrong passwords
since the last success as its failures (`Throttled`), and the window bound is that of the
lockout.

The counter is a `smallint`. At 32767 the statement that counts fails, so the lock is not
renewed, and the account can be guessed at any rate.
-/

namespace LoginServer

open Database Interleaving Streams

/-! ## What a call has compared -/

/-- The stored hash that a search gives to compare with. -/
def comparedHash : (Σ c, Cmd.Reply c) → Option Bytes
  | ⟨.execPrepared (.searchUser _), some (row :: _)⟩ => (integer row.id).map fun _ => row.password
  | _ => none

/-- The stored hashes with which the call has compared. -/
def comparedHashes (h : Hist) : List Bytes := h.filterMap comparedHash

/-- A call of `authenticate`, with the server before and after it. -/
structure LoginCall where
  attempt : LoginAttempt
  /-- The database may let something fail during the call. -/
  faulty : Bool
  before : Server
  hist : Hist
  outcome : AuthOutcome
  after : Server

namespace LoginCall

def time (c : LoginCall) : Time := c.before.clock

def allow (c : LoginCall) (x : Choice) : Prop := c.faulty = true ∨ noFault x

/-- A wrong password was compared with the stored hash. -/
def comparesWrong (hashPassword : Bytes → Bytes) (c : LoginCall) : Bool :=
  (comparedHashes c.hist).any fun hash => hash ≠ hashPassword c.attempt.password

end LoginCall

/-- Calls for the account `login` one after the other, the latest first. -/
inductive LoginRun (p : Platform) (cfg : ServerConfig) (t : Nat) (login : Bytes) :
    Server → List LoginCall → Server → Prop where
  | nil {s : Server} : LoginRun p cfg t login s [] s
  | wait {s s' s'' : Server} {calls : List LoginCall} (h : LoginRun p cfg t login s calls s')
    (henv : ((loginServer p cfg).alone t noFault).env s' s'') : LoginRun p cfg t login s calls s''
  | call {s : Server} {calls : List LoginCall} {c : LoginCall}
    (h : LoginRun p cfg t login s calls c.before) (hlogin : c.attempt.account = login)
    (hruns : ((loginServer p cfg).alone t c.allow).Runs [] c.before
      (c.attempt.call p.hashPassword).run c.hist c.after (.ok c.outcome)) :
    LoginRun p cfg t login s (c :: calls) c.after

/-! ## The row of the account -/

def accountRows (login : Bytes) (db : Database) : List UserRow :=
  db.users.filter fun r => r.login = login

theorem accountRows_map {login : Bytes} {db : Database} {g : UserRow → UserRow}
    (hg : ∀ r, (g r).login = r.login) :
    accountRows login { db with users := db.users.map g } = (accountRows login db).map g := by
  unfold accountRows
  rw [List.filter_map]
  congr 2
  funext r
  simp [hg]

section Row

variable {p : Platform} {allow : Choice → Prop} {a : LoginAttempt} {db db' : Database}
  {clientData clientData' : ClientData} {uuids : List Bytes} {now finish : Time} {h : Hist}
  {s : Server} {o : AuthOutcome} {r : UserRow}

theorem searchUser_of_row (hrow : accountRows a.account db = [r]) :
    db.searchUser now a.account =
      if r.mayLogIn now then [⟨r.id, r.password, some r.role⟩] else [] := by
  have hfilter : (db.users.filter fun u => u.login = a.account && u.mayLogIn now) =
      (accountRows a.account db).filter fun u => u.mayLogIn now := by
    rw [accountRows, List.filter_filter]
    congr 1
    funext u
    exact Bool.and_comm _ _
  rw [searchUser, hfilter, hrow]
  cases hmay : r.mayLogIn now <;> simp [hmay]

/-- The statement that counts, on the row. -/
def counted (now : Time) (r : UserRow) : UserRow :=
  { r with
    failedLoginAttempts := r.failedLoginAttempts + 1
    lockedUntil :=
      if r.failedLoginAttempts + 1 ≥ 5 then some (now + minutes 15) else r.lockedUntil }

theorem incrementFailedLogins_of_row {seq : Sequences} (hrow : accountRows a.account db = [r]) :
    db.incrementFailedLogins now seq a.account =
      (smallint (r.failedLoginAttempts + 1)).map fun attempts =>
        ((), [Write.setFailedLogins r.id attempts (counted now r).lockedUntil], seq) := by
  rw [accountRows] at hrow
  rw [incrementFailedLogins, hrow, List.mapM_cons, List.mapM_nil]
  cases smallint (r.failedLoginAttempts + 1) <;> rfl

theorem accountRows_of_increment {seq seq' : Sequences} {ws : List Write}
    (hrow : accountRows a.account db = [r])
    (hcount : db.incrementFailedLogins now seq a.account = some ((), ws, seq')) :
    accountRows a.account (ws.foldl applyWrite db) = [counted now r] ∧
      (ws.foldl applyWrite db).userBans = db.userBans := by
  rw [incrementFailedLogins_of_row hrow] at hcount
  obtain ⟨attempts, hattempts, heq⟩ := Option.map_eq_some_iff.mp hcount
  cases heq
  obtain rfl := smallint_eq_some hattempts
  refine ⟨?_, rfl⟩
  have hmap := @accountRows_map a.account db (fun u => if decide (u.id = r.id) = true then { u with
      failedLoginAttempts := r.failedLoginAttempts + 1
      lockedUntil := (counted now r).lockedUntil } else u) fun u => by split_ifs <;> rfl
  refine hmap.trans ?_
  rw [hrow, List.map_singleton, if_pos (decide_eq_true rfl)]
  rfl

/-- What a call has compared with is what its search has found. -/
theorem comparedHashes_of_saw {done : Prop} {login : Bytes} {rows : List UserAuthRow}
    (hsaw : SearchSaw login rows done h) {hash : Bytes} (hmem : hash ∈ comparedHashes h) :
    ∃ row rest, rows = row :: rest ∧ (integer row.id).isSome ∧ row.password = hash := by
  obtain ⟨e, he, heq⟩ := List.mem_filterMap.mp hmem
  unfold comparedHash at heq
  split at heq
  · obtain ⟨-, rfl⟩ := hsaw.saw _ _ he
    obtain ⟨id, hid, rfl⟩ := Option.map_eq_some_iff.mp heq
    exact ⟨_, _, rfl, Option.isSome_of_eq_some hid, rfl⟩
  · cases heq

theorem mem_comparedHashes {login : Bytes} {row : UserAuthRow} {rest : List UserAuthRow}
    (hmem : ⟨.execPrepared (.searchUser login), some (row :: rest)⟩ ∈ h)
    (hid : (integer row.id).isSome) : row.password ∈ comparedHashes h := by
  refine List.mem_filterMap.mpr ⟨_, hmem, ?_⟩
  obtain ⟨id, hid⟩ := Option.isSome_iff_exists.mp hid
  rw [comparedHash, hid]
  rfl

/-- What a call does to the row of its account: `wrong` when a wrong password was
compared, `resets` when an accepted password may reset the counter. -/
inductive RowStep (now : Time) (r : UserRow) (wrong : Bool) (mayFail resets : Prop) :
    UserRow → Prop where
  | kept (huncounted : wrong = true → mayFail ∨ smallint (r.failedLoginAttempts + 1) = none) :
    RowStep now r wrong mayFail resets r
  | counted (hopen : ¬ LockedOut r now) (hwrong : wrong = true) :
    RowStep now r wrong mayFail resets (counted now r)
  | reset {r' : UserRow} (hright : wrong = false) (hresets : resets)
    (hattempts : r'.failedLoginAttempts = 0) (hunlocked : r'.lockedUntil = none) :
    RowStep now r wrong mayFail resets r'

theorem Accepted.row {hashPassword : Bytes → Bytes} {row : UserAuthRow}
    (hacc : Accepted hashPassword a db now row db') (hrow : accountRows a.account db = [r]) :
    row.id = r.id ∧ db'.userBans = db.userBans ∧ ∃ r', accountRows a.account db' = [r'] ∧
      r'.id = r.id ∧ r'.failedLoginAttempts = 0 ∧ r'.lockedUntil = none := by
  obtain ⟨g, hg, hzero, rfl, -⟩ := hacc.users
  obtain ⟨rows, hfound⟩ := hacc.found
  rw [searchUser_of_row hrow] at hfound
  split at hfound
  · cases hfound
    have hmem : r ∈ accountRows a.account db := by
      rw [hrow]
      exact List.mem_cons_self
    refine ⟨rfl, rfl, g r, ?_, (hg r).id, hzero r (List.mem_of_mem_filter hmem) rfl⟩
    rw [accountRows_map fun u => (hg u).login, hrow]
    rfl
  · cases hfound

/-- A wrong password was compared with one of the hashes. -/
def anyWrong (hashPassword : Bytes → Bytes) (password : Bytes) (h : Hist) : Bool :=
  (comparedHashes h).any fun hash => hash ≠ hashPassword password

theorem anyWrong_eq_false {done : Prop} {hashPassword : Bytes → Bytes} {password : Bytes}
    {login : Bytes} {rows : List UserAuthRow} (hsaw : SearchSaw login rows done h)
    (hright : ∀ row rest, rows = row :: rest → (integer row.id).isSome →
      row.password = hashPassword password) : anyWrong hashPassword password h = false := by
  refine List.any_eq_false.mpr fun hash hmem => ?_
  obtain ⟨row, rest, hrows, hid, rfl⟩ := comparedHashes_of_saw hsaw hmem
  simpa using hright row rest hrows hid

theorem anyWrong_of_found {done : Prop} {hashPassword : Bytes → Bytes} {password : Bytes}
    {login : Bytes} {row : UserAuthRow} {rows : List UserAuthRow}
    (hsaw : SearchSaw login (row :: rows) done h)
    (hright : (integer row.id).isSome → row.password = hashPassword password) :
    anyWrong hashPassword password h = false := by
  refine anyWrong_eq_false hsaw fun row' rest hrows hid => ?_
  cases hrows
  exact hright hid

theorem anyWrong_of_wrong {hashPassword : Bytes → Bytes} {password : Bytes} {login : Bytes}
    {row : UserAuthRow} {rows : List UserAuthRow} (hsaw : SearchSaw login (row :: rows) True h)
    (hid : integer row.id = some row.id) (hwrong : row.password ≠ hashPassword password) :
    anyWrong hashPassword password h = true := by
  have hsearched := hsaw.searched trivial
  refine List.any_eq_true.mpr ⟨row.password, mem_comparedHashes hsearched ?_, by simpa⟩
  exact Option.isSome_of_eq_some hid

/-- The row after a call. -/
theorem CallEnded.row (hended : CallEnded p allow a db clientData uuids now h s o)
    (hrow : accountRows a.account db = [r]) :
    ∃ db' r', s.store = .idle db' ∧ now ≤ s.clock ∧ accountRows a.account db' = [r'] ∧
      r'.id = r.id ∧ db'.userBans = db.userBans ∧
      (o.status = .OK → r'.failedLoginAttempts = 0 ∧ r'.lockedUntil = none) ∧
      RowStep now r (anyWrong p.hashPassword a.password h) (FailsIn allow)
        (o.status = .OK ∨ FailsIn allow ∨ ¬ NotBanned db r.id now) r' := by
  obtain ⟨hsaw, finish, db', clientData', uuids', seq', hs, hresult⟩ := hended
  have hright : ∀ {row db₁}, Accepted p.hashPassword a db now row db₁ →
      anyWrong p.hashPassword a.password h = false := by
    rintro row db₁ hacc
    obtain ⟨rows, hfound⟩ := hacc.found
    rw [hfound] at hsaw
    exact anyWrong_of_found hsaw fun _ => hacc.password
  refine ⟨db', ?_⟩
  cases hresult with
  | unavailable hmay =>
    exact ⟨r, hs.store_eq, hs.clock, hrow, rfl, rfl, nofun, .kept fun _ => Or.inl hmay⟩
  | notFound hnone =>
    refine ⟨r, hs.store_eq, hs.clock, hrow, rfl, rfl, nofun, .kept fun hwrong => ?_⟩
    rw [anyWrong_eq_false hsaw (by simp [hnone])] at hwrong
    cases hwrong
  | @idOutOfRange row rows hfound hid =>
    refine ⟨r, hs.store_eq, hs.clock, hrow, rfl, rfl, nofun, .kept fun hwrong => ?_⟩
    rw [hfound] at hsaw
    rw [anyWrong_of_found hsaw (by simp [hid])] at hwrong
    cases hwrong
  | notCounted hfound hid hwrong hcount =>
    refine ⟨r, hs.store_eq, hs.clock, hrow, rfl, rfl, nofun, .kept fun _ => Or.inr ?_⟩
    rw [incrementFailedLogins_of_row hrow] at hcount
    exact Option.map_eq_none_iff.mp hcount
  | @wrong row rest seq seq' ws hfound hid hwrong hcount =>
    have hcompared : anyWrong p.hashPassword a.password h = true := by
      rw [hfound] at hsaw
      exact anyWrong_of_wrong (hsaw.weaken fun _ => by simp) hid hwrong
    have hopen : ¬ LockedOut r now := by
      rw [searchUser_of_row hrow] at hfound
      rw [lockedOut_iff]
      split at hfound
      · rename_i hmay
        rw [hmay]
        exact Bool.noConfusion
      · cases hfound
    obtain ⟨hrow', hbans⟩ := accountRows_of_increment hrow hcount
    exact ⟨_, hs.store_eq, hs.clock, hrow', rfl, hbans, nofun, .counted hopen hcompared⟩
  | notReset hfound hpassword hreset =>
    refine ⟨r, hs.store_eq, hs.clock, hrow, rfl, rfl, nofun, .kept fun hwrong => ?_⟩
    rw [hfound] at hsaw
    rw [anyWrong_of_found hsaw fun _ => hpassword] at hwrong
    cases hwrong
  | interrupted hacc hmay =>
    obtain ⟨-, hbans, r', hrow', hid, hattempts, hunlocked⟩ := hacc.row hrow
    exact ⟨r', hs.store_eq, hs.clock, hrow', hid, hbans, nofun,
      .reset (hright hacc) (Or.inr (Or.inl hmay)) hattempts hunlocked⟩
  | banned hacc hnow hban =>
    obtain ⟨hrowId, hbans, r', hrow', hid, hattempts, hunlocked⟩ := hacc.row hrow
    refine ⟨r', hs.store_eq, le_trans hnow hs.clock, hrow', hid, hbans,
      nofun, .reset (hright hacc) (Or.inr (Or.inr fun hnotBanned => ?_)) hattempts hunlocked⟩
    rw [hrowId, checkActiveBan_of_notBanned hbans (hnotBanned.later hnow)] at hban
    cases hban
  | ok hacc hnow hban hlater htoken hfresh hsession =>
    obtain ⟨-, hbans, r', hrow', hid, hattempts, hunlocked⟩ := hacc.row hrow
    have hothers := hsession.others p.toSqlFunctions htoken
    refine ⟨r', hs.store_eq, le_trans (le_trans hnow hlater) hs.clock, ?_, hid, ?_,
      fun _ => ⟨hattempts, hunlocked⟩, .reset (hright hacc) (Or.inl rfl) hattempts hunlocked⟩
    · rw [hothers]
      exact hrow'
    · rw [hothers]
      exact hbans

/-- A call compares with the stored hash of a row that is not locked. -/
theorem CallEnded.of_compared (hended : CallEnded p allow a db clientData uuids now h s o)
    (hrow : accountRows a.account db = [r]) {hash : Bytes} (hmem : hash ∈ comparedHashes h) :
    hash = r.password ∧ ¬ LockedOut r now := by
  obtain ⟨row, rest, hfound, -, rfl⟩ := comparedHashes_of_saw hended.1 hmem
  rw [searchUser_of_row hrow] at hfound
  rw [lockedOut_iff]
  split at hfound
  · rename_i hmay
    cases hfound
    exact ⟨rfl, by rw [hmay]; exact Bool.noConfusion⟩
  · cases hfound

/-- A call for a locked account compares nothing and changes nothing. -/
theorem CallEnded.of_lockedOut (hended : CallEnded p allow a db clientData uuids now h s o)
    (hrow : accountRows a.account db = [r]) (hlocked : LockedOut r now) :
    comparedHashes h = [] ∧ s.store = .idle db := by
  refine ⟨List.eq_nil_iff_forall_not_mem.mpr fun hash hmem =>
    (hended.of_compared hrow hmem).2 hlocked, ?_⟩
  have hnone : db.searchUser now a.account = [] := by
    rw [searchUser_of_row hrow, lockedOut_iff.mp hlocked]
    rfl
  have haccepted : ∀ {row db₁}, ¬ Accepted p.hashPassword a db now row db₁ := by
    rintro row db₁ hacc
    obtain ⟨rows, hfound⟩ := hacc.found
    rw [hnone] at hfound
    cases hfound
  obtain ⟨-, finish, db', clientData', uuids', seq', hs, hresult⟩ := hended
  rw [hs.store_eq]
  cases hresult with
  | wrong hfound =>
    rw [hnone] at hfound
    cases hfound
  | interrupted hacc => exact absurd hacc haccepted
  | banned hacc => exact absurd hacc haccepted
  | ok hacc => exact absurd hacc haccepted
  | _ => rfl

end Row

/-! ## Runs -/

theorem env_solo {p : Platform} {cfg : ServerConfig} {t : Nat} {allow : Choice → Prop}
    {s s' : Server} {db : Database} (hstore : s.store = .idle db)
    (henv : ((loginServer p cfg).alone t allow).env s s') :
    s'.store = .idle db ∧ s.clock ≤ s'.clock := by
  have hs := solo_of_store hstore
  exact ⟨(hs.later henv).1.store_eq, (hs.later henv).2⟩

/-- Nothing fails during the call, and if it meets an unlocked account with a wrong
password, the counter can still be raised. -/
structure LoginCall.CanCount (hashPassword : Bytes → Bytes) (c : LoginCall) : Prop where
  sound : c.faulty = false
  below : ∀ r ∈ accountRows c.attempt.account c.before.store.committed, ¬ LockedOut r c.time →
    r.password ≠ hashPassword c.attempt.password → r.failedLoginAttempts < 32767

/-- The row is the lockout after the wrong passwords of `stretch`, the calls since the last
success. -/
def Throttled (hashPassword : Bytes → Bytes) (stretch : List LoginCall) (r : UserRow)
    (now : Time) : Prop :=
  (∀ c ∈ stretch, c.time ≤ now) ∧
  ∃ l : Lockout, Lockout.Failures 5 (minutes 15)
      ((stretch.filter fun c => c.comparesWrong hashPassword).map LoginCall.time) l ∧
    r.failedLoginAttempts = l.count ∧ r.lockedUntil = l.lockedUntil

section Run

variable {p : Platform} {cfg : ServerConfig} {t : Nat} {login : Bytes} {s₀ s : Server}
  {calls : List LoginCall} {c : LoginCall} {db₀ : Database} {account : UserRow}

/-- What a run leaves of the account. -/
structure AccountKept (login : Bytes) (s₀ : Server) (db₀ : Database) (account : UserRow)
    (s : Server) (db : Database) (r : UserRow) : Prop where
  store_eq : s.store = .idle db
  clock : s₀.clock ≤ s.clock
  row : accountRows login db = [r]
  id : r.id = account.id
  userBans : db.userBans = db₀.userBans

theorem callEnded_of_call {db : Database} (hstore : c.before.store = .idle db)
    (hruns : ((loginServer p cfg).alone t c.allow).Runs [] c.before
      (c.attempt.call p.hashPassword).run c.hist c.after (.ok c.outcome)) :
    CallEnded p c.allow c.attempt db c.before.clientData c.before.uuids c.time c.hist c.after
      c.outcome := by
  have hs := solo_of_store hstore
  obtain ⟨o, ho, hended⟩ := callEnded_of_runs hs hruns
  cases ho
  exact hended

/-- One call keeps the account. -/
theorem AccountKept.call {db : Database} {r : UserRow}
    (hkept : AccountKept c.attempt.account s₀ db₀ account c.before db r)
    (hruns : ((loginServer p cfg).alone t c.allow).Runs [] c.before
      (c.attempt.call p.hashPassword).run c.hist c.after (.ok c.outcome)) :
    ∃ db' r', AccountKept c.attempt.account s₀ db₀ account c.after db' r' ∧
      c.time ≤ c.after.clock ∧
      (c.outcome.status = .OK → r'.failedLoginAttempts = 0 ∧ r'.lockedUntil = none) ∧
      RowStep c.time r (anyWrong p.hashPassword c.attempt.password c.hist) (FailsIn c.allow)
        (c.outcome.status = .OK ∨ FailsIn c.allow ∨ ¬ NotBanned db r.id c.time) r' := by
  obtain ⟨db', r', hstore', hclock, hrow', hid, hbans, hreset, hstep⟩ :=
    (callEnded_of_call hkept.store_eq hruns).row hkept.row
  exact ⟨db', r', ⟨hstore', le_trans hkept.clock hclock, hrow', hid.trans hkept.id,
    hbans.trans hkept.userBans⟩, hclock, hreset, hstep⟩

theorem LoginRun.accountKept (hrun : LoginRun p cfg t login s₀ calls s)
    (hstore : s₀.store = .idle db₀) (hrow : accountRows login db₀ = [account]) :
    ∃ db r, AccountKept login s₀ db₀ account s db r := by
  induction hrun with
  | nil => exact ⟨db₀, account, hstore, le_rfl, hrow, rfl, rfl⟩
  | wait _ henv ih =>
    obtain ⟨db, r, hkept⟩ := ih
    obtain ⟨hstore', hclock⟩ := env_solo hkept.store_eq henv
    exact ⟨db, r, hstore', le_trans hkept.clock hclock, hkept.row, hkept.id, hkept.userBans⟩
  | @call calls c _ hlogin hruns ih =>
    subst hlogin
    obtain ⟨db, r, hkept⟩ := ih
    obtain ⟨db', r', hkept', -⟩ := hkept.call hruns
    exact ⟨db', r', hkept'⟩

/-- The part of a run up to one of its calls. -/
theorem LoginRun.suffix {later earlier : List LoginCall}
    (hrun : LoginRun p cfg t login s₀ calls s) (hcalls : calls = later ++ earlier) :
    ∃ s', LoginRun p cfg t login s₀ earlier s' := by
  induction hrun generalizing later with
  | nil =>
    obtain ⟨-, rfl⟩ := List.append_eq_nil_iff.mp hcalls.symm
    exact ⟨s₀, .nil⟩
  | wait _ _ ih => exact ih hcalls
  | @call calls c h hlogin hruns ih =>
    cases later with
    | nil =>
      obtain rfl : c :: calls = earlier := hcalls
      exact ⟨c.after, .call h hlogin hruns⟩
    | cons c' later => exact ih (List.cons.inj hcalls).2

/-- One call since the last success keeps the row a lockout. -/
theorem Throttled.call {stretch : List LoginCall} {r r' : UserRow} {db : Database}
    (hthrottled : Throttled p.hashPassword stretch r c.time)
    (hcount : c.CanCount p.hashPassword) (hfails : c.outcome.status ≠ .OK)
    (hnotBanned : NotBanned db r.id c.time) (hrow : accountRows c.attempt.account db = [r])
    (hstore : c.before.store = .idle db)
    (hended : CallEnded p c.allow c.attempt db c.before.clientData c.before.uuids c.time c.hist
      c.after c.outcome)
    (hstep : RowStep c.time r (anyWrong p.hashPassword c.attempt.password c.hist)
      (FailsIn c.allow)
      (c.outcome.status = .OK ∨ FailsIn c.allow ∨ ¬ NotBanned db r.id c.time) r')
    (hclock : c.time ≤ c.after.clock) :
    Throttled p.hashPassword (c :: stretch) r' c.after.clock := by
  obtain ⟨htimes, l, hfailures, hattempts, hlocked⟩ := hthrottled
  refine ⟨List.forall_mem_cons.mpr ⟨hclock, fun c' hc' => le_trans (htimes c' hc') hclock⟩, ?_⟩
  have hsound : ¬ FailsIn c.allow := by
    rintro ⟨x, hfaulty | hno, hfails⟩
    · rw [hcount.sound] at hfaulty
      cases hfaulty
    · exact not_failsIn_noFault ⟨x, hno, hfails⟩
  have hwrong : c.comparesWrong p.hashPassword =
      anyWrong p.hashPassword c.attempt.password c.hist := rfl
  cases hstep with
  | kept huncounted =>
    have hright : c.comparesWrong p.hashPassword = false := by
      rw [hwrong]
      refine Bool.eq_false_iff.mpr fun hany => ?_
      have hfull := (huncounted hany).resolve_left hsound
      -- a wrong password was compared, so the row was open and its counter below the maximum
      obtain ⟨hash, hmem, hne⟩ := List.any_eq_true.mp hany
      obtain ⟨rfl, hopen⟩ := hended.of_compared hrow hmem
      have hr : r ∈ accountRows c.attempt.account c.before.store.committed := by
        rw [hstore]
        exact hrow ▸ List.mem_cons_self
      have hbelow := hcount.below r hr hopen (of_decide_eq_true hne)
      unfold smallint at hfull
      split_ifs at hfull
      omega
    rw [List.filter_cons_of_neg (by simp [hright])]
    exact ⟨l, hfailures, hattempts, hlocked⟩
  | counted hopen hany =>
    rw [List.filter_cons_of_pos (hwrong.trans hany), List.map_cons]
    refine ⟨_, hfailures.cons ?_ ?_, ?_, ?_⟩
    · rintro ⟨lockedUntil, hl, hnow⟩
      exact hopen (Or.inr ⟨lockedUntil, hlocked.trans hl, hnow⟩)
    · intro time htime
      obtain ⟨c', hc', rfl⟩ := List.mem_map.mp htime
      exact htimes c' (List.mem_of_mem_filter hc')
    · rw [counted, hattempts]
      rfl
    · have hburst : r.failedLoginAttempts + 1 ≥ 5 ↔ 5 ≤ l.count + 1 := by omega
      simp only [counted, Lockout.fail, hburst, hlocked]
  | reset hright hresets hzero hunlocked =>
    rcases hresets with hok | hmay | hbanned
    · exact absurd hok hfails
    · exact absurd hmay hsound
    · exact absurd hnotBanned hbanned

/-- Since the last success the row is a lockout. -/
theorem LoginRun.throttled (hrun : LoginRun p cfg t login s₀ calls s)
    (hstore : s₀.store = .idle db₀) (hrow : accountRows login db₀ = [account])
    (hunbanned : NotBanned db₀ account.id s₀.clock) {stretch earlier : List LoginCall}
    {success : LoginCall} (hcalls : calls = stretch ++ success :: earlier)
    (hsuccess : success.outcome.status = .OK)
    (hfails : ∀ c ∈ stretch, c.outcome.status ≠ .OK)
    (hcount : ∀ c ∈ stretch, c.CanCount p.hashPassword) :
    ∃ db r, AccountKept login s₀ db₀ account s db r ∧
      Throttled p.hashPassword stretch r s.clock := by
  induction hrun generalizing stretch with
  | nil => simp at hcalls
  | wait _ henv ih =>
    obtain ⟨db, r, hkept, htimes, hlockout⟩ := ih hcalls hfails hcount
    obtain ⟨hstore', hclock⟩ := env_solo hkept.store_eq henv
    refine ⟨db, r, ⟨hstore', le_trans hkept.clock hclock, hkept.row, hkept.id, hkept.userBans⟩,
      fun c hc => le_trans (htimes c hc) hclock, hlockout⟩
  | @call calls c hbefore hlogin hruns ih =>
    subst hlogin
    cases stretch with
    | nil =>
      obtain ⟨rfl, -⟩ := List.cons.inj hcalls
      obtain ⟨db, r, hkept⟩ := hbefore.accountKept hstore hrow
      obtain ⟨db', r', hkept', -, hreset, -⟩ := hkept.call hruns
      obtain ⟨hattempts, hunlocked⟩ := hreset hsuccess
      exact ⟨db', r', hkept', fun c hc => absurd hc List.not_mem_nil, {}, .nil, hattempts,
        hunlocked⟩
    | cons c' stretch =>
      obtain ⟨rfl, htail⟩ := List.cons.inj hcalls
      obtain ⟨hfailed, hfails⟩ := List.forall_mem_cons.mp hfails
      obtain ⟨hcanCount, hcount⟩ := List.forall_mem_cons.mp hcount
      obtain ⟨db, r, hkept, hthrottled⟩ := ih htail hfails hcount
      obtain ⟨db', r', hkept', hclock, -, hstep⟩ := hkept.call hruns
      have hended := callEnded_of_call hkept.store_eq hruns
      refine ⟨db', r', hkept', hthrottled.call hcanCount hfailed ?_ hkept.row hkept.store_eq hended
        hstep hclock⟩
      intro ban hban huser
      rw [hkept.userBans] at hban
      exact (hunbanned.later hkept.clock) ban hban (huser.trans hkept.id)

/-- A call for a locked account compares nothing and changes nothing. -/
theorem LoginRun.locked_call (hrun : LoginRun p cfg t login s₀ calls s)
    (hstore : s₀.store = .idle db₀) (hrow : accountRows login db₀ = [account]) (hc : c ∈ calls)
    {r : UserRow} (hr : r ∈ accountRows login c.before.store.committed)
    (hlocked : ∃ lockedUntil, r.lockedUntil = some lockedUntil ∧ c.time ≤ lockedUntil) :
    comparedHashes c.hist = [] ∧ c.after.store.committed = c.before.store.committed := by
  induction hrun with
  | nil => cases hc
  | wait _ _ ih => exact ih hc
  | @call calls c' hbefore hlogin hruns ih =>
    rcases List.mem_cons.mp hc with rfl | hc
    · subst hlogin
      obtain ⟨db, r', hkept⟩ := hbefore.accountKept hstore hrow
      rw [hkept.store_eq] at hr ⊢
      have hr : r ∈ accountRows c.attempt.account db := hr
      rw [hkept.row] at hr
      obtain rfl := List.mem_singleton.mp hr
      obtain ⟨hnone, hafter⟩ := (callEnded_of_call hkept.store_eq hruns).of_lockedOut hkept.row
        (Or.inr hlocked)
      exact ⟨hnone, by rw [hafter]⟩
    · exact ih hc

end Run

/-- While nothing fails and the counter can count, five wrong passwords in any fifteen
minutes since the last success are the most; and a locked account is not compared with and
not changed, in any run. -/
theorem guessing_limited (p : Platform) (cfg : ServerConfig) (t : Nat) (login : Bytes)
    {s₀ s : Server} {calls : List LoginCall} {db₀ : Database} {account : UserRow}
    (hstore : s₀.store = .idle db₀) (hrow : accountRows login db₀ = [account])
    (hunbanned : NotBanned db₀ account.id s₀.clock)
    (hrun : LoginRun p cfg t login s₀ calls s) :
    (∀ later stretch success earlier, calls = later ++ (stretch ++ success :: earlier) →
      success.outcome.status = .OK → (∀ c ∈ stretch, c.outcome.status ≠ .OK) →
      (∀ c ∈ stretch, c.CanCount p.hashPassword) → ∀ start,
        stretch.countP (fun c => c.comparesWrong p.hashPassword &&
          (start ≤ c.time ∧ c.time < start + minutes 15)) ≤ 5) ∧
    ∀ c ∈ calls, ∀ r ∈ accountRows login c.before.store.committed,
      (∃ lockedUntil, r.lockedUntil = some lockedUntil ∧ c.time ≤ lockedUntil) →
      comparedHashes c.hist = [] ∧ c.after.store.committed = c.before.store.committed := by
  refine ⟨fun later stretch success earlier hcalls hsuccess hfails hcount start => ?_, ?_⟩
  · obtain ⟨s', hrun'⟩ := hrun.suffix hcalls
    obtain ⟨-, -, -, -, l, hfailures, -, -⟩ :=
      hrun'.throttled hstore hrow hunbanned rfl hsuccess hfails hcount
    have hwindow := hfailures.window (by decide) start
    rw [List.countP_map, List.countP_filter] at hwindow
    refine le_trans (le_of_eq (List.countP_congr fun c _ => ?_)) hwindow
    simp [and_comm]
  · exact fun c hc r hr hlocked => hrun.locked_call hstore hrow hc hr hlocked

/-! ## When the counter is full -/

section Overflow

open Schedule Sample

def annaSession : UserSessionRow where
  id := 1
  userId := 1
  tokenHash := tokenA
  clientVersion := some (str "1.0.0")
  createdAt := 0
  expiresAt := days 30

/-- Anna after `n` wrong passwords, one every sixteen minutes. -/
def guessedAnna (n : Nat) : UserRow :=
  { anna with
    lastLoginIp := some (str "127.0.0.1")
    clientVersion := some (str "1.0.0")
    failedLoginAttempts := n
    lockedUntil := if 5 ≤ n then some ((n - 1 : Int) * 960000000 + minutes 15) else none }

def guessedData (n : Nat) : Database :=
  { users := [guessedAnna n], userSessions := [annaSession] }

def guessedServer (n : Nat) : Server where
  clientData := ClientData.empty.storeClientData
    (annaAttempt.entry ⟨1, hashOfPassword1, some 0⟩ tokenA) 0
  store := .idle (guessedData n)
  sequences := { userSessions := 2 }
  clock := (n : Int) * 960000000
  steadyMs := 0
  uuids := [tokenA]
  eventQueue := []

def guess : LoginAttempt := { annaAttempt with password := str "password2" }

theorem mayLogIn_guessed (n : Nat) :
    (guessedAnna n).mayLogIn (guessedServer n).clock = true := by
  have hlock : (n - 1 : Int) * 960000000 + 900000000 < n * 960000000 := by omega
  rw [UserRow.mayLogIn]
  by_cases hn : 5 ≤ n
  · have hlocked : (guessedAnna n).lockedUntil = some ((n - 1 : Int) * 960000000 + minutes 15) :=
      if_pos hn
    rw [hlocked]
    exact decide_eq_true hlock
  · have hlocked : (guessedAnna n).lockedUntil = none := if_neg hn
    rw [hlocked]
    rfl

theorem run_searchUser_guessed (n : Nat) (f : SqlFunctions) :
    (Query.searchUser guess.login).run (guessedData n) (guessedServer n).clock
      (guessedServer n).sequences f =
      some ([⟨1, hashOfPassword1, some 0⟩], [], (guessedServer n).sequences) := by
  have hsearch : (guessedData n).searchUser (guessedServer n).clock guess.account =
      [⟨1, hashOfPassword1, some 0⟩] := by
    rw [searchUser_of_row (r := guessedAnna n) rfl, if_pos (mayLogIn_guessed n)]
    rfl
  exact congrArg (fun rows => some (rows, [], (guessedServer n).sequences)) hsearch

/-- The search of a guess and what came before it. -/
def guessSearched : Hist :=
  [⟨.execPrepared (.searchUser guess.login), some [⟨1, hashOfPassword1, some 0⟩]⟩,
    ⟨.beginWork, some ()⟩]

def guessHist : Hist :=
  ⟨.commitWork, some ()⟩ :: ⟨.execPrepared (.incrementFailedLogins guess.login), some ()⟩ ::
    guessSearched

/-- The guess number `n + 1`. -/
def guessCall (n : Nat) : LoginCall where
  attempt := guess
  faulty := false
  before := guessedServer n
  hist := guessHist
  outcome := { status := .INVALID_CREDENTIALS, userId := 0 }
  after := (guessedServer n).withStore (.idle (guessedData (n + 1)))

theorem run_increment_guessed (n : Nat) (hn : n < 32767) (f : SqlFunctions) :
    (Query.incrementFailedLogins guess.login).run (guessedData n) (guessedServer n).clock
      (guessedServer n).sequences f =
      some ((), [.setFailedLogins 1 (n + 1 : Nat) (guessedAnna (n + 1)).lockedUntil],
        (guessedServer n).sequences) := by
  have hsmall : smallint ((n : Int) + 1) = some ((n + 1 : Nat) : Int) := if_pos (by omega)
  have hlock : (counted (guessedServer n).clock (guessedAnna n)).lockedUntil =
      (guessedAnna (n + 1)).lockedUntil := by
    change (if (n : Int) + 1 ≥ 5 then some ((n : Int) * 960000000 + minutes 15)
      else if 5 ≤ n then some ((n - 1 : Int) * 960000000 + minutes 15) else none) =
      if 5 ≤ n + 1 then some (((n + 1 : Nat) - 1 : Int) * 960000000 + minutes 15) else none
    have hprev : ((n + 1 : Nat) : Int) - 1 = n := by omega
    rw [hprev]
    split_ifs <;> first | rfl | omega
  refine (incrementFailedLogins_of_row (a := guess) (r := guessedAnna n) rfl).trans ?_
  rw [hlock]
  exact congrArg (Option.map _) hsmall

theorem guessCall_runs (n : Nat) (hn : n < 32767) :
    ((loginServer annaPlatform config).alone 0 (guessCall n).allow).Runs [] (guessedServer n)
      (guess.call annaPlatform.hashPassword).run guessHist (guessCall n).after
      (.ok (guessCall n).outcome) := by
  have hallow : (guessCall n).allow {} := Or.inr rfl
  refine runs_beginWork hallow rfl ?_
  refine runs_execPrepared hallow rfl (run_searchUser_guessed n _) ?_
  refine runs_execPrepared hallow rfl (run_increment_guessed n hn _) ?_
  exact runs_commitWork hallow rfl ⟨rfl, rfl, rfl⟩

/-- A guess that the counter cannot count. -/
def blindHist : Hist :=
  ⟨.unwindWork, ()⟩ :: ⟨.execPrepared (.incrementFailedLogins guess.login), none⟩ :: guessSearched

def blindCall : LoginCall where
  attempt := guess
  faulty := false
  before := guessedServer 32767
  hist := blindHist
  outcome := { status := .DB_ERROR, userId := 0 }
  after := guessedServer 32767

theorem run_increment_full (f : SqlFunctions) :
    (Query.incrementFailedLogins guess.login).run (guessedData 32767) (guessedServer 32767).clock
      (guessedServer 32767).sequences f = none := by
  exact (incrementFailedLogins_of_row (a := guess) (r := guessedAnna 32767) rfl).trans rfl

theorem blindCall_runs :
    ((loginServer annaPlatform config).alone 0 blindCall.allow).Runs [] (guessedServer 32767)
      (guess.call annaPlatform.hashPassword).run blindHist blindCall.after
      (.ok blindCall.outcome) := by
  have hallow : blindCall.allow {} := Or.inr rfl
  refine runs_beginWork hallow rfl ?_
  refine runs_execPrepared hallow rfl (run_searchUser_guessed 32767 _) ?_
  refine runs_execPrepared_none hallow rfl (run_increment_full _) ?_
  exact runs_unwindWork hallow rfl ⟨rfl, rfl, rfl⟩

/-- Anna's login, as it computes. -/
def loginRun (s : Server) (token : Bytes) :
    Option (Hist × Server × Except StdException AuthOutcome) :=
  ((loginServer annaPlatform config).alone 0 fun x => false = true ∨ noFault x).play {}
    (tokenChoices token) [] s (annaAttempt.call annaPlatform.hashPassword).run

theorem exists_success (s : Server) (token : Bytes) {db : Database} (hstore : s.store = .idle db)
    (hok : (loginRun s token).any (fun x => endsIn .OK x.2.2) = true) :
    ∃ c : LoginCall, c.attempt = annaAttempt ∧ c.before = s ∧ c.outcome.status = .OK ∧
      ((loginServer annaPlatform config).alone 0 c.allow).Runs [] c.before
        (c.attempt.call annaPlatform.hashPassword).run c.hist c.after (.ok c.outcome) ∧
      loginRun s token = some (c.hist, c.after, .ok c.outcome) ∧
      c.after.store = .idle c.after.store.committed := by
  obtain ⟨⟨h', s', r⟩, hplay, hr⟩ := (Option.any_eq_true _ _).mp hok
  cases r with
  | error e => cases hr
  | ok o =>
    let c : LoginCall := ⟨annaAttempt, false, s, h', o, s'⟩
    have hallow : ∀ x : Choice, x = {} ∨ x ∈ tokenChoices token → c.allow x := by
      intro x hx
      right
      simp only [tokenChoices, List.mem_append, List.mem_replicate, List.mem_singleton] at hx
      rcases hx with rfl | ⟨-, rfl⟩ | rfl <;> rfl
    have hrefl : ∀ s, ((loginServer annaPlatform config).alone 0 c.allow).env s s := fun s => .refl
    have hruns : ((loginServer annaPlatform config).alone 0 c.allow).Runs [] c.before
        (c.attempt.call annaPlatform.hashPassword).run c.hist c.after (.ok c.outcome) :=
      Machine.runs_of_play hrefl hallow hplay
    refine ⟨c, rfl, rfl, of_decide_eq_true hr, hruns, hplay, ?_⟩
    obtain ⟨-, finish, db', clientData', uuids', seq', hs', -⟩ := callEnded_of_call hstore hruns
    rw [hs'.store_eq]
    rfl

theorem Server.eq_of_fields {s s' : Server} (hclientData : s.clientData = s'.clientData)
    (hstore : s.store = s'.store) (hsequences : s.sequences = s'.sequences)
    (hclock : s.clock = s'.clock) (hsteadyMs : s.steadyMs = s'.steadyMs)
    (huuids : s.uuids = s'.uuids) (hqueue : s.eventQueue = s'.eventQueue) : s = s' := by
  cases s
  cases s'
  congr

/-- The first login leaves the server with nothing guessed. -/
theorem exists_first : ∃ c : LoginCall, c.outcome.status = .OK ∧
    LoginRun annaPlatform config 0 guess.account (Server.over { users := [anna] }) [c]
      (guessedServer 0) := by
  obtain ⟨c, hattempt, hbefore, hok, hruns, hplay, hstore⟩ := exists_success
    (Server.over { users := [anna] }) tokenA rfl (by decide +kernel)
  have hafter : c.after = guessedServer 0 := by
    have hfield : ∀ {α : Type} (g : Server → α),
        (loginRun (Server.over { users := [anna] }) tokenA).map (fun x => g x.2.1) =
          some (g c.after) := fun g => by rw [hplay]; rfl
    refine Server.eq_of_fields ?_ ?_ ?_ ?_ ?_ ?_ ?_
    · exact Option.some.inj ((hfield _).symm.trans rfl)
    · rw [hstore]
      have hcommitted : c.after.store.committed = guessedData 0 :=
        Option.some.inj ((hfield fun s => s.store.committed).symm.trans rfl)
      rw [hcommitted]
      rfl
    · exact Option.some.inj ((hfield _).symm.trans rfl)
    · exact Option.some.inj ((hfield _).symm.trans rfl)
    · exact Option.some.inj ((hfield _).symm.trans rfl)
    · exact Option.some.inj ((hfield _).symm.trans rfl)
    · exact Option.some.inj ((hfield _).symm.trans rfl)
  refine ⟨c, hok, hafter ▸ .call (hbefore ▸ .nil) (by rw [hattempt]; rfl) hruns⟩

/-- Guesses at intervals of sixteen minutes, the latest first. -/
def guesses : Nat → List LoginCall
  | 0 => []
  | n + 1 => guessCall n :: guesses n

theorem run_guesses {s₀ : Server} {calls : List LoginCall}
    (h : LoginRun annaPlatform config 0 guess.account s₀ calls (guessedServer 0)) {n : Nat}
    (hn : n ≤ 32767) :
    LoginRun annaPlatform config 0 guess.account s₀ (guesses n ++ calls) (guessedServer n) := by
  induction n with
  | zero => exact h
  | succ n ih =>
    have hcall : LoginRun annaPlatform config 0 guess.account s₀ (guesses (n + 1) ++ calls)
        (guessCall n).after := .call (ih (by omega)) rfl (guessCall_runs n (by omega))
    refine hcall.wait (.single ⟨.tick (guessedServer (n + 1)).clock 0, ?_⟩)
    have hle : (guessedServer n).clock ≤ (guessedServer (n + 1)).clock := by
      change (n : Int) * 960000000 ≤ ((n + 1 : Nat) : Int) * 960000000
      omega
    exact if_pos ⟨hle, le_rfl⟩

theorem run_blind {s₀ : Server} {calls : List LoginCall}
    (h : LoginRun annaPlatform config 0 guess.account s₀ calls (guessedServer 32767)) (n : Nat) :
    LoginRun annaPlatform config 0 guess.account s₀ (List.replicate n blindCall ++ calls)
      (guessedServer 32767) := by
  induction n with
  | zero => exact h
  | succ n ih => exact .call (c := blindCall) ih rfl blindCall_runs

theorem guesses_failed (n : Nat) : ∀ c ∈ guesses n, c.outcome.status ≠ .OK := by
  induction n with
  | zero => exact fun c hc => absurd hc List.not_mem_nil
  | succ n ih => exact List.forall_mem_cons.mpr ⟨nofun, ih⟩

/-- After a login, 32767 wrong passwords in eleven months fill the counter. Six more at the
same moment are all compared, and the right one then logs in. -/
theorem guessing_unlimited_when_full : ∃ s calls,
    LoginRun annaPlatform config 0 guess.account (Server.over { users := [anna] }) calls s ∧
    ∃ next stretch success, calls = next :: (stretch ++ [success]) ∧
      next.outcome.status = .OK ∧ success.outcome.status = .OK ∧
      (∀ c ∈ stretch, c.outcome.status ≠ .OK) ∧ ∃ start,
        5 < stretch.countP (fun c => c.comparesWrong annaPlatform.hashPassword &&
          (start ≤ c.time ∧ c.time < start + minutes 15)) := by
  obtain ⟨success, hsuccess, hfirst⟩ := exists_first
  have hblind := run_blind (run_guesses hfirst le_rfl) 6
  obtain ⟨next, hattempt, hbefore, hnext, hruns, -, -⟩ :=
    exists_success (guessedServer 32767) tokenB rfl (by decide +kernel)
  rw [← hbefore] at hblind
  refine ⟨_, _, .call hblind (by rw [hattempt]; rfl) hruns, next,
    List.replicate 6 blindCall ++ guesses 32767, success, by rw [List.append_assoc], hnext,
    hsuccess, ?_, (guessedServer 32767).clock, ?_⟩
  · refine List.forall_mem_append.mpr ⟨fun c hc => ?_, guesses_failed 32767⟩
    rw [List.eq_of_mem_replicate hc]
    exact nofun
  · rw [List.countP_append]
    have hsix : (List.replicate 6 blindCall).countP (fun c =>
        c.comparesWrong annaPlatform.hashPassword && ((guessedServer 32767).clock ≤ c.time ∧
          c.time < (guessedServer 32767).clock + minutes 15)) = 6 := by decide +kernel
    omega

/-- The bound for the first login. -/
theorem guessing_limited_first : ∃ s calls,
    LoginRun annaPlatform config 0 guess.account (Server.over { users := [anna] }) calls s ∧
    calls ≠ [] ∧
    (∀ later stretch success earlier, calls = later ++ (stretch ++ success :: earlier) →
      success.outcome.status = .OK → (∀ c ∈ stretch, c.outcome.status ≠ .OK) →
      (∀ c ∈ stretch, c.CanCount annaPlatform.hashPassword) → ∀ start,
        stretch.countP (fun c => c.comparesWrong annaPlatform.hashPassword &&
          (start ≤ c.time ∧ c.time < start + minutes 15)) ≤ 5) := by
  obtain ⟨success, -, hfirst⟩ := exists_first
  refine ⟨_, _, run_guesses hfirst (n := 7) (by decide), by simp, ?_⟩
  exact (guessing_limited annaPlatform config 0 guess.account rfl rfl
    (fun ban hban => absurd hban List.not_mem_nil) (run_guesses hfirst (n := 7) (by decide))).1

end Overflow

end LoginServer
