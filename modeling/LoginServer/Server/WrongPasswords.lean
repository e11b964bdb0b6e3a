import LoginServer.Server.Effects
import LoginServer.Server.HandlerCalls

/-!
# What a login does after a wrong password

A login that has found a row and a wrong password executes `increment_failed_logins` and
commits. `mayCount` is what every task obeys in this: a failure is counted right after the
search, once, and nothing else is committed after a wrong password. So a call with a wrong
password that has committed is one that has committed its failure (`failureDone_iff`).
-/

namespace LoginServer

open Database Interleaving

variable {p : Platform} {job : Job} {h : Hist}

/-! ## The discipline of a login -/

/-- The task is a login of the account: its search has found a row that is not locked, and
the password is another one. -/
def WrongPassword (p : Platform) (login : Bytes) (job : Job) (h : Hist) : Prop :=
  ∃ (event : Event) (data : ClientDataStruct) (row : UserAuthRow) (rows : List UserAuthRow),
    job = .event event ∧ event.type = .AUTH_CLIENT ∧ event.eventData = .clientData data ∧
      upToNul data.login = login ∧
      ⟨.execPrepared (.searchUser data.login), some (row :: rows)⟩ ∈ h ∧
      row.password ≠ p.hashPassword data.password

/-- The last call has counted a failure of the account. -/
def CountedLast (login : Bytes) (h : Hist) : Prop :=
  ∃ login' h', upToNul login' = login ∧
    h = ⟨.execPrepared (.incrementFailedLogins login'), some ()⟩ :: h'

/-- A login searches before it commits anything. It counts a failure right after the search
that opened the transaction, and only once; after a wrong password it commits nothing else. -/
def mayCount (p : Platform) (job : Job) (h : Hist) : Cmd → Prop
  | .execPrepared (.searchUser _) => ⟨.commitWork, some ()⟩ ∉ h
  | .execPrepared (.incrementFailedLogins login) =>
    WrongPassword p (upToNul login) job h ∧
      (∀ login', ⟨.execPrepared (.incrementFailedLogins login'), some ()⟩ ∉ h) ∧
      ∃ (rows : List UserAuthRow) (h' : Hist),
        h = ⟨.execPrepared (.searchUser login), some rows⟩ :: ⟨.beginWork, some ()⟩ :: h'
  | .commitWork => ∀ login, WrongPassword p login job h → CountedLast login h
  | _ => True

/-- No wrong password has been found so far. -/
def Innocent (p : Platform) (job : Job) (h : Hist) : Prop := ∀ login, ¬ WrongPassword p login job h

theorem mayCount_of_innocent (hh : Innocent p job h) {c : Cmd}
    (hc : c.isLogin = false) : mayCount p job h c := by
  unfold mayCount
  split
  · cases hc
  · cases hc
  · exact fun login hwrong => absurd hwrong (hh login)
  · trivial

theorem Innocent.cons (hh : Innocent p job h) {c : Cmd} (hc : c.isLogin = false) (r : c.Reply) :
    Innocent p job (⟨c, r⟩ :: h) := by
  rintro login ⟨event, data, row, rows, hjob, htype, hdata, hlogin, hmem, hwrong⟩
  rcases List.mem_cons.mp hmem with heq | hold
  · cases heq
    cases hc
  · exact hh login ⟨event, data, row, rows, hjob, htype, hdata, hlogin, hold, hwrong⟩

/-- Only a login compares a password. -/
theorem innocent_of_type (hjob : ∀ event, job = .event event → event.type ≠ .AUTH_CLIENT) :
    Innocent p job h := by
  rintro login ⟨event, -, -, -, rfl, htype, -⟩
  exact hjob event rfl htype

section Programs

variable {α : Type} {m : M α} {Q : Hist → α → Prop} {E : Hist → StdException → Prop}

/-- A program of common calls. -/
theorem IsCommon.obeysE_count {throws : Prop} (hm : IsCommon throws m) (hh : Innocent p job h) :
    ObeysE (mayCount p job) (fun _ _ => True) (fun _ _ => True) h m := by
  refine ((hm h).strengthen (P := Innocent p job) ?_ ?_ hh).mono (fun _ _ _ => trivial)
    fun _ _ _ => trivial
  · exact fun h c r hc hh => hh.cons (Cmd.not_isLogin_of_isCommon hc) r
  · exact fun h c hc hh => mayCount_of_innocent hh (Cmd.not_isLogin_of_isCommon hc)

end Programs

namespace EventHandler

/-- What answers a login commits nothing. -/
theorem answerAuthentification_count (data : ClientDataStruct) (outcome : AuthOutcome) :
    ObeysE (mayCount p job) (fun _ _ => True) (fun _ _ => True) h
      (answerAuthentification data outcome) := by
  unfold answerAuthentification
  split_ifs
  · exact obeysE_call.mpr ⟨trivial, fun _ => trivial⟩
  · refine obeysE_bind.mpr (obeysE_call.mpr ⟨trivial, fun current => ?_⟩)
    split
    · exact obeysE_call.mpr ⟨trivial, fun _ => trivial⟩
    · exact obeysE_call.mpr ⟨trivial, fun _ => trivial⟩
    · exact obeysE_call.mpr ⟨trivial, fun _ => trivial⟩

end EventHandler

/-- The first search of a login decides whether the password was wrong. -/
theorem wrongPassword_searched {event : Event} {data : ClientDataStruct}
    (hdata : event.eventData = .clientData data) (hh : Innocent p (.event event) h)
    {found : List UserAuthRow} {login : Bytes}
    (hwrong : WrongPassword p login (.event event)
      (⟨.execPrepared (.searchUser data.login), some found⟩ :: ⟨.beginWork, some ()⟩ :: h)) :
    login = upToNul data.login ∧
      ∃ row rows, found = row :: rows ∧ row.password ≠ p.hashPassword data.password := by
  obtain ⟨event', data', row, rows, hjob, htype, hdata', hlogin, hmem, hne⟩ := hwrong
  cases hjob
  rw [hdata] at hdata'
  cases hdata'
  rcases List.mem_cons.mp hmem with heq | hold
  · cases heq
    exact ⟨hlogin.symm, row, rows, rfl, hne⟩
  · have hbefore := (hh.cons (c := .beginWork) rfl (some ())) login
    exact absurd ⟨event, data, row, rows, rfl, htype, hdata, hlogin, hold, hne⟩ hbefore

theorem authenticate_count {event : Event} {data : ClientDataStruct} (clientIp : Bytes)
    (htype : event.type = .AUTH_CLIENT) (hdata : event.eventData = .clientData data)
    (hh : Innocent p (.event event) h) (hcommit : ⟨.commitWork, some ()⟩ ∉ h)
    (hnone : ∀ login, ⟨.execPrepared (.incrementFailedLogins login), some ()⟩ ∉ h) :
    ObeysE (mayCount p (.event event)) (fun _ _ => True) (fun _ _ => True) h
      (Authenticator.authenticate p.hashPassword data.login data.password clientIp
        data.clientVersion) := by
  refine obeysE_catch (obeysE_withWork trivial trivial ?_) fun _ _ => obeysE_pure.mpr trivial
  have hsearch : (⟨.commitWork, some ()⟩ : Σ c, Cmd.Reply c) ∉
      (⟨.beginWork, some ()⟩ :: h : Hist) := by
    intro hmem
    rcases List.mem_cons.mp hmem with heq | hold
    · cases heq
    · exact hcommit hold
  refine obeysE_bind.mpr (obeysE_execPrepared hsearch (fun found => ?_) ⟨trivial, trivial⟩)
  have hunwinds : ∀ {α : Type} {m : M α} {h' : Hist},
      ObeysE (mayCount p (.event event)) (fun _ _ => True) (fun _ _ => True) h' m →
      ObeysE (mayCount p (.event event)) (fun _ _ => True)
        (fun h' _ => mayCount p (.event event) h' .unwindWork ∧ True) h' m :=
    fun hm => hm.mono (fun _ _ _ => trivial) fun _ _ _ => ⟨trivial, trivial⟩
  refine hunwinds ?_
  have hsearched := @wrongPassword_searched p _ event data hdata hh found
  cases found with
  | nil =>
    have hinnocent : Innocent p (.event event)
        (⟨.execPrepared (.searchUser data.login), some []⟩ :: ⟨.beginWork, some ()⟩ :: h) := by
      intro login hwrong
      obtain ⟨-, row, rows, heq, -⟩ := hsearched hwrong
      cases heq
    have hprobe : IsCommon True (do
        let status ← Authenticator.probeUserStatus data.login
        abortWork
        return ({ status := status, userId := 0 } : AuthOutcome)) :=
      makes_bind (probeUserStatus_common data.login) fun _ => makes_abort rfl (makes_pure _)
    exact hprobe.obeysE_count hinnocent
  | cons row rows =>
    refine obeysE_bind.mpr (obeysE_orThrow (fun userID _ => ?_) fun _ => trivial)
    by_cases hpassword : row.password ≠ p.hashPassword data.password
    · rw [if_pos hpassword]
      have hwrong : WrongPassword p (upToNul data.login) (.event event)
          (⟨.execPrepared (.searchUser data.login), some (row :: rows)⟩ ::
            ⟨.beginWork, some ()⟩ :: h) :=
        ⟨event, data, row, rows, rfl, htype, hdata, rfl, List.mem_cons_self, hpassword⟩
      have huncounted : ∀ login, ⟨.execPrepared (.incrementFailedLogins login), some ()⟩ ∉
          (⟨.execPrepared (.searchUser data.login), some (row :: rows)⟩ ::
            ⟨.beginWork, some ()⟩ :: h : Hist) := by
        intro login hmem
        rcases List.mem_cons.mp hmem with heq | hmem
        · cases heq
        · rcases List.mem_cons.mp hmem with heq | hold
          · cases heq
          · exact hnone login hold
      refine obeysE_bind.mpr (obeysE_execPrepared ⟨hwrong, huncounted, _, h, rfl⟩ (fun _ => ?_)
        trivial)
      refine obeysE_bind.mpr (obeysE_commitWork ?_ (obeysE_pure.mpr trivial) trivial)
      rintro login ⟨event', data', row', rows', hjob, -, hdata', hlogin, -⟩
      cases hjob
      rw [hdata] at hdata'
      cases hdata'
      exact ⟨data.login, _, hlogin, rfl⟩
    · rw [if_neg hpassword]
      have hinnocent : Innocent p (.event event)
          (⟨.execPrepared (.searchUser data.login), some (row :: rows)⟩ ::
            ⟨.beginWork, some ()⟩ :: h) := by
        intro login hwrong
        obtain ⟨-, row', rows', heq, hne⟩ := hsearched hwrong
        cases heq
        exact hpassword hne
      have hopen : IsCommon True (do
          execPrepared (.resetFailedLogins userID
            (if clientIp.isEmpty then str "127.0.0.1" else clientIp) data.clientVersion)
          commitWork
          Authenticator.openSession userID (row.role.getD 0) data.login data.clientVersion) :=
        makes_exec rfl fun _ => makes_commit rfl (openSession_common _ _ _ _)
      exact hopen.obeysE_count hinnocent

theorem handleAuthentificateClientEvent_count {event : Event} (htype : event.type = .AUTH_CLIENT) :
    ObeysE (mayCount p (.event event)) (fun _ _ => True) (fun _ _ => True) []
      (EventHandler.handleAuthentificateClientEvent p event) := by
  unfold EventHandler.handleAuthentificateClientEvent
  have hnil : Innocent p (.event event) [] := by
    rintro login ⟨_, _, _, _, _, _, _, _, hmem, _⟩
    cases hmem
  split
  · rename_i data hdata
    refine obeysE_bind.mpr (obeysE_tryCatch.mpr (obeysE_bind.mpr (obeysE_acquire trivial ?_ ?_)))
    · refine obeysE_pure.mpr (obeysE_bind.mpr (obeysE_call.mpr ⟨trivial, fun address => ?_⟩))
      refine obeysE_bind.mpr ((authenticate_count _ htype hdata ?_ ?_ ?_).mono ?_
        fun _ _ _ => trivial)
      · exact (hnil.cons rfl _).cons rfl _
      · intro hmem
        rcases List.mem_cons.mp hmem with heq | hmem
        · cases heq
        · cases List.mem_singleton.mp hmem
      · intro login hmem
        rcases List.mem_cons.mp hmem with heq | hmem
        · cases heq
        · cases List.mem_singleton.mp hmem
      · exact fun h' outcome _ => EventHandler.answerAuthentification_count data outcome
    · exact obeysE_pure.mpr (obeysE_call.mpr ⟨trivial, fun _ => trivial⟩)
  · exact obeysE_pure.mpr trivial

/-- A task that compares no password. -/
theorem obeysE_innocent {m : M Unit} {allowed : Cmd → Prop} (hm : Makes allowed True m)
    (hinnocent : ∀ h, Innocent p job h) (hlogin : ∀ c, allowed c → c.isLogin = false) :
    ObeysE (mayCount p job) (fun _ _ => True) (fun _ _ => True) [] m :=
  hm.obeysE fun h c hc => mayCount_of_innocent (hinnocent h) (hlogin c hc)

/-- Every task counts failures in order. -/
theorem program_counts (p : Platform) (cfg : ServerConfig) (job : Job) :
    Obeys (mayCount p job) (fun _ _ => True) [] ((loginServer p cfg).program job) := by
  cases job with
  | cleanup =>
    refine obeys_task (obeysE_innocent (periodicCleanup_plain _) (fun h => ?_) ?_)
    · exact innocent_of_type fun event heq => by cases heq
    · exact fun c hc => Cmd.not_isLogin_of_isPlain hc
  | event event =>
    refine obeys_task ?_
    by_cases htype : event.type = .AUTH_CLIENT
    · rw [EventHandler.dispatchEvent, htype]
      exact handleAuthentificateClientEvent_count htype
    · refine obeysE_innocent (EventHandler.dispatchEvent_calls p event) (fun h => ?_) ?_
      · refine innocent_of_type fun event' heq => ?_
        cases heq
        exact htype
      · exact fun c hc => eq_false_of_ne_true fun hlogin => htype (hc.login hlogin)

/-! ## What is known of a lawful history -/

/-- The open transaction has counted a failure of the account. -/
def CountsFailure (login : Bytes) (h : Hist) : Prop :=
  ∃ login', upToNul login' = login ∧
    ⟨.execPrepared (.incrementFailedLogins login'), some ()⟩ ∈ current h

/-- A transaction that has counted a failure of the account has committed. -/
def FailureDone (login : Bytes) (h : Hist) : Prop :=
  ∃ later earlier, CountedLast login earlier ∧ h = later ++ ⟨.commitWork, some ()⟩ :: earlier

theorem WrongPassword.mono {login : Bytes} {h' : Hist} (hwrong : WrongPassword p login job h)
    (hsub : h ⊆ h') : WrongPassword p login job h' := by
  obtain ⟨event, data, row, rows, hjob, htype, hdata, hlogin, hmem, hne⟩ := hwrong
  exact ⟨event, data, row, rows, hjob, htype, hdata, hlogin, hsub hmem, hne⟩

section Lawful

variable {login : Bytes} (hl : System.Lawful (mayCount p job) h)

include hl

/-- Who has counted a failure has found a wrong password. -/
theorem wrongPassword_of_counted
    (hmem : ⟨.execPrepared (.incrementFailedLogins login), some ()⟩ ∈ h) :
    WrongPassword p (upToNul login) job h := by
  obtain ⟨later, earlier, rfl⟩ := List.append_of_mem hmem
  obtain ⟨hwrong, -⟩ := hl.may_of_append
  exact hwrong.mono fun e he => List.mem_append_right _ (List.mem_cons_of_mem _ he)

/-- A transaction that commits a failure has counted it last. -/
theorem countsFailure_iff (hmay : mayCount p job h .commitWork) :
    CountsFailure login h ↔ CountedLast login h := by
  constructor
  · rintro ⟨login', rfl, hmem⟩
    exact hmay _ (wrongPassword_of_counted hl ((prefix_current h).subset hmem))
  · rintro ⟨login', h', hlogin, rfl⟩
    exact ⟨login', hlogin, List.mem_cons_self⟩

/-- A task counts one failure at most. -/
theorem FailureDone.not_counting (hdone : FailureDone login h) {login' : Bytes} :
    ¬ CountedLast login' h := by
  rintro ⟨login₂, h', -, rfl⟩
  obtain ⟨later, _, ⟨login₁, earlier, -, rfl⟩, heq⟩ := hdone
  obtain ⟨-, hnone, -⟩ := hl.1
  cases later with
  | nil => cases heq
  | cons e later =>
    obtain ⟨-, rfl⟩ := List.cons.inj heq
    exact hnone login₁ (by simp)

/-- A call with a wrong password has committed exactly if it has committed its failure. -/
theorem failureDone_iff :
    FailureDone login h ↔ WrongPassword p login job h ∧ ⟨.commitWork, some ()⟩ ∈ h := by
  constructor
  · rintro ⟨later, _, ⟨login', earlier, rfl, rfl⟩, rfl⟩
    exact ⟨wrongPassword_of_counted hl (by simp), by simp⟩
  · rintro ⟨⟨event, data, row, rows, hjob, htype, hdata, hlogin, hsearch, hne⟩, hcommit⟩
    obtain ⟨later, earlier, rfl⟩ := List.append_of_mem hcommit
    have hearlier : ⟨.execPrepared (.searchUser data.login), some (row :: rows)⟩ ∈ earlier := by
      rcases List.mem_append.mp hsearch with hlater | hsearch
      · -- the search came before the first commit
        obtain ⟨l₂, l₁, rfl⟩ := List.append_of_mem hlater
        rw [List.append_assoc, List.cons_append] at hl
        exact absurd (by simp) hl.may_of_append
      · rcases List.mem_cons.mp hsearch with heq | hold
        · cases heq
        · exact hold
    have hmay : mayCount p job earlier .commitWork := hl.may_of_append
    have hlast : CountedLast login earlier := hmay login
      ⟨event, data, row, rows, hjob, htype, hdata, hlogin, hearlier, hne⟩
    exact ⟨later, earlier, hlast, rfl⟩

end Lawful

theorem failureDone_cons {login : Bytes} {e : Σ c, Cmd.Reply c} :
    FailureDone login (e :: h) ↔
      FailureDone login h ∨ e = ⟨.commitWork, some ()⟩ ∧ CountedLast login h := by
  constructor
  · rintro ⟨later, earlier, hlast, heq⟩
    cases later with
    | nil =>
      obtain ⟨rfl, rfl⟩ := List.cons.inj heq
      exact Or.inr ⟨rfl, hlast⟩
    | cons e' later =>
      obtain ⟨-, rfl⟩ := List.cons.inj heq
      exact Or.inl ⟨later, earlier, hlast, rfl⟩
  · rintro (⟨later, earlier, hlast, rfl⟩ | ⟨rfl, hlast⟩)
    · exact ⟨e :: later, earlier, hlast, rfl⟩
    · exact ⟨[], h, hlast, rfl⟩

end LoginServer
