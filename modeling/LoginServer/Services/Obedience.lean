import LoginServer.Server.Discipline
import LoginServer.Services.CharacterName

/-!
# The services obey the discipline

One rule for each kind of call, then one lemma for each function of the services. A
lemma about a function that only runs inside a request assumes what its caller has
established.
-/

namespace LoginServer

open Database Interleaving

variable {job : Job} {h : Hist} {data : ClientDataStruct}

/-! ## Rules for one call -/

section Calls

variable {α : Type} {Q : Hist → α → Prop} {E : Hist → StdException → Prop}

theorem noToken_cons {c : Cmd} {r : c.Reply} (hc : c ≠ .randomUuid) (hh : NoToken h) :
    NoToken (⟨c, r⟩ :: h) := by
  intro tokenHash hmem
  rcases List.mem_cons.mp hmem with heq | hmem
  · cases heq
    exact hc rfl
  · exact hh tokenHash hmem

/-- A transaction whose exceptions are caught further out. -/
theorem obeysE_work {body : M α}
    (hbody : ObeysE (mayCall job) Q (fun _ _ => True) (⟨.beginWork, some ()⟩ :: h) body) :
    ObeysE (mayCall job) Q (fun _ _ => True) h (withWork body) :=
  obeysE_withWork trivial trivial (hbody.mono (fun _ _ hq => hq) fun _ _ _ => ⟨trivial, trivial⟩)

/-- The first statement of a transaction, and what comes after it. -/
theorem obeysE_first {q : Query} {f : q.Rows → M α} (hq : q.startsWork = true)
    (hmay : mayExec job (⟨.beginWork, some ()⟩ :: h) q)
    (hf : ∀ rows : q.Rows, ObeysE (mayCall job) Q (fun _ _ => True)
      (⟨.execPrepared q, some rows⟩ :: ⟨.beginWork, some ()⟩ :: h) (f rows)) :
    ObeysE (mayCall job) Q (fun _ _ => True) (⟨.beginWork, some ()⟩ :: h)
      (execPrepared q >>= f) :=
  obeysE_bind.mpr (obeysE_execPrepared ⟨Or.inl ⟨hq, h, rfl⟩, hmay⟩ hf trivial)

/-- A later statement, and what comes after it. -/
theorem obeysE_next {p q : Query} {r : p.Rows} {f : q.Rows → M α} (hq : q.follows p = true)
    (hmay : mayExec job (⟨.execPrepared p, some r⟩ :: h) q)
    (hf : ∀ rows : q.Rows, ObeysE (mayCall job) Q (fun _ _ => True)
      (⟨.execPrepared q, some rows⟩ :: ⟨.execPrepared p, some r⟩ :: h) (f rows)) :
    ObeysE (mayCall job) Q (fun _ _ => True) (⟨.execPrepared p, some r⟩ :: h)
      (execPrepared q >>= f) :=
  obeysE_bind.mpr (obeysE_execPrepared ⟨Or.inr ⟨p, rfl, hq⟩, hmay⟩ hf trivial)

/-- The commit after the last statement, and what comes after it. -/
theorem obeysE_commit {q : Query} {r : q.Rows} {f : Unit → M α} (hq : q.endsWork = true)
    (hf : ObeysE (mayCall job) Q (fun _ _ => True)
      (⟨.commitWork, some ()⟩ :: ⟨.execPrepared q, some r⟩ :: h) (f ())) :
    ObeysE (mayCall job) Q (fun _ _ => True) (⟨.execPrepared q, some r⟩ :: h)
      (commitWork >>= f) :=
  obeysE_bind.mpr (obeysE_commitWork ⟨q, r, h, rfl, Or.inl hq⟩ hf trivial)

theorem obeysE_abort {f : Unit → M α}
    (hf : ObeysE (mayCall job) Q E (⟨.abortWork, ()⟩ :: h) (f ())) :
    ObeysE (mayCall job) Q E h (abortWork >>= f) :=
  obeysE_bind.mpr (obeysE_call.mpr ⟨trivial, fun _ => hf⟩)

/-- A conversion makes no call. -/
theorem obeysE_convert {β : Type} {a : Option β} {f : β → M α}
    (hf : ∀ b, a = some b → ObeysE (mayCall job) Q (fun _ _ => True) h (f b)) :
    ObeysE (mayCall job) Q (fun _ _ => True) h (orThrow a >>= f) :=
  obeysE_bind.mpr (obeysE_orThrow hf fun _ => trivial)

/-- Errors disclose nothing that the discipline speaks about. -/
theorem obeysE_sendError {socket : Option Socket} {message : Json} {Q : Hist → Unit → Prop}
    (hQ : Q (⟨.sendResponse socket (str "error") message, ()⟩ :: h) ()) :
    ObeysE (mayCall job) Q E h (sendResponse socket (str "error") message) := by
  refine obeysE_call.mpr ⟨fun hstatus => ?_, fun _ => hQ⟩
  rw [str_inj] at hstatus
  exact absurd hstatus (by decide)

theorem obeysE_sendSuccess {socket : Option Socket} {message : Json} {Q : Hist → Unit → Prop}
    (hhash : ∀ v, headerHash message = some v → ∃ hash, v = .string hash ∧ Disclosable job h hash)
    (hQ : Q (⟨.sendResponse socket (str "success") message, ()⟩ :: h) ()) :
    ObeysE (mayCall job) Q E h (sendResponse socket (str "success") message) :=
  obeysE_call.mpr ⟨fun _ => hhash, fun _ => hQ⟩

end Calls

/-! ## Authentication -/

namespace Authenticator

theorem probeUserStatus_obeys (login : Bytes) :
    ObeysE (mayCall job) (fun _ status => status ≠ .OK) (fun _ _ => True) h
      (probeUserStatus login) := by
  refine obeysE_catch (obeysE_work (obeysE_first rfl trivial fun rows => ?_)) fun _ _ => ?_
  · refine obeysE_abort (obeysE_pure.mpr ?_)
    cases rows with
    | nil => exact fun hs => nomatch hs
    | cons row rows =>
      dsimp only
      split_ifs <;> decide
  · exact obeysE_pure.mpr (by decide)

theorem checkActiveBan_obeys (userID : Int) (hfresh : NoToken h) :
    ObeysE (mayCall job)
      (fun h' r => NoToken h' ∧ h <:+ h' ∧ ∀ o, r = some o → AuthOutcome.status o ≠ .OK)
      (fun _ _ => True) h (checkActiveBan userID) := by
  refine obeysE_work (obeysE_first rfl trivial fun rows => obeysE_abort ?_)
  have hfresh' : NoToken (⟨.abortWork, ()⟩ :: ⟨.execPrepared (.checkActiveBan userID), some rows⟩ ::
      ⟨.beginWork, some ()⟩ :: h) := by
    refine noToken_cons ?_ (noToken_cons ?_ (noToken_cons ?_ hfresh)) <;> exact fun hc => nomatch hc
  have hsuffix : h <:+ (⟨.abortWork, ()⟩ ::
      ⟨.execPrepared (.checkActiveBan userID), some rows⟩ :: ⟨.beginWork, some ()⟩ :: h) :=
    List.suffix_append [_, _, _] h
  cases rows with
  | nil =>
    refine obeysE_pure.mpr ⟨hfresh', hsuffix, fun o ho => ?_⟩
    cases ho
  | cons row rows =>
    refine obeysE_pure.mpr ⟨hfresh', hsuffix, fun o ho => ?_⟩
    cases ho
    exact fun hs => nomatch hs

/-- The login of the request was found, as the user `userID`. -/
def Found (job : Job) (userID : Int) (h : Hist) : Prop :=
  ∀ data, job.request = some data → ∃ row rows,
    ⟨.execPrepared (.searchUser data.login), some (row :: rows)⟩ ∈ h ∧ row.id = userID

theorem Found.mono {userID : Int} {h' : Hist} (hf : Found job userID h) (hh : h <:+ h') :
    Found job userID h' := by
  intro data hdata
  obtain ⟨row, rows, hmem, hid⟩ := hf data hdata
  exact ⟨row, rows, hh.subset hmem, hid⟩

/-- The sessions of the user are revoked, a new one is created and committed. -/
theorem createSession_obeys {userID : Int} (clientVersion : Bytes) (hfresh : NoToken h)
    (huser : Found job userID h) :
    ObeysE (mayCall job)
      (fun h' tokenHash => ∃ h'', h' = ⟨.commitWork, some ()⟩ ::
        ⟨.execPrepared (.createUserSession userID tokenHash clientVersion), some ()⟩ :: h'')
      (fun _ _ => True) h (createSession userID clientVersion) := by
  refine obeysE_bind.mpr (obeysE_call.mpr ⟨hfresh, fun tokenHash => obeysE_work ?_⟩)
  have hrevoke : Found job userID (⟨.beginWork, some ()⟩ :: ⟨.randomUuid, tokenHash⟩ :: h) :=
    huser.mono (List.suffix_append [_, _] h)
  refine obeysE_first rfl hrevoke fun _ => ?_
  refine obeysE_next rfl (Or.inr ⟨userID, _, rfl⟩) fun _ => ?_
  refine obeysE_next rfl ⟨_, rfl, h, Or.inr rfl⟩ fun _ => ?_
  exact obeysE_commit rfl (obeysE_pure.mpr ⟨_, rfl⟩)

/-- An outcome OK has just stored the entry of its user. -/
def OutcomePost (h : Hist) (outcome : AuthOutcome) : Prop :=
  outcome.status = .OK → ∃ d h', h = ⟨.storeClientData d, ()⟩ :: h' ∧ d.clientId = outcome.userId

theorem openSession_obeys {userID : Int} (role : Int) (login clientVersion : Bytes)
    (hfresh : NoToken h) (huser : Found job userID h) :
    ObeysE (mayCall job) OutcomePost (fun _ _ => True) h
      (openSession userID role login clientVersion) := by
  refine obeysE_bind.mpr ((checkActiveBan_obeys userID hfresh).mono ?_ fun _ _ _ => trivial)
  rintro h₁ (_ | banned) ⟨hfresh₁, hsuffix, hban⟩
  · refine obeysE_bind.mpr ((createSession_obeys clientVersion hfresh₁
      (huser.mono hsuffix)).mono ?_ fun _ _ _ => trivial)
    rintro h₂ tokenHash ⟨h₃, rfl⟩
    refine obeysE_bind.mpr (obeysE_call.mpr ⟨⟨clientVersion, h₃, rfl⟩, fun _ => ?_⟩)
    exact obeysE_pure.mpr fun _ => ⟨_, _, rfl, rfl⟩
  · exact obeysE_pure.mpr fun hok => absurd hok (hban banned rfl)

theorem authenticate_obeys (hashPassword : Bytes → Bytes)
    {login password clientIp clientVersion : Bytes} (hfresh : NoToken h)
    (hlogin : ∀ data, job.request = some data → data.login = login) :
    ObeysE (mayCall job) OutcomePost (fun _ _ => True) h
      (authenticate hashPassword login password clientIp clientVersion) := by
  refine obeysE_catch (obeysE_work (obeysE_first rfl trivial fun rows => ?_)) fun _ _ => ?_
  · cases rows with
    | nil =>
      refine obeysE_bind.mpr ((probeUserStatus_obeys login).mono ?_ fun _ _ _ => trivial)
      intro h₁ status hstatus
      exact obeysE_abort (obeysE_pure.mpr fun hok => absurd hok hstatus)
    | cons row rows =>
      refine obeysE_convert fun userID huser => ?_
      by_cases hpassword : row.password ≠ hashPassword password
      · rw [if_pos hpassword]
        refine obeysE_next (by simp [Query.follows]) trivial fun _ => ?_
        exact obeysE_commit rfl (obeysE_pure.mpr fun hok => nomatch hok)
      · rw [if_neg hpassword]
        refine obeysE_next rfl trivial fun _ => obeysE_commit rfl ?_
        refine openSession_obeys _ _ _ ?_ ?_
        · refine noToken_cons ?_ (noToken_cons ?_ (noToken_cons ?_ (noToken_cons ?_ hfresh))) <;>
            exact fun hc => nomatch hc
        · intro data hdata
          rw [hlogin data hdata]
          exact ⟨row, rows, by simp, (integer_eq_some huser).symm⟩
  · exact obeysE_pure.mpr fun hok => nomatch hok

/-! ### When the outcome is OK -/

/-- No entry has been stored. -/
def NotStored (h : Hist) : Prop := ∀ d, ⟨.storeClientData d, ()⟩ ∉ h

theorem NotStored.cons (hh : NotStored h) {cmd : Cmd} (hcmd : ∀ d, cmd ≠ .storeClientData d)
    (r : cmd.Reply) : NotStored (⟨cmd, r⟩ :: h) := by
  intro d hmem
  rcases List.mem_cons.mp hmem with heq | hmem
  · cases heq
    exact hcmd d rfl
  · exact hh d hmem

/-- Any call may be made. -/
def anyCall : Hist → Cmd → Prop := fun _ _ => True

section Quiet

variable {α : Type} {Q : Hist → α → Prop}

/-- A statement stores no entry, whether it succeeds or throws. -/
theorem quiet_execPrepared {q : Query} {f : q.Rows → M α} (hh : NotStored h)
    (hf : ∀ rows h', NotStored h' → ObeysE anyCall Q (fun h' _ => NotStored h') h' (f rows)) :
    ObeysE anyCall Q (fun h' _ => NotStored h') h (execPrepared q >>= f) :=
  obeysE_bind.mpr (obeysE_execPrepared trivial
    (fun rows => hf rows _ (hh.cons (by simp) _))
    (hh.cons (by simp) _))

theorem quiet_commitWork {f : Unit → M α} (hh : NotStored h)
    (hf : ∀ h', NotStored h' → ObeysE anyCall Q (fun h' _ => NotStored h') h' (f ())) :
    ObeysE anyCall Q (fun h' _ => NotStored h') h (commitWork >>= f) :=
  obeysE_bind.mpr (obeysE_commitWork trivial (hf _ (hh.cons (by simp) _))
    (hh.cons (by simp) _))

theorem quiet_abortWork {f : Unit → M α} (hh : NotStored h)
    (hf : ∀ h', NotStored h' → ObeysE anyCall Q (fun h' _ => NotStored h') h' (f ())) :
    ObeysE anyCall Q (fun h' _ => NotStored h') h (abortWork >>= f) :=
  obeysE_bind.mpr (obeysE_call.mpr ⟨trivial, fun _ => hf _ (hh.cons (by simp) _)⟩)

theorem quiet_withWork {body : M α} (hh : NotStored h)
    (hbody : ∀ h', NotStored h' → ObeysE anyCall Q (fun h' _ => NotStored h') h' body) :
    ObeysE anyCall Q (fun h' _ => NotStored h') h (withWork body) := by
  refine obeysE_withWork trivial (hh.cons (by simp) _) ?_
  refine (hbody _ (hh.cons (by simp) _)).mono (fun _ _ hq => hq) fun h' _ hh' => ?_
  exact ⟨trivial, hh'.cons (by simp) _⟩

end Quiet

/-- The outcome is OK if and only if the entry has been stored. -/
def OkIffStored (h : Hist) (outcome : AuthOutcome) : Prop :=
  outcome.status = .OK ↔ ¬ NotStored h

theorem okIffStored_of_ne {outcome : AuthOutcome} (hh : NotStored h)
    (hne : outcome.status ≠ .OK) : OkIffStored h outcome :=
  ⟨fun hok => absurd hok hne, fun hstored => absurd hh hstored⟩

theorem probeUserStatus_quiet (login : Bytes) (hh : NotStored h) :
    ObeysE anyCall (fun h' status => NotStored h' ∧ status ≠ .OK) (fun h' _ => NotStored h') h
      (probeUserStatus login) := by
  refine obeysE_tryCatch.mpr ((quiet_withWork hh fun h₁ hh₁ => ?_).mono (fun _ _ hq => hq)
    fun h₁ _ hh₁ => obeysE_pure.mpr ⟨hh₁, by decide⟩)
  refine quiet_execPrepared hh₁ fun rows h₂ hh₂ => quiet_abortWork hh₂ fun h₃ hh₃ => ?_
  refine obeysE_pure.mpr ⟨hh₃, ?_⟩
  cases rows with
  | nil => exact fun hs => nomatch hs
  | cons row rows =>
    dsimp only
    split_ifs <;> decide

theorem checkActiveBan_quiet (userID : Int) (hh : NotStored h) :
    ObeysE anyCall (fun h' r => NotStored h' ∧ ∀ o, r = some o → AuthOutcome.status o ≠ .OK)
      (fun h' _ => NotStored h') h (checkActiveBan userID) := by
  refine quiet_withWork hh fun h₁ hh₁ => quiet_execPrepared hh₁ fun rows h₂ hh₂ =>
    quiet_abortWork hh₂ fun h₃ hh₃ => ?_
  cases rows with
  | nil =>
    refine obeysE_pure.mpr ⟨hh₃, fun o ho => ?_⟩
    cases ho
  | cons row rows =>
    refine obeysE_pure.mpr ⟨hh₃, fun o ho => ?_⟩
    cases ho
    exact fun hs => nomatch hs

theorem createSession_quiet (userID : Int) (clientVersion : Bytes) (hh : NotStored h) :
    ObeysE anyCall (fun h' _ => NotStored h') (fun h' _ => NotStored h') h
      (createSession userID clientVersion) := by
  refine obeysE_bind.mpr (obeysE_call.mpr ⟨trivial, fun tokenHash => ?_⟩)
  refine quiet_withWork (hh.cons (by simp) _) fun h₁ hh₁ =>
    quiet_execPrepared hh₁ fun _ h₂ hh₂ => quiet_execPrepared hh₂ fun _ h₃ hh₃ =>
      quiet_execPrepared hh₃ fun _ h₄ hh₄ => quiet_commitWork hh₄ fun h₅ hh₅ => ?_
  exact obeysE_pure.mpr hh₅

theorem openSession_okIffStored (userID role : Int) (login clientVersion : Bytes)
    (hh : NotStored h) :
    ObeysE anyCall OkIffStored (fun h' _ => NotStored h') h
      (openSession userID role login clientVersion) := by
  refine obeysE_bind.mpr ((checkActiveBan_quiet userID hh).mono ?_ fun _ _ hq => hq)
  rintro h₁ (_ | banned) ⟨hh₁, hban⟩
  · refine obeysE_bind.mpr ((createSession_quiet userID clientVersion hh₁).mono
      (fun h₂ tokenHash hh₂ => ?_) fun _ _ hq => hq)
    refine obeysE_bind.mpr (obeysE_call.mpr ⟨trivial, fun _ => obeysE_pure.mpr ?_⟩)
    exact ⟨fun _ hno => hno _ List.mem_cons_self, fun _ => rfl⟩
  · exact obeysE_pure.mpr (okIffStored_of_ne hh₁ (hban banned rfl))

/-- `authenticate` returns OK if and only if it has stored the entry of its session. -/
theorem authenticate_okIffStored (hashPassword : Bytes → Bytes)
    (login password clientIp clientVersion : Bytes) (hh : NotStored h) :
    ObeysE anyCall OkIffStored (fun _ _ => False) h
      (authenticate hashPassword login password clientIp clientVersion) := by
  refine obeysE_tryCatch.mpr ((quiet_withWork hh fun h₁ hh₁ => ?_).mono (fun _ _ hq => hq)
    fun h₁ _ hh₁ => obeysE_pure.mpr (okIffStored_of_ne hh₁ (by simp)))
  refine quiet_execPrepared hh₁ fun rows h₂ hh₂ => ?_
  cases rows with
  | nil =>
    refine obeysE_bind.mpr ((probeUserStatus_quiet login hh₂).mono ?_ fun _ _ hq => hq)
    rintro h₃ status ⟨hh₃, hstatus⟩
    exact quiet_abortWork hh₃ fun h₄ hh₄ => obeysE_pure.mpr (okIffStored_of_ne hh₄ hstatus)
  | cons row rows =>
    refine obeysE_bind.mpr (obeysE_orThrow (fun userID _ => ?_) fun _ => hh₂)
    by_cases hpassword : row.password ≠ hashPassword password
    · rw [if_pos hpassword]
      refine quiet_execPrepared hh₂ fun _ h₃ hh₃ => quiet_commitWork hh₃ fun h₄ hh₄ => ?_
      exact obeysE_pure.mpr (okIffStored_of_ne hh₄ fun hok => nomatch hok)
    · rw [if_neg hpassword]
      refine quiet_execPrepared hh₂ fun _ h₃ hh₃ => quiet_commitWork hh₃ fun h₄ hh₄ => ?_
      exact openSession_okIffStored _ _ _ _ hh₄

end Authenticator

/-! ## Registration -/

namespace AccountManager

theorem checkLoginAvailable_obeys {login : Bytes} (hverbatim : Verbatim 20 login) :
    ObeysE (mayCall job)
      (fun h' available => ∃ rows : List Unit, available = rows.isEmpty ∧
        h' = ⟨.abortWork, ()⟩ :: ⟨.execPrepared (.checkLoginAvailable login), some rows⟩ ::
          ⟨.beginWork, some ()⟩ :: h)
      (fun _ _ => True) h (checkLoginAvailable login) := by
  refine obeysE_work (obeysE_first rfl hverbatim fun rows => obeysE_abort ?_)
  exact obeysE_pure.mpr ⟨rows, rfl, rfl⟩

/-- The history right after a new account and its session were committed. -/
def AccountCommitted (login : Bytes) (userId : Int) (sessionHash : Bytes) (h : Hist) : Prop :=
  ∃ clientVersion h', ⟨.randomUuid, sessionHash⟩ ∈ h' ∧
    Registers login
      (⟨.execPrepared (.createUserSession userId sessionHash clientVersion), some ()⟩ :: h') ∧
    h = ⟨.commitWork, some ()⟩ ::
      ⟨.execPrepared (.createUserSession userId sessionHash clientVersion), some ()⟩ :: h'

theorem createAccount_obeys {login : Bytes} (passwordHash email ipStr clientVersion : Bytes)
    (hreg : ∃ reg, job.registration = some reg ∧ reg.login = login) (hrequest : job.request = none)
    (hfresh : NoToken h) (hverbatim : Verbatim 20 login) :
    ObeysE (mayCall job)
      (fun h' r => ∀ userId sessionHash, r = some (userId, sessionHash) →
        AccountCommitted login userId sessionHash h')
      (fun _ _ => True)
      (⟨.abortWork, ()⟩ :: ⟨.execPrepared (.checkLoginAvailable login), some []⟩ ::
        ⟨.beginWork, some ()⟩ :: h)
      (createAccount login passwordHash email ipStr clientVersion) := by
  refine obeysE_work (obeysE_first rfl ⟨hreg, hverbatim, h, rfl⟩ fun rows => ?_)
  cases rows with
  | nil =>
    refine obeysE_abort (obeysE_pure.mpr fun userId sessionHash hr => ?_)
    cases hr
  | cons id rows =>
    refine obeysE_convert fun userId _ => ?_
    refine obeysE_bind.mpr (obeysE_call.mpr ⟨?_, fun sessionHash => ?_⟩)
    · refine noToken_cons ?_ (noToken_cons ?_ (noToken_cons ?_ (noToken_cons ?_
        (noToken_cons ?_ hfresh)))) <;> exact fun hc => nomatch hc
    · have hrevoke : ∀ {h' : Hist}, mayExec job h' (.revokeUserSessions userId) := by
        intro h' data hdata
        rw [hrequest] at hdata
        cases hdata
      refine obeysE_bind.mpr (obeysE_execPrepared ⟨Or.inr ⟨_, rfl, rfl⟩, hrevoke⟩ (fun _ => ?_)
        trivial)
      refine obeysE_next rfl (Or.inr ⟨userId, _, rfl⟩) fun _ => ?_
      refine obeysE_next rfl ⟨_, rfl, _, Or.inl rfl⟩ fun _ => obeysE_commit rfl ?_
      refine obeysE_pure.mpr fun u sessionHash' hr => ?_
      cases hr
      refine ⟨clientVersion, _, by simp,
        ⟨passwordHash, email, ipStr, clientVersion, id :: rows, ?_⟩, rfl⟩
      simp only [current]
      simp

/-- What `registerAccount`, called after `h`, has done when it returns. -/
def RegisterPost (login password email : Bytes) (h h' : Hist) :
    AccountRegisterResult × Int × Bytes → Prop
  | (.OK, userId, sessionHash) =>
    ∃ d h'', AccountCommitted login userId sessionHash h'' ∧ h' = ⟨.storeClientData d, ()⟩ :: h''
  | (.ERR_LOGIN_TAKEN, _) =>
    ∃ rows, h' = ⟨.abortWork, ()⟩ ::
      ⟨.execPrepared (.checkLoginAvailable login), some (() :: rows)⟩ :: ⟨.beginWork, some ()⟩ :: h
  | (.ERR_DB, _) => True
  | (code, _) => h' = h ∧ validateRegistration login password email = code

theorem tryRegister_obeys (hashPassword : Bytes → Bytes)
    {login password email registrationIp clientVersion : Bytes}
    (hreg : ∃ reg, job.registration = some reg ∧ reg.login = login) (hrequest : job.request = none)
    (hfresh : NoToken h) (hverbatim : Verbatim 20 login) :
    ObeysE (mayCall job) (RegisterPost login password email h) (fun _ _ => True) h
      (tryRegister hashPassword login password email registrationIp clientVersion) := by
  refine obeysE_bind.mpr ((checkLoginAvailable_obeys hverbatim).mono ?_ fun _ _ _ => trivial)
  rintro h₁ available ⟨rows, rfl, rfl⟩
  cases rows with
  | cons row rows => exact obeysE_pure.mpr ⟨rows, rfl⟩
  | nil =>
    refine obeysE_bind.mpr ((createAccount_obeys _ _ _ _ hreg hrequest hfresh hverbatim).mono ?_
      fun _ _ _ => trivial)
    rintro h₂ (_ | ⟨userId, sessionHash⟩) hcommitted
    · exact obeysE_pure.mpr trivial
    · have hcommitted := hcommitted userId sessionHash rfl
      refine obeysE_bind.mpr (obeysE_call.mpr
        ⟨?_, fun _ => obeysE_pure.mpr ⟨_, h₂, hcommitted, rfl⟩⟩)
      obtain ⟨clientVersion, h₃, -, -, rfl⟩ := hcommitted
      exact ⟨clientVersion, h₃, rfl⟩

/-- Validation alone never says that a login is taken or the database failed. -/
theorem validateRegistration_ne (login password email : Bytes) :
    validateRegistration login password email ≠ .ERR_LOGIN_TAKEN ∧
    validateRegistration login password email ≠ .ERR_DB := by
  unfold validateRegistration
  split_ifs <;> decide

theorem registerPost_invalid {login password email : Bytes} {h : Hist}
    (hvalid : validateRegistration login password email ≠ .OK) :
    RegisterPost login password email h h (validateRegistration login password email, 0, []) := by
  obtain ⟨htaken, hdb⟩ := validateRegistration_ne login password email
  cases hcode : validateRegistration login password email with
  | OK => exact absurd hcode hvalid
  | ERR_LOGIN_TAKEN => exact absurd hcode htaken
  | ERR_DB => exact absurd hcode hdb
  | _ => exact ⟨rfl, hcode⟩

theorem matchesLoginRegex_of_valid {login password email : Bytes}
    (hvalid : validateRegistration login password email = .OK) :
    matchesLoginRegex login = true := by
  unfold validateRegistration at hvalid
  split_ifs at hvalid
  simpa using ‹¬(!matchesLoginRegex login) = true›

theorem registerAccount_obeys (hashPassword : Bytes → Bytes)
    {login password email registrationIp clientVersion : Bytes}
    (hreg : ∃ reg, job.registration = some reg ∧ reg.login = login) (hrequest : job.request = none)
    (hfresh : NoToken h) :
    ObeysE (mayCall job) (RegisterPost login password email h) (fun _ _ => True) h
      (registerAccount hashPassword login password email registrationIp clientVersion) := by
  unfold registerAccount
  by_cases hvalid : validateRegistration login password email = .OK
  · rw [if_neg (not_not.mpr hvalid)]
    have hverbatim := verbatim_of_matchesLoginRegex (matchesLoginRegex_of_valid hvalid)
    exact obeysE_catch (tryRegister_obeys hashPassword hreg hrequest hfresh hverbatim) fun _ _ =>
      obeysE_pure.mpr trivial
  · rw [if_pos hvalid]
    exact obeysE_pure.mpr (registerPost_invalid hvalid)

end AccountManager

/-! ## Characters -/

theorem OnBehalf.mono {p q : ClientDataStruct → Prop} {h' : Hist} (hb : OnBehalf job h p)
    (hh : h <:+ h') (hp : ∀ data, p data → q data) : OnBehalf job h' q := by
  obtain ⟨data, hrequest, hvalid, hdata⟩ := hb
  exact ⟨data, hrequest, hh.subset hvalid, hp data hdata⟩

namespace CharacterManager

theorem getCharactersListRow_obeys (row : CharacterListRow) :
    ObeysE (mayCall job) (fun h' _ => h' = h) (fun h' _ => h' = h) h
      (getCharactersListRow row) := by
  refine obeysE_bind.mpr (obeysE_orThrow (fun _ _ => ?_) fun _ => rfl)
  refine obeysE_bind.mpr (obeysE_orThrow (fun _ _ => ?_) fun _ => rfl)
  refine obeysE_bind.mpr (obeysE_orThrow (fun _ _ => ?_) fun _ => rfl)
  refine obeysE_bind.mpr (obeysE_orThrow (fun _ _ => ?_) fun _ => rfl)
  refine obeysE_bind.mpr (obeysE_orThrow (fun _ _ => ?_) fun _ => rfl)
  refine obeysE_bind.mpr (obeysE_orThrow (fun _ _ => ?_) fun _ => rfl)
  exact obeysE_pure.mpr rfl

theorem getCharactersListLoop_obeys (rows : List CharacterListRow)
    (charactersList : List CharacterDataStruct) :
    ObeysE (mayCall job) (fun h' _ => h' = h) (fun _ _ => True) h
      (getCharactersListLoop charactersList rows) := by
  induction rows generalizing charactersList with
  | nil => exact obeysE_pure.mpr rfl
  | cons row rows ih =>
    refine obeysE_bind.mpr (obeysE_tryCatch.mpr (obeysE_bind.mpr
      ((getCharactersListRow_obeys row).mono ?_ ?_)))
    · rintro h' character rfl
      exact obeysE_pure.mpr (ih _)
    · rintro h' e rfl
      exact obeysE_pure.mpr (obeysE_pure.mpr rfl)

theorem getCharactersList_obeys {accountId : Int}
    (hmay : ∀ h', h <:+ h' → mayExec job h' (.getCharactersList accountId)) :
    ObeysE (mayCall job) (fun _ _ => True) (fun _ _ => True) h (getCharactersList accountId) := by
  refine obeysE_catch (obeysE_work (obeysE_first rfl (hmay _ (List.suffix_append [_] h))
    fun rows => ?_)) fun _ _ => obeysE_pure.mpr trivial
  cases rows with
  | nil => exact obeysE_abort (obeysE_pure.mpr trivial)
  | cons row rows =>
    refine obeysE_bind.mpr ((getCharactersListLoop_obeys _ _).mono ?_ fun _ _ _ => trivial)
    rintro h' ⟨charactersList, complete⟩ rfl
    cases complete with
    | false => exact obeysE_bind.mpr (obeysE_call.mpr ⟨trivial, fun _ => obeysE_pure.mpr trivial⟩)
    | true =>
      refine obeysE_bind.mpr (obeysE_catch (Q := fun _ _ => _)
        (obeysE_commitWork ⟨_, _, _, rfl, Or.inl rfl⟩ ?_ trivial) fun _ _ => ?_)
      · exact obeysE_pure.mpr trivial
      · exact obeysE_call.mpr ⟨trivial, fun _ => obeysE_pure.mpr trivial⟩

theorem getCharacterEquipmentPreview_obeys (characterId : Int) :
    ObeysE (mayCall job) (fun _ _ => True) (fun _ _ => True) h
      (getCharacterEquipmentPreview characterId) :=
  obeysE_catch (obeysE_work (obeysE_first rfl trivial fun _ =>
    obeysE_commit rfl (obeysE_pure.mpr trivial))) fun _ _ => obeysE_pure.mpr trivial

/-- The statements that set up a character which this task has inserted. -/
theorem initCharacter_obeys {accountId newCharacterId : Int}
    {characterName characterClass characterRace characterGender : Bytes} {ids : List Int}
    (hid : newCharacterId ∈ ids)
    (hbehalf : OnBehalf job h fun data => data.clientId = accountId) :
    ObeysE (mayCall job) (fun _ _ => True) (fun _ _ => True)
      (⟨.execPrepared (.createCharacter accountId characterName characterClass characterRace
        characterGender), some ids⟩ :: h)
      (initCharacter newCharacterId characterClass) := by
  have hown : ∀ h', (⟨.execPrepared (.createCharacter accountId characterName characterClass
      characterRace characterGender), some ids⟩ :: h) <:+ h' →
      OnBehalf job h' fun data => Created data.clientId newCharacterId h' := by
    intro h' hh
    refine hbehalf.mono ((List.suffix_cons _ _).trans hh) fun data hdata => ?_
    rw [hdata]
    exact ⟨_, _, _, _, ids, hh.subset List.mem_cons_self, hid⟩
  refine obeysE_next rfl trivial fun classResult => ?_
  refine obeysE_next rfl (hown _ (List.suffix_append [_] _)) fun _ => ?_
  refine obeysE_next rfl (hown _ (List.suffix_append [_, _] _)) fun _ => ?_
  by_cases hclass : classResult.headD 0 > 0
  · rw [if_pos hclass]
    refine obeysE_next rfl (hown _ (List.suffix_append [_, _, _] _)) fun _ => ?_
    refine obeysE_next rfl (hown _ (List.suffix_append [_, _, _, _] _)) fun _ => ?_
    refine obeysE_next rfl (hown _ (List.suffix_append [_, _, _, _, _] _)) fun _ => ?_
    exact obeysE_commit rfl (obeysE_pure.mpr trivial)
  · rw [if_neg hclass]
    exact obeysE_commit rfl (obeysE_pure.mpr trivial)

theorem insertCharacter_obeys {accountId : Int}
    {characterName characterClass characterRace characterGender : Bytes} {count : List Int}
    (hcount : count.headD 0 < MAX_CHARS_PER_ACCOUNT) (hverbatim : Verbatim 20 characterName)
    (hbehalf : OnBehalf job h fun data => data.clientId = accountId) :
    ObeysE (mayCall job) (fun _ _ => True) (fun _ _ => True)
      (⟨.execPrepared (.checkCharacterNameExists characterName), some []⟩ ::
        ⟨.execPrepared (.getCharacterSlotCount accountId), some count⟩ ::
        ⟨.beginWork, some ()⟩ :: h)
      (insertCharacter accountId characterName characterClass characterRace characterGender) := by
  have hbehalf' := hbehalf.mono (q := fun data => data.clientId = accountId)
    (List.suffix_append [⟨.execPrepared (.checkCharacterNameExists characterName), some []⟩,
      ⟨.execPrepared (.getCharacterSlotCount accountId), some count⟩,
      ⟨.beginWork, some ()⟩] h) fun _ hdata => hdata
  refine obeysE_next (by simp [Query.follows]) ?_ fun ids => ?_
  · obtain ⟨data, hrequest, hvalid, hdata⟩ := hbehalf'
    exact ⟨data, hrequest, hvalid, hdata, hverbatim, count, h, hcount, rfl⟩
  · cases ids with
    | nil => exact obeysE_abort (obeysE_pure.mpr trivial)
    | cons id ids =>
      refine obeysE_convert fun newCharacterId hid => ?_
      exact initCharacter_obeys (by simp [integer_eq_some hid]) hbehalf'

theorem tryCreate_obeys {accountId : Int}
    {characterName characterClass characterRace characterGender : Bytes}
    (hverbatim : Verbatim 20 characterName)
    (hbehalf : OnBehalf job h fun data => data.clientId = accountId) :
    ObeysE (mayCall job) (fun _ _ => True) (fun _ _ => True) h
      (tryCreate accountId characterName characterClass characterRace characterGender) := by
  refine obeysE_work (obeysE_first rfl trivial fun slotResult => ?_)
  refine obeysE_convert fun slotCount hslot => ?_
  by_cases hfull : slotCount ≥ MAX_CHARS_PER_ACCOUNT
  · rw [if_pos hfull]
    exact obeysE_abort (obeysE_pure.mpr trivial)
  · rw [if_neg hfull]
    refine obeysE_next rfl ⟨hverbatim, accountId, slotResult, h, rfl⟩ fun nameCheck => ?_
    cases nameCheck with
    | cons row rows => exact obeysE_abort (obeysE_pure.mpr trivial)
    | nil =>
      refine insertCharacter_obeys ?_ hverbatim hbehalf
      rw [← integer_eq_some hslot]
      exact not_le.mp hfull

theorem createCharacter_obeys {accountId : Int}
    {characterName characterClass characterRace characterGender : Bytes}
    (hbehalf : OnBehalf job h fun data => data.clientId = accountId) :
    ObeysE (mayCall job) (fun _ _ => True) (fun _ _ => True) h
      (createCharacter accountId characterName characterClass characterRace characterGender) := by
  unfold createCharacter
  split_ifs with hmissing hname hspace
  · exact obeysE_pure.mpr trivial
  · exact obeysE_pure.mpr trivial
  · exact obeysE_pure.mpr trivial
  · have hverbatim := verbatim_of_matchesNameRegex (by simpa using hname)
    exact obeysE_catch (tryCreate_obeys hverbatim hbehalf) fun _ _ => obeysE_pure.mpr trivial

theorem deleteCharacter_obeys {accountId : Int} (characterId : Int)
    (hbehalf : OnBehalf job h fun data => data.clientId = accountId) :
    ObeysE (mayCall job) (fun _ _ => True) (fun _ _ => True) h
      (deleteCharacter accountId characterId) := by
  have hbehalf' := hbehalf.mono (q := fun data => data.clientId = accountId)
    (List.suffix_append [⟨.beginWork, some ()⟩] h) fun _ hdata => hdata
  exact obeysE_catch (obeysE_work (obeysE_first rfl hbehalf' fun _ =>
    obeysE_commit rfl (obeysE_pure.mpr trivial))) fun _ _ => obeysE_pure.mpr trivial

end CharacterManager

end LoginServer
