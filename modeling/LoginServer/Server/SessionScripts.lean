import LoginServer.Server.Schedule

/-!
# The transaction that opens a session

A login generates a token and then, in one transaction, revokes the sessions of its
user, deletes expired ones and inserts the new one. What this order means for a thread
follows from its history alone: `script_of_revokes` lists what such a transaction can
have executed, and `create_of_mayCreate` says that a thread creates one session at most.

`TokenInv` is about all threads together: what one of them has generated is new, and
nobody else's.
-/

namespace LoginServer

open Database Interleaving

variable {p : Platform} {cfg : ServerConfig} {c c' : ServerState} {l : ServerLabel}
  {job : Job} {h : Hist} {userId : Int} {tokenHash : Bytes}

/-! ## The statements of the open transaction -/

theorem current_cons (e : Σ c, Cmd.Reply c) (h : Hist) :
    current (e :: h) = [] ∨ current (e :: h) = e :: current h := by
  obtain ⟨cmd, r⟩ := e
  cases cmd with
  | beginWork =>
    cases r with
    | none => exact Or.inr rfl
    | some _ => exact Or.inl rfl
  | commitWork => exact Or.inl rfl
  | abortWork => exact Or.inl rfl
  | unwindWork => exact Or.inl rfl
  | _ => exact Or.inr rfl

/-- What the open transaction has done was done at a point of the history where it was
open as well. -/
theorem exists_of_mem_current {e : Σ c, Cmd.Reply c} (hmem : e ∈ current h) :
    ∃ h₂ h₁, h = h₂ ++ e :: h₁ ∧ current h = h₂ ++ e :: current h₁ := by
  induction h with
  | nil => cases hmem
  | cons e' h ih =>
    rcases current_cons e' h with hnil | hcons
    · rw [hnil] at hmem
      cases hmem
    · rw [hcons] at hmem ⊢
      rcases List.mem_cons.mp hmem with rfl | hmem
      · exact ⟨[], h, rfl, rfl⟩
      · obtain ⟨h₂, h₁, rfl, hcurrent⟩ := ih hmem
        exact ⟨e' :: h₂, h₁, rfl, by rw [hcurrent]; rfl⟩

/-- A statement of the open transaction was allowed when it was executed. -/
theorem may_of_mem_current (hl : System.Lawful (mayCall job) h) {q : Query} {rows : q.Rows}
    (hmem : ⟨.execPrepared q, some rows⟩ ∈ current h) :
    ∃ h₁, mayCall job h₁ (.execPrepared q) ∧ current h₁ ⊆ current h ∧ h₁ <:+ h := by
  obtain ⟨h₂, h₁, rfl, hcurrent⟩ := exists_of_mem_current hmem
  refine ⟨h₁, hl.may_of_append, ?_, ⟨h₂ ++ [⟨.execPrepared q, some rows⟩], by simp⟩⟩
  rw [hcurrent]
  exact fun e he => List.mem_append_right h₂ (List.mem_cons_of_mem _ he)

/-- The statements that the open transaction has executed, the latest first. -/
def executed (h : Hist) : List Query :=
  (current h).filterMap fun
    | ⟨.execPrepared q, some _⟩ => some q
    | _ => none

theorem mem_executed {q : Query} :
    q ∈ executed h ↔ ∃ rows : q.Rows, ⟨.execPrepared q, some rows⟩ ∈ current h := by
  unfold executed
  rw [List.mem_filterMap]
  constructor
  · rintro ⟨e, he, heq⟩
    split at heq
    · cases heq
      exact ⟨_, he⟩
    · cases heq
  · rintro ⟨rows, hmem⟩
    exact ⟨_, hmem, rfl⟩

theorem executed_of_lastStatement {q : Query} (hlast : lastStatement h = some q) :
    (executed h).head? = some q := by
  fun_induction lastStatement h with
  | case1 q' rows h =>
    cases hlast
    rfl
  | case2 token h ih => exact ih hlast
  | case3 => cases hlast

/-- The transaction revokes the sessions of the user. -/
def Revokes (userId : Int) (h : Hist) : Prop :=
  ⟨.execPrepared (.revokeUserSessions userId), some ()⟩ ∈ current h

/-- The transaction has inserted a session of the user. -/
def Opens (userId : Int) (tokenHash : Bytes) (h : Hist) : Prop :=
  ∃ clientVersion : Bytes,
    ⟨.execPrepared (.createUserSession userId tokenHash clientVersion), some ()⟩ ∈ current h

theorem current_of_inOrder_startsWork {q : Query}
    (hfirst : q.startsWork = true ∧ ∃ h', h = ⟨.beginWork, some ()⟩ :: h') : current h = [] := by
  obtain ⟨-, h', rfl⟩ := hfirst
  rfl

/-- Outside a registration, revoking the sessions is the first statement. -/
theorem current_of_mayRevoke (hl : System.Lawful (mayCall job) h) (hjob : job.registration = none)
    (hmay : mayCall job h (.execPrepared (.revokeUserSessions userId))) : current h = [] := by
  rcases hmay.1 with hfirst | ⟨q, hlast, hfollows⟩
  · exact current_of_inOrder_startsWork hfirst
  · cases q with
    | registerUser login password email ip clientVersion =>
      have hmem := List.mem_of_mem_head? (executed_of_lastStatement hlast)
      obtain ⟨rows, hmem⟩ := mem_executed.mp hmem
      obtain ⟨h₁, ⟨-, ⟨reg, hreg, -⟩, -⟩, -⟩ := may_of_mem_current hl hmem
      rw [hjob] at hreg
      cases hreg
    | _ => cases hfollows

theorem executed_cons_of_ne {cmd : Cmd} {r : cmd.Reply}
    (hcurrent : current (⟨cmd, r⟩ :: h) = ⟨cmd, r⟩ :: current h)
    (hquery : ∀ q (rows : q.Rows), (⟨cmd, r⟩ : Σ c, Cmd.Reply c) ≠ ⟨.execPrepared q, some rows⟩) :
    executed (⟨cmd, r⟩ :: h) = executed h := by
  rw [executed, hcurrent, List.filterMap_cons_none]
  · rfl
  · split
    · rename_i heq
      exact absurd heq (hquery _ _)
    · rfl

/-- The only ways in which a session transaction can stand. -/
theorem script_of_revokes (hl : System.Lawful (mayCall job) h) (hjob : job.registration = none)
    (hr : Revokes userId h) :
    executed h = [.revokeUserSessions userId] ∨
    executed h = [.cleanupExpiredSessions, .revokeUserSessions userId] ∨
    ∃ tokenHash clientVersion, executed h = [.createUserSession userId tokenHash clientVersion,
      .cleanupExpiredSessions, .revokeUserSessions userId] := by
  induction h with
  | nil => cases hr
  | cons e h ih =>
    obtain ⟨hmay, hl⟩ := hl
    obtain ⟨cmd, r⟩ := e
    rcases current_cons ⟨cmd, r⟩ h with hnil | hcons
    · rw [Revokes, hnil] at hr
      cases hr
    by_cases hquery : ∀ q (rows : q.Rows),
        (⟨cmd, r⟩ : Σ c, Cmd.Reply c) ≠ ⟨.execPrepared q, some rows⟩
    · rw [executed_cons_of_ne hcons hquery]
      rw [Revokes, hcons] at hr
      rcases List.mem_cons.mp hr with heq | hr
      · exact absurd heq.symm (hquery _ _)
      · exact ih hl hr
    · push Not at hquery
      obtain ⟨q, rows, heq⟩ := hquery
      cases heq
      have hexecuted : executed (⟨.execPrepared q, some rows⟩ :: h) = q :: executed h := rfl
      rw [hexecuted]
      rcases List.mem_cons.mp hr with heq | hr
      · cases heq
        rw [executed, current_of_mayRevoke hl hjob hmay]
        exact Or.inl rfl
      · rcases hmay.1 with hfirst | ⟨q', hlast, hfollows⟩
        · rw [current_of_inOrder_startsWork hfirst] at hr
          cases hr
        · have hhead := executed_of_lastStatement hlast
          rcases ih hl hr with hscript | hscript | ⟨tokenHash, clientVersion, hscript⟩
          · rw [hscript] at hhead ⊢
            cases hhead
            cases q with
            | cleanupExpiredSessions => exact Or.inr (Or.inl rfl)
            | _ => cases hfollows
          · rw [hscript] at hhead ⊢
            cases hhead
            cases q with
            | createUserSession userId' tokenHash clientVersion =>
              obtain ⟨-, h', rfl, -⟩ := hmay
              obtain ⟨hsame, -⟩ := List.cons.inj (List.cons.inj hscript).2
              cases hsame
              exact Or.inr (Or.inr ⟨tokenHash, clientVersion, rfl⟩)
            | _ => cases hfollows
          · rw [hscript] at hhead
            cases hhead
            cases q <;> cases hfollows

/-- A session is inserted, and expired ones are deleted, after a revocation. -/
theorem revokes_of_opens (hl : System.Lawful (mayCall job) h) (ho : Opens userId tokenHash h) :
    Revokes userId h := by
  obtain ⟨clientVersion, hmem⟩ := ho
  obtain ⟨h₁, ⟨-, h', rfl, -⟩, hsub, -⟩ := may_of_mem_current hl hmem
  exact hsub (List.mem_cons_of_mem _ List.mem_cons_self)

theorem revokes_of_cleanup (hl : System.Lawful (mayCall job) h) (hjob : job ≠ .cleanup)
    (hmem : ⟨.execPrepared .cleanupExpiredSessions, some ()⟩ ∈ current h) :
    ∃ userId, Revokes userId h := by
  obtain ⟨h₁, ⟨-, hmay⟩, hsub, -⟩ := may_of_mem_current hl hmem
  rcases hmay with rfl | ⟨userId, h', rfl⟩
  · exact absurd rfl hjob
  · exact ⟨userId, hsub List.mem_cons_self⟩

/-! ## The token of a thread -/

theorem generated_of_mayCreate {clientVersion : Bytes}
    (hmay : mayCall job h (.execPrepared (.createUserSession userId tokenHash clientVersion))) :
    ⟨.randomUuid, tokenHash⟩ ∈ h := by
  obtain ⟨-, h', rfl, h₃, rfl | rfl⟩ := hmay
  · simp
  · simp

/-- A session has the token that its thread has generated. -/
theorem generated_of_create (hl : System.Lawful (mayCall job) h) {clientVersion : Bytes}
    (hmem : ⟨.execPrepared (.createUserSession userId tokenHash clientVersion), some ()⟩ ∈ h) :
    ⟨.randomUuid, tokenHash⟩ ∈ h := by
  obtain ⟨h₂, h₁, rfl⟩ := List.append_of_mem hmem
  have hgenerated := generated_of_mayCreate hl.may_of_append
  exact List.mem_append_right _ (List.mem_cons_of_mem _ hgenerated)

/-- A thread generates one token at most. -/
theorem token_unique (hl : System.Lawful (mayCall job) h) {tokenHash' : Bytes}
    (hmem : ⟨.randomUuid, tokenHash⟩ ∈ h) (hmem' : ⟨.randomUuid, tokenHash'⟩ ∈ h) :
    tokenHash = tokenHash' := by
  induction h with
  | nil => cases hmem
  | cons e h ih =>
    obtain ⟨hmay, hl⟩ := hl
    rcases List.mem_cons.mp hmem with rfl | hold
    · rcases List.mem_cons.mp hmem' with heq | hold'
      · cases heq
        rfl
      · exact absurd hold' (hmay _)
    · rcases List.mem_cons.mp hmem' with rfl | hold'
      · exact absurd hold (hmay _)
      · exact ih hl hold hold'

theorem mem_of_cons {cmd cmd' : Cmd} {r : cmd.Reply} {r' : cmd'.Reply}
    (hmem : ⟨cmd, r⟩ ∈ (⟨cmd', r'⟩ : Σ c, Cmd.Reply c) :: h) (hne : cmd ≠ cmd') :
    ⟨cmd, r⟩ ∈ h :=
  List.mem_of_ne_of_mem (fun heq => hne (congrArg Sigma.fst heq)) hmem

/-- A thread creates one session at most. -/
theorem not_mem_of_mayCreate (hl : System.Lawful (mayCall job) h) {clientVersion : Bytes}
    (hmay : mayCall job h (.execPrepared (.createUserSession userId tokenHash clientVersion)))
    (userId' : Int) (tokenHash' clientVersion' : Bytes) :
    ⟨.execPrepared (.createUserSession userId' tokenHash' clientVersion'), some ()⟩ ∉ h := by
  intro hmem
  obtain ⟨-, h', rfl, h₃, hgenerated⟩ := hmay
  -- the token was generated just before, so that what came earlier had none
  have hnone : NoToken h₃ ∧ System.Lawful (mayCall job) h₃ ∧
      ⟨.execPrepared (.createUserSession userId' tokenHash' clientVersion'), some ()⟩ ∈ h₃ := by
    have hmem' := mem_of_cons (mem_of_cons hmem (by simp)) (by simp)
    rcases hgenerated with rfl | rfl
    · obtain ⟨-, -, hno, hl₃⟩ := hl
      exact ⟨hno, hl₃, mem_of_cons hmem' (by simp)⟩
    · obtain ⟨-, -, -, hno, hl₃⟩ := hl
      exact ⟨hno, hl₃, mem_of_cons (mem_of_cons hmem' (by simp)) (by simp)⟩
  obtain ⟨hno, hl₃, hmem₃⟩ := hnone
  exact hno _ (generated_of_create hl₃ hmem₃)

/-- The thread has committed a session of the user. -/
def Commits (userId : Int) (tokenHash : Bytes) (h : Hist) : Prop :=
  ∃ (h₂ h₁ : Hist) (clientVersion : Bytes), h = h₂ ++ ⟨.commitWork, some ()⟩ ::
    ⟨.execPrepared (.createUserSession userId tokenHash clientVersion), some ()⟩ :: h₁

theorem Commits.mem_create (hc : Commits userId tokenHash h) : ∃ clientVersion : Bytes,
    ⟨.execPrepared (.createUserSession userId tokenHash clientVersion), some ()⟩ ∈ h := by
  obtain ⟨h₂, h₁, clientVersion, rfl⟩ := hc
  exact ⟨clientVersion, by simp⟩

theorem Commits.generated (hc : Commits userId tokenHash h)
    (hl : System.Lawful (mayCall job) h) : ⟨.randomUuid, tokenHash⟩ ∈ h := by
  obtain ⟨clientVersion, hmem⟩ := hc.mem_create
  exact generated_of_create hl hmem

theorem Commits.suffix {h' : Hist} (hc : Commits userId tokenHash h) (hh : h <:+ h') :
    Commits userId tokenHash h' := by
  obtain ⟨h₂, h₁, clientVersion, rfl⟩ := hc
  obtain ⟨h₃, rfl⟩ := hh
  exact ⟨h₃ ++ h₂, h₁, clientVersion, (List.append_assoc ..).symm⟩

theorem commits_cons {e : Σ c, Cmd.Reply c} (hc : Commits userId tokenHash (e :: h)) :
    (e = ⟨.commitWork, some ()⟩ ∧ ∃ (clientVersion : Bytes) (h₁ : Hist),
      h = ⟨.execPrepared (.createUserSession userId tokenHash clientVersion), some ()⟩ :: h₁) ∨
    Commits userId tokenHash h := by
  obtain ⟨h₂, h₁, clientVersion, heq⟩ := hc
  cases h₂ with
  | nil =>
    obtain ⟨rfl, rfl⟩ := List.cons.inj heq
    exact Or.inl ⟨rfl, clientVersion, h₁, rfl⟩
  | cons e' h₂ =>
    obtain ⟨-, rfl⟩ := List.cons.inj heq
    exact Or.inr ⟨h₂, h₁, clientVersion, rfl⟩

/-- A login stores the entry of the session that it has committed. -/
theorem commits_of_stored (hl : System.Lawful (mayCall job) h) {d : ClientDataStruct}
    (hmem : ⟨.storeClientData d, ()⟩ ∈ h) : Commits d.clientId d.hash h := by
  obtain ⟨h₂, h₁, rfl⟩ := List.append_of_mem hmem
  obtain ⟨clientVersion, h', rfl⟩ := hl.may_of_append
  exact ⟨h₂ ++ [⟨.storeClientData d, ()⟩], h', clientVersion, by simp⟩

/-! ## Tokens over runs -/

/-- Generated tokens are new, and no two threads generate the same. -/
structure TokenInv (uuids₀ : List Bytes) (hist : Nat → Hist) (uuids : List Bytes) : Prop where
  known : uuids₀ ⊆ uuids
  generated : ∀ t tokenHash, ⟨.randomUuid, tokenHash⟩ ∈ hist t →
    tokenHash ∈ uuids ∧ tokenHash ∉ uuids₀ ∧ IsUuidText tokenHash
  apart : ∀ t t' tokenHash, ⟨.randomUuid, tokenHash⟩ ∈ hist t →
    ⟨.randomUuid, tokenHash⟩ ∈ hist t' → t = t'

theorem exec_uuids {f : SqlFunctions} {t : Nat} {cmd : Cmd} {x : Choice} {s s' : Server}
    {r : cmd.Reply} (hexec : s.exec f t cmd x = some (r, s')) :
    (s'.uuids = s.uuids ∧ ∀ tokenHash, (⟨cmd, r⟩ : Σ c, Cmd.Reply c) ≠ ⟨.randomUuid, tokenHash⟩) ∨
    ∃ tokenHash, (⟨cmd, r⟩ : Σ c, Cmd.Reply c) = ⟨.randomUuid, tokenHash⟩ ∧
      tokenHash ∉ s.uuids ∧ IsUuidText tokenHash ∧ s'.uuids = tokenHash :: s.uuids := by
  by_cases hcmd : cmd = .randomUuid
  · subst hcmd
    cases Server.exec_cases hexec with
    | randomUuid htoken hfresh => exact Or.inr ⟨x.uuid, rfl, hfresh, htoken, rfl⟩
    | session hop => cases hop
    | read hreads => cases hreads
  · refine Or.inl ⟨(exec_frame hexec).2.2.2 hcmd, fun tokenHash heq => ?_⟩
    exact hcmd (Sigma.mk.inj heq).1

theorem TokenInv.call {uuids₀ : List Bytes} {hist : Nat → Hist} {f : SqlFunctions} {t : Nat}
    {cmd : Cmd} {x : Choice} {s s' : Server} {r : cmd.Reply} (hI : TokenInv uuids₀ hist s.uuids)
    (hexec : s.exec f t cmd x = some (r, s')) :
    TokenInv uuids₀ (Function.update hist t (⟨cmd, r⟩ :: hist t)) s'.uuids := by
  have hcases : ∀ t' tokenHash,
      ⟨.randomUuid, tokenHash⟩ ∈ Function.update hist t (⟨cmd, r⟩ :: hist t) t' →
      ⟨.randomUuid, tokenHash⟩ ∈ hist t' ∨
        t' = t ∧ (⟨cmd, r⟩ : Σ c, Cmd.Reply c) = ⟨.randomUuid, tokenHash⟩ :=
    fun t' tokenHash hmem => (mem_update hmem).imp_right fun hnew => ⟨hnew.1, hnew.2.symm⟩
  rcases exec_uuids hexec with ⟨hsame, hother⟩ | ⟨tokenHash, heq, hfresh, htoken, hnew⟩
  · rw [hsame]
    refine ⟨hI.known, fun t' tokenHash hmem => ?_, fun t₁ t₂ tokenHash hmem₁ hmem₂ => ?_⟩
    · rcases hcases t' tokenHash hmem with hold | ⟨-, heq⟩
      · exact hI.generated t' tokenHash hold
      · exact absurd heq (hother _)
    · rcases hcases t₁ tokenHash hmem₁ with hold₁ | ⟨-, heq⟩
      · rcases hcases t₂ tokenHash hmem₂ with hold₂ | ⟨-, heq⟩
        · exact hI.apart t₁ t₂ tokenHash hold₁ hold₂
        · exact absurd heq (hother _)
      · exact absurd heq (hother _)
  · have hnotOld : ∀ t', ⟨.randomUuid, tokenHash⟩ ∉ hist t' := fun t' hmem =>
      hfresh (hI.generated t' tokenHash hmem).1
    rw [hnew]
    refine ⟨List.subset_cons_of_subset _ hI.known, fun t' tokenHash' hmem => ?_,
      fun t₁ t₂ tokenHash' hmem₁ hmem₂ => ?_⟩
    · rcases hcases t' tokenHash' hmem with hold | ⟨-, heq'⟩
      · obtain ⟨hknown, hrest⟩ := hI.generated t' tokenHash' hold
        exact ⟨List.mem_cons_of_mem _ hknown, hrest⟩
      · cases heq.symm.trans heq'
        exact ⟨List.mem_cons_self, fun hmem => hfresh (hI.known hmem), htoken⟩
    · rcases hcases t₁ tokenHash' hmem₁ with hold₁ | ⟨rfl, heq₁⟩
      · rcases hcases t₂ tokenHash' hmem₂ with hold₂ | ⟨rfl, heq₂⟩
        · exact hI.apart t₁ t₂ tokenHash' hold₁ hold₂
        · cases heq.symm.trans heq₂
          exact absurd hold₁ (hnotOld t₁)
      · rcases hcases t₂ tokenHash' hmem₂ with hold₂ | ⟨rfl, heq₂⟩
        · cases heq.symm.trans heq₁
          exact absurd hold₂ (hnotOld t₂)
        · rfl

theorem Server.reach_tokenInv {meets : ServerState → ServerLabel → Prop} {s₀ : Server}
    (h : (loginServer p cfg).Reach meets s₀.boot c) : TokenInv s₀.uuids c.hist c.shared.uuids := by
  refine h.invariant (I := fun c => TokenInv s₀.uuids c.hist c.shared.uuids)
    ⟨List.Subset.refl _, fun t tokenHash hmem => absurd hmem List.not_mem_nil,
      fun t t' tokenHash hmem => absurd hmem List.not_mem_nil⟩ fun c l c' _ hI _ hstep => ?_
  rcases step_cases hstep with ⟨t, x, job, cmd, r, -, hcall⟩ | ⟨hhist, hsame⟩
  · rw [hcall.hist]
    exact hI.call hcall.exec
  · rw [hhist, hsame.uuids]
    exact hI

end LoginServer
