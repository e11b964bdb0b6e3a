import LoginServer.Database.Retained
import LoginServer.Server.Ownership
import LoginServer.Server.SessionScripts

/-!
# What is committed stays

Whatever the handlers do, in whatever order and with whatever failures, the committed data
`Retains` what it was. So the rows that a transaction has inserted when it commits, and its
marks on the characters that it has deleted, are there ever after: `Durable` follows the
statements of each task into the log of its transaction and from there into the committed
data. Sessions and counters do not last, and `Write.StandsIn` leaves them out.
-/

namespace LoginServer

open Database Interleaving Transactions

variable {p : Platform} {cfg : ServerConfig} {c c' : ServerState} {f : SqlFunctions}
  {s s' s₀ : Server} {t : Nat} {x : Choice} {meets : ServerState → ServerLabel → Prop}

theorem StoreEffect.retains {cmd : Cmd} {r : cmd.Reply} {store : Database.Store}
    (h : StoreEffect f t x s cmd r store) : s.store.committed.Retains store.committed := by
  rcases h.committed with hsame | ⟨-, -, hview⟩
  · rw [hsame]
    exact .refl _
  · rw [hview]
    exact growing_retains.view s.store t

/-- No run takes anything back: accounts keep their id, login and password hash, characters
keep their owner and their data and are at most marked as deleted, which is for good, and
what a character was given stays with it. -/
theorem Server.reach_retains (h : (loginServer p cfg).Reach meets c c') :
    c.shared.store.committed.Retains c'.shared.store.committed := by
  refine h.invariant (I := fun c' => c.shared.store.committed.Retains c'.shared.store.committed)
    (.refl _) ?_
  intro c₁ l c₂ _ hI _ hstep
  rcases step_cases hstep with ⟨t, x, job, cmd, r, -, hcall⟩ | ⟨-, hsame⟩
  · exact hI.trans (exec_store hcall.exec).retains
  · rw [hsame.store]
    exact hI

/-! ## The sequences -/

/-- No sequence goes back. -/
structure Database.Sequences.Before (seq seq' : Sequences) : Prop where
  users : seq.users ≤ seq'.users
  userSessions : seq.userSessions ≤ seq'.userSessions
  characters : seq.characters ≤ seq'.characters
  characterPosition : seq.characterPosition ≤ seq'.characterPosition
  characterSkills : seq.characterSkills ≤ seq'.characterSkills
  playerInventory : seq.playerInventory ≤ seq'.playerInventory

namespace Database.Sequences.Before

variable {seq seq' seq'' : Sequences}

theorem refl (seq : Sequences) : seq.Before seq :=
  ⟨le_rfl, le_rfl, le_rfl, le_rfl, le_rfl, le_rfl⟩

theorem trans (h : seq.Before seq') (h' : seq'.Before seq'') : seq.Before seq'' where
  users := h.users.trans h'.users
  userSessions := h.userSessions.trans h'.userSessions
  characters := h.characters.trans h'.characters
  characterPosition := h.characterPosition.trans h'.characterPosition
  characterSkills := h.characterSkills.trans h'.characterSkills
  playerInventory := h.playerInventory.trans h'.playerInventory

end Database.Sequences.Before

theorem before_of_run {db : Database} {now : Time} {seq seq' : Sequences} {q : Query}
    {rows : q.Rows} {ws : List Write} (h : q.run db now seq f = some (rows, ws, seq')) :
    seq.Before seq' := by
  cases q with
  | incrementFailedLogins login =>
    obtain ⟨ws', -, heq⟩ := Option.map_eq_some_iff.mp h
    cases heq
    exact .refl seq
  | resetFailedLogins userId ip clientVersion =>
    obtain ⟨ws', -, heq⟩ := Option.map_eq_some_iff.mp h
    cases heq
    exact .refl seq
  | createUserSession userId tokenHash clientVersion =>
    simp only [Query.run, createUserSession] at h
    split at h
    · split_ifs at h <;> cases h <;>
        exact { Sequences.Before.refl seq with userSessions := by dsimp only; omega }
    · cases h
  | createCharacter accountId name classSlug raceSlug genderSlug =>
    simp only [Query.run, createCharacter] at h
    split at h
    · cases h
      exact .refl seq
    · split at h
      · split_ifs at h
        cases h
        exact { Sequences.Before.refl seq with characters := by dsimp only; omega }
      · cases h
  | initCharacterState characterId =>
    simp only [Query.run, initCharacterState] at h
    split_ifs at h <;> cases h <;> exact .refl seq
  | initCharacterPosition characterId =>
    simp only [Query.run, initCharacterPosition] at h
    split_ifs at h
    cases h
    exact { Sequences.Before.refl seq with characterPosition := by dsimp only; omega }
  | initCharacterDefaultSkills characterId classId =>
    cases h
    exact { Sequences.Before.refl seq with characterSkills := by dsimp only; omega }
  | initCharacterStarterItems characterId classId =>
    simp only [Query.run, initCharacterStarterItems] at h
    split at h
    · cases h
    · split_ifs at h
      cases h
      exact { Sequences.Before.refl seq with playerInventory := by dsimp only; omega }
  | registerUser login password email ip clientVersion =>
    simp only [Query.run, registerUser] at h
    split at h
    · cases h
      exact { Sequences.Before.refl seq with users := by dsimp only; omega }
    · cases h
  | _ =>
    cases h
    exact .refl seq

theorem Server.reach_sequences (h : (loginServer p cfg).Reach meets c c') :
    c.shared.sequences.Before c'.shared.sequences := by
  refine h.invariant (I := fun c' => c.shared.sequences.Before c'.shared.sequences) (.refl _) ?_
  intro c₁ l c₂ _ hI _ hstep
  refine hI.trans ?_
  cases hstep with
  | run hthread hexec =>
    cases Server.exec_cases hexec with
    | statement hactive hrun => exact before_of_run hrun
    | _ => exact .refl _
  | spawn hfree hstart =>
    obtain ⟨queue, rfl⟩ := start_cases hstart
    exact .refl _
  | outside ho =>
    rcases outside_cases ho with ⟨queue, rfl⟩ | ⟨clock, steadyMs, -, -, rfl⟩
    · exact .refl _
    · exact .refl _

/-! ## From a statement to the committed data -/

/-- The task has committed a transaction in which `q` returned `rows`. -/
def HasCommitted (q : Query) (rows : q.Rows) (h : Hist) : Prop :=
  ∃ h₂ h₁, h = h₂ ++ ⟨.commitWork, some ()⟩ :: h₁ ∧ ⟨.execPrepared q, some rows⟩ ∈ current h₁

theorem hasCommitted_cons {e : Σ c, Cmd.Reply c} {h : Hist} {q : Query} {rows : q.Rows}
    (hc : HasCommitted q rows (e :: h)) :
    (e = ⟨.commitWork, some ()⟩ ∧ ⟨.execPrepared q, some rows⟩ ∈ current h) ∨
      HasCommitted q rows h := by
  obtain ⟨h₂, h₁, heq, hmem⟩ := hc
  cases h₂ with
  | nil =>
    obtain ⟨rfl, rfl⟩ := List.cons.inj heq
    exact Or.inl ⟨rfl, hmem⟩
  | cons e' h₂ =>
    obtain ⟨-, rfl⟩ := List.cons.inj heq
    exact Or.inr ⟨h₂, h₁, rfl, hmem⟩

theorem HasCommitted.suffix {h h' : Hist} {q : Query} {rows : q.Rows}
    (hc : HasCommitted q rows h) (hh : h <:+ h') : HasCommitted q rows h' := by
  obtain ⟨h₂, h₁, rfl, hmem⟩ := hc
  obtain ⟨h₃, rfl⟩ := hh
  exact ⟨h₃ ++ h₂, h₁, (List.append_assoc ..).symm, hmem⟩

theorem HasCommitted.cons {h : Hist} {q : Query} {rows : q.Rows} (hc : HasCommitted q rows h)
    (e : Σ c, Cmd.Reply c) : HasCommitted q rows (e :: h) :=
  hc.suffix (List.suffix_cons e h)

theorem not_hasCommitted_nil (q : Query) (rows : q.Rows) : ¬ HasCommitted q rows [] := by
  rintro ⟨h₂, h₁, heq, -⟩
  cases h₂ <;> cases heq

/-- The statement has returned the rows, at some time since the server was `s₀`, and has made
writes of `P`. -/
def Ran (f : SqlFunctions) (s₀ : Server) (q : Query) (rows : q.Rows) (P : Write → Prop) : Prop :=
  ∃ db now seq seq' ws, s₀.store.committed.Retains db ∧ s₀.sequences.Before seq ∧
    q.run db now seq f = some (rows, ws, seq') ∧ ∀ w ∈ ws, P w

theorem Ran.mono {q : Query} {rows : q.Rows} {P P' : Write → Prop} (h : Ran f s₀ q rows P)
    (hP : ∀ w, P w → P' w) : Ran f s₀ q rows P' := by
  obtain ⟨db, now, seq, seq', ws, hdb, hseq, hrun, hws⟩ := h
  exact ⟨db, now, seq, seq', ws, hdb, hseq, hrun, fun w hw => hP w (hws w hw)⟩

/-- A statement finds the characters that it deletes among the committed ones: it is the first
of its transaction. -/
theorem findsRow_of_run {job : Job} {now : Time} {seq seq' : Sequences} {q : Query}
    {rows : q.Rows} {ws : List Write} {hist : Nat → Hist} (hledger : Ledger hist s.store)
    (hmay : mayCall job (hist t) (.execPrepared q))
    (hrun : q.run (s.store.view writes t) now seq f = some (rows, ws, seq')) :
    ∀ w ∈ ws, w.FindsRow s.store.committed := by
  intro w hw
  have hfrom := from_of_run hrun w hw
  cases w with
  | softDelete id ownerId deletedAt =>
    cases q with
    | deleteCharacter characterId accountId =>
      have hfirst : current (hist t) = [] := by
        rcases hmay.1 with hfirst | ⟨p, -, hfollows⟩
        · exact current_of_inOrder_startsWork hfirst
        · cases p <;> cases hfollows
      have hlog : s.store.log t = [] := hledger.log_eq_nil (by simp [hfirst])
      have hview : s.store.view writes t = s.store.committed := by
        rw [Store.view, hlog]
        rfl
      rw [hview] at hrun
      cases hrun
      obtain ⟨r, hr, heq⟩ := List.mem_map.mp hw
      cases heq
      exact ⟨r, List.mem_of_mem_filter hr, rfl, rfl⟩
    | _ => exact hfrom.elim
  | _ => trivial

structure Durable (f : SqlFunctions) (s₀ : Server) (hist : Nat → Hist) (store : Database.Store) :
    Prop where
  retained : s₀.store.committed.Retains store.committed
  logged : ∀ t q (rows : q.Rows), ⟨.execPrepared q, some rows⟩ ∈ current (hist t) →
    Ran f s₀ q rows fun w => w ∈ store.log t ∧ w.FindsRow store.committed
  committed : ∀ t q (rows : q.Rows), HasCommitted q rows (hist t) →
    Ran f s₀ q rows fun w => w.StandsIn store.committed

section Call

variable {hist : Nat → Hist} {store : Database.Store} {cmd : Cmd} {r : cmd.Reply}

theorem Durable.logged_call {job : Job} (hI : Durable f s₀ hist s.store)
    (hseq : s₀.sequences.Before s.sequences) (hledger : Ledger hist s.store)
    (hmay : mayCall job (hist t) cmd) (heffect : StoreEffect f t x s cmd r store)
    (q : Query) (rows : q.Rows)
    (hmem : ⟨.execPrepared q, some rows⟩ ∈ current (⟨cmd, r⟩ :: hist t)) :
    Ran f s₀ q rows fun w => w ∈ store.log t ∧ w.FindsRow store.committed := by
  cases heffect with
  | statement hactive hrun =>
    rw [Store.log_record_self writes hactive, Store.committed_record]
    rcases List.mem_cons.mp hmem with heq | hold
    · cases heq
      have hfinds := findsRow_of_run hledger hmay hrun
      refine ⟨_, _, _, _, _, hI.retained.trans (growing_retains.view s.store t), hseq, hrun, ?_⟩
      exact fun w hw => ⟨List.mem_append_right _ hw, hfinds w hw⟩
    · exact (hI.logged t q rows hold).mono fun w hw => ⟨List.mem_append_left _ hw.1, hw.2⟩
  | keep hkeeps hquery =>
    rw [hkeeps] at hmem
    rcases List.mem_cons.mp hmem with heq | hold
    · exact absurd heq.symm (hquery _ _)
    · exact hI.logged t q rows hold
  | _ => cases hmem

theorem Durable.committed_call (hI : Durable f s₀ hist s.store)
    (heffect : StoreEffect f t x s cmd r store) (q : Query) (rows : q.Rows)
    (hc : HasCommitted q rows (⟨cmd, r⟩ :: hist t)) :
    Ran f s₀ q rows fun w => w.StandsIn store.committed := by
  rcases hasCommitted_cons hc with ⟨heq, hmem⟩ | hold
  · cases heq
    cases heffect with
    | commit hactive hok =>
      refine (hI.logged t q rows hmem).mono ?_
      rintro w ⟨hw, hfinds⟩
      obtain ⟨db, hgrown, hretains⟩ := growing_retains.exists_apply hw s.store.committed
      exact (Write.standsIn_applyWrite (hfinds.retained hgrown)).retained hretains
    | keep hkeeps hquery => cases hkeeps []
  · exact (hI.committed t q rows hold).mono fun w hw => hw.retained heffect.retains

theorem Durable.call {job : Job} (hI : Durable f s₀ hist s.store)
    (hseq : s₀.sequences.Before s.sequences) (hledger : Ledger hist s.store)
    (hmay : mayCall job (hist t) cmd) (heffect : StoreEffect f t x s cmd r store) :
    Durable f s₀ (Function.update hist t (⟨cmd, r⟩ :: hist t)) store := by
  refine ⟨hI.retained.trans heffect.retains, fun t' q rows hmem => ?_, fun t' q rows hc => ?_⟩
  · by_cases ht' : t' = t
    · subst ht'
      rw [Function.update_self] at hmem
      exact hI.logged_call hseq hledger hmay heffect q rows hmem
    · rw [Function.update_of_ne ht'] at hmem
      rw [heffect.log_of_ne ht']
      exact (hI.logged t' q rows hmem).mono fun w hw => ⟨hw.1, hw.2.retained heffect.retains⟩
  · by_cases ht' : t' = t
    · subst ht'
      rw [Function.update_self] at hc
      exact hI.committed_call heffect q rows hc
    · rw [Function.update_of_ne ht'] at hc
      exact (hI.committed t' q rows hc).mono fun w hw => hw.retained heffect.retains

end Call

theorem Server.reach_durable (h₀ : s₀.Initial) (h : (loginServer p cfg).Reach meets s₀.boot c) :
    Durable p.toSqlFunctions s₀ c.hist c.shared.store := by
  refine Server.reach_callInvariant (I := Durable p.toSqlFunctions s₀) ?_ ?_ h
  · refine ⟨.refl _, fun t q rows hmem => ?_, fun t q rows hc => ?_⟩
    · cases hmem
    · exact absurd hc (not_hasCommitted_nil q rows)
  · intro c c' t x job cmd r hreach hI _ hcall
    exact hI.call (Server.reach_sequences hreach) (Server.reach_ledger h₀ hreach)
      (hcall.may (Server.reach_obedient hreach)) (exec_store hcall.exec)

/-! ## What a program has done when it returns -/

/-- Whatever its calls are answered, where the program returns it does so in `Q`. -/
abbrev Returns {α : Type} (Q : Hist → α → Prop) (h : Hist) (m : M α) : Prop :=
  ObeysE (fun _ _ => True) Q (fun _ _ => True) h m

section Rules

variable {α β : Type} {Q : Hist → β → Prop} {h : Hist}

theorem returns_call {c : Cmd} {g : c.Reply → M β} (hg : ∀ r, Returns Q (⟨c, r⟩ :: h) (g r)) :
    Returns Q h (call c >>= g) :=
  obeysE_bind.mpr (obeysE_call.mpr ⟨trivial, hg⟩)

theorem returns_orThrow {a : Option α} {g : α → M β} (hg : ∀ x, a = some x → Returns Q h (g x)) :
    Returns Q h (orThrow a >>= g) :=
  obeysE_bind.mpr (obeysE_orThrow hg fun _ => trivial)

theorem returns_exec {q : Query} {g : q.Rows → M β}
    (hg : ∀ rows, Returns Q (⟨.execPrepared q, some rows⟩ :: h) (g rows)) :
    Returns Q h (execPrepared q >>= g) :=
  obeysE_bind.mpr (obeysE_execPrepared trivial hg trivial)

theorem returns_commit {g : Unit → M β} (hg : Returns Q (⟨.commitWork, some ()⟩ :: h) (g ())) :
    Returns Q h (commitWork >>= g) :=
  obeysE_bind.mpr (obeysE_commitWork trivial hg trivial)

theorem returns_withWork {Q : Hist → α → Prop} {body : M α}
    (hbody : Returns Q (⟨.beginWork, some ()⟩ :: h) body) : Returns Q h (withWork body) :=
  obeysE_withWork trivial trivial
    (hbody.mono (fun _ _ hq => hq) fun _ _ _ => ⟨trivial, trivial⟩)

end Rules

/-! ## The committed work of a run -/

namespace Sample

open Schedule

end Sample

open Sample Schedule

end LoginServer
