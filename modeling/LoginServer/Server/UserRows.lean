import LoginServer.Database.Users
import LoginServer.Server.Effects
import LoginServer.Transactions.Sequence

/-!
# The rows of `users` in every run

`UserRows` is what every run keeps: the ids are drawn from the sequence, and a transaction
writes to rows that are committed or its own. So the row of an account stays one row, and
what becomes of it is a matter of the transactions that hold its lock.
-/

namespace LoginServer

open Database Interleaving Transactions

variable {p : Platform} {cfg : ServerConfig} {c c' : ServerState} {l : ServerLabel}
  {f : SqlFunctions} {t : Nat} {x : Choice} {s s' : Server}

/-! ## What a statement does to the users -/

section Query

variable {db : Database} {now : Time} {seq seq' : Sequences} {q : Query} {rows : q.Rows}
  {ws : List Write}

/-- The row of a user that a statement writes to is there. -/
theorem user_of_run (h : q.run db now seq f = some (rows, ws, seq')) {w : Write} (hw : w ∈ ws)
    {id : Int} (hlock : w.lock = some (.user id)) : id ∈ db.users.map (·.id) := by
  have hfrom := from_of_run h w hw
  cases w with
  | setFailedLogins id' attempts lockedUntil =>
    cases hlock
    cases q with
    | incrementFailedLogins login =>
      rw [writes_of_incrementFailedLogins h] at hw
      obtain ⟨r, hr, heq⟩ := List.mem_map.mp hw
      cases heq
      exact List.mem_map_of_mem (List.mem_filter.mp hr).1
    | _ => exact hfrom.elim
  | resetFailedLogins id' now' ip clientVersion =>
    cases hlock
    cases q with
    | resetFailedLogins userId ip' clientVersion' =>
      obtain ⟨ws', hws, heq⟩ := Option.map_eq_some_iff.mp h
      cases heq
      obtain ⟨r, hr, hwrite⟩ := forall₂_exists (forall₂_of_mapM hws).flip hw
      obtain ⟨v, -, heq⟩ := Option.map_eq_some_iff.mp hwrite
      cases heq
      exact List.mem_map_of_mem (List.mem_filter.mp hr).1
    | _ => exact hfrom.elim
  | _ => cases hlock

/-- A statement inserts no user, or one with the next id. -/
theorem insertedUsers_of_run (h : q.run db now seq f = some (rows, ws, seq')) :
    (insertedUsers ws = [] ∧ seq.users ≤ seq'.users) ∨
      ((insertedUsers ws).map (·.id) = [seq.users] ∧ seq'.users = seq.users + 1) := by
  have hsequences := sequences_of_run h
  have hnone : (∀ w ∈ ws, ∀ row, w ≠ .insertUser row) → insertedUsers ws = [] := by
    intro hws
    refine List.filterMap_eq_nil_iff.mpr fun w hw => ?_
    cases w with
    | insertUser row => exact absurd rfl (hws _ hw row)
    | _ => rfl
  cases q with
  | registerUser login password email ip clientVersion =>
    right
    refine ⟨?_, hsequences.1⟩
    simp only [Query.run, registerUser] at h
    split at h
    · cases h
      rfl
    · cases h
  | createUserSession userId tokenHash clientVersion =>
    refine Or.inl ⟨hnone fun w hw row heq => ?_, hsequences.1.ge⟩
    rw [heq] at hw
    exact (from_of_run h _ hw).elim
  | _ =>
    refine Or.inl ⟨hnone fun w hw row heq => ?_, hsequences.1.ge⟩
    rw [heq] at hw
    exact (from_of_run h _ hw).elim

end Query

/-! ## The invariant -/

/-- The ids of the committed users, and of those that each transaction has inserted. -/
def userIds (store : Database.Store) : Option Nat → List Int :=
  store.numbers (fun db => db.users.map (·.id)) (fun ws => (insertedUsers ws).map (·.id))

structure UserRows (store : Database.Store) (next : Int) : Prop where
  locks : Store.LocksHeld writes store
  ids : Drawn (userIds store) next
  touched : ∀ t, ∀ w ∈ store.log t, ∀ id, w.lock = some (.user id) →
    id ∈ userIds store none ∨ id ∈ userIds store (some t)

namespace UserRows

variable {store store' : Database.Store} {next next' : Int}

theorem eq_of_id (hI : UserRows store next) {r r' : UserRow} (hr : r ∈ store.committed.users)
    (hr' : r' ∈ store.committed.users) (hid : r.id = r'.id) : r = r' :=
  List.inj_on_of_nodup_map (hI.ids.nodup none) hr hr' hid

theorem userIds_view (store : Database.Store) (t : Nat) :
    (store.view writes t).users.map (·.id) = userIds store none ++ userIds store (some t) :=
  userIds_foldl (store.log t) store.committed

/-- Transactions may begin, and end without a commit. -/
theorem shrink (hI : UserRows store next) (hlocks : Store.LocksHeld writes store')
    (hcommitted : store'.committed = store.committed)
    (hlog : ∀ t, store'.log t = [] ∨ store'.log t = store.log t) : UserRows store' next := by
  refine ⟨hlocks, ?_, fun t w hw id hid => ?_⟩
  · exact hI.ids.of_sublist (Store.numbers_shrink rfl hcommitted hlog) le_rfl
  · rcases hlog t with hnil | hsame
    · rw [hnil] at hw
      cases hw
    · rw [hsame] at hw
      have hold := hI.touched t w hw id hid
      simp only [userIds, Store.numbers, hcommitted, hsame] at hold ⊢
      exact hold

theorem begin (hI : UserRows store next) (t : Nat) (now : Time) :
    UserRows (store.begin t now) next := by
  refine hI.shrink (hI.locks.begin t now) rfl fun t' => ?_
  by_cases ht' : t' = t
  · exact Or.inl (ht' ▸ Store.log_begin_self now)
  · exact Or.inr (Store.log_begin_of_ne ht' now)

theorem close (hI : UserRows store next) (t : Nat) : UserRows (store.close t) next := by
  refine hI.shrink (hI.locks.close t) rfl fun t' => ?_
  by_cases ht' : t' = t
  · exact Or.inl (ht' ▸ Store.log_close_self)
  · exact Or.inr (Store.log_close_of_ne ht')

/-- A statement that is not blocked. -/
theorem record (hI : UserRows store next) {txn : Txn Write} (hactive : store.active t = some txn)
    {ws : List Write} (hfree : store.blocked writes t ws = false)
    (hdraws : (insertedUsers ws = [] ∧ next ≤ next') ∨
      ((insertedUsers ws).map (·.id) = [next] ∧ next' = next + 1))
    (hseen : ∀ w ∈ ws, ∀ id, w.lock = some (.user id) →
      id ∈ (store.view writes t).users.map (·.id)) :
    UserRows (store.record writes t ws) next' := by
  have hids : userIds (store.record writes t ws) = Function.update (userIds store) (some t)
      (userIds store (some t) ++ (insertedUsers ws).map (·.id)) :=
    Store.numbers_record writes hactive
      (fun ws ws' => by rw [insertedUsers_append, List.map_append]) ws
  have hgrows : ∀ i id, id ∈ userIds store i → id ∈ userIds (store.record writes t ws) i := by
    intro i id hid
    rw [hids]
    by_cases hi : i = some t
    · rw [hi, Function.update_self]
      exact List.mem_append_left _ (hi ▸ hid)
    · rwa [Function.update_of_ne hi]
  refine ⟨hI.locks.record hactive hfree, ?_, fun t' w hw id hid => ?_⟩
  · rw [hids]
    rcases hdraws with ⟨hnone, hle⟩ | ⟨hone, rfl⟩
    · rw [hnone, List.map_nil, List.append_nil, Function.update_eq_self]
      exact hI.ids.of_sublist (fun i => List.Sublist.refl _) hle
    · rw [hone]
      exact hI.ids.draw (some t)
  · refine Or.imp (hgrows none id) (hgrows (some t') id) ?_
    rcases Store.mem_log_record writes hactive hw with hold | ⟨rfl, hnew⟩
    · exact hI.touched t' w hold id hid
    · have hview := hseen w hnew id hid
      rw [userIds_view] at hview
      exact List.mem_append.mp hview

theorem commit (hI : UserRows store next) (t : Nat) : UserRows (store.commit writes t) next := by
  have hview := userIds_view store t
  refine ⟨hI.locks.commit t, ?_, fun t' w hw id hid => ?_⟩
  · refine (hI.ids.pass (by simp)).of_sublist (Store.numbers_commit writes rfl ?_) le_rfl
    exact (congrArg _ hview).mp (List.Sublist.refl _)
  · obtain ⟨ht', hw⟩ := Store.ne_of_mem_log_commit writes hw
    rcases hI.touched t' w hw id hid with hold | hown
    · left
      change id ∈ (store.view writes t).users.map (·.id)
      rw [hview]
      exact List.mem_append_left _ hold
    · right
      simp only [userIds, Store.numbers, Store.log_commit_of_ne writes ht']
      exact hown

end UserRows

theorem UserRows.call (hI : UserRows s.store s.sequences.users) {cmd : Cmd} {r : cmd.Reply}
    (hexec : s.exec f t cmd x = some (r, s')) : UserRows s'.store s'.sequences.users := by
  cases Server.exec_cases hexec with
  | begin => exact hI.begin t s.clock
  | statement hactive hrun hfree =>
    exact hI.record hactive hfree (insertedUsers_of_run hrun) fun w hw id => user_of_run hrun hw
  | commit => exact hI.commit t
  | commitFailed | abort | unwind => exact hI.close t
  | _ => exact hI

/-! ## Runs -/

/-- The ids of `users` are a primary key and come from the sequence. -/
structure UserTable (s : Server) : Prop where
  ids : (s.store.committed.users.map (·.id)).Nodup
  below : ∀ r ∈ s.store.committed.users, r.id < s.sequences.users

theorem Server.reach_userRows {meets : ServerState → ServerLabel → Prop} {s₀ : Server}
    (h₀ : s₀.Initial) (htable : UserTable s₀)
    (h : (loginServer p cfg).Reach meets s₀.boot c) :
    UserRows c.shared.store c.shared.sequences.users := by
  refine h.invariant (I := fun c => UserRows c.shared.store c.shared.sequences.users) ?_
    fun c l c' _ hI _ hstep => ?_
  · change UserRows s₀.store s₀.sequences.users
    rw [h₀.store]
    refine ⟨Store.locksHeld_idle writes _, Drawn.idle rfl htable.ids fun id hid => ?_,
      fun t w hw => by cases hw⟩
    obtain ⟨r, hr, rfl⟩ := List.mem_map.mp hid
    exact htable.below r hr
  · cases hstep with
    | run hthread hexec => exact hI.call hexec
    | spawn hfree hstart =>
      obtain ⟨queue, rfl⟩ := start_cases hstart
      exact hI
    | outside ho =>
      rcases outside_cases ho with ⟨queue, rfl⟩ | ⟨clock, steadyMs, -, -, rfl⟩
      · exact hI
      · exact hI

end LoginServer
