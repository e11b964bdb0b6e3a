import Mathlib.Tactic.SplitIfs
import LoginServer.Database.Queries
import LoginServer.Transactions.Tables

/-!
# The rows of `users`

`Write.onUser` is what a write makes of a row of `users`, and `UserRow.failed` what
`increment_failed_logins` makes of it. Nothing deletes a user or changes its id, and the
ids of new ones are drawn from a sequence (`sequences_of_run`).
-/

namespace LoginServer

open Database

namespace Database

/-! ## What a write makes of a row -/

def Write.onUser : Write → UserRow → UserRow
  | .setFailedLogins id attempts lockedUntil, r =>
    if r.id = id then { r with failedLoginAttempts := attempts, lockedUntil := lockedUntil } else r
  | .resetFailedLogins id now ip clientVersion, r =>
    if r.id = id then
      { r with
        failedLoginAttempts := 0, lockedUntil := none, lastLogin := now,
        lastLoginIp := some ip, clientVersion := some clientVersion }
    else r
  | _, r => r

@[simp] theorem Write.onUser_id (w : Write) (r : UserRow) : (w.onUser r).id = r.id := by
  cases w <;> simp only [Write.onUser] <;> split_ifs <;> rfl

/-- A write that does not lock the row leaves it as it is. -/
theorem Write.onUser_of_lock_ne {w : Write} {r : UserRow} (h : w.lock ≠ some (.user r.id)) :
    w.onUser r = r := by
  cases w with
  | setFailedLogins id attempts lockedUntil => exact if_neg fun hid => h (by rw [hid]; rfl)
  | resetFailedLogins id now ip clientVersion => exact if_neg fun hid => h (by rw [hid]; rfl)
  | _ => rfl

/-- The users that the writes insert. -/
def insertedUsers (ws : List Write) : List UserRow :=
  ws.filterMap fun
    | .insertUser row => some row
    | _ => none

theorem insertedUsers_append (ws ws' : List Write) :
    insertedUsers (ws ++ ws') = insertedUsers ws ++ insertedUsers ws' :=
  List.filterMap_append

theorem users_applyWrite_eq (db : Database) (w : Write) :
    (applyWrite db w).users = db.users.map w.onUser ++ insertedUsers [w] := by
  have hsame : db.users = db.users.map id ++ [] := by rw [List.map_id, List.append_nil]
  cases w with
  | insertUser row => exact congrArg (· ++ [row]) (List.map_id db.users).symm
  | setFailedLogins id attempts lockedUntil =>
    refine Eq.trans ?_ (List.append_nil _).symm
    refine List.map_congr_left fun r _ => ?_
    simp only [Write.onUser, decide_eq_true_eq]
  | resetFailedLogins id now ip clientVersion =>
    refine Eq.trans ?_ (List.append_nil _).symm
    refine List.map_congr_left fun r _ => ?_
    simp only [Write.onUser, decide_eq_true_eq]
  | _ => exact hsame

/-- The row of a user after some writes. -/
theorem mem_users_foldl (ws : List Write) {db : Database} {r : UserRow} (hr : r ∈ db.users) :
    ws.foldl (fun r w => w.onUser r) r ∈ (ws.foldl applyWrite db).users := by
  induction ws generalizing db r with
  | nil => exact hr
  | cons w ws ih =>
    refine ih ?_
    rw [users_applyWrite_eq]
    exact List.mem_append_left _ (List.mem_map_of_mem hr)

/-- Users are only added. -/
theorem userIds_foldl (ws : List Write) (db : Database) :
    (ws.foldl applyWrite db).users.map (·.id) =
      db.users.map (·.id) ++ (insertedUsers ws).map (·.id) := by
  induction ws generalizing db with
  | nil => exact (List.append_nil _).symm
  | cons w ws ih =>
    have hids : (db.users.map w.onUser).map (·.id) = db.users.map (·.id) := by
      rw [List.map_map]
      exact List.map_congr_left fun r _ => w.onUser_id r
    rw [List.foldl_cons, ih, users_applyWrite_eq, List.map_append, hids, List.append_assoc,
      ← List.map_append, ← insertedUsers_append, List.singleton_append]

theorem foldl_onUser_of_lock_ne {ws : List Write} {r : UserRow}
    (h : ∀ w ∈ ws, w.lock ≠ some (.user r.id)) : ws.foldl (fun r w => w.onUser r) r = r := by
  induction ws with
  | nil => rfl
  | cons w ws ih =>
    obtain ⟨hw, hws⟩ := List.forall_mem_cons.mp h
    rw [List.foldl_cons, Write.onUser_of_lock_ne hw, ih hws]

/-! ## A failed login -/

/-- `failed_login_attempts + 1`, and from the fifth on a lock of fifteen minutes. -/
def UserRow.failed (now : Time) (r : UserRow) : UserRow :=
  { r with
    failedLoginAttempts := r.failedLoginAttempts + 1,
    lockedUntil := if r.failedLoginAttempts + 1 ≥ 5 then some (now + minutes 15)
      else r.lockedUntil }

/-- The write of `increment_failed_logins` for the row. -/
def UserRow.failure (now : Time) (r : UserRow) : Write :=
  .setFailedLogins r.id (r.failed now).failedLoginAttempts (r.failed now).lockedUntil

theorem UserRow.onUser_failure (now : Time) (r : UserRow) :
    (r.failure now).onUser r = r.failed now :=
  if_pos rfl

/-- The same write again changes nothing. -/
theorem UserRow.onUser_failure_failed (now : Time) (r : UserRow) :
    (r.failure now).onUser (r.failed now) = r.failed now :=
  if_pos rfl

/-- A failure is counted once, however often its write is made. -/
theorem foldl_onUser_of_failure {ws : List Write} {r : UserRow} {now : Time}
    (h : ∀ w ∈ ws, w.lock = some (.user r.id) → w = r.failure now) (hmem : r.failure now ∈ ws) :
    ws.foldl (fun r w => w.onUser r) r = r.failed now := by
  have hstays : ∀ ws : List Write, (∀ w ∈ ws, w.lock = some (.user r.id) → w = r.failure now) →
      ws.foldl (fun r w => w.onUser r) (r.failed now) = r.failed now := by
    intro ws hws
    induction ws with
    | nil => rfl
    | cons w ws ih =>
      obtain ⟨hw, hws⟩ := List.forall_mem_cons.mp hws
      have hkept : w.onUser (r.failed now) = r.failed now := by
        by_cases hlock : w.lock = some (.user r.id)
        · rw [hw hlock, UserRow.onUser_failure_failed]
        · exact Write.onUser_of_lock_ne hlock
      rw [List.foldl_cons, hkept, ih hws]
  induction ws with
  | nil => cases hmem
  | cons w ws ih =>
    obtain ⟨hw, hws⟩ := List.forall_mem_cons.mp h
    rw [List.foldl_cons]
    by_cases hlock : w.lock = some (.user r.id)
    · rw [hw hlock, UserRow.onUser_failure, hstays ws hws]
    · have hne : r.failure now ≠ w := fun heq => hlock (heq ▸ rfl)
      rw [Write.onUser_of_lock_ne hlock]
      exact ih hws ((List.mem_cons.mp hmem).resolve_left hne)

theorem writes_of_incrementFailedLogins {db : Database} {now : Time} {seq seq' : Sequences}
    {login : Bytes} {ws : List Write}
    (h : db.incrementFailedLogins now seq login = some ((), ws, seq')) :
    ws = (db.users.filter fun r => r.login = login).map (UserRow.failure now) := by
  obtain ⟨ws', hws, heq⟩ := Option.map_eq_some_iff.mp h
  cases heq
  have hall : List.Forall₂ (· = ·) ws
      ((db.users.filter fun r => r.login = login).map (UserRow.failure now)) := by
    rw [List.forall₂_map_right_iff]
    refine (Transactions.forall₂_of_mapM hws).flip.imp fun w r hw => ?_
    obtain ⟨attempts, hattempts, rfl⟩ := Option.map_eq_some_iff.mp hw
    rw [smallint_eq_some hattempts]
    rfl
  rwa [List.forall₂_eq_eq_eq] at hall

/-! ## The sequences -/

variable {f : SqlFunctions} {db : Database} {now : Time} {seq seq' : Sequences} {q : Query}
  {rows : q.Rows} {ws : List Write}

/-- Which statements draw an id of `users` or of `user_sessions`. -/
theorem sequences_of_run (h : q.run db now seq f = some (rows, ws, seq')) :
    match q with
    | .createUserSession _ _ _ =>
      seq'.users = seq.users ∧ seq'.userSessions = seq.userSessions + 1
    | .registerUser _ _ _ _ _ =>
      seq'.users = seq.users + 1 ∧ seq'.userSessions = seq.userSessions
    | _ => seq'.users = seq.users ∧ seq'.userSessions = seq.userSessions := by
  cases q with
  | createUserSession userId tokenHash clientVersion =>
    simp only [Query.run, createUserSession] at h
    split at h
    · split_ifs at h <;> cases h <;> exact ⟨rfl, rfl⟩
    · cases h
  | incrementFailedLogins login =>
    obtain ⟨ws', -, heq⟩ := Option.map_eq_some_iff.mp h
    cases heq
    exact ⟨rfl, rfl⟩
  | resetFailedLogins userId ip clientVersion =>
    obtain ⟨ws', -, heq⟩ := Option.map_eq_some_iff.mp h
    cases heq
    exact ⟨rfl, rfl⟩
  | createCharacter accountId name classSlug raceSlug genderSlug =>
    simp only [Query.run, createCharacter] at h
    split at h
    · cases h
      exact ⟨rfl, rfl⟩
    · split at h
      · split_ifs at h
        cases h
        exact ⟨rfl, rfl⟩
      · cases h
  | initCharacterState characterId =>
    simp only [Query.run, initCharacterState] at h
    split_ifs at h <;> cases h <;> exact ⟨rfl, rfl⟩
  | initCharacterPosition characterId =>
    simp only [Query.run, initCharacterPosition] at h
    split_ifs at h
    cases h
    exact ⟨rfl, rfl⟩
  | initCharacterStarterItems characterId classId =>
    simp only [Query.run, initCharacterStarterItems] at h
    split at h
    · cases h
    · split_ifs at h
      cases h
      exact ⟨rfl, rfl⟩
  | registerUser login password email ip clientVersion =>
    simp only [Query.run, registerUser] at h
    split at h
    · cases h
      exact ⟨rfl, rfl⟩
    · cases h
  | _ =>
    cases h
    exact ⟨rfl, rfl⟩

end Database

end LoginServer
