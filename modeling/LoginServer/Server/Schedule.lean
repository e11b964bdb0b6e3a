import LoginServer.Server.Effects

/-!
# Schedules of the server

A schedule is a list of labels, executed by `runLabels`. With the platform of
`Platform.ofTables`, which knows a few messages and passwords, whole runs compute, and
`exists_reach` turns the outcome of one into a statement about a reachable state.

`exists_reach_below` and `exists_reach_serial` do the same for runs whose steps meet a
condition on what other tasks are about to do.
-/

namespace LoginServer

open Database Interleaving

namespace Schedule

/-- The message `message` arrives from `socket`. -/
def frame (socket : Socket) (message : Bytes) : ServerLabel :=
  .outside (.frame ⟨socket, some (str "127.0.0.1"), 0⟩ message)

/-- Thread `t` makes its next `n` calls, none of which fails. -/
def calls (t n : Nat) : List ServerLabel := List.replicate n (.run t {})

/-- Thread `t` generates `token`. -/
def generates (t : Nat) (token : Bytes) : ServerLabel := .run t { uuid := token }

end Schedule

/-- A message with the given members in its header and body. -/
def messageText (header body : String) : Bytes :=
  str ("\x7b\"header\":\x7b" ++ header ++ "\x7d,\"body\":\x7b" ++ body ++ "\x7d\x7d")

def messageJson (header body : List (Bytes × Json)) : Json :=
  .object [(str "header", .object header), (str "body", .object body)]

/-- A platform that knows the documents of some messages and the digests of some
passwords; `lower` is that of the C locale. -/
def Platform.ofTables (documents : List (Bytes × Json)) (digests : List (Bytes × Bytes)) :
    Platform where
  lower := fun s => s.map fun b => if 65 ≤ b ∧ b ≤ 90 then b + 32 else b
  timestampText := fun _ => []
  sha256 := fun password => (digests.lookup password).getD (List.replicate 32 0)
  parse := fun message => documents.lookup message

/-- A server that has not started, over the data `db`. -/
def Server.over (db : Database) : Server where
  clientData := .empty
  store := .idle db
  sequences := {}
  clock := 0
  steadyMs := 0
  uuids := []
  eventQueue := []

theorem Server.over_initial {db : Database} (h : db.userSessions = []) :
    (Server.over db).Initial := by
  refine ⟨rfl, rfl, rfl, fun r hr => ?_, fun r hr => ?_⟩
  · rw [Server.over, Transactions.Store.idle, h] at hr
    cases hr
  · rw [Server.over, Transactions.Store.idle, h] at hr
    cases hr

variable (p : Platform) (cfg : ServerConfig) (s₀ : Server)

theorem exists_reach {P : ServerState → Prop} [DecidablePred P] (schedule : List ServerLabel)
    (h : ((loginServer p cfg).runLabels (fun _ _ => true) s₀.boot schedule).any
      (fun c => decide (P c)) = true) :
    ∃ c, (loginServer p cfg).Reach (fun _ _ => True) s₀.boot c ∧ P c := by
  obtain ⟨c, hrun, hc⟩ := (Option.any_eq_true _ _).mp h
  exact ⟨c, (System.reach_of_runLabels hrun).mono fun _ _ _ => trivial, of_decide_eq_true hc⟩

/-- A run of the threads below `n`, under any condition that its steps meet. -/
theorem exists_reach_below {meets : ServerState → ServerLabel → Prop} {P : ServerState → Prop}
    [DecidablePred P] {check : ServerState → ServerLabel → Bool} (n : Nat)
    (hmeets : ∀ c l, check c l = true → System.Label.Below n l →
      (∀ t, n ≤ t → c.threads t = none) → meets c l) (schedule : List ServerLabel)
    (hbelow : ∀ l ∈ schedule, System.Label.Below n l)
    (h : ((loginServer p cfg).runLabels check s₀.boot schedule).any
      (fun c => decide (P c)) = true) :
    ∃ c, (loginServer p cfg).Reach meets s₀.boot c ∧ (∀ t, n ≤ t → c.threads t = none) ∧ P c := by
  obtain ⟨c, hrun, hc⟩ := (Option.any_eq_true _ _).mp h
  obtain ⟨hreach, hnone⟩ := System.reach_below hrun hbelow fun _ _ => rfl
  exact ⟨c, hreach.mono fun c l hl => hmeets c l hl.1 hl.2.1 hl.2.2, hnone, of_decide_eq_true hc⟩

/-- The same for serial runs. -/
theorem exists_reach_serial {meets : ServerState → ServerLabel → Prop} {P : ServerState → Prop}
    [DecidablePred P] {check : ServerState → ServerLabel → Bool} (n : Nat)
    (hmeets : ∀ c l, check c l = true → System.Serial c l → System.Label.Below n l →
      (∀ t, n ≤ t → c.threads t = none) → meets c l) (schedule : List ServerLabel)
    (hbelow : ∀ l ∈ schedule, System.Label.Below n l)
    (h : ((loginServer p cfg).runLabels (fun c l => check c l && System.serialBelow n c l) s₀.boot
      schedule).any (fun c => decide (P c)) = true) :
    ∃ c, (loginServer p cfg).Reach meets s₀.boot c ∧ P c := by
  have hmeets' : ∀ c l, (check c l && System.serialBelow n c l) = true → System.Label.Below n l →
      (∀ t, n ≤ t → c.threads t = none) → meets c l := by
    intro c l hboth hl hnone
    obtain ⟨hcheck, hserial⟩ := Bool.and_eq_true_iff.mp hboth
    exact hmeets c l hcheck (.of_below hserial hnone) hl hnone
  obtain ⟨c, hreach, -, hc⟩ := exists_reach_below p cfg s₀ n hmeets' schedule hbelow h
  exact ⟨c, hreach, hc⟩

def isCommit : (Σ c, Cmd.Reply c) → Bool
  | ⟨.commitWork, some ()⟩ => true
  | _ => false

theorem eq_of_isCommit {e : Σ c, Cmd.Reply c} (h : isCommit e = true) :
    e = ⟨.commitWork, some ()⟩ := by
  unfold isCommit at h
  split at h
  · rfl
  · cases h

/-- The open transaction has executed a statement. -/
def inWork (h : Hist) : Bool :=
  (current h).any fun e =>
    match e with
    | ⟨.execPrepared _, _⟩ => true
    | _ => false

theorem not_mem_of_inWork {h : Hist} (hidle : inWork h = false) {q : Query}
    {r : Option q.Rows} : ⟨.execPrepared q, r⟩ ∉ current h := by
  intro hmem
  rw [inWork, List.any_eq_false] at hidle
  exact hidle _ hmem rfl

/-- While a thread makes a call, no other one is in a transaction. -/
def workApart (n : Nat) (c : ServerState) : ServerLabel → Bool
  | .run t _ => (List.range n).all fun t' => t' = t || !inWork (c.hist t')
  | _ => true

theorem inWork_of_workApart {n t : Nat} {x : Choice} {c : ServerState}
    (h : workApart n c (.run t x) = true) (hnone : ∀ t, n ≤ t → c.threads t = none) {t' : Nat}
    (ht' : t' ≠ t) : inWork (c.hist t') = false := by
  by_cases hn : t' < n
  · have hall := List.all_eq_true.mp h t' (List.mem_range.mpr hn)
    simpa [ht'] using hall
  · rw [Config.hist, hnone t' (Nat.le_of_not_lt hn)]
    rfl

/-! ## An account and its logins -/

namespace Sample

open Schedule Database

def hashOfPassword1 : Bytes :=
  str "0b14d501a594442a01c6859541bcb3e8164d183d32937b851835442f69d5c94e"

def digestOfPassword1 : Bytes :=
  [0x0b, 0x14, 0xd5, 0x01, 0xa5, 0x94, 0x44, 0x2a, 0x01, 0xc6, 0x85, 0x95, 0x41, 0xbc, 0xb3, 0xe8,
    0x16, 0x4d, 0x18, 0x3d, 0x32, 0x93, 0x7b, 0x85, 0x18, 0x35, 0x44, 0x2f, 0x69, 0xd5, 0xc9, 0x4e]

def digests : List (Bytes × Bytes) := [(str "password1", digestOfPassword1)]

def anna : UserRow := { id := 1, login := str "anna", password := hashOfPassword1, lastLogin := 0 }

def tokenA : Bytes := str "11111111-1111-4111-8111-111111111111"

def tokenB : Bytes := str "22222222-2222-4222-8222-222222222222"

def loginText : Bytes :=
  messageText "\"eventType\":\"authentificationClient\""
    "\"login\":\"anna\",\"password\":\"password1\",\"clientVersion\":\"1.0.0\""

def loginJson : Json :=
  messageJson [(str "eventType", .string (str "authentificationClient"))]
    [(str "login", .string (str "anna")), (str "password", .string (str "password1")),
      (str "clientVersion", .string (str "1.0.0"))]

def config : ServerConfig where
  limits := ⟨str "1.0.0", str "1.0.0"⟩

/-- The calls of a login up to its `storeClientData`. -/
def login (t : Nat) (token : Bytes) : List ServerLabel :=
  calls t 9 ++ [generates t token] ++ calls t 6

end Sample

end LoginServer
