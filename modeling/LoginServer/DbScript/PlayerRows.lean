import LoginServer.DbScript.Phases

/-!
# What load-safe does with the player rows

The backup file outlives the script unless the trap removes it or no phase stops the script.
So rows are lost exactly if one of them is not in the database then.
-/

namespace LoginServer

namespace DbScript

open Scripts Shell

variable {Row : Type}

/-- A row of the players is not in the database. -/
def Lacks (players : Rows Row) (db : Option (Rows Row)) : Prop :=
  ∃ table ∈ PLAYER_TABLES, ∃ row ∈ players table, ∀ rows ∈ db, row ∉ rows table

namespace Host

variable {host : Host Row} {players : Rows Row}

/-- The trap removes the backup. -/
def trapRemoves (host : Host Row) (p : Phase Row) : Bool :=
  p.trapped && (p.stop.any fun r => r.localsKept host.localsAfterErrexit) &&
    host.trapRm = .status 0

theorem mem_phases {force : Bool} {p : Phase Row} (hp : p ∈ host.phases players force) :
    (p.saved = false → p.database = some players) ∧
      (p.saved = true → ∀ r, p.stop = some r → r.code ≠ 0) := by
  have hcommand : ∀ (ending : Ending) (db : Option (Rows Row)),
      p = ⟨errexit ending, true, true, db⟩ →
      (p.saved = false → p.database = some players) ∧
        (p.saved = true → ∀ r, p.stop = some r → r.code ≠ 0) := by
    rintro ending db rfl
    exact ⟨fun h => (by cases h), fun _ r h => errexit_code h⟩
  have hbefore : p.saved = false → p.database = some players →
      (p.saved = false → p.database = some players) ∧
        (p.saved = true → ∀ r, p.stop = some r → r.code ≠ 0) :=
    fun hsaved hdb => ⟨fun _ => hdb, fun h => by rw [hsaved] at h; cases h⟩
  have hrestore : p ∈ host.restorePhases players →
      (p.saved = false → p.database = some players) ∧
        (p.saved = true → ∀ r, p.stop = some r → r.code ≠ 0) := by
    intro hp
    simp only [restorePhases, List.mem_append, List.mem_singleton, List.mem_map] at hp
    rcases hp with (rfl | ⟨seq, -, rfl⟩) | rfl
    · unfold restorePhase
      split
      · exact ⟨fun h => (by cases h), fun _ r h => by cases h⟩
      · exact ⟨fun h => (by cases h), fun _ r h => by cases h; exact Nat.one_ne_zero⟩
      · exact ⟨fun h => (by cases h), fun _ r h => by cases h; simp [Stop.code]⟩
    · exact hcommand _ _ rfl
    · exact hcommand _ _ rfl
  simp only [phases, reloadPhases, List.mem_append, List.mem_cons, List.not_mem_nil,
    or_false] at hp
  rcases hp with (rfl | rfl) | hp | (rfl | rfl) | ((rfl | rfl | rfl) | hp) | rfl
  · exact hbefore rfl rfl
  · exact hbefore rfl rfl
  · unfold confirmPhases at hp
    split at hp
    · cases hp
    · simp only [List.mem_cons, List.not_mem_nil, or_false] at hp
      rcases hp with rfl | rfl
      · exact hbefore rfl rfl
      · exact hbefore rfl rfl
  · exact hbefore rfl rfl
  · exact hcommand _ _ rfl
  · exact hcommand _ _ rfl
  · exact hcommand _ _ rfl
  · exact hcommand _ _ rfl
  · split at hp
    · exact hrestore hp
    · cases hp
  · exact hcommand _ _ rfl

/-- After a phase has stopped the script, the backup is there unless the trap removes it. -/
theorem finish_left {p : Phase Row} {r : Stop} {s : State (World Row)} (hr : p.stop = some r)
    (hleft : host.Left players p s) :
    let out := finish host.localsAfterErrexit (.error r, s)
    out.2.database = p.database ∧ (∀ text, Line.ok text ∉ out.2.output) ∧
      if host.trapRemoves p then out.2.backup = none
      else p.saved = true → r.code ≠ 0 →
        out.2.backup = some (host.backup players) ∧ out.1 ≠ 0 := by
  intro out
  have hout : out = runTrap (r.localsKept host.localsAfterErrexit) r.code s := rfl
  have htrap := hleft.trap
  unfold trapRemoves
  rw [hr, Option.any_some]
  cases htrapped : p.trapped with
  | false =>
    rw [htrapped, if_neg Bool.false_ne_true] at htrap
    have hout : out = (r.code, s.world) := by rw [hout, runTrap, htrap]
    rw [hout]
    exact ⟨hleft.database, hleft.unsaid, fun hsaved hcode => ⟨hleft.backup hsaved, hcode⟩⟩
  | true =>
    rw [htrapped, if_pos rfl] at htrap
    cases hkept : r.localsKept host.localsAfterErrexit with
    | false =>
      have hout : out = (1, s.world) := by
        rw [hout, runTrap, htrap, hkept]
        rfl
      rw [hout]
      exact ⟨hleft.database, hleft.unsaid, fun hsaved _ => ⟨hleft.backup hsaved, Nat.one_ne_zero⟩⟩
    | true =>
      rw [hkept] at hout
      match hrm : host.trapRm with
      | .status 0 =>
        have hout : out = (r.code, { s.world with backup := none }) := by
          rw [hout, runTrap, htrap, hrm]
          rfl
        rw [hout]
        exact ⟨hleft.database, hleft.unsaid, rfl⟩
      | .status (code + 1) =>
        have hout : out = (code + 1, s.world) := by
          rw [hout, runTrap, htrap, hrm]
          rfl
        rw [hout]
        exact ⟨hleft.database, hleft.unsaid, fun hsaved _ =>
          ⟨hleft.backup hsaved, Nat.succ_ne_zero code⟩⟩
      | .signal number =>
        have hout : out = (128 + number, s.world) := by
          rw [hout, runTrap, htrap, hrm]
          rfl
        rw [hout]
        exact ⟨hleft.database, hleft.unsaid, fun hsaved _ => ⟨hleft.backup hsaved, by simp⟩⟩

theorem not_lacks_iff {db : Option (Rows Row)} :
    ¬Lacks players db ↔
      ∀ table ∈ PLAYER_TABLES, ∀ row ∈ players table, ∃ rows ∈ db, row ∈ rows table := by
  unfold Lacks
  push Not
  rfl

theorem not_lacks_self : ¬Lacks players (some players) :=
  not_lacks_iff.mpr fun _ _ _ hrow => ⟨players, rfl, hrow⟩

end Host

/-- The database has the rows of the players. -/
def Preserved (players : Rows Row) (w : World Row) : Prop :=
  ∀ table ∈ PLAYER_TABLES, ∀ row ∈ players table, ∃ rows ∈ w.database, row ∈ rows table

/-- No row is lost, and the script says that the players are preserved only if they are. -/
def NeverLoses (host : Host Row) (players : Rows Row) (out : Nat × World Row) : Prop :=
  (Preserved players out.2 ∨ (out.2.backup = some (host.backup players) ∧ out.1 ≠ 0)) ∧
    ∀ text, Line.ok text ∈ out.2.output → Preserved players out.2

/-- The trap removes the backup while a row is not in the database, or the script goes
through to its end without it. -/
def Host.Loses (host : Host Row) (players : Rows Row) (args : List String)
    (settings : Settings) : Prop :=
  match parseArgs args settings with
  | .error _ => False
  | .ok settings =>
    match firstStop Phase.stop (host.phases players settings.force) with
    | some p => host.trapRemoves p = true ∧ Lacks players p.database
    | none => Lacks players (some (host.reloadedRows players))

variable (host : Host Row) (players : Rows Row)

theorem loadSafe_neverLoses_iff (args : List String) (settings : Settings)
    (playerBackup : String) :
    NeverLoses host players (host.run args settings playerBackup players) ↔
      ¬host.Loses players args settings := by
  unfold Host.run Host.cmd_load_safe Host.Loses
  cases parseArgs args settings with
  | error text =>
    have hkept : Preserved players ⟨some players, none, [.plain text]⟩ :=
      Host.not_lacks_iff.mp Host.not_lacks_self
    exact iff_of_true ⟨Or.inl hkept, fun _ _ => hkept⟩ not_false
  | ok settings =>
    have hready : host.Ready players false false (some players)
        ⟨⟨some players, none, []⟩, none⟩ :=
      ⟨rfl, rfl, fun h => (by cases h), by simp⟩
    have hperforms := Host.loadSafe_performs settings playerBackup _ hready
    cases hfirst : firstStop Phase.stop (host.phases players settings.force) with
    | some p =>
      rw [hfirst] at hperforms
      obtain ⟨r, s', hr, heq, hleft⟩ := hperforms
      obtain ⟨hdb, hunsaid, hbackup⟩ := Host.finish_left hr hleft
      obtain ⟨hbefore, hcode⟩ := Host.mem_phases (List.mem_of_find?_eq_some hfirst)
      simp only [heq, hfirst]
      have hpreserved : Preserved players
          (finish host.localsAfterErrexit (.error r, s')).2 ↔ ¬Lacks players p.database := by
        rw [Host.not_lacks_iff, ← hdb]
        rfl
      unfold NeverLoses
      rw [and_iff_left fun text h => absurd h (hunsaid text), hpreserved]
      by_cases hremoves : host.trapRemoves p = true
      · rw [if_pos hremoves] at hbackup
        rw [hbackup]
        simp [hremoves]
      · rw [if_neg hremoves] at hbackup
        refine iff_of_true ?_ fun h => hremoves h.1
        by_cases hlacks : Lacks players p.database
        · have hsaved : p.saved = true := by
            by_contra hnot
            rw [hbefore (Bool.eq_false_iff.mpr hnot)] at hlacks
            exact Host.not_lacks_self hlacks
          exact Or.inr (hbackup hsaved (hcode hsaved r hr))
        · exact Or.inl hlacks
    | none =>
      rw [hfirst] at hperforms
      obtain ⟨_, s', heq, hdb, htrap⟩ := hperforms
      have hfinish : finish host.localsAfterErrexit (.ok (), s') = (0, s'.world) := by
        rw [finish, runTrap, htrap]
      have hpreserved : Preserved players s'.world ↔
          ¬Lacks players (some (host.reloadedRows players)) := by
        rw [Host.not_lacks_iff, ← hdb]
        rfl
      simp only [heq, hfirst]
      rw [hfinish, ← hpreserved]
      constructor
      · rintro ⟨hkept | ⟨-, hstatus⟩, -⟩
        · exact hkept
        · exact absurd rfl hstatus
      · exact fun hkept => ⟨Or.inl hkept, fun _ _ => hkept⟩

/-- Every program goes well. A row is the id of an item, and the dump has lost item 9, which a
player still has. -/
def lostItem : Host Nat where
  dockerPs := true
  dumpFileExists := true
  dumpFileSize := "1000"
  read := .status 0
  reply := "y"
  pgDump := .status 0
  partialBackup := none
  order := id
  order_perm tables := List.Perm.refl tables
  wc := .status 0
  size backup := backup.length
  size_pos := by
    rintro backup ⟨c, hc, -⟩
    exact List.length_pos_of_mem hc
  dropDatabase := .status 0
  dropped := true
  createDatabase := .status 0
  created := true
  loadDump := .status 0
  content := fun _ => []
  restore := .status 0
  restored := 0
  accepts _ c := c.1 ≠ .player_inventory || c.2.all fun item => item ≠ 9
  tableName _ := .status 0
  setval := .status 0
  rm := .status 0
  trapRm := .status 0
  localsAfterErrexit := false

def inventoryOfTwo : Rows Nat := fun table => if table = .player_inventory then [4, 9] else []

/-- `player_inventory` is empty afterwards, the backup is gone and the script reports success. -/
theorem lostItem_loses :
    ¬NeverLoses lostItem inventoryOfTwo
      (lostItem.run ["--yes"] { dumpFile := "dump.sql" } "backup.sql" inventoryOfTwo) := by
  have hdb : (lostItem.run ["--yes"] { dumpFile := "dump.sql" } "backup.sql"
      inventoryOfTwo).2.database.map (fun rows => rows .player_inventory) = some [] := by
    decide +kernel
  have hbackup : (lostItem.run ["--yes"] { dumpFile := "dump.sql" } "backup.sql"
      inventoryOfTwo).2.backup = none := by
    decide +kernel
  rintro ⟨hkept | ⟨hsaved, -⟩, -⟩
  · obtain ⟨rows, hrows, hmem⟩ := hkept .player_inventory (by decide) 9 (by decide)
    rw [Option.mem_def.mp hrows, Option.map_some, Option.some.injEq] at hdb
    rw [hdb] at hmem
    cases hmem
  · rw [hbackup] at hsaved
    cases hsaved

end DbScript

end LoginServer
