import LoginServer.DbScript.LoadSafe

/-!
# The phases of load-safe

A phase is a step of the script that can stop it, with what it leaves in the database then.
`loadSafe_performs` says that the script goes through its phases. The content dump may bring
any rows, and a restore that psql ends with status 0 has executed every `COPY`, accepted or
not.
-/

namespace LoginServer

namespace DbScript

open Scripts Shell

variable {Row : Type}

/-- A step of the script, with what is left if it stops the script. -/
structure Phase (Row : Type) where
  stop : Option Stop
  /-- The `EXIT` trap is set. -/
  trapped : Bool
  /-- The backup is complete. -/
  saved : Bool
  database : Option (Rows Row)

namespace Host

variable (host : Host Row) (players : Rows Row)

def backup : List (Copy Row) := host.dump PLAYER_TABLES players

/-- The rows after the restore. -/
def restoredRows : Rows Row := (host.backup players).foldl host.copy host.content

def reloadedRows : Rows Row :=
  if 0 < host.size (host.backup players) then host.restoredRows players else host.content

def exitUnless (condition : Bool) : Option Stop := if condition then none else some (.exit 1)

def confirmPhases (force : Bool) : List (Phase Row) :=
  if force then []
  else
    [⟨errexit host.read, true, false, some players⟩,
      ⟨if host.declines then some (.exit 0) else none, true, false, some players⟩]

/-- A status other than 0 is the script's own `exit 1`, after which no trap is set. -/
def restorePhase : Phase Row :=
  let rows := ((host.backup players).take host.restored).foldl host.copy host.content
  match host.restore with
  | .status 0 => ⟨none, true, true, some rows⟩
  | .status (_ + 1) => ⟨some (.exit 1), false, true, some rows⟩
  | .signal number => ⟨some (.signal number), true, true, some rows⟩

def restorePhases : List (Phase Row) :=
  [host.restorePhase players] ++
    PLAYER_SEQUENCES.map (fun seq =>
      ⟨errexit (host.tableName seq), true, true, some (host.restoredRows players)⟩) ++
    [⟨errexit host.setval, true, true, some (host.restoredRows players)⟩]

def reloadPhases : List (Phase Row) :=
  [⟨errexit host.dropDatabase, true, true, if host.dropped then none else some players⟩,
    ⟨errexit host.createDatabase, true, true,
      if host.created then some fun _ => [] else none⟩,
    ⟨errexit host.loadDump, true, true, some host.content⟩] ++
  (if 0 < host.size (host.backup players) then host.restorePhases players else []) ++
  [⟨errexit host.rm, true, true, some (host.reloadedRows players)⟩]

def phases (force : Bool) : List (Phase Row) :=
  [⟨exitUnless host.dockerPs, false, false, some players⟩,
    ⟨exitUnless host.dumpFileExists, false, false, some players⟩] ++
  (host.confirmPhases players force ++
    ([⟨errexit host.pgDump, true, false, some players⟩,
      ⟨errexit host.wc, true, true, some players⟩] ++
      host.reloadPhases players))

/-- The state between two steps. -/
structure Ready (trapped saved : Bool) (db : Option (Rows Row)) (s : State (World Row)) :
    Prop where
  database : s.world.database = db
  trap : s.trap = if trapped then some (removeBackup host.trapRm) else none
  backup : saved = true → s.world.backup = some (host.backup players)
  unsaid : ∀ text, Line.ok text ∉ s.world.output

/-- What a phase leaves when it stops the script. -/
def Left (p : Phase Row) (s : State (World Row)) : Prop :=
  host.Ready players p.trapped p.saved p.database s

variable {host players}

/-! ## Steps -/

theorem print_performs {line : Line} (hline : ∀ text, line ≠ .ok text) {trapped saved : Bool}
    {db : Option (Rows Row)} :
    Performs Phase.stop (host.Left players) (host.Ready players trapped saved db) (print line) []
      fun _ => host.Ready players trapped saved db := by
  refine Performs.quiet fun s hs => ⟨(), _, rfl, hs.database, hs.trap, hs.backup, fun text h => ?_⟩
  rcases List.mem_append.mp h with h | h
  · exact hs.unsaid text h
  · exact hline text (List.mem_singleton.mp h).symm

theorem info_performs (text : String) {trapped saved : Bool} {db : Option (Rows Row)} :
    Performs Phase.stop (host.Left players) (host.Ready players trapped saved db)
      (print (.info text)) [] fun _ => host.Ready players trapped saved db :=
  print_performs fun _ h => by cases h

/-- A command that leaves the database and the backup as they are. -/
theorem command_performs {ending : Ending} {trapped saved : Bool} {db : Option (Rows Row)} :
    Performs Phase.stop (host.Left players) (host.Ready players trapped saved db)
      (command fun w => (ending, w)) [⟨errexit ending, trapped, saved, db⟩]
      fun _ => host.Ready players trapped saved db :=
  Performs.capture (fun _ _ => rfl) (fun _ hs _ => hs) fun _ hs _ => hs

/-- A command that changes the database only. -/
theorem database_performs {act : World Row → Ending × World Row} {ending : Ending}
    {trapped saved : Bool} {db after failed : Option (Rows Row)} (hending : ∀ w, (act w).1 = ending)
    (hgood : ∀ w, w.database = db → ending = .status 0 → (act w).2 = { w with database := after })
    (hbad : ∀ w, w.database = db → ending ≠ .status 0 →
      (act w).2 = { w with database := failed }) :
    Performs Phase.stop (host.Left players) (host.Ready players trapped saved db) (command act)
      [⟨errexit ending, trapped, saved, failed⟩]
      fun _ => host.Ready players trapped saved after := by
  refine Performs.capture (fun s _ => by rw [hending]) (fun s hs hnone => ?_) fun s hs hsome => ?_
  · rw [hgood s.world hs.database (errexit_eq_none.mp hnone)]
    exact ⟨rfl, hs.trap, hs.backup, hs.unsaid⟩
  · rw [hbad s.world hs.database fun h => hsome (errexit_eq_none.mpr h)]
    exact ⟨rfl, hs.trap, hs.backup, hs.unsaid⟩

theorem exitUnless_performs {condition : Bool} {c : Script (World Row) Unit}
    {trapped saved : Bool} {db : Option (Rows Row)}
    (hc : ∀ s, host.Ready players trapped saved db s →
      ∃ s', c s = (.error (.exit 1), s') ∧ host.Ready players trapped saved db s') :
    Performs Phase.stop (host.Left players) (host.Ready players trapped saved db)
      (when (!condition) c) [⟨exitUnless condition, trapped, saved, db⟩]
      fun _ => host.Ready players trapped saved db := by
  cases condition with
  | true => exact Performs.single (fun s hs _ => ⟨(), s, rfl, hs⟩) fun _ _ r h => by cases h
  | false =>
    refine Performs.single (fun _ _ h => by cases h) fun s hs r h => ?_
    cases h
    exact hc s hs

theorem die_ready {text : String} {trapped saved : Bool} {db : Option (Rows Row)}
    {s : State (World Row)} (hs : host.Ready players trapped saved db s) :
    ∃ s', die text s = (.error (.exit 1), s') ∧ host.Ready players trapped saved db s' := by
  refine ⟨_, rfl, hs.database, hs.trap, hs.backup, fun text' h => ?_⟩
  rcases List.mem_append.mp h with h | h
  · exact hs.unsaid text' h
  · cases List.mem_singleton.mp h

theorem confirm_performs (force : Bool) (msg : String) :
    Performs Phase.stop (host.Left players) (host.Ready players true false (some players))
      (host.confirm force msg) (host.confirmPhases players force)
      fun _ => host.Ready players true false (some players) := by
  cases force with
  | true => exact Performs.quiet fun s hs => ⟨(), s, rfl, hs⟩
  | false =>
    have hdecline : Performs Phase.stop (host.Left players)
        (host.Ready players true false (some players))
        (when host.declines do
          print (.plain "Aborted.")
          exit 0)
        [⟨if host.declines then some (.exit 0) else none, true, false, some players⟩]
        fun _ => host.Ready players true false (some players) := by
      cases host.declines with
      | false => exact Performs.single (fun s hs _ => ⟨(), s, rfl, hs⟩) fun _ _ r h => by cases h
      | true =>
        refine Performs.single (fun _ _ h => by cases h) fun s hs r h => ?_
        cases h
        refine ⟨_, rfl, hs.database, hs.trap, hs.backup, fun text h => ?_⟩
        rcases List.mem_append.mp h with h | h
        · exact hs.unsaid text h
        · cases List.mem_singleton.mp h
    exact (print_performs fun _ h => by cases h).bind fun _ =>
      (print_performs fun _ h => by cases h).bind fun _ =>
      (print_performs fun _ h => by cases h).bind fun _ =>
      command_performs.bind fun _ => hdecline

theorem pgDump_performs :
    Performs Phase.stop (host.Left players) (host.Ready players true false (some players))
      (command host.runPgDump) [⟨errexit host.pgDump, true, false, some players⟩]
      fun _ => host.Ready players true true (some players) := by
  have hrun : ∀ w : World Row, w.database = some players → host.runPgDump w =
      (host.pgDump, { w with
        backup := if host.pgDump = .status 0 then some (host.backup players)
          else host.partialBackup }) := by
    intro w hw
    unfold runPgDump
    rw [hw]
    cases host.pgDump with
    | status code =>
      cases code with
      | zero => rfl
      | succ code => rfl
    | signal number => rfl
  refine Performs.capture (fun s hs => by rw [hrun s.world hs.database])
    (fun s hs hnone => ?_) fun s hs _ => ?_
  · rw [hrun s.world hs.database]
    exact ⟨hs.database, hs.trap, fun _ => if_pos (errexit_eq_none.mp hnone), hs.unsaid⟩
  · rw [hrun s.world hs.database]
    exact ⟨hs.database, hs.trap, fun h => (by cases h), hs.unsaid⟩

/-- The restore goes well, or the script stops with the backup in its place. -/
theorem runRestore_performs {handler : Script (World Row) Unit}
    (hhandler : ∀ s db, host.Ready players true true db s →
      ∃ s', handler s = (.error (.exit 1), s') ∧ host.Ready players false true db s') :
    Performs Phase.stop (host.Left players) (host.Ready players true true (some host.content))
      (orElse host.runRestore handler) [host.restorePhase players]
      fun _ => host.Ready players true true (some (host.restoredRows players)) := by
  have hrun : ∀ s, host.Ready players true true (some host.content) s →
      host.runRestore s.world = (host.restore,
        ⟨some ((if host.restore = .status 0 then host.backup players
            else (host.backup players).take host.restored).foldl host.copy host.content),
          some (host.backup players), s.world.output⟩) := by
    intro s hs
    unfold runRestore
    rw [hs.backup rfl, hs.database]
    rfl
  have hready : ∀ s, host.Ready players true true (some host.content) s →
      host.Ready players true true
        (some ((if host.restore = .status 0 then host.backup players
          else (host.backup players).take host.restored).foldl host.copy host.content))
        { s with world := (host.runRestore s.world).2 } := by
    intro s hs
    rw [hrun s hs]
    exact ⟨rfl, hs.trap, fun _ => rfl, hs.unsaid⟩
  have hending : ∀ s, host.Ready players true true (some host.content) s →
      (host.runRestore s.world).1 = host.restore := fun s hs => by rw [hrun s hs]
  refine Performs.orElse (fun s hs h => ?_) (fun s hs code h => ?_) fun s hs number h => ?_
  · have hafter := hready s hs
    rw [hending s hs] at h
    rw [if_pos h] at hafter
    exact ⟨by simp [restorePhase, h], hafter⟩
  · have hafter := hready s hs
    rw [hending s hs] at h
    rw [if_neg (by simp [h])] at hafter
    have hphase : host.restorePhase players =
        ⟨some (.exit 1), false, true,
          some (((host.backup players).take host.restored).foldl host.copy host.content)⟩ := by
      simp [restorePhase, h]
    obtain ⟨s', heq, hleft⟩ := hhandler _ _ hafter
    rw [hphase]
    exact ⟨_, s', rfl, heq, hleft⟩
  · have hafter := hready s hs
    rw [hending s hs] at h
    rw [if_neg (by simp [h])] at hafter
    have hphase : host.restorePhase players =
        ⟨some (.signal number), true, true,
          some (((host.backup players).take host.restored).foldl host.copy host.content)⟩ := by
      simp [restorePhase, h]
    rw [hphase]
    exact ⟨rfl, hafter⟩

theorem restore_performs (playerBackup : String) :
    Performs Phase.stop (host.Left players)
      (host.Ready players true true (some host.content)) (host.restorePlayers playerBackup)
      (host.restorePhases players)
      fun _ => host.Ready players true true (some (host.restoredRows players)) := by
  have hhandler : ∀ (s : State (World Row)) db, host.Ready players true true db s →
      ∃ s', (do
        print (.warn "Player data restore failed! The database has content but no players.")
        print (.warn ("Check the backup file: " ++ playerBackup))
        clearTrap
        exit 1 : Script (World Row) Unit) s = (.error (.exit 1), s') ∧
        host.Ready players false true db s' := by
    intro s db hs
    refine ⟨_, rfl, hs.database, rfl, hs.backup, fun text h => ?_⟩
    simp only [List.mem_append, List.mem_singleton, reduceCtorEq, or_false] at h
    exact hs.unsaid text h
  exact (info_performs _).bind fun _ =>
    (runRestore_performs hhandler).bind fun _ =>
    (info_performs _).bind fun _ =>
    (Performs.each (fun _ => command_performs) PLAYER_SEQUENCES).bind fun _ =>
    command_performs

/-! ## The script -/

/-- The backup is removed, and with it the trap. -/
theorem rm_performs {db : Rows Row} (rest : Script (World Row) Unit)
    (hrest : ∀ s : State (World Row), s.world.database = some db →
      ∃ s', rest s = (.ok (), s') ∧ s'.world.database = some db ∧ s'.trap = none) :
    Performs Phase.stop (host.Left players) (host.Ready players true true (some db))
      (command (removeBackup host.rm) >>= fun _ => rest)
      [⟨errexit host.rm, true, true, some db⟩]
      fun _ s => s.world.database = some db ∧ s.trap = none := by
  have hrm : Performs Phase.stop (host.Left players) (host.Ready players true true (some db))
      (command (removeBackup host.rm)) [⟨errexit host.rm, true, true, some db⟩]
      fun _ s => s.world.database = some db := by
    refine Performs.capture (fun _ _ => rfl) (fun s hs hnone => ?_) fun s hs hsome => ?_
    · change (removeBackup host.rm s.world).2.database = some db
      unfold removeBackup
      split
      · exact hs.database
      · exact hs.database
    · have hne : host.rm ≠ .status 0 := fun h => hsome (errexit_eq_none.mpr h)
      unfold removeBackup
      rw [if_neg hne]
      exact hs
  exact hrm.bind fun _ => Performs.quiet fun s hs =>
    have ⟨s', heq, hdb, htrap⟩ := hrest s hs
    ⟨(), s', heq, hdb, htrap⟩

theorem reload_performs (playerBackup : String) :
    Performs Phase.stop (host.Left players) (host.Ready players true true (some host.content))
      (when (host.size (host.backup players) > 0) (host.restorePlayers playerBackup))
      (if 0 < host.size (host.backup players) then host.restorePhases players else [])
      fun _ => host.Ready players true true (some (host.reloadedRows players)) := by
  unfold reloadedRows
  by_cases hsize : 0 < host.size (host.backup players)
  · rw [if_pos hsize, if_pos hsize, decide_eq_true hsize]
    exact restore_performs playerBackup
  · rw [if_neg hsize, if_neg hsize, decide_eq_false hsize]
    exact Performs.quiet fun s hs => ⟨(), s, rfl, hs⟩

theorem loadSafe_performs (settings : Settings) (playerBackup : String) :
    Performs Phase.stop (host.Left players) (host.Ready players false false (some players))
      (host.loadSafe settings playerBackup) (host.phases players settings.force)
      fun _ s => s.world.database = some (host.reloadedRows players) ∧ s.trap = none := by
  have hsetTrap : Performs Phase.stop (host.Left players)
      (host.Ready players false false (some players)) (setTrap (removeBackup host.trapRm)) []
      fun _ => host.Ready players true false (some players) :=
    Performs.quiet fun s hs => ⟨(), _, rfl, hs.database, rfl, hs.backup, hs.unsaid⟩
  have hwc : Performs Phase.stop (host.Left players)
      (host.Ready players true true (some players))
      (capture (fun w => (host.wc, w)) fun w => host.size (w.backup.getD []))
      [⟨errexit host.wc, true, true, some players⟩]
      fun n s => n = host.size (host.backup players) ∧
        host.Ready players true true (some players) s :=
    Performs.capture (fun _ _ => rfl) (fun s hs _ => ⟨by rw [hs.backup rfl]; rfl, hs⟩)
      fun _ hs _ => hs
  have hdrop : Performs Phase.stop (host.Left players)
      (host.Ready players true true (some players)) (command host.runDropDatabase)
      [⟨errexit host.dropDatabase, true, true, if host.dropped then none else some players⟩]
      fun _ => host.Ready players true true none := by
    refine database_performs (fun _ => rfl) (fun w _ h => if_pos (Or.inl h)) fun w hw h => ?_
    simp only [runDropDatabase, h, false_or]
    cases host.dropped with
    | true => rfl
    | false => rw [← hw]; rfl
  have hcreate : Performs Phase.stop (host.Left players)
      (host.Ready players true true none) (command host.runCreateDatabase)
      [⟨errexit host.createDatabase, true, true, if host.created then some fun _ => [] else none⟩]
      fun _ => host.Ready players true true (some fun _ => []) := by
    refine database_performs (fun _ => rfl) (fun w _ h => if_pos (Or.inl h)) fun w hw h => ?_
    simp only [runCreateDatabase, h, false_or]
    cases host.created with
    | true => rfl
    | false => rw [← hw]; rfl
  have hload : Performs Phase.stop (host.Left players)
      (host.Ready players true true (some fun _ => [])) (command host.runLoadDump)
      [⟨errexit host.loadDump, true, true, some host.content⟩]
      fun _ => host.Ready players true true (some host.content) := by
    have hrun : ∀ w : World Row, w.database = some (fun _ => []) →
        (host.runLoadDump w).2 = { w with database := some host.content } := by
      intro w hw
      unfold runLoadDump
      rw [hw]
      rfl
    exact database_performs (fun _ => rfl) (fun w hw _ => hrun w hw) fun w hw _ => hrun w hw
  have hwarn : ∀ (condition : Bool) (text : String), Performs Phase.stop (host.Left players)
      (host.Ready players true true (some players)) (when condition (print (.warn text))) []
      fun _ => host.Ready players true true (some players) := by
    intro condition text
    cases condition with
    | true => exact print_performs fun _ h => by cases h
    | false => exact Performs.quiet fun s hs => ⟨(), s, rfl, hs⟩
  refine (exitUnless_performs fun _ hs => die_ready hs).bind fun _ =>
    (exitUnless_performs fun _ hs => die_ready hs).bind fun _ =>
    hsetTrap.bind fun _ =>
    (info_performs _).bind fun _ =>
    (info_performs _).bind fun _ =>
    (info_performs _).bind fun _ =>
    (info_performs _).bind fun _ =>
    (confirm_performs settings.force _).bind fun _ =>
    (info_performs _).bind fun _ =>
    pgDump_performs.bind fun _ =>
    hwc.bind fun backup_size => Performs.assuming fun hsize => ?_
  subst hsize
  exact (info_performs _).bind fun _ =>
    (hwarn _ _).bind fun _ =>
    (info_performs _).bind fun _ =>
    hdrop.bind fun _ =>
    (info_performs _).bind fun _ =>
    hcreate.bind fun _ =>
    (info_performs _).bind fun _ =>
    hload.bind fun _ =>
    (reload_performs playerBackup).bind fun _ =>
    rm_performs _ fun s hs => ⟨_, rfl, hs, rfl⟩

end Host

end DbScript

end LoginServer
