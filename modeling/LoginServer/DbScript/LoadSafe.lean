import LoginServer.Scripts.Shell
import Mathlib.Data.List.Perm.Basic
import Mathlib.Logic.Function.Basic

/-!
# cmd_load_safe of db.sh

The script works on the database, on the backup file and on its output. What the programs
that it calls come to is up to the `Host`. `pg_dump` writes one `COPY` for each table. `psql`
goes through a file whatever its statements come to, and a `COPY` that is not accepted
inserts none of its rows.
-/

namespace LoginServer

namespace DbScript

open Scripts Shell

inductive PlayerTable where
  | users | user_sessions | user_bans
  | characters | character_current_state | character_position
  | character_equipment | character_skills | character_emotes
  | character_titles | character_skill_bar | character_skill_mastery
  | character_reputation | character_bestiary | character_pity
  | character_permanent_modifiers
  | player_inventory | player_quest | player_active_effect
  | player_flag | player_skill_cooldown
  | character_currencies
  | currency_transactions
  | game_analytics | gm_action_log
deriving DecidableEq

open PlayerTable in
def PLAYER_TABLES : List PlayerTable :=
  [users, user_sessions, user_bans,
    characters, character_current_state, character_position,
    character_equipment, character_skills, character_emotes,
    character_titles, character_skill_bar, character_skill_mastery,
    character_reputation, character_bestiary, character_pity,
    character_permanent_modifiers,
    player_inventory, player_quest, player_active_effect,
    player_flag, player_skill_cooldown,
    character_currencies,
    currency_transactions,
    game_analytics, gm_action_log]

def PLAYER_SEQUENCES : List String :=
  ["character_emotes_id_seq", "character_equipment_id_seq", "character_skills_id_seq1",
    "currency_transactions_id_seq", "game_analytics_id_seq", "gm_action_log_id_seq",
    "player_active_effect_id_seq", "user_bans_id_seq", "user_sessions_id_seq"]

/-- The rows of the player tables. -/
abbrev Rows (Row : Type) : Type := PlayerTable → List Row

/-- A `COPY` statement. -/
abbrev Copy (Row : Type) : Type := PlayerTable × List Row

inductive Line where
  | plain (text : String)
  | info (text : String)
  | warn (text : String)
  | error (text : String)
  | ok (text : String)
deriving DecidableEq

structure World (Row : Type) where
  /-- The player tables of the database, if it is there. -/
  database : Option (Rows Row)
  /-- The statements in `$player_backup`. -/
  backup : Option (List (Copy Row))
  output : List Line

/-- What the programs come to. Where one can leave its work undone when it fails, there is
also what it leaves then. -/
structure Host (Row : Type) where
  dockerPs : Bool
  dumpFileExists : Bool
  /-- `wc -c < "$dump_file"`. -/
  dumpFileSize : String
  read : Ending
  reply : String
  pgDump : Ending
  partialBackup : Option (List (Copy Row))
  /-- The order in which `pg_dump` writes the tables. -/
  order : List PlayerTable → List PlayerTable
  order_perm : ∀ tables, (order tables).Perm tables
  wc : Ending
  size : List (Copy Row) → Nat
  size_pos : ∀ backup, (∃ c ∈ backup, c.2 ≠ []) → 0 < size backup
  dropDatabase : Ending
  dropped : Bool
  createDatabase : Ending
  created : Bool
  loadDump : Ending
  /-- The rows that the content dump brings into the player tables. -/
  content : Rows Row
  restore : Ending
  restored : Nat
  /-- The constraints of the database accept the rows of a `COPY`. -/
  accepts : Rows Row → Copy Row → Bool
  tableName : String → Ending
  setval : Ending
  rm : Ending
  trapRm : Ending
  /-- After `set -e` the trap still sees `player_backup`. -/
  localsAfterErrexit : Bool

structure Settings where
  container : String := "mmorpg_prototype_db"
  dbName : String := "mmo_prototype"
  dbUser : String := "postgres"
  dumpFile : String
  force : Bool := false

/-- The options, or the text of the error. -/
def parseArgs : List String → Settings → Except String Settings
  | [], settings => .ok settings
  | [arg], settings =>
    if arg = "--yes" ∨ arg = "-y" then .ok { settings with force := true }
    else if arg ∈ ["--container", "--file", "-f", "--db-name", "--db-user"] then
      .error "$2: unbound variable"
    else .error ("Unknown option: " ++ arg)
  | arg :: value :: rest, settings =>
    if arg = "--container" then parseArgs rest { settings with container := value }
    else if arg = "--file" ∨ arg = "-f" then parseArgs rest { settings with dumpFile := value }
    else if arg = "--db-name" then parseArgs rest { settings with dbName := value }
    else if arg = "--db-user" then parseArgs rest { settings with dbUser := value }
    else if arg = "--yes" ∨ arg = "-y" then
      parseArgs (value :: rest) { settings with force := true }
    else .error ("Unknown option: " ++ arg)

variable {Row : Type}

def print (line : Line) : Script (World Row) Unit :=
  builtin fun w => { w with output := w.output ++ [line] }

def die (text : String) : Script (World Row) Unit := do
  print (.error text)
  exit 1

def when (condition : Bool) (c : Script (World Row) Unit) : Script (World Row) Unit :=
  if condition then c else pure ()

namespace Host

variable (host : Host Row)

/-- `pg_dump --data-only` of the tables. -/
def dump (tables : List PlayerTable) (db : Rows Row) : List (Copy Row) :=
  (host.order tables).map fun table => (table, db table)

def copy (db : Rows Row) (c : Copy Row) : Rows Row :=
  if host.accepts db c then Function.update db c.1 (db c.1 ++ c.2) else db

def runPgDump (w : World Row) : Ending × World Row :=
  match host.pgDump, w.database with
  | .status 0, some db => (.status 0, { w with backup := some (host.dump PLAYER_TABLES db) })
  | .status 0, none => (.status 1, { w with backup := host.partialBackup })
  | ending, _ => (ending, { w with backup := host.partialBackup })

def runDropDatabase (w : World Row) : Ending × World Row :=
  (host.dropDatabase,
    if host.dropDatabase = .status 0 ∨ host.dropped then { w with database := none } else w)

def runCreateDatabase (w : World Row) : Ending × World Row :=
  (host.createDatabase,
    if host.createDatabase = .status 0 ∨ host.created then
      { w with database := some fun _ => [] }
    else w)

def runLoadDump (w : World Row) : Ending × World Row :=
  (host.loadDump, { w with database := w.database.map fun _ => host.content })

def runRestore (w : World Row) : Ending × World Row :=
  let copies := w.backup.getD []
  let executed := if host.restore = .status 0 then copies else copies.take host.restored
  (host.restore, { w with database := w.database.map fun db => executed.foldl host.copy db })

/-- `rm -f "$player_backup"`. -/
def removeBackup (ending : Ending) (w : World Row) : Ending × World Row :=
  (ending, if ending = .status 0 then { w with backup := none } else w)

def check_container (settings : Settings) : Script (World Row) Unit :=
  when (!host.dockerPs) do
    die ("Container '" ++ settings.container ++ "' is not running. Start it first: " ++
      "cd mmorpg-prototype-login-server && docker-compose up -d")

/-- `[ "${REPLY,,}" != "y" ] && [ "$REPLY" != "yes" ]`. -/
def declines : Bool := host.reply.toLower ≠ "y" && host.reply ≠ "yes"

def confirm (force : Bool) (msg : String) : Script (World Row) Unit :=
  when (!force) do
    print (.plain "")
    print (.warn msg)
    print (.plain "")
    command fun w => (host.read, w)
    when host.declines do
      print (.plain "Aborted.")
      exit 0

/-- Step 3 and step 4. -/
def restorePlayers (playerBackup : String) : Script (World Row) Unit := do
  print (.info "Restoring player data ...")
  orElse host.runRestore do
    print (.warn "Player data restore failed! The database has content but no players.")
    print (.warn ("Check the backup file: " ++ playerBackup))
    clearTrap
    exit 1
  print (.info "Resetting sequences ...")
  each (fun seq => command fun w => (host.tableName seq, w)) PLAYER_SEQUENCES
  command fun w => (host.setval, w)

/-- The script from its options on. -/
def loadSafe (settings : Settings) (playerBackup : String) : Script (World Row) Unit := do
  host.check_container settings
  when (!host.dumpFileExists) do
    die ("Dump file not found: " ++ settings.dumpFile)
  setTrap (removeBackup host.trapRm)
  print (.info ("Container     : " ++ settings.container))
  print (.info ("Database      : " ++ settings.dbName))
  print (.info ("Dump file     : " ++ settings.dumpFile ++ " (" ++ host.dumpFileSize ++ " bytes)"))
  print (.info ("Player backup : " ++ playerBackup ++ " (temporary)"))
  host.confirm settings.force
    ("This will DROP database '" ++ settings.dbName ++ "', reload content from dump, then " ++
      "RESTORE existing players, stats & analytics. Game data will be replaced.")
  print (.info ("Backing up player data (" ++ toString PLAYER_TABLES.length ++ " tables) ..."))
  command host.runPgDump
  let backup_size ← capture (fun w => (host.wc, w)) fun w => host.size (w.backup.getD [])
  print (.info ("Player backup size: " ++ toString backup_size ++ " bytes"))
  when (backup_size = 0) do
    print (.warn "Player backup is empty — no player data exists. Continuing with load only.")
  print (.info ("Dropping database '" ++ settings.dbName ++ "' ..."))
  command host.runDropDatabase
  print (.info ("Creating database '" ++ settings.dbName ++ "' ..."))
  command host.runCreateDatabase
  print (.info ("Loading content dump (" ++ host.dumpFileSize ++ " bytes) ..."))
  command host.runLoadDump
  when (backup_size > 0) do
    host.restorePlayers playerBackup
  command (removeBackup host.rm)
  clearTrap
  print (.plain "")
  print (.ok ("Database '" ++ settings.dbName ++ "' reloaded — content from '" ++
    settings.dumpFile ++ "', players preserved."))

def cmd_load_safe (args : List String) (settings : Settings) (playerBackup : String) :
    Script (World Row) Unit :=
  match parseArgs args settings with
  | .ok settings => host.loadSafe settings playerBackup
  | .error text => do
    print (.plain text)
    exit 1

/-- The status and what is left when the script has ended. -/
def run (args : List String) (settings : Settings) (playerBackup : String) (players : Rows Row) :
    Nat × World Row :=
  finish host.localsAfterErrexit
    (host.cmd_load_safe args settings playerBackup ⟨⟨some players, none, []⟩, none⟩)

end Host

end DbScript

end LoginServer
