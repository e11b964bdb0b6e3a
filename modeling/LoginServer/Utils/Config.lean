import LoginServer.Utils.Json
import LoginServer.Utils.Numeral

/-!
# `Config::parseConfig`

Defaults, then `config.json`, then the environment. A number passes through `get<int>()`
or `std::stoi` before its range is tested, and a member of another type is passed over.
-/

namespace LoginServer

namespace Config

structure DatabaseConfig where
  dbname : Bytes
  user : Bytes
  password : Bytes
  host : Bytes
  port : Int := 5432

structure LoginServerConfig where
  host : Bytes
  port : Int := 27014
  max_clients : Int := 3000
  minClientVersion : Bytes
  maxClientVersion : Bytes
  sessionCleanupMs : Int := 60000

/-- `std::getenv`; a text of the environment has no zero byte. -/
abbrev Environment := String → Option Bytes

/-- `std::runtime_error`, by its `what()`. -/
abbrev RuntimeError := Bytes

/-- The variable, if it is set and not empty. -/
def present? (getenv : Environment) (name : String) : Option Bytes :=
  match getenv name with
  | some (c :: cs) => some (c :: cs)
  | _ => none

def getEnvOrDefault (getenv : Environment) (name : String) (defaultVal : Bytes) : Bytes :=
  (present? getenv name).getD defaultVal

def quoted (what varName : String) (raw : Bytes) : Bytes :=
  str what ++ (str varName ++ (str "='" ++ (raw ++ str "'")))

/-- `std::stoi` has found a digit, so that what it throws is `std::out_of_range`. -/
def hasInteger (raw : Bytes) : Bool :=
  ((Numeral.dropSign (raw.dropWhile isSpace)).takeWhile isDigit).isEmpty = false

/-- The two parsers, which differ in the end of the second message. -/
def parseNumber (varName : String) (raw : Bytes) (lo hi : Int) (expected : Bytes) :
    Except RuntimeError Int :=
  match stoi raw with
  | some v =>
    if v < lo ∨ v > hi then
      .error (quoted "Config: value out of range in " varName raw ++ expected)
    else .ok v
  | none =>
    if hasInteger raw then
      .error (quoted "Config: value out of range in " varName raw ++ expected)
    else .error (quoted "Config: invalid integer in " varName raw)

def parsePort (varName : String) (raw : Bytes) : Except RuntimeError Int :=
  parseNumber varName raw 1 65535 []

def parsePositiveInt (varName : String) (raw : Bytes) (lo hi : Int) : Except RuntimeError Int :=
  parseNumber varName raw lo hi
    (str " (expected " ++ to_string lo ++ str ".." ++ to_string hi ++ str ")")

/-- `path` has been opened to `file`, or could not be; `parse` fails with its `what()`. -/
def loadJsonFile (parse : Bytes → Except Bytes Json) (path : Bytes) (file : Option Bytes) :
    Except RuntimeError Json :=
  match file with
  | none => .ok (.object [])
  | some f =>
    match parse f with
    | .ok j =>
      if j.is_object then .ok j
      else .error (str "Config: '" ++ path ++ str "' root must be a JSON object")
    | .error what => .error (str "Config: cannot parse '" ++ path ++ str "': " ++ what)

def jsonStr (j : Json) (key : String) (fallback : Bytes) : Bytes :=
  ((j.find? (str key)).bind Json.string?).getD fallback

/-- `if (j.contains(key) && j[key].is_number_integer())` in front of an assignment. -/
def fromJson (j : Json) (key : String) (parse : Bytes → Except RuntimeError Int)
    (current : Int) : Except RuntimeError Int :=
  match (j.find? (str key)).bind Json.int? with
  | some v => parse (to_string v)
  | none => .ok current

/-- `if (envPresent(name))` in front of an assignment. -/
def fromEnv (getenv : Environment) (name : String) (parse : Bytes → Except RuntimeError Int)
    (current : Int) : Except RuntimeError Int :=
  match present? getenv name with
  | some raw => parse raw
  | none => .ok current

/-- The defaults under `config.json`. -/
def jsonLayer (j : Json) : Except RuntimeError (DatabaseConfig × LoginServerConfig) := do
  let DBConfig : DatabaseConfig :=
    { dbname := jsonStr j "db_name" (str "mmo_prototype"),
      user := jsonStr j "db_user" (str "postgres"),
      password := jsonStr j "db_password" (str ""),
      host := jsonStr j "db_host" (str "127.0.0.1") }
  let DBConfig := { DBConfig with
    port := ← fromJson j "db_port" (parsePort "db_port(config.json)") DBConfig.port }
  let LSConfig : LoginServerConfig :=
    { host := jsonStr j "server_host" (str "0.0.0.0"),
      minClientVersion := jsonStr j "min_client_version" (str "0.1.0"),
      maxClientVersion := jsonStr j "max_client_version" (str "0.1.0") }
  let LSConfig := { LSConfig with
    sessionCleanupMs := ← fromJson j "session_cleanup_ms"
      (fun raw => parsePositiveInt "session_cleanup_ms(config.json)" raw 1000 3600000)
      LSConfig.sessionCleanupMs }
  let LSConfig := { LSConfig with
    port := ← fromJson j "server_port" (parsePort "server_port(config.json)") LSConfig.port }
  let LSConfig := { LSConfig with
    max_clients := ← fromJson j "server_max_clients"
      (fun raw => parsePositiveInt "server_max_clients(config.json)" raw 1 100000)
      LSConfig.max_clients }
  return (DBConfig, LSConfig)

/-- The environment over what there is. -/
def envLayer (getenv : Environment) (DBConfig : DatabaseConfig)
    (LSConfig : LoginServerConfig) :
    Except RuntimeError (DatabaseConfig × LoginServerConfig) := do
  let DBConfig := { DBConfig with
    dbname := getEnvOrDefault getenv "DB_NAME" DBConfig.dbname,
    user := getEnvOrDefault getenv "DB_USER" DBConfig.user,
    password := getEnvOrDefault getenv "DB_PASSWORD" DBConfig.password,
    host := getEnvOrDefault getenv "DB_HOST" DBConfig.host }
  let DBConfig := { DBConfig with
    port := ← fromEnv getenv "DB_PORT" (parsePort "DB_PORT") DBConfig.port }
  let LSConfig := { LSConfig with
    host := getEnvOrDefault getenv "SERVER_HOST" LSConfig.host }
  let LSConfig := { LSConfig with
    port := ← fromEnv getenv "SERVER_PORT" (parsePort "SERVER_PORT") LSConfig.port }
  let LSConfig := { LSConfig with
    max_clients := ← fromEnv getenv "SERVER_MAX_CLIENTS"
      (fun raw => parsePositiveInt "SERVER_MAX_CLIENTS" raw 1 100000) LSConfig.max_clients }
  let LSConfig := { LSConfig with
    minClientVersion := getEnvOrDefault getenv "MIN_CLIENT_VERSION" LSConfig.minClientVersion,
    maxClientVersion := getEnvOrDefault getenv "MAX_CLIENT_VERSION" LSConfig.maxClientVersion }
  let LSConfig := { LSConfig with
    sessionCleanupMs := ← fromEnv getenv "SESSION_CLEANUP_MS"
      (fun raw => parsePositiveInt "SESSION_CLEANUP_MS" raw 1000 3600000)
      LSConfig.sessionCleanupMs }
  return (DBConfig, LSConfig)

def parseConfigOf (j : Json) (getenv : Environment) :
    Except RuntimeError (DatabaseConfig × LoginServerConfig) := do
  let (DBConfig, LSConfig) ← jsonLayer j
  envLayer getenv DBConfig LSConfig

def parseConfig (parse : Bytes → Except Bytes Json) (jsonPath : Bytes) (file : Option Bytes)
    (getenv : Environment) : Except RuntimeError (DatabaseConfig × LoginServerConfig) := do
  let j ← loadJsonFile parse jsonPath file
  parseConfigOf j getenv

end Config

end LoginServer
