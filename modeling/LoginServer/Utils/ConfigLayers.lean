import LoginServer.Utils.Config

/-!
# The layers of the configuration

Each of the four numbers has up to three sources, and the highest one that is present
counts. A source is exact if the whole of it denotes an integer in the range of its setting.
One that is not is refused, with an error that names it, or it is loose: text around a
number in range, a member that is no integer, an integer that only 32 bits of are in range.
The loose ones are taken or passed over without an error.
-/

namespace LoginServer

namespace Config

inductive Setting where
  | dbPort
  | serverPort
  | maxClients
  | sessionCleanup

inductive Layer where
  | compiled
  | config
  | environment

inductive Source where
  | compiled (n : Int)
  | member (j : Json)
  | text (raw : Bytes)

namespace Setting

def jsonKey : Setting → String
  | dbPort => "db_port"
  | serverPort => "server_port"
  | maxClients => "server_max_clients"
  | sessionCleanup => "session_cleanup_ms"

def envName : Setting → String
  | dbPort => "DB_PORT"
  | serverPort => "SERVER_PORT"
  | maxClients => "SERVER_MAX_CLIENTS"
  | sessionCleanup => "SESSION_CLEANUP_MS"

def lo : Setting → Int
  | sessionCleanup => 1000
  | _ => 1

def hi : Setting → Int
  | maxClients => 100000
  | sessionCleanup => 3600000
  | _ => 65535

def initial : Setting → Int
  | dbPort => 5432
  | serverPort => 27014
  | maxClients => 3000
  | sessionCleanup => 60000

def InRange (s : Setting) (n : Int) : Prop := s.lo ≤ n ∧ n ≤ s.hi

/-- The number of a finished configuration. -/
def value (cfg : DatabaseConfig × LoginServerConfig) : Setting → Int
  | dbPort => cfg.1.port
  | serverPort => cfg.2.port
  | maxClients => cfg.2.max_clients
  | sessionCleanup => cfg.2.sessionCleanupMs

/-- What a layer has for a setting. -/
def source (j : Json) (getenv : Environment) (s : Setting) : Layer → Option Source
  | .compiled => some (.compiled s.initial)
  | .config => (j.find? (str s.jsonKey)).map .member
  | .environment => (present? getenv s.envName).map .text

def jsonName : Setting → String
  | dbPort => "db_port(config.json)"
  | serverPort => "server_port(config.json)"
  | maxClients => "server_max_clients(config.json)"
  | sessionCleanup => "session_cleanup_ms(config.json)"

/-- The name that an error gives the source. -/
def variableName (s : Setting) : Layer → String
  | .environment => s.envName
  | _ => s.jsonName

/-- The source of the highest layer that has one. -/
def highest (j : Json) (getenv : Environment) (s : Setting) : Source :=
  match s.source j getenv .environment, s.source j getenv .config with
  | some source, _ => source
  | none, some source => source
  | none, none => .compiled s.initial

end Setting

namespace Source

/-- The whole text or the full value is this integer. -/
def Denotes : Source → Int → Prop
  | compiled m, n => m = n
  | member j, n => j = .number n
  | text raw, n => ∃ m : Numeral, m.text = raw ∧ m.blanks = [] ∧ m.trailing = [] ∧ m.value = n

def Exact (s : Setting) (source : Source) : Prop := ∃ n, source.Denotes n ∧ s.InRange n

/-- A text that begins with no integer in range, or an integer that is out of range also
after the conversion to `int`. -/
def Refused (s : Setting) : Source → Prop
  | compiled _ => False
  | member j => ∃ n, j = .number n ∧ ¬ s.InRange (n.bmod (2 ^ 32))
  | text raw => ∀ m : Numeral, m.text = raw → ¬ s.InRange m.value

/-- A number in range with blanks in front or text behind, a member that is no integer, or
an integer out of range that the conversion to `int` takes into it. -/
def Loose (s : Setting) : Source → Prop
  | compiled _ => False
  | member j => ∀ n, j = .number n → ¬ s.InRange n ∧ s.InRange (n.bmod (2 ^ 32))
  | text raw => ∃ m : Numeral, m.text = raw ∧ s.InRange m.value ∧
      ¬ (m.blanks = [] ∧ m.trailing = [])

end Source

theorem isInt32_of_inRange {s : Setting} {n : Int} (h : s.InRange n) : IsInt32 n := by
  obtain ⟨hlo, hhi⟩ := h
  cases s <;> simp only [Setting.lo, Setting.hi] at hlo hhi <;> constructor <;> omega

theorem Source.exact_not_refused {s : Setting} {source : Source} (h : source.Exact s) :
    ¬ source.Refused s := by
  obtain ⟨n, hdenotes, hrange⟩ := h
  cases source with
  | compiled m => exact id
  | member j =>
    rintro ⟨k, hk, hout⟩
    rw [show j = .number n from hdenotes] at hk
    cases hk
    exact hout ((bmod_eq_self_iff.mpr (isInt32_of_inRange hrange)).symm ▸ hrange)
  | text raw =>
    obtain ⟨m, hm, -, -, rfl⟩ := hdenotes
    exact fun hrefused => hrefused m hm hrange

theorem Source.loose_not_exact {s : Setting} {source : Source} (h : source.Loose s) :
    ¬ source.Exact s := by
  rintro ⟨n, hdenotes, hrange⟩
  cases source with
  | compiled m => exact h
  | member j => exact (h n hdenotes).1 hrange
  | text raw =>
    obtain ⟨m, hm, -, haround⟩ := h
    obtain ⟨m', hm', hblanks, htrailing, -⟩ := hdenotes
    rw [Numeral.text_injective (hm.trans hm'.symm)] at haround
    exact haround ⟨hblanks, htrailing⟩

/-! ## One assignment -/

/-- What an assignment that does not throw leaves. -/
def Taken (s : Setting) (source : Option Source) (current v : Int) : Prop :=
  match source with
  | none => v = current
  | some source => ¬ source.Refused s ∧ (source.Loose s ∨ source.Denotes v ∧ s.InRange v)

/-- An assignment throws on a refused source, with its name, or takes what is there. -/
def Assigns (s : Setting) (source : Option Source) (varName : String) (current : Int)
    (result : Except RuntimeError Int) : Prop :=
  (∃ message refused, result = .error message ∧ source = some refused ∧ refused.Refused s ∧
    str varName <:+: message) ∨
  ∃ v, result = .ok v ∧ Taken s source current v

theorem infix_quoted (what varName : String) (raw expected : Bytes) :
    str varName <:+: quoted what varName raw ++ expected := by
  refine ⟨str what, str "='" ++ (raw ++ str "'") ++ expected, ?_⟩
  simp [quoted]

theorem parseNumber_cases (varName : String) (raw : Bytes) (s : Setting) (expected : Bytes) :
    (∃ message, parseNumber varName raw s.lo s.hi expected = .error message ∧
      str varName <:+: message ∧ ∀ v, stoi raw = some v → ¬ s.InRange v) ∨
    ∃ v, parseNumber varName raw s.lo s.hi expected = .ok v ∧ stoi raw = some v ∧ s.InRange v := by
  unfold parseNumber
  cases hv : stoi raw with
  | none =>
    refine Or.inl ?_
    dsimp only
    split
    · exact ⟨_, rfl, infix_quoted _ _ _ _, fun _ h => by cases h⟩
    · refine ⟨_, rfl, ?_, fun _ h => by cases h⟩
      simpa using infix_quoted "Config: invalid integer in " varName raw []
  | some v =>
    dsimp only
    split
    · rename_i hout
      refine Or.inl ⟨_, rfl, infix_quoted _ _ _ _, ?_⟩
      rintro w hw ⟨hlo, hhi⟩
      cases hw
      omega
    · rename_i hin
      refine Or.inr ⟨v, rfl, rfl, ?_⟩
      unfold Setting.InRange
      omega

theorem fromEnv_assigns (j : Json) (getenv : Environment) (s : Setting) (expected : Bytes)
    (current : Int) :
    Assigns s (s.source j getenv .environment) s.envName current
      (fromEnv getenv s.envName (fun raw => parseNumber s.envName raw s.lo s.hi expected)
        current) := by
  unfold fromEnv Setting.source
  cases present? getenv s.envName with
  | none => exact Or.inr ⟨current, rfl, rfl⟩
  | some raw =>
    rcases parseNumber_cases s.envName raw s expected with
      ⟨message, hthrow, hname, hrefused⟩ | ⟨v, hok, hv, hrange⟩
    · refine Or.inl ⟨message, .text raw, hthrow, rfl, ?_, hname⟩
      intro m hm hrange
      exact hrefused m.value (stoi_eq_some_iff.mpr ⟨m, hm, rfl, isInt32_of_inRange hrange⟩) hrange
    · obtain ⟨m, hm, rfl, -⟩ := stoi_eq_some_iff.mp hv
      refine Or.inr ⟨m.value, hok, fun hrefused => hrefused m hm hrange, ?_⟩
      by_cases hwhole : m.blanks = [] ∧ m.trailing = []
      · exact Or.inr ⟨⟨m, hm, hwhole.1, hwhole.2, rfl⟩, hrange⟩
      · exact Or.inl ⟨m, hm, hrange, hwhole⟩

theorem fromJson_assigns (j : Json) (getenv : Environment) (s : Setting) (expected : Bytes)
    (current : Int) :
    Assigns s (s.source j getenv .config) s.jsonName current
      (fromJson j s.jsonKey
        (fun raw => parseNumber s.jsonName raw s.lo s.hi expected) current) := by
  unfold fromJson Setting.source
  cases j.find? (str s.jsonKey) with
  | none => exact Or.inr ⟨current, rfl, rfl⟩
  | some member =>
    by_cases hnumber : ∃ n, member = .number n
    · obtain ⟨n, rfl⟩ := hnumber
      have hread : stoi (to_string (n.bmod (2 ^ 32))) = some (n.bmod (2 ^ 32)) :=
        stoi_to_string (isInt32_bmod n)
      rcases parseNumber_cases s.jsonName (to_string (n.bmod (2 ^ 32))) s expected
        with ⟨message, hthrow, hname, hrefused⟩ | ⟨v, hok, hv, hrange⟩
      · exact Or.inl ⟨message, .member (.number n), hthrow, rfl, ⟨n, rfl, hrefused _ hread⟩, hname⟩
      · obtain rfl : n.bmod (2 ^ 32) = v := Option.some.inj (hread.symm.trans hv)
        refine Or.inr ⟨n.bmod (2 ^ 32), hok, ?_, ?_⟩
        · rintro ⟨k, hk, hout⟩
          cases hk
          exact hout hrange
        · by_cases hexact : s.InRange n
          · rw [bmod_eq_self_iff.mpr (isInt32_of_inRange hexact)]
            exact Or.inr ⟨rfl, hexact⟩
          · refine Or.inl fun k hk => ?_
            cases hk
            exact ⟨hexact, hrange⟩
    · have hnone : member.int? = none := by
        cases member with
        | number n => exact absurd ⟨n, rfl⟩ hnumber
        | _ => rfl
      refine Or.inr ⟨current, ?_, ?_, Or.inl fun n hn => absurd ⟨n, hn⟩ hnumber⟩
      · rw [Option.bind_some, hnone]
      · rintro ⟨n, hn, -⟩
        exact hnumber ⟨n, hn⟩

/-! ## The whole of `parseConfig` -/

/-- A layer throws on a refused source of its own, with its name, or takes what is there. -/
def LayerOutcome (j : Json) (getenv : Environment) (layer : Layer) (current : Setting → Int)
    (result : Except RuntimeError (DatabaseConfig × LoginServerConfig)) : Prop :=
  (∃ (message : Bytes) (s : Setting) (refused : Source), result = .error message ∧
    s.source j getenv layer = some refused ∧ refused.Refused s ∧
    str (s.variableName layer) <:+: message) ∨
  ∃ cfg, result = .ok cfg ∧ ∀ s, Taken s (s.source j getenv layer) (current s) (s.value cfg)

theorem jsonLayer_outcome (j : Json) (getenv : Environment) :
    LayerOutcome j getenv .config Setting.initial (jsonLayer j) := by
  have hdb : Assigns .dbPort _ _ 5432
      (fromJson j "db_port" (parsePort "db_port(config.json)") 5432) :=
    fromJson_assigns j getenv .dbPort [] 5432
  have hcleanup : Assigns .sessionCleanup _ _ 60000 (fromJson j "session_cleanup_ms"
      (fun raw => parsePositiveInt "session_cleanup_ms(config.json)" raw 1000 3600000) 60000) :=
    fromJson_assigns j getenv .sessionCleanup _ 60000
  have hport : Assigns .serverPort _ _ 27014
      (fromJson j "server_port" (parsePort "server_port(config.json)") 27014) :=
    fromJson_assigns j getenv .serverPort [] 27014
  have hclients : Assigns .maxClients _ _ 3000 (fromJson j "server_max_clients"
      (fun raw => parsePositiveInt "server_max_clients(config.json)" raw 1 100000) 3000) :=
    fromJson_assigns j getenv .maxClients _ 3000
  simp only [jsonLayer, bind, Except.bind, pure, Except.pure]
  rcases hdb with ⟨message, refused, hread, hrefused⟩ | ⟨dbPort, hread, hdb⟩ <;>
    simp only [hread]
  · exact Or.inl ⟨message, .dbPort, refused, rfl, hrefused⟩
  rcases hcleanup with ⟨message, refused, hread, hrefused⟩ | ⟨cleanup, hread, hcleanup⟩ <;>
    simp only [hread]
  · exact Or.inl ⟨message, .sessionCleanup, refused, rfl, hrefused⟩
  rcases hport with ⟨message, refused, hread, hrefused⟩ | ⟨port, hread, hport⟩ <;>
    simp only [hread]
  · exact Or.inl ⟨message, .serverPort, refused, rfl, hrefused⟩
  rcases hclients with ⟨message, refused, hread, hrefused⟩ | ⟨clients, hread, hclients⟩ <;>
    simp only [hread]
  · exact Or.inl ⟨message, .maxClients, refused, rfl, hrefused⟩
  refine Or.inr ⟨_, rfl, fun s => ?_⟩
  cases s
  · exact hdb
  · exact hport
  · exact hclients
  · exact hcleanup

theorem envLayer_outcome (j : Json) (getenv : Environment) (DBConfig : DatabaseConfig)
    (LSConfig : LoginServerConfig) :
    LayerOutcome j getenv .environment (fun s => s.value (DBConfig, LSConfig))
      (envLayer getenv DBConfig LSConfig) := by
  have hdb : Assigns .dbPort _ _ DBConfig.port
      (fromEnv getenv "DB_PORT" (parsePort "DB_PORT") DBConfig.port) :=
    fromEnv_assigns j getenv .dbPort [] DBConfig.port
  have hport : Assigns .serverPort _ _ LSConfig.port
      (fromEnv getenv "SERVER_PORT" (parsePort "SERVER_PORT") LSConfig.port) :=
    fromEnv_assigns j getenv .serverPort [] LSConfig.port
  have hclients : Assigns .maxClients _ _ LSConfig.max_clients (fromEnv getenv
      "SERVER_MAX_CLIENTS" (fun raw => parsePositiveInt "SERVER_MAX_CLIENTS" raw 1 100000)
      LSConfig.max_clients) :=
    fromEnv_assigns j getenv .maxClients _ LSConfig.max_clients
  have hcleanup : Assigns .sessionCleanup _ _ LSConfig.sessionCleanupMs (fromEnv getenv
      "SESSION_CLEANUP_MS" (fun raw => parsePositiveInt "SESSION_CLEANUP_MS" raw 1000 3600000)
      LSConfig.sessionCleanupMs) :=
    fromEnv_assigns j getenv .sessionCleanup _ LSConfig.sessionCleanupMs
  simp only [envLayer, bind, Except.bind, pure, Except.pure]
  rcases hdb with ⟨message, refused, hread, hrefused⟩ | ⟨dbPort, hread, hdb⟩ <;>
    simp only [hread]
  · exact Or.inl ⟨message, .dbPort, refused, rfl, hrefused⟩
  rcases hport with ⟨message, refused, hread, hrefused⟩ | ⟨port, hread, hport⟩ <;>
    simp only [hread]
  · exact Or.inl ⟨message, .serverPort, refused, rfl, hrefused⟩
  rcases hclients with ⟨message, refused, hread, hrefused⟩ | ⟨clients, hread, hclients⟩ <;>
    simp only [hread]
  · exact Or.inl ⟨message, .maxClients, refused, rfl, hrefused⟩
  rcases hcleanup with ⟨message, refused, hread, hrefused⟩ | ⟨cleanup, hread, hcleanup⟩ <;>
    simp only [hread]
  · exact Or.inl ⟨message, .sessionCleanup, refused, rfl, hrefused⟩
  refine Or.inr ⟨_, rfl, fun s => ?_⟩
  cases s
  · exact hdb
  · exact hport
  · exact hclients
  · exact hcleanup

/-- The first refused source ends the assignments; without one each number has been taken
from its layers. -/
theorem parseConfigOf_outcome (j : Json) (getenv : Environment) :
    (∃ (message : Bytes) (s : Setting) (layer : Layer) (refused : Source),
      parseConfigOf j getenv = .error message ∧ s.source j getenv layer = some refused ∧
      refused.Refused s ∧ str (s.variableName layer) <:+: message) ∨
    ∃ cfg, parseConfigOf j getenv = .ok cfg ∧ ∀ s : Setting, ∃ below,
      Taken s (s.source j getenv .config) s.initial below ∧
        Taken s (s.source j getenv .environment) below (s.value cfg) := by
  simp only [parseConfigOf, bind, Except.bind]
  rcases jsonLayer_outcome j getenv with
    ⟨message, s, refused, hread, hrefused⟩ | ⟨cfg, hread, hjson⟩ <;> simp only [hread]
  · exact Or.inl ⟨message, s, .config, refused, rfl, hrefused⟩
  rcases envLayer_outcome j getenv cfg.1 cfg.2 with
    ⟨message, s, refused, hread, hrefused⟩ | ⟨cfg', hread, henv⟩
  · exact Or.inl ⟨message, s, .environment, refused, hread, hrefused⟩
  · exact Or.inr ⟨cfg', hread, fun s => ⟨s.value cfg, hjson s, henv s⟩⟩

/-! ## Layered and never silently wrong -/

/-- The result of `parseConfig` is as documented: each number is the one that its highest
source denotes, in range, and a source that does not denote such a number is an error. -/
structure Layered (j : Json) (getenv : Environment)
    (result : Except RuntimeError (DatabaseConfig × LoginServerConfig)) : Prop where
  highest : ∀ cfg, result = .ok cfg → ∀ s : Setting,
    (s.highest j getenv).Denotes (s.value cfg) ∧ s.InRange (s.value cfg)
  loud : (∃ (s : Setting) (layer : Layer) (source : Source),
      s.source j getenv layer = some source ∧ ¬ source.Exact s) →
    ∃ (message : Bytes) (s : Setting) (layer : Layer) (source : Source),
      result = .error message ∧ s.source j getenv layer = some source ∧ ¬ source.Exact s ∧
      str (s.variableName layer) <:+: message

theorem inRange_initial (s : Setting) : s.InRange s.initial := by
  cases s <;> constructor <;> decide

theorem taken_exact {s : Setting} {source : Source} {current v : Int}
    (h : Taken s (some source) current v) (hloose : ¬ source.Loose s) :
    source.Denotes v ∧ s.InRange v :=
  h.2.resolve_left hloose

/-- What is taken through both layers is what the highest source denotes. -/
theorem highest_of_taken {s : Setting} {j : Json} {getenv : Environment} {below v : Int}
    (hconfig : Taken s (s.source j getenv .config) s.initial below)
    (henv : Taken s (s.source j getenv .environment) below v)
    (hloose : ∀ layer source, s.source j getenv layer = some source → ¬ source.Loose s) :
    (s.highest j getenv).Denotes v ∧ s.InRange v := by
  unfold Setting.highest
  cases hraw : s.source j getenv .environment with
  | some source =>
    rw [hraw] at henv
    exact taken_exact henv (hloose _ _ hraw)
  | none =>
    rw [hraw] at henv
    obtain rfl : v = below := henv
    cases hmember : s.source j getenv .config with
    | some source =>
      rw [hmember] at hconfig
      exact taken_exact hconfig (hloose _ _ hmember)
    | none =>
      rw [hmember] at hconfig
      obtain rfl : v = s.initial := hconfig
      exact ⟨rfl, inRange_initial s⟩

theorem exact_of_taken {s : Setting} {j : Json} {getenv : Environment} {below v : Int}
    (hconfig : Taken s (s.source j getenv .config) s.initial below)
    (henv : Taken s (s.source j getenv .environment) below v)
    (hloose : ∀ layer source, s.source j getenv layer = some source → ¬ source.Loose s)
    {layer : Layer} {source : Source} (hsource : s.source j getenv layer = some source) :
    source.Exact s := by
  cases layer with
  | compiled =>
    cases hsource
    exact ⟨s.initial, rfl, inRange_initial s⟩
  | config =>
    rw [hsource] at hconfig
    exact ⟨below, taken_exact hconfig (hloose _ _ hsource)⟩
  | environment =>
    rw [hsource] at henv
    exact ⟨v, taken_exact henv (hloose _ _ hsource)⟩

/-- The configuration is as documented exactly if some source that is present is refused, or
none is loose. -/
theorem parseConfig_layered_iff (parse : Bytes → Except Bytes Json) (jsonPath : Bytes)
    (file : Option Bytes) (j : Json) (hfile : loadJsonFile parse jsonPath file = .ok j)
    (getenv : Environment) :
    Layered j getenv (parseConfig parse jsonPath file getenv) ↔
      (∃ (s : Setting) (layer : Layer) (source : Source),
        s.source j getenv layer = some source ∧ source.Refused s) ∨
      ∀ (s : Setting) (layer : Layer) (source : Source),
        s.source j getenv layer = some source → ¬ source.Loose s := by
  have hparse : parseConfig parse jsonPath file getenv = parseConfigOf j getenv := by
    simp [parseConfig, hfile, bind, Except.bind]
  rw [hparse]
  rcases parseConfigOf_outcome j getenv with
    ⟨message, s, layer, refused, hthrow, hsource, hrefused, hname⟩ | ⟨cfg, hok, htaken⟩
  · refine iff_of_true ⟨fun cfg hok => ?_, fun _ => ?_⟩
      (Or.inl ⟨s, layer, refused, hsource, hrefused⟩)
    · rw [hthrow] at hok
      cases hok
    · exact ⟨message, s, layer, refused, hthrow, hsource,
        fun hexact => Source.exact_not_refused hexact hrefused, hname⟩
  · have hnone : ¬ ∃ (s : Setting) (layer : Layer) (source : Source),
        s.source j getenv layer = some source ∧ source.Refused s := by
      rintro ⟨s, layer, source, hsource, hrefused⟩
      obtain ⟨below, hconfig, henv⟩ := htaken s
      cases layer with
      | compiled =>
        cases hsource
        exact hrefused
      | config =>
        rw [hsource] at hconfig
        exact hconfig.1 hrefused
      | environment =>
        rw [hsource] at henv
        exact henv.1 hrefused
    rw [or_iff_right hnone]
    constructor
    · intro h s layer source hsource hloose
      obtain ⟨message, -, -, -, hthrow, -⟩ :=
        h.loud ⟨s, layer, source, hsource, Source.loose_not_exact hloose⟩
      rw [hok] at hthrow
      cases hthrow
    · intro hloose
      refine ⟨fun cfg' hcfg s => ?_, ?_⟩
      · rw [hok] at hcfg
        cases hcfg
        obtain ⟨below, hconfig, henv⟩ := htaken s
        exact highest_of_taken hconfig henv (hloose s)
      · rintro ⟨s, layer, source, hsource, hexact⟩
        obtain ⟨below, hconfig, henv⟩ := htaken s
        exact absurd (exact_of_taken hconfig henv (hloose s) hsource) hexact

/-- A port of its own in the file and nothing in the environment. -/
theorem parseConfig_layered_iff_db_port :
    Layered (.object [(str "db_port", .number 5433)]) (fun _ => none)
      (parseConfig (fun _ => .ok (.object [(str "db_port", .number 5433)])) (str "config.json")
        (some (str "\x7b\"db_port\":5433\x7d")) fun _ => none) := by
  refine (parseConfig_layered_iff _ _ _ _ rfl _).mpr (Or.inr ?_)
  intro s layer source hsource hloose
  cases layer with
  | compiled =>
    cases hsource
    exact hloose
  | config =>
    cases s <;> cases hsource
    exact (hloose 5433 rfl).1 ⟨by decide, by decide⟩
  | environment => cases hsource

/-- Three numbers that no operator meant: 2³² + 5432, a text, and a number with a tail. -/
def looseConfig : Json :=
  .object [(str "db_port", .number 4294972728), (str "server_port", .string (str "27015"))]

def looseEnvironment : Environment := fun name =>
  if name = "SERVER_MAX_CLIENTS" then some (str "100x") else none

theorem parseConfig_accepts_loose :
    (∃ cfg, parseConfigOf looseConfig looseEnvironment = .ok cfg ∧
      Setting.value cfg .dbPort = 5432 ∧ Setting.value cfg .serverPort = 27014 ∧
      Setting.value cfg .maxClients = 100) ∧
    ¬ Layered looseConfig looseEnvironment (parseConfigOf looseConfig looseEnvironment) := by
  have hport : fromJson looseConfig "db_port" (parsePort "db_port(config.json)") 5432 =
      .ok 5432 := by
    have hfind : fromJson looseConfig "db_port" (parsePort "db_port(config.json)") 5432 =
        parsePort "db_port(config.json)" (to_string 5432) := rfl
    have hread : stoi (to_string 5432) = some 5432 := stoi_to_string ⟨by decide, by decide⟩
    rw [hfind, parsePort, parseNumber, hread]
    rfl
  obtain ⟨cfg, hok, hdb, hserver, hclients⟩ : ∃ cfg,
      parseConfigOf looseConfig looseEnvironment = .ok cfg ∧ Setting.value cfg .dbPort = 5432 ∧
        Setting.value cfg .serverPort = 27014 ∧ Setting.value cfg .maxClients = 100 := by
    simp only [parseConfigOf, jsonLayer, hport]
    exact ⟨_, rfl, rfl, rfl, rfl⟩
  refine ⟨⟨cfg, hok, hdb, hserver, hclients⟩, fun hlayered => ?_⟩
  have htext : Setting.serverPort.source looseConfig looseEnvironment .config =
      some (.member (.string (str "27015"))) := rfl
  obtain ⟨message, -, -, -, hthrow, -⟩ := hlayered.loud
    ⟨.serverPort, .config, _, htext, fun ⟨n, hn, _⟩ => by cases hn⟩
  rw [hok] at hthrow
  cases hthrow

end Config

end LoginServer
