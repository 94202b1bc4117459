import Steward.Json.Record
import Steward.Text.Blank
import Steward.Word

/-!
# Settings

The limits on competitions, how the analysis tools are run, and the other settings of the program,
taken from named variables. A variable that is set is never passed over for a default: it is read,
or reading stops with its name and its text as it stands.

* `PoolSettings.of`: a pool never keeps more idle connections than it may open.
-/

namespace Steward

/-! ## Limits -/

/-- The limits on competitions. -/
structure Limits where
  /-- The open competitions that a server may have. -/
  maxActive : Nat := 5
  /-- The most places that a competition may offer. -/
  maxParticipants : Int := 100
  /-- The seconds between two creations by one user in one server. -/
  cooldown : Nat := 60
deriving DecidableEq, Repr

namespace Limits

/-- Reads limits; what a document leaves out has its default. -/
def decode : Json.Decoder Limits :=
  (mk <$> .defaulted "max_active_per_server" (Json.Decoder.unsigned Word.count64) 5 <*>
    .defaulted "max_participants_limit" Json.Decoder.int32 100 <*>
    .defaulted "creation_cooldown_secs" (Json.Decoder.unsigned Word.count64) 60 :
    Json.Fields _).read

instance : Json.Encode Limits :=
  ⟨fun l => .list [.int l.maxActive, .int l.maxParticipants, .int l.cooldown]⟩

end Limits

/-! ## Tools -/

/-- The settings of the analysis tools. -/
structure ToolSettings where
  /-- The seconds for which a report is kept. -/
  keepSecs : Nat := 60
  /-- The seconds after which a tool is stopped. -/
  timeoutSecs : Nat := 120
  knipCommand : String := "npx knip"
  jscpdCommand : String := "npx jscpd"
deriving DecidableEq, Repr

/-! ## Environments -/

/-- Where the program runs. -/
inductive Environment where
  | development
  | staging
  | production
deriving DecidableEq, Repr

namespace Environment

/-- The name of an environment. -/
def name : Environment → String
  | development => "Development"
  | staging => "Staging"
  | production => "Production"

/-- The environment of a name, in letters of either case. -/
def read? (s : String) : Option Environment :=
  match s.toLower with
  | "production" => some production
  | "staging" => some staging
  | "development" => some development
  | _ => none

end Environment

/-- The settings of the database. -/
structure DatabaseSettings where
  url : String
  maxConnections : Nat
  minConnections : Nat
deriving DecidableEq, Repr

/-- The settings of the shared store of recorded instants. -/
structure RedisSettings where
  url : String
  maxConnections : Nat
deriving DecidableEq, Repr

/-- The settings of the program. -/
structure Settings where
  name : String
  environment : Environment
  database : DatabaseSettings
  redis : Option RedisSettings
  limits : Limits
  tools : ToolSettings
deriving DecidableEq, Repr

namespace Settings

/-- Why variables were refused. -/
inductive Fault where
  | missing (name : String)
  | invalid (name value : String)
deriving DecidableEq, Repr

/-- The text of a refusal. -/
def Fault.message : Fault → String
  | missing name => "Missing required environment variable: " ++ name
  | invalid name value => "Invalid value for " ++ name ++ ": " ++ value

/-- The text of a variable, where it is set. -/
abbrev Variables := String → Option String

/-- A numeric variable, or its default where it is not set. -/
def number {α : Type} (vars : Variables) (name : String) (read? : List Char → Option α)
    (default : α) : Except Fault α :=
  match vars name with
  | none => .ok default
  | some raw =>
    match read? (Text.trim raw.toList) with
    | some n => .ok n
    | none => .error (.invalid name raw)

/-- A number of 32 bits. -/
def read32? : List Char → Option Nat := Text.ofUnsigned? Word.count32

/-- A number of 64 bits. -/
def read64? : List Char → Option Nat := Text.ofUnsigned? Word.count64

/-- A signed number of 32 bits. -/
def readSigned32? (s : List Char) : Option Int :=
  (Text.ofSigned? s).filter fun n => -Word.bound32 ≤ n && n < Word.bound32

/-- The environment that the variables name. -/
def environmentOf (vars : Variables) : Except Fault Environment :=
  match vars "APP_ENV" with
  | none => .ok .development
  | some raw =>
    match Environment.read? raw with
    | some e => .ok e
    | none => .error (.invalid "APP_ENV" raw)

/-- The shared store, where its address is set and not blank. -/
def redisOf (vars : Variables) : Except Fault (Option RedisSettings) :=
  match vars "REDIS_URL" with
  | none => .ok none
  | some url =>
    if Text.blank url then .ok none
    else do
      let maxConnections ← number vars "REDIS_MAX_CONNECTIONS" read32? 10
      return some ⟨url, maxConnections⟩

/-- The limits on competitions; a competition needs two places. -/
def limitsOf (vars : Variables) : Except Fault Limits := do
  let maxActive ← number vars "COMPETITION_MAX_ACTIVE_PER_SERVER" read64? 5
  let maxParticipants ← number vars "COMPETITION_MAX_PARTICIPANTS" readSigned32? 100
  let cooldown ← number vars "COMPETITION_CREATION_COOLDOWN_SECS" read64? 60
  if maxParticipants < 2 then
    .error (.invalid "COMPETITION_MAX_PARTICIPANTS" (Text.decimalInt maxParticipants))
  else return ⟨maxActive, maxParticipants, cooldown⟩

/-- The database, whose address must be set. -/
def databaseOf (vars : Variables) : Except Fault DatabaseSettings := do
  let url ← match vars "DATABASE_URL" with
    | some url => .ok url
    | none => .error (.missing "DATABASE_URL")
  let maxConnections ← number vars "DATABASE_MAX_CONNECTIONS" read32? 20
  let minConnections ← number vars "DATABASE_MIN_CONNECTIONS" read32? 2
  return ⟨url, maxConnections, minConnections⟩

/-- The analysis tools. -/
def toolsOf (vars : Variables) : Except Fault ToolSettings := do
  let keepSecs ← number vars "TOOL_CACHE_TTL_SECS" read64? 60
  let timeoutSecs ← number vars "TOOL_TIMEOUT_SECS" read64? 120
  return ⟨keepSecs, timeoutSecs, (vars "KNIP_COMMAND").getD "npx knip",
    (vars "JSCPD_COMMAND").getD "npx jscpd"⟩

/-- The settings that variables give, or the first fault in the order environment, shared store,
limits, database, tools. -/
def ofVariables (vars : Variables) : Except Fault Settings := do
  let environment ← environmentOf vars
  let redis ← redisOf vars
  let limits ← limitsOf vars
  let database ← databaseOf vars
  let tools ← toolsOf vars
  return ⟨(vars "APP_NAME").getD "scout", environment, database, redis, limits, tools⟩

end Settings

/-- How connections to the database are pooled. -/
structure PoolSettings where
  url : String
  maxConnections : Nat
  minConnections : Nat
  acquireSecs : Nat
  idleSecs : Nat
deriving DecidableEq, Repr

/-- The pool of a database: idle connections no more than connections. -/
def PoolSettings.of (d : DatabaseSettings) : PoolSettings :=
  ⟨d.url, d.maxConnections, min d.minConnections d.maxConnections, 10, 300⟩

/-! ## Documents -/

open Json (encode field)

instance : Json.Encode DatabaseSettings :=
  ⟨fun d => .list [encode d.url, encode d.maxConnections, encode d.minConnections]⟩

instance : Json.Encode RedisSettings := ⟨fun r => encode (r.url, r.maxConnections)⟩

instance : Json.Encode PoolSettings :=
  ⟨fun p => .list [encode p.url, encode p.maxConnections, encode p.minConnections,
    encode p.acquireSecs, encode p.idleSecs]⟩

/-- The settings, and what follows from them. -/
instance : Json.Encode Settings :=
  ⟨fun s => .object [field "name" s.name, field "env" s.environment.name,
    field "is_production" (s.environment = .production : Bool),
    field "is_development" (s.environment = .development : Bool), field "database" s.database,
    field "redis" s.redis, field "competition" s.limits,
    field "tools" [encode s.tools.keepSecs, encode s.tools.timeoutSecs, encode s.tools.knipCommand,
      encode s.tools.jscpdCommand],
    field "pool" (PoolSettings.of s.database)]⟩

/-- The kind of a refusal. -/
def Settings.Fault.kind : Settings.Fault → String
  | missing _ => "MissingVar"
  | invalid _ _ => "InvalidValue"

instance : Json.Encode Settings.Fault := ⟨fun e => .ofFault e.kind e.message⟩

end Steward
