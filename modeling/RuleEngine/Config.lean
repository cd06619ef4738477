import RuleEngine.Json.Record
import RuleEngine.Text.Numeral

/-!
# Configuration

The settings of the engine. They come from a file of tables, in which everything has a default,
and some of them can be overridden by variables of the environment.
-/

namespace RuleEngine

/-- The settings of the engine. -/
structure Config where
  databaseUrl : String := "sqlite:autorule.db?mode=rwc"
  logFilter : String :=
    "autoruled=info,autorule_app=info,autorule_adapter_storage_sqlite_sqlx=info"
  workers : Nat := 4
  queueCapacity : Nat := 1024
  actionTimeoutSeconds : Nat := 30
  feedCapacity : Nat := 256
  schedulerEnabled : Bool := true
  cadenceSeconds : Nat := 30
  seedFile : Option String := none

/-- What stands in the place of the file of settings. -/
inductive ConfigFile where
  | absent
  | unreadable
  | tables (data : Json)

/-- Why the settings cannot be used. -/
inductive ConfigError where
  | unreadable
  | malformed
  | invalid (reason : String)
deriving DecidableEq

namespace ConfigError

/-- The message of an error. -/
def message : ConfigError → String
  | .unreadable => "failed to read config file"
  | .malformed => "failed to parse config file"
  | .invalid reason => "invalid configuration: " ++ reason

/-- The name of the kind of an error. -/
def kind : ConfigError → String
  | .unreadable => "Io"
  | .malformed => "Parse"
  | .invalid _ => "Validation"

end ConfigError

namespace Config

/-- The most seconds between two looks of the scheduler at the clock. -/
def longestCadence : Nat := 30

/-- Whether a number can stand in a file of settings: a signed integer of 64 bits. -/
def isLong (i : Int) : Bool := -0x8000000000000000 ≤ i && i < 0x8000000000000000

/-- How many arrays and tables a value may be made of inside one another, and how many parts the
name of a table may have. -/
def nestingLimit : Nat := 79

mutual

/-- Whether data can be written behind a key, inside `depth` arrays and tables that are written
there too. -/
def isValue (depth : Nat) : Json → Bool
  | .int i => isLong i
  | .arr items => depth < nestingLimit && areValues (depth + 1) items
  | .obj members => depth < nestingLimit && membersAreValues (depth + 1) members
  | .null | .unreadable => false
  | .bool _ | .float _ | .str _ => true

/-- Whether all items can be written behind a key. -/
def areValues (depth : Nat) : List Json → Bool
  | [] => true
  | j :: rest => isValue depth j && areValues depth rest

/-- Whether the values of all members can be written behind a key. -/
def membersAreValues (depth : Nat) : List (String × Json) → Bool
  | [] => true
  | (_, j) :: rest => isValue depth j && membersAreValues depth rest

end

/-- Whether items are tables of one name: there are some, and each of them is an object. -/
def isTableArray (items : List Json) : Bool :=
  !items.isEmpty && items.all fun
    | .obj _ => true
    | _ => false

mutual

/-- Whether data can be a member of a table whose name has `parts` parts. An object is a table
with a longer name, and so is every item of an array of objects. -/
def isMember (parts : Nat) : Json → Bool
  | .obj members => parts < nestingLimit && isTable (parts + 1) members
  | .arr items =>
    if isTableArray items then parts < nestingLimit && objectsAreTables (parts + 1) items
    else areValues 1 items
  | j => isValue 0 j

/-- Whether all the objects among items can be tables whose name has `parts` parts. -/
def objectsAreTables (parts : Nat) : List Json → Bool
  | [] => true
  | .obj members :: rest => isTable parts members && objectsAreTables parts rest
  | _ :: rest => objectsAreTables parts rest

/-- Whether members can make up a table whose name has `parts` parts. -/
def isTable (parts : Nat) : List (String × Json) → Bool
  | [] => true
  | (_, j) :: rest => isMember parts j && isTable parts rest

end

/-- Whether data can be a file of settings: a table without a name. -/
def isWritable : Json → Bool
  | .obj members => isTable 0 members
  | _ => false

/-- The fields of a table. An array stands for a table that gives its fields in order. -/
def table? (fields : List String) : Option Json → Option (List (Option Json))
  | none => some (fields.map fun _ => none)
  | some (.obj members) => Json.distinctMembers fields members
  | some (.arr items) => some (fields.zipIdx.map fun (_, i) => items[i]?)
  | some _ => none

/-- A natural number. -/
def nat? : Json → Option Nat := Json.natBelow? 0x8000000000000000

/-- The settings that tables denote. -/
def ofTables? (data : Json) : Option Config := do
  if !isWritable data then none
  match ← table? ["database", "logging", "engine", "scheduler", "rules"] (some data) with
  | [database, logging, engine, scheduler, rules] =>
    match ← table? ["url"] database, ← table? ["filter"] logging,
        ← table? ["workers", "queue_capacity", "action_timeout_secs", "feed_capacity"] engine,
        ← table? ["enabled", "cadence_secs"] scheduler, ← table? ["seed_file"] rules with
    | [url], [filter], [workers, queue, timeout, feed], [enabled, cadence], [seedFile] =>
      let d : Config := {}
      some {
        databaseUrl := ← Json.defaulted d.databaseUrl Json.text? url
        logFilter := ← Json.defaulted d.logFilter Json.text? filter
        workers := ← Json.defaulted d.workers nat? workers
        queueCapacity := ← Json.defaulted d.queueCapacity nat? queue
        actionTimeoutSeconds := ← Json.defaulted d.actionTimeoutSeconds nat? timeout
        feedCapacity := ← Json.defaulted d.feedCapacity nat? feed
        schedulerEnabled := ← Json.defaulted d.schedulerEnabled Json.bool? enabled
        cadenceSeconds := ← Json.defaulted d.cadenceSeconds nat? cadence
        seedFile := ← Json.optional Json.text? seedFile }
    | _, _, _, _, _ => none
  | _ => none

/-- The settings in a file; without one, every setting has its default. -/
def ofFile : ConfigFile → Except ConfigError Config
  | .absent => .ok {}
  | .unreadable => .error .unreadable
  | .tables data => match ofTables? data with
    | some c => .ok c
    | none => .error .malformed

/-- The settings with those of the environment in their places. A number of workers that cannot be
read is passed over. -/
def override (c : Config) (environment : String → Option String) : Config :=
  { c with
    databaseUrl := (environment "AUTORULE_DATABASE_URL").getD c.databaseUrl
    logFilter := (environment "RUST_LOG" <|> environment "AUTORULE_LOG").getD c.logFilter
    workers := ((environment "AUTORULE_WORKERS").bind fun text =>
      Text.readUnsigned? 0xFFFFFFFFFFFFFFFF text.toList).getD c.workers }

/-- The settings whose value is zero although it must not be. -/
def zeroes (c : Config) : List String :=
  ([("engine.workers", c.workers), ("engine.queue_capacity", c.queueCapacity),
    ("engine.feed_capacity", c.feedCapacity),
    ("engine.action_timeout_secs", c.actionTimeoutSeconds)].filter (·.2 == 0)).map (·.1)

/-- The settings as data. -/
def toJson (c : Config) : Json :=
  .obj [
    ("database_url", .str c.databaseUrl),
    ("filter", .str c.logFilter),
    ("workers", .int (c.workers : Nat)),
    ("queue_capacity", .int (c.queueCapacity : Nat)),
    ("action_timeout_secs", .int (c.actionTimeoutSeconds : Nat)),
    ("feed_capacity", .int (c.feedCapacity : Nat)),
    ("scheduler_enabled", .bool c.schedulerEnabled),
    ("cadence_secs", .int (c.cadenceSeconds : Nat)),
    ("seed_file", c.seedFile.elim .null .str)]

/-- Refuses settings that the engine cannot run with, naming the first of them. -/
def validate (c : Config) : Except ConfigError Unit :=
  match c.zeroes with
  | name :: _ => .error (.invalid (name ++ " must be non-zero"))
  | [] =>
    if 1 ≤ c.cadenceSeconds ∧ c.cadenceSeconds ≤ longestCadence then .ok ()
    else .error (.invalid ("scheduler.cadence_secs must be between 1 and " ++
      String.ofList (Text.decimal longestCadence)))

/-- The settings of a file and the environment. -/
def load (file : ConfigFile) (environment : String → Option String) :
    Except ConfigError Config := do
  let c := (← ofFile file).override environment
  c.validate
  return c

end Config

end RuleEngine
