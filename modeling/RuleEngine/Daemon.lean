import RuleEngine.Config
import RuleEngine.Live.Passage
import RuleEngine.LogFilter
import RuleEngine.Service.Seed
import RuleEngine.Store.Database

/-!
# The daemon

The engine as a program. It reads its settings, checks the filter of its log messages, opens the
database, abandons what an earlier run left open, seeds the rules, and then reads changes from its
input until it is told to stop. What is in a database file outlives the run.
-/

namespace RuleEngine

/-- Where a database is kept: in memory for one run, or in a file. -/
inductive DatabasePlace where
  | memory
  | file (path : String)
deriving DecidableEq

namespace DatabasePlace

/-- The text of a URL behind its scheme. -/
def withoutScheme (url : List Char) : List Char :=
  if "sqlite://".toList.isPrefixOf url then url.drop 9
  else if "sqlite:".toList.isPrefixOf url then url.drop 7
  else url

/-- The place that a URL names: `:memory:`, or a file of the working directory. Files of other
directories cannot be opened. -/
def ofUrl? (url : String) : Option DatabasePlace :=
  let cs := withoutScheme url.toList
  let path := cs.takeWhile (· != '?')
  let options := cs.drop (path.length + 1)
  if path.isEmpty || path == ":memory:".toList || options == "mode=memory".toList then some .memory
  else if path.contains '/' then none
  else some (.file (String.ofList path))

end DatabasePlace

/-- What outlives a run: the databases by the names of their files, and how many identifiers were
handed out. -/
structure Host where
  databases : Dictionary Database := .empty
  issued : Nat := 0

/-- Why the daemon does not start. -/
inductive StartError where
  | configuration (e : ConfigError)
  | logging (e : LogFilterError)
  | database
  | seeding (path : String) (e : SeedError)
deriving DecidableEq

namespace StartError

/-- What the daemon could not do. -/
def summary : StartError → String
  | .configuration _ => "failed to load configuration"
  | .logging _ => "invalid logging filter"
  | .database => "failed to open database"
  | .seeding path _ => "failed to seed rules from " ++ path

/-- Why it could not do it. -/
def cause : StartError → String
  | .configuration e => e.message
  | .logging e => e.message
  | .database => "database error"
  | .seeding _ e => e.summary

end StartError

/-- What a run of the daemon is given: the file of settings, the variables of the environment, the
other files, and the lines of its input. -/
structure Surroundings where
  settings : ConfigFile
  environment : String → Option String
  files : String → Option String
  lines : List String

namespace Host

/-- The database at a place. A file that is not there becomes an empty database. -/
def openDatabase (h : Host) : DatabasePlace → Database
  | .memory => {}
  | .file path => { (h.databases.get? path).getD {} with isOpen := true }

/-- The host after a database was closed. -/
def closeDatabase (h : Host) (d : Database) : DatabasePlace → Host
  | .memory => h
  | .file path => { h with databases := h.databases.insert path d }

end Host

namespace Daemon

/-- Abandons what is open in a database. -/
def recover (d : Database) (now : Timestamp) : Database :=
  match ExecutionLog.abandonOpen d now with
  | .ok (_, d) => d
  | .error _ => d

/-- Seeds the rules of a file, if there is one to be seeded from: why it stopped, if so, the
database afterwards, and the count of identifiers handed out. -/
def seed (c : Config) (files : String → Option String) (d : Database) (issued : Nat)
    (clock : Readings) : Option StartError × Database × Nat :=
  match c.seedFile with
  | none => (none, d, issued)
  | some path => match files path with
    | none => (some (.seeding path .unavailable), d, issued)
    | some text => match RuleSeed.parse text with
      | .error e => (some (.seeding path e), d, issued)
      | .ok seeds =>
        let fresh (n : Nat) : RuleId := .numbered (issued + n)
        let (result, d) := (ExceptT.run (RuleSeed.saveAll fresh clock 0 seeds)).run d
        let stopped := match result with
          | .ok _ => none
          | .error e => some (.seeding path e)
        (stopped, d, issued + seeds.length)

/-- The live engine with given settings. -/
def engine (c : Config) (d : Database) (issued : Nat) (now : Timestamp) (lines : List String) :
    LiveEngine Database where
  store := d
  clock := now
  queue := { capacity := c.queueCapacity }
  registry := .ofList [(Handler.logType, Handler.log)]
  allowed := c.actionTimeoutSeconds * 1000
  issued
  slots := c.workers
  cadence := c.cadenceSeconds * 1000
  feed := (ChangeFeed.ofCapacity? c.feedCapacity).getD (.fresh 1)
  scheduler := if c.schedulerEnabled then .idle else .gone
  lines

/-- Runs the daemon until everything that is due at an instant has happened, and stops it then:
why it did not start, if so, and the host afterwards. -/
def run (h : Host) (s : Surroundings) (now : Timestamp) : Option StartError × Host :=
  match Config.load s.settings s.environment with
  | .error e => (some (.configuration e), h)
  | .ok c => match LogFilter.check c.logFilter, DatabasePlace.ofUrl? c.databaseUrl with
    | .error e, _ => (some (.logging e), h)
    | .ok (), none => (some .database, h)
    | .ok (), some place =>
      let recovered := recover (h.openDatabase place) now
      match seed c s.files recovered h.issued now with
      | (some e, d, issued) => (some e, { h with issued }.closeDatabase d place)
      | (none, d, issued) =>
        let e := ((engine c d issued now s.lines).wait 0).finish
        (none, { h with issued := e.issued }.closeDatabase e.store place)

end Daemon

end RuleEngine
