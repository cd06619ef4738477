import RuleEngine.Daemon
import RuleEngine.Execution.Json
import RuleEngine.Json.Printer

/-!
# The command line

Runs the daemon once over the lines of standard input. The first argument is the instant of the
run, the settings are in `autorule.json`, and every execution record is printed as a line of JSON.
-/

namespace RuleEngine.CommandLine

/-- The variables of the environment that the settings depend on. -/
def variableNames : List String :=
  ["AUTORULE_DATABASE_URL", "AUTORULE_LOG", "RUST_LOG", "AUTORULE_WORKERS"]

/-- The values of variables of the environment. -/
def readEnvironment : List String → IO (List (String × String))
  | [] => return []
  | name :: rest => do
    let others ← readEnvironment rest
    match ← IO.getEnv name with
    | some value => return (name, value) :: others
    | none => return others

/-- The settings file with a name. -/
def readSettings (name : String) : IO ConfigFile := do
  try
    match Json.read? (← IO.FS.readFile name) with
    | some data => return .tables data
    | none => return .tables .null
  catch
    | .noFileOrDirectory .. => return .absent
    | _ => return .unreadable

/-- The text of a file, if it can be read. -/
def readText (name : String) : IO (Option String) := do
  try return some (← IO.FS.readFile name) catch _ => return none

/-- The lines of a stream up to its end. -/
partial def readLines (input : IO.FS.Stream) : IO (List String) := do
  let line ← input.getLine
  if line.isEmpty then return [] else return line :: (← readLines input)

/-- Runs the daemon at an instant. -/
def run (now : Timestamp) : IO UInt32 := do
  let environment ← readEnvironment variableNames
  let settings ← readSettings "autorule.json"
  let lookUp (name : String) : Option String := environment.lookup name
  let seedFile := match Config.load settings lookUp with
    | .ok c => c.seedFile
    | .error _ => none
  let seeds ← match seedFile with
    | some name => readText name
    | none => pure none
  let lines ← readLines (← IO.getStdin)
  let surroundings : Surroundings :=
    { settings, environment := lookUp, files := fun _ => seeds, lines }
  let (stopped, host) := Daemon.run {} surroundings now
  for (_, database) in host.databases.entries do
    match ExecutionLog.queryRecords database {} with
    | .ok records =>
      for r in records do
        IO.println r.toJson.text
    | .error _ => pure ()
  match stopped with
  | none => return 0
  | some e =>
    IO.eprintln ("Error: " ++ e.summary ++ "\n\nCaused by:\n    " ++ e.cause)
    return 1

end RuleEngine.CommandLine

/-- Runs the daemon at the instant that the first argument gives, and at the start of 1970 without
one. -/
def main (arguments : List String) : IO UInt32 :=
  RuleEngine.CommandLine.run ((arguments.head?.bind RuleEngine.Timestamp.read?).getD default)
