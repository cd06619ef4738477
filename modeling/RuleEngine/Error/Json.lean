import RuleEngine.Error
import RuleEngine.Json.Basic

/-!
# Errors as data

An error is reported as its kind and its message.
-/

namespace RuleEngine

namespace Json

/-- The report of an error. -/
def report (kind message : String) : Json :=
  .obj [("error", .str kind), ("message", .str message)]

end Json

namespace Cron.Fault

/-- The report of a fault. -/
def toJson (f : Cron.Fault) : Json := .report f.kind f.message

end Cron.Fault

namespace DefinitionFault

/-- The report of a fault by itself. -/
def toJson (f : DefinitionFault) : Json := .report f.kind f.message

end DefinitionFault

namespace EngineError

/-- The report of an error. -/
def toJson (e : EngineError) : Json := .report e.kind e.message

end EngineError

end RuleEngine
