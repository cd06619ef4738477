import RuleEngine.Error
import RuleEngine.Execution.Json
import RuleEngine.Json.Printer
import RuleEngine.Json.Reader

/-!
# Columns

How typed data is kept in the columns of a table. Instants are texts of one length for the years
of four digits, cut to the microsecond, so that the order of the texts is the order of the
instants. One of a few values is kept by its name. Structured data is kept as JSON text. It can be
read back up to a depth, with its doubles as they were written, since the nearest double is read; a
reader that misses it is left out.
-/

namespace RuleEngine

namespace Column

/-- The column of an instant. -/
def ofInstant (t : Timestamp) : String := t.textMicros

/-- Reads the column of an instant; a year of other than four digits cannot be read. -/
def instant (text : String) : Except EngineError Timestamp :=
  match text.toList.head?.any Text.isDigit, Timestamp.read? text with
  | true, some t => .ok t
  | _, _ => .error .storage

/-- Reads the column of an optional instant. -/
def optionalInstant : Option String → Except EngineError (Option Timestamp)
  | none => .ok none
  | some text => (instant text).map some

/-- Reads the column of a name. -/
def tag {α : Type} (names : List (String × α)) (text : String) : Except EngineError α :=
  match names.lookup text with
  | some a => .ok a
  | none => .error .storage

/-- A column of structured data: the characters of its JSON text. -/
abbrev Data := List Char

/-- The column of structured data. -/
def ofJson (j : Json) : Data := j.write

/-- Reads the column of structured data, all parts of which must have a value. -/
def structured {α : Type} (f : Json → Option α) (text : Data) : Except EngineError α :=
  match ((Json.parse? text).filter Json.isReadable).bind f with
  | some a => .ok a
  | none => .error .storage

end Column

end RuleEngine
