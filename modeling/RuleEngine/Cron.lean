import RuleEngine.Text.Blank
import RuleEngine.Text.Quoted
import RuleEngine.Time.Timestamp

/-!
# Cron expressions

Five fields select minutes of universal time: minute, hour, day of the month, month and day of
the week. A field is a list of entries, each a range of values with a step. A minute is selected
if its minute, hour and month are, and its day is; the two day fields together select a day by
either of them if both are restricted, and by both otherwise.
-/

namespace RuleEngine

namespace Cron

/-- A field of an expression. -/
inductive Field where
  | minute
  | hour
  | dayOfMonth
  | month
  | dayOfWeek
deriving DecidableEq

namespace Field

/-- The name of a field in messages. -/
def label : Field → String
  | .minute => "minute"
  | .hour => "hour"
  | .dayOfMonth => "day-of-month"
  | .month => "month"
  | .dayOfWeek => "day-of-week"

/-- The smallest value of a field. -/
def least : Field → Nat
  | .dayOfMonth | .month => 1
  | _ => 0

/-- The largest value of a field. Sunday is both 0 and 7. -/
def greatest : Field → Nat
  | .minute => 59
  | .hour => 23
  | .dayOfMonth => 31
  | .month => 12
  | .dayOfWeek => 7

/-- The names that stand for values, in capital letters. -/
def names : Field → List (String × Nat)
  | .month => [("JAN", 1), ("FEB", 2), ("MAR", 3), ("APR", 4), ("MAY", 5), ("JUN", 6),
      ("JUL", 7), ("AUG", 8), ("SEP", 9), ("OCT", 10), ("NOV", 11), ("DEC", 12)]
  | .dayOfWeek => [("SUN", 0), ("MON", 1), ("TUE", 2), ("WED", 3), ("THU", 4), ("FRI", 5),
      ("SAT", 6)]
  | _ => []

/-- The value of a name in any case. -/
def named? (f : Field) (cs : List Char) : Option Nat :=
  (f.names.find? fun n => Text.asciiLower n.1.toList == Text.asciiLower cs).map (·.2)

end Field

/-- Why a text is no cron expression. -/
inductive Fault where
  | fieldCount (found : Nat)
  | unknownMacro (name : String)
  | emptyEntry (field : Field)
  | invalidValue (field : Field) (text : String)
  | outOfRange (field : Field) (value : Nat)
  | invalidStep (field : Field) (text : String)
  | reversedRange (field : Field) (first last : Nat)
deriving DecidableEq

namespace Fault

/-- The message of a fault. -/
def message : Fault → String
  | .fieldCount n => "expected 5 fields, found " ++ toString n
  | .unknownMacro name => "unknown macro " ++ Text.quoted name
  | .emptyEntry f => "empty entry in " ++ f.label ++ " field"
  | .invalidValue f t => "invalid " ++ f.label ++ " value " ++ Text.quoted t
  | .outOfRange f v =>
    f.label ++ " value " ++ toString v ++ " outside " ++ toString f.least ++ "..=" ++
      toString f.greatest
  | .invalidStep f t => "invalid " ++ f.label ++ " step " ++ Text.quoted t
  | .reversedRange f a b =>
    f.label ++ " range " ++ toString a ++ "-" ++ toString b ++ " is reversed"

/-- The name of the kind of a fault. -/
def kind : Fault → String
  | .fieldCount _ => "FieldCount"
  | .unknownMacro _ => "UnknownMacro"
  | .emptyEntry _ => "Empty"
  | .invalidValue .. => "InvalidValue"
  | .outOfRange .. => "OutOfRange"
  | .invalidStep .. => "InvalidStep"
  | .reversedRange .. => "ReversedRange"

end Fault

/-- An entry of a field: every `step`-th value from `first` to `last`. -/
structure Entry where
  first : Nat
  last : Nat
  step : Nat
deriving DecidableEq

namespace Entry

/-- Whether an entry selects a value. -/
def covers (e : Entry) (v : Nat) : Bool :=
  e.first ≤ v && v ≤ e.last && (v - e.first) % e.step == 0

end Entry

/-- The largest number that may be written in a field. -/
def numberLimit : Nat := 4294967295

/-- Reads a value of a field: a number, or a name of the field, inside the field's range. -/
def readValue (f : Field) (cs : List Char) : Except Fault Nat :=
  let value := match Text.readUnsigned? numberLimit cs with
    | some n => some n
    | none => f.named? cs
  match value with
  | none => .error (.invalidValue f (String.ofList cs))
  | some v => if v < f.least || f.greatest < v then .error (.outOfRange f v) else .ok v

/-- Reads the range of an entry: all values, two values with a hyphen between them, or one value.
One value with a step stands for the range up to the field's end. -/
def readRange (f : Field) (stepped : Bool) (cs : List Char) : Except Fault (Nat × Nat) :=
  if cs = ['*'] then .ok (f.least, f.greatest)
  else match Text.cut '-' cs with
    | some (a, b) => do
      let first ← readValue f a
      let last ← readValue f b
      .ok (first, last)
    | none => do
      let v ← readValue f cs
      .ok (v, if stepped then f.greatest else v)

/-- Reads a step, a positive number. -/
def readStep (f : Field) (cs : List Char) : Except Fault Nat :=
  match Text.readUnsigned? numberLimit cs with
  | some 0 | none => .error (.invalidStep f (String.ofList cs))
  | some s => .ok s

/-- Reads an entry: a range, and a step behind a slash. -/
def readEntry (f : Field) (cs : List Char) : Except Fault Entry := do
  if cs.isEmpty then throw (.emptyEntry f)
  let (range, step) ← match Text.cut '/' cs with
    | some (range, step) => do
      let s ← readStep f step
      pure (range, some s)
    | none => pure (cs, none)
  let (first, last) ← readRange f step.isSome range
  if last < first then throw (.reversedRange f first last)
  pure ⟨first, last, step.getD 1⟩

/-- Reads the entries of a field, which have commas between them. -/
def readField (f : Field) (cs : List Char) : Except Fault (List Entry) :=
  (Text.pieces (· == ',') cs).mapM (readEntry f)

/-- The values that entries of a field select. -/
def valuesOf (f : Field) (entries : List Entry) : List Nat :=
  (List.range (f.greatest + 1)).filter fun v => entries.any (·.covers v)

/-- The weekdays of entries, of which 7 is Sunday as well as 0. -/
def weekdaysOf (entries : List Entry) : List Nat :=
  let values := valuesOf .dayOfWeek entries
  (List.range 7).filter fun v => values.contains v || (v == 0 && values.contains 7)

/-- The five fields that a macro stands for; its name may have any case. -/
def macroFields? (name : List Char) : Option String :=
  match String.ofList (Text.asciiLower name) with
  | "@yearly" | "@annually" => some "0 0 1 1 *"
  | "@monthly" => some "0 0 1 * *"
  | "@weekly" => some "0 0 * * 0"
  | "@daily" | "@midnight" => some "0 0 * * *"
  | "@hourly" => some "0 * * * *"
  | _ => none

end Cron

/-- A cron expression: its text, and for each field the values that it selects. -/
structure CronExpression where
  source : String
  minutes : List Nat
  hours : List Nat
  daysOfMonth : List Nat
  months : List Nat
  daysOfWeek : List Nat
  daysOfMonthRestricted : Bool
  daysOfWeekRestricted : Bool
deriving DecidableEq

namespace CronExpression

open Cron

/-- The expression of five fields. The day of the week is read before the others; the day fields
are restricted unless they start with an asterisk. -/
def ofFields (source : String) (minute hour dayOfMonth month dayOfWeek : List Char) :
    Except Fault CronExpression := do
  let weekdays ← readField .dayOfWeek dayOfWeek
  let minutes ← readField .minute minute
  let hours ← readField .hour hour
  let days ← readField .dayOfMonth dayOfMonth
  let months ← readField .month month
  return {
    source
    minutes := valuesOf .minute minutes
    hours := valuesOf .hour hours
    daysOfMonth := valuesOf .dayOfMonth days
    months := valuesOf .month months
    daysOfWeek := weekdaysOf weekdays
    daysOfMonthRestricted := dayOfMonth.head? != some '*'
    daysOfWeekRestricted := dayOfWeek.head? != some '*' }

/-- Reads an expression: white space around it is dropped, and a text that starts with an at sign
is a macro. -/
def parse (text : String) : Except Fault CronExpression := do
  let trimmed := Text.trim text.toList
  let source := String.ofList trimmed
  let expanded ←
    if trimmed.head? = some '@' then
      match macroFields? trimmed with
      | some fields => .ok fields.toList
      | none => .error (.unknownMacro source)
    else .ok trimmed
  match Text.words expanded with
  | [minute, hour, dayOfMonth, month, dayOfWeek] =>
    ofFields source minute hour dayOfMonth month dayOfWeek
  | fields => .error (.fieldCount fields.length)

/-- Whether an expression selects the minute of an instant. -/
def selects (e : CronExpression) (t : Timestamp) : Bool :=
  let date := t.date
  let byMonthDay := e.daysOfMonth.contains date.day
  let byWeekday := e.daysOfWeek.contains t.weekday
  e.minutes.contains t.minute && e.hours.contains t.hour && e.months.contains date.month &&
    (if e.daysOfMonthRestricted && e.daysOfWeekRestricted then byMonthDay || byWeekday
     else byMonthDay && byWeekday)

end CronExpression

end RuleEngine
