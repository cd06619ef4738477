import RuleEngine.Pattern
import RuleEngine.Text.Bytes

/-!
# Filters of log messages

A filter is a list of directives with commas between them. A directive names the messages it is
about, by where they come from and by the span they are made in, and the level from which they are
shown: `place[span{field}]=level`. Each part may be left out. A field may have a value behind an
equals sign, which is a pattern. The module says which texts are filters.
-/

namespace RuleEngine

/-- Why a text is no filter: one of its directives has the wrong form, no level where there should
be one, or a field whose value cannot be looked for. -/
inductive LogFilterError where
  | directive
  | level
  | field (fault : PatternFault)
deriving DecidableEq

namespace LogFilterError

/-- The message of an error. -/
def message : LogFilterError → String
  | .directive => "invalid filter directive"
  | .level =>
    "error parsing level filter: expected one of \"off\", \"error\", \"warn\", \"info\", " ++
      "\"debug\", \"trace\", or a number 0-5"
  | .field fault => "invalid field filter: " ++ fault.message

end LogFilterError

namespace LogFilter

/-- The names of the levels; each of them may also be given by its place in the list. -/
def levelNames : List String :=
  ["off", "error", "warn", "info", "debug", "trace"]

/-- Whether a text is a level, by its name in letters of either case or by its number. -/
def isLevel (cs : List Char) : Bool :=
  levelNames.any (fun name => name.toList == Text.asciiLower cs) ||
    (Text.readUnsigned? (levelNames.length - 1) cs).isSome

/-- Checks the level at the end of a directive, which may be left out. White space around the
directive is taken for a part of the level, and spoils it. -/
def checkLevel (padded : Bool) (cs : List Char) : Except LogFilterError Unit :=
  if !padded && (cs.isEmpty || isLevel cs) then .ok () else .error .level

/-- Checks what follows a span: nothing, or a level. -/
def checkAfterSpan (padded : Bool) : List Char → Except LogFilterError Unit
  | [] => .ok ()
  | '=' :: level => checkLevel padded level
  | _ :: _ => .error .directive

/-- Checks a field. Its value, if it has one, is a number or a pattern, and ends before another
equals sign. -/
def checkField (cs : List Char) : Except LogFilterError Unit :=
  match Text.pieces (· == '=') cs with
  | _ :: value :: _ =>
    if Text.isNumber value then .ok () else (Pattern.check value).mapError .field
  | _ => .ok ()

/-- Checks a directive from the field of its span on: a text up to a closing brace, and the end of
the span right behind it. The place of the field is counted without the white space in front of the
directive, but looked up with it. -/
def checkSpanField (text cs : List Char) : Except LogFilterError Unit := do
  let trimmed := Text.trim text
  let field := cs.takeWhile (· != '\x7d')
  match field, cs.dropWhile (· != '\x7d') with
  | _ :: _, _ :: rest =>
    let place := Text.byteLength trimmed - Text.byteLength cs
    checkField (Text.takeBytes (Text.byteLength field) (Text.dropBytes place text))
    match rest with
    | ']' :: rest => checkAfterSpan (trimmed != text) rest
    | _ => .error .directive
  | _, _ => .error .directive

/-- Checks a directive from the name of its span on. -/
def checkSpan (text cs : List Char) : Except LogFilterError Unit :=
  match cs.dropWhile fun c => c != ']' && c != '\x7b' with
  | [] => .error .directive
  | c :: rest =>
    if c == ']' then checkAfterSpan (Text.trim text != text) rest else checkSpanField text rest

/-- Whether the name of a place can start with a character. -/
def startsPlace (c : Char) : Bool :=
  c == '-' || c == ':' || c == '_' || Text.isAlphanumeric c

/-- Checks a directive: a span, or a place that a span or a level may follow. Such a place may
itself be a level. -/
def checkDirective (text : List Char) : Except LogFilterError Unit :=
  let cs := Text.trim text
  let padded := cs != text
  match cs.head?, cs.dropWhile fun c => c != '=' && c != '[' with
  | some '[', _ => checkSpan text (cs.drop 1)
  | some c, rest =>
    if !startsPlace c then .error .directive
    else match rest with
      | [] => .ok ()
      | c :: rest => if c == '=' then checkLevel padded rest else checkSpan text rest
  | none, _ => .error .directive

/-- Checks a filter. Nothing between two commas is no directive, and the first directive that is
refused decides. -/
def check (filter : String) : Except LogFilterError Unit :=
  ((Text.pieces (· == ',') filter.toList).filter fun cs => !cs.isEmpty).forM checkDirective

end LogFilter

end RuleEngine
