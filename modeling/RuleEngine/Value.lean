import RuleEngine.Dictionary
import RuleEngine.Number.Layout
import RuleEngine.Number.Rounding

/-!
# Values

The values that records, conditions and actions share: scalars and lists. Values have a rendered
text, which the operators on texts look at, and an equality that compares numbers as numbers. All
numbers in values are finite.
-/

namespace RuleEngine

/-- A scalar or a list of values. -/
inductive Value where
  | null
  | boolean (b : Bool)
  | number (x : Number)
  | string (s : String)
  | list (items : List Value)
deriving Inhabited

/-- Values by name: a snapshot of an entity's fields, or the parameters of an action. -/
abbrev Fields := Dictionary Value

namespace Value

/-- The name of the kind of a value. -/
def kind : Value → String
  | .null => "null"
  | .boolean _ => "boolean"
  | .number _ => "number"
  | .string _ => "string"
  | .list _ => "list"

/-- The names of the kinds. -/
def kindNames : List String := ["null", "boolean", "number", "string", "list"]

/-- Whether the value is null. -/
def isNull : Value → Bool
  | .null => true
  | _ => false

/-- Whether the value is not a list. -/
def isScalar : Value → Bool
  | .list _ => false
  | _ => true

/-- The number of a number. -/
def asNumber : Value → Option Number
  | .number x => some x
  | _ => none

/-- The text of a string. -/
def asString : Value → Option String
  | .string s => some s
  | _ => none

/-- The items of a list. -/
def asList : Value → Option (List Value)
  | .list items => some items
  | _ => none

mutual

/-- Equality of values: the same kind, and equal contents, numbers being compared as numbers. -/
def equal : Value → Value → Bool
  | .null, .null => true
  | .boolean a, .boolean b => a == b
  | .number x, .number y => x.equal y
  | .string s, .string t => s == t
  | .list as, .list bs => equalItems as bs
  | _, _ => false

/-- Equality of lists item by item. -/
def equalItems : List Value → List Value → Bool
  | [], [] => true
  | a :: as, b :: bs => equal a b && equalItems as bs
  | _, _ => false

end

mutual

/-- The rendered text of a value. -/
def render : Value → List Char
  | .null => "null".toList
  | .boolean true => "true".toList
  | .boolean false => "false".toList
  | .number x => NumberLayout.plain.write x
  | .string s => s.toList
  | .list items => '[' :: (renderItems items ++ [']'])

/-- The rendered items with a comma and a space between them. -/
def renderItems : List Value → List Char
  | [] => []
  | [v] => render v
  | v :: rest => render v ++ ',' :: ' ' :: renderItems rest

end

/-- The rendered text of a value as a string. -/
def text (v : Value) : String :=
  String.ofList v.render

/-- Whether a list of values has an item equal to a value. -/
def memberOf (items : List Value) (v : Value) : Bool :=
  items.any fun item => item.equal v

/-- The value of an integer, as the nearest number. -/
def ofInt (i : Int) : Value :=
  match Number.ofInt? i with
  | some x => .number x
  | none => .null

end Value

end RuleEngine
