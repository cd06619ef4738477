import RuleEngine.Json.Basic
import RuleEngine.Number.Rounding

/-!
# Records in JSON

How typed data is read from JSON. A record is an object with named members, or an array of the
fields in order. A choice is an object with a tag among its members, or an array that starts with
the tag.
-/

namespace RuleEngine.Json

/-- How data is come by: directly, as its text goes on, or held back as a whole, because a tag
that may come after it decides what it means. -/
inductive Access where
  | direct
  | held
deriving DecidableEq

/-- A text. -/
def text? : Json → Option String
  | .str s => some s
  | _ => none

/-- A truth value. -/
def bool? : Json → Option Bool
  | .bool b => some b
  | _ => none

/-- A number, an integer being rounded to the nearest double. -/
def number? : Json → Option Number
  | .float x => some x
  | .int i => Number.ofInt? i
  | _ => none

/-- A natural number below a bound, written as an integer. -/
def natBelow? (bound : Nat) : Json → Option Nat
  | .int (.ofNat n) => if n < bound then some n else none
  | _ => none

/-- A list, every item read by `f`. -/
def list? {α : Type} (f : Json → Option α) : Json → Option (List α)
  | .arr items => items.mapM f
  | _ => none

/-- Whether data says nothing: null does, and in data that was held back an empty object too. -/
def isUnit (access : Access) : Json → Bool
  | .null => true
  | .obj [] => access = .held
  | _ => false

/-- A name, alone or as the only member of an object, with a value that says nothing. -/
def name? (access : Access) : Json → Option String
  | .str s => some s
  | .obj [(s, j)] => if j.isUnit access then some s else none
  | _ => none

/-- One of several names. -/
def choice? {α : Type} (access : Access) (names : List (String × α)) (j : Json) : Option α :=
  (j.name? access).bind fun name => names.lookup name

/-- One of several names, which has no wrapping here. In data that was held back the place of the
name among the others stands for it too. -/
def label? (access : Access) (names : List String) : Json → Option String
  | .str s => if names.contains s then some s else none
  | .int (.ofNat i) => if access = .held then names[i]? else none
  | _ => none

/-- A field that has to be there. -/
def required {α : Type} (f : Json → Option α) : Option Json → Option α
  | some j => f j
  | none => none

/-- A field that may be absent or null. -/
def optional {α : Type} (f : Json → Option α) : Option Json → Option (Option α)
  | none | some .null => some none
  | some j => (f j).map some

/-- A field that has the value `d` if it is absent. -/
def defaulted {α : Type} (d : α) (f : Json → Option α) : Option Json → Option α
  | none => some d
  | some j => f j

/-- The members with one of the given names; nothing if a name comes twice. -/
def distinctMembers {β : Type} (names : List String) (members : List (String × β)) :
    Option (List (Option β)) :=
  names.mapM fun name =>
    match members.filter fun m => m.1 == name with
    | [] => some none
    | [m] => some (some m.2)
    | _ => none

/-- The fields of a record. Each is given by its name and whether an array may end before it. An
object may have other members too; an array has no more items than there are fields. -/
def record? (fields : List (String × Bool)) : Json → Option (List (Option Json))
  | .obj members => distinctMembers (fields.map (·.1)) members
  | .arr items =>
    if items.length ≤ fields.length && (fields.drop items.length).all (·.2) then
      some (fields.zipIdx.map fun (_, i) => items[i]?)
    else none
  | _ => none

/-- The tag of a choice, and the data without it. That data is held back until the tag is known, so
it must have a value in all its parts. -/
def tagged? (tag : String) (j : Json) : Option (String × Json) :=
  if !j.isReadable then none
  else match j with
    | .obj members =>
      match members.filter fun m => m.1 == tag with
      | [(_, .str s)] => some (s, .obj (members.filter fun m => m.1 != tag))
      | _ => none
    | .arr (.str s :: items) => some (s, .arr items)
    | _ => none

/-- The members of an object, each value read by `f`. -/
def dictionary? {α : Type} (f : Json → Option α) : Json → Option (List (String × α))
  | .obj members => members.mapM fun (name, j) => (f j).map fun v => (name, v)
  | _ => none

end RuleEngine.Json
