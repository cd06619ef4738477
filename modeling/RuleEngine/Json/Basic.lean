import RuleEngine.Number.Basic

/-!
# JSON data

The data that a JSON text denotes. An object keeps its members in the order of the text, a
repeated name included, because what a repeated name means depends on who reads the object.
-/

namespace RuleEngine

/-- JSON data. Integers that fit 64 bits, signed or unsigned, are kept apart from other numbers.
`unreadable` stands for a well-formed piece of text without a value: a number beyond the largest
double, a text with half a surrogate pair, or data nested too deep. -/
inductive Json where
  | null
  | bool (b : Bool)
  | int (i : Int)
  | float (x : Number)
  | str (s : String)
  | arr (items : List Json)
  | obj (members : List (String × Json))
  | unreadable
deriving Inhabited

namespace Json

/-- The deepest nesting of arrays and objects that has a value. -/
def depthLimit : Nat := 127

/-- Puts a member into a list sorted by name, in place of one with the same name. -/
def insertMember (name : String) (value : Json) :
    List (String × Json) → List (String × Json)
  | [] => [(name, value)]
  | (n, v) :: rest =>
    if name < n then (name, value) :: (n, v) :: rest
    else if name = n then (name, value) :: rest
    else (n, v) :: insertMember name value rest

mutual

/-- Whether every part of the data has a value. -/
def isReadable : Json → Bool
  | .unreadable => false
  | .arr items => allReadable items
  | .obj members => membersReadable members
  | .null | .bool _ | .int _ | .float _ | .str _ => true

/-- Whether every part of every item has a value. -/
def allReadable : List Json → Bool
  | [] => true
  | j :: rest => isReadable j && allReadable rest

/-- Whether every part of every member has a value. -/
def membersReadable : List (String × Json) → Bool
  | [] => true
  | (_, j) :: rest => isReadable j && membersReadable rest

end

mutual

/-- The data with the members of every object in the order of their names, the last of several
with one name taken. -/
def normal : Json → Json
  | .arr items => .arr (normalItems items)
  | .obj members => .obj (normalMembers members [])
  | .null => .null
  | .bool b => .bool b
  | .int i => .int i
  | .float x => .float x
  | .str s => .str s
  | .unreadable => .unreadable

/-- The normal forms of the items. -/
def normalItems : List Json → List Json
  | [] => []
  | j :: rest => normal j :: normalItems rest

/-- The normal forms of the members, put into a sorted list one after the other. -/
def normalMembers : List (String × Json) → List (String × Json) → List (String × Json)
  | [], sorted => sorted
  | (name, j) :: rest, sorted => normalMembers rest (insertMember name (normal j) sorted)

end

/-- The value of the last member with a name. -/
def get? (name : String) : Json → Option Json
  | .obj members => (members.reverse.find? fun m => m.1 == name).map (·.2)
  | _ => none

/-- The value of the last member with a name, if it is not null. -/
def given? (j : Json) (name : String) : Option Json :=
  (j.get? name).filter fun
    | .null => false
    | _ => true

end Json

end RuleEngine
