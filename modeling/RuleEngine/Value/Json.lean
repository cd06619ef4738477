import RuleEngine.Json.Printer
import RuleEngine.Json.Record
import RuleEngine.Value

/-!
# Values as data

A value is written with its kind as a tag and, unless it is null, its content beside it. The
module also takes untagged data for values, as callers hand it in.
-/

namespace RuleEngine.Value

mutual

/-- The data of a value. -/
def toJson : Value → Json
  | .null => .obj [("type", .str "null")]
  | .boolean b => .obj [("type", .str "boolean"), ("value", .bool b)]
  | .number x => .obj [("type", .str "number"), ("value", .float x)]
  | .string s => .obj [("type", .str "string"), ("value", .str s)]
  | .list items => .obj [("type", .str "list"), ("value", .arr (itemsToJson items))]

/-- The data of the items of a list. -/
def itemsToJson : List Value → List Json
  | [] => []
  | v :: rest => toJson v :: itemsToJson rest

end

/-- The value with a tag and a content. The content comes with the values it holds as a list. -/
def ofParts? (tag : String) (content : Option (Json × Option (List Value))) : Option Value :=
  match tag, content with
  | "null", none => some .null
  | "null", some (.null, _) => some .null
  | "boolean", some (.bool b, _) => some (.boolean b)
  | "number", some (j, _) => j.number?.map .number
  | "string", some (.str s, _) => some (.string s)
  | "list", some (_, some items) => some (.list items)
  | _, _ => none

/-- How the content of a value is come by: it is held back if it stands before the tag. -/
def contentAccess (access : Json.Access) (members : List (String × Json)) : Json.Access :=
  match members.find? fun m => m.1 == "type" || m.1 == "value" with
  | some ("value", _) => .held
  | _ => access

/-- Whether a content can be come by: one that is held back has a value in all its parts. -/
def isContent (access : Json.Access) (j : Json) : Bool :=
  access = .direct || j.isReadable

mutual

/-- The value that data denotes: an object with a tag and a content, the latter absent for null,
or an array of the two. -/
def ofJson? (access : Json.Access) : Json → Option Value
  | .obj members =>
    let inner := contentAccess access members
    match Json.distinctMembers ["type", "value"] (membersWithItems inner members) with
    | some [some (tag, _), content] =>
      if content.all fun c => isContent inner c.1 then
        (tag.name? access).bind fun name => ofParts? name content
      else none
    | _ => none
  | .arr items =>
    match itemsWithItems access items with
    | [(tag, _), content] =>
      (tag.label? access kindNames).bind fun name => ofParts? name (some content)
    | _ => none
  | _ => none

/-- The values that an array holds. -/
def listOfJson? (access : Json.Access) : Json → Option (List Value)
  | .arr items => valuesOfJson? access items
  | _ => none

/-- The values that the items denote, if each of them denotes one. -/
def valuesOfJson? (access : Json.Access) : List Json → Option (List Value)
  | [] => some []
  | j :: rest =>
    match ofJson? access j, valuesOfJson? access rest with
    | some v, some vs => some (v :: vs)
    | _, _ => none

/-- The items, each with the values that it holds. -/
def itemsWithItems (access : Json.Access) : List Json → List (Json × Option (List Value))
  | [] => []
  | j :: rest => (j, listOfJson? access j) :: itemsWithItems access rest

/-- The members, each with the values that it holds. -/
def membersWithItems (access : Json.Access) :
    List (String × Json) → List (String × Json × Option (List Value))
  | [] => []
  | (name, j) :: rest => (name, j, listOfJson? access j) :: membersWithItems access rest

end

mutual

/-- The value of untagged data: scalars and arrays as they are, numbers rounded to doubles, and
an object as its compact text. -/
def ofPlain : Json → Value
  | .null | .unreadable => .null
  | .bool b => .boolean b
  | .int i => .ofInt i
  | .float x => .number x
  | .str s => .string s
  | .arr items => .list (ofPlainItems items)
  | .obj members => .string (Json.obj members).normal.text

/-- The values of the items of an array. -/
def ofPlainItems : List Json → List Value
  | [] => []
  | j :: rest => ofPlain j :: ofPlainItems rest

end

end RuleEngine.Value

namespace RuleEngine.Fields

/-- The data of values by name. -/
def toJson (d : Fields) : Json :=
  .obj (d.entries.map fun (name, v) => (name, v.toJson))

/-- The values by name that data denotes; the last value of a name counts. -/
def ofJson? (access : Json.Access) (j : Json) : Option Fields :=
  (j.dictionary? (Value.ofJson? access)).map Dictionary.ofList

end RuleEngine.Fields
