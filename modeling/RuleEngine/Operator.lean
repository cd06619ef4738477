import RuleEngine.Text.Casing
import RuleEngine.Value

/-!
# Operators

The comparisons of a condition. Orders compare numbers only, the operators on texts look at
rendered values, and the operators on changes reduce to equality once the side of the change has
been picked.
-/

namespace RuleEngine

/-- A comparison between an actual value and the literal of a condition. -/
inductive Operator where
  | equal
  | notEqual
  | greater
  | greaterOrEqual
  | less
  | lessOrEqual
  | contains
  | containsIgnoringCase
  | startsWith
  | endsWith
  | isIn
  | notIn
  | isNull
  | isNotNull
  | changedTo
  | changedFrom
deriving DecidableEq, Inhabited

/-- Whether a comparison passed, and a remark on why it could not be made. -/
structure Verdict where
  passed : Bool
  note : Option String
deriving DecidableEq

namespace Verdict

/-- The verdict of a comparison that was made. -/
def of (passed : Bool) : Verdict := ⟨passed, none⟩

/-- The verdict of a comparison that could not be made. -/
def rejected (note : String) : Verdict := ⟨false, some note⟩

end Verdict

namespace Text

/-- Whether a text occurs in another. -/
def occursIn (needle : List Char) : List Char → Bool
  | [] => needle.isEmpty
  | c :: cs => needle.isPrefixOf (c :: cs) || occursIn needle cs

end Text

namespace Operator

/-- Every operator. -/
def all : List Operator :=
  [.equal, .notEqual, .greater, .greaterOrEqual, .less, .lessOrEqual, .contains,
    .containsIgnoringCase, .startsWith, .endsWith, .isIn, .notIn, .isNull, .isNotNull, .changedTo,
    .changedFrom]

/-- The name of an operator. -/
def name : Operator → String
  | .equal => "equal"
  | .notEqual => "not_equal"
  | .greater => "greater"
  | .greaterOrEqual => "greater_or_equal"
  | .less => "less"
  | .lessOrEqual => "less_or_equal"
  | .contains => "contains"
  | .containsIgnoringCase => "icontains"
  | .startsWith => "starts_with"
  | .endsWith => "ends_with"
  | .isIn => "in"
  | .notIn => "not_in"
  | .isNull => "is_null"
  | .isNotNull => "is_not_null"
  | .changedTo => "changed_to"
  | .changedFrom => "changed_from"

/-- Whether the literal has to be a list. -/
def requiresList : Operator → Bool
  | .isIn | .notIn => true
  | _ => false

/-- Whether the operator looks at both sides of a change. -/
def isChange : Operator → Bool
  | .changedTo | .changedFrom => true
  | _ => false

/-- The comparison of two numbers; any other values do not match the operator. -/
def compareNumbers (op : Operator) (test : Number → Number → Bool) (actual literal : Value) :
    Verdict :=
  match actual.asNumber, literal.asNumber with
  | some x, some y => .of (test x y)
  | _, _ => .rejected
    ("type mismatch: " ++ op.name ++ " needs numbers, got " ++ actual.kind ++ " and " ++
      literal.kind)

/-- The test whether a list literal has an item equal to a value. -/
def membership (op : Operator) (expected : Bool) (actual literal : Value) : Verdict :=
  match literal.asList with
  | some items => .of (Value.memberOf items actual == expected)
  | none => .rejected (op.name ++ " requires a list literal, got " ++ literal.kind)

/-- The verdict of an operator on a value and a literal. -/
def apply (op : Operator) (actual literal : Value) : Verdict :=
  match op with
  | .equal | .changedTo | .changedFrom => .of (actual.equal literal)
  | .notEqual => .of (!actual.equal literal)
  | .greater => compareNumbers op (fun x y => y.less x) actual literal
  | .greaterOrEqual => compareNumbers op (fun x y => y.lessOrEqual x) actual literal
  | .less => compareNumbers op (fun x y => x.less y) actual literal
  | .lessOrEqual => compareNumbers op (fun x y => x.lessOrEqual y) actual literal
  | .contains => .of <| match actual with
    | .list items => Value.memberOf items literal
    | v => Text.occursIn literal.render v.render
  | .containsIgnoringCase =>
    let needle := Text.lower literal.text
    .of <| match actual with
      | .list items => items.any fun item => Text.lower item.text == needle
      | v => Text.occursIn needle.toList (Text.lower v.text).toList
  | .startsWith => .of (literal.render.isPrefixOf actual.render)
  | .endsWith => .of (literal.render.isSuffixOf actual.render)
  | .isIn => membership op true actual literal
  | .notIn => membership op false actual literal
  | .isNull => .of actual.isNull
  | .isNotNull => .of (!actual.isNull)

end Operator

end RuleEngine
