import RuleEngine.Operator
import RuleEngine.Rule.Trigger

/-!
# Conditions and actions

The parts of a rule's definition, and what can be wrong with a definition.
-/

namespace RuleEngine

/-- A test of one field against a literal. The field is a path whose steps have dots between
them. -/
structure Condition where
  field : String
  operator : Operator
  value : Value
deriving Inhabited

/-- One effect of a rule: the type of a registered handler and the parameters for it. Actions run
in ascending order. -/
structure Action where
  order : Nat
  actionType : String
  parameters : Fields
deriving Inhabited

/-- What is wrong with the definition of a rule. -/
inductive DefinitionFault where
  | emptyName
  | emptyTenant
  | missingTrigger
  | invalidCron (fault : Cron.Fault)
  | emptyFieldPath
  | listLiteralRequired (field : String) (operator : Operator)
  | nestedList (field : String)
  | changeOperatorRequiresUpdate (field : String) (operator : Operator)
  | emptyActionType (order : Nat)
  | duplicateActionOrder (order : Nat)
deriving DecidableEq

namespace DefinitionFault

/-- The message of a fault; that of a faulty cron expression goes on with what is wrong in it. -/
def message : DefinitionFault → String
  | .emptyName => "name must not be empty"
  | .emptyTenant => "tenant must not be empty"
  | .missingTrigger => "rule has no trigger"
  | .invalidCron fault => "invalid cron expression: " ++ fault.message
  | .emptyFieldPath => "condition field path must not be empty"
  | .listLiteralRequired field op =>
    "operator " ++ op.name ++ " on " ++ Text.quoted field ++ " requires a list literal"
  | .nestedList field => "list literal for " ++ Text.quoted field ++ " must only contain scalars"
  | .changeOperatorRequiresUpdate field op =>
    "operator " ++ op.name ++ " on " ++ Text.quoted field ++
      " is only valid for updated-event rules"
  | .emptyActionType order => "action at order " ++ toString order ++ " has an empty action type"
  | .duplicateActionOrder order =>
    "action order " ++ toString order ++ " is used more than once"

/-- The name of the kind of a fault. -/
def kind : DefinitionFault → String
  | .emptyName => "EmptyName"
  | .emptyTenant => "EmptyTenant"
  | .missingTrigger => "MissingTrigger"
  | .invalidCron _ => "InvalidCron"
  | .emptyFieldPath => "EmptyFieldPath"
  | .listLiteralRequired .. => "ListLiteralRequired"
  | .nestedList _ => "NestedList"
  | .changeOperatorRequiresUpdate .. => "ChangeOperatorRequiresUpdate"
  | .emptyActionType _ => "EmptyActionType"
  | .duplicateActionOrder _ => "DuplicateActionOrder"

end DefinitionFault

/-- Whether a text is empty or white space only. -/
def Text.isBlankText (s : String) : Bool :=
  (Text.trim s.toList).isEmpty

/-- The steps of a field path. -/
def pathSteps (path : String) : List String :=
  (Text.pieces (· == '.') path.toList).map String.ofList

namespace Condition

/-- Whether a path or one of its steps is empty. -/
def hasEmptyPath (c : Condition) : Bool :=
  Text.isBlankText c.field || (pathSteps c.field).any (·.isEmpty)

/-- Whether the literal is a list with a list in it. -/
def hasNestedList (c : Condition) : Bool :=
  match c.value.asList with
  | some items => !items.all (·.isScalar)
  | none => false

/-- The first fault of a condition of a rule with a trigger. -/
def validate (c : Condition) (trigger : Trigger) : Except DefinitionFault Unit :=
  if c.hasEmptyPath then .error .emptyFieldPath
  else if c.operator.requiresList && c.value.asList.isNone then
    .error (.listLiteralRequired c.field c.operator)
  else if c.hasNestedList then .error (.nestedList c.field)
  else if c.operator.isChange && trigger.eventKind != some .updated then
    .error (.changeOperatorRequiresUpdate c.field c.operator)
  else .ok ()

/-- The text of a condition. -/
def text (c : Condition) : String :=
  c.field ++ " " ++ c.operator.name ++ " " ++ c.value.text

end Condition

namespace Action

/-- The text of an action. -/
def text (a : Action) : String :=
  "#" ++ toString a.order ++ " " ++ a.actionType

/-- The first fault of a list of actions, orders in `seen` being used already. -/
def validateAll (seen : List Nat) : List Action → Except DefinitionFault Unit
  | [] => .ok ()
  | a :: rest =>
    if Text.isBlankText a.actionType then .error (.emptyActionType a.order)
    else if seen.contains a.order then .error (.duplicateActionOrder a.order)
    else validateAll (a.order :: seen) rest

end Action

end RuleEngine
