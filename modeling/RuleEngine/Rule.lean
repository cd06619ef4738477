import RuleEngine.Rule.Condition

/-!
# Rules

A rule fires on its trigger, proceeds if its conditions together hold, waits for its delay if it
has one, and runs its actions in order.
-/

namespace RuleEngine

/-- How the results of the conditions become one: all of them have to hold, or any of them. -/
inductive Combination where
  | all
  | any
deriving DecidableEq, Inhabited

namespace Combination

/-- The names of the combinations. -/
def names : List (String × Combination) := [("all", .all), ("any", .any)]

/-- The name of a combination. -/
def name : Combination → String
  | .all => "all"
  | .any => "any"

/-- The combined result; without conditions, all of them hold and none of them does. -/
def combine (c : Combination) (results : List Bool) : Bool :=
  match c with
  | .all => results.all id
  | .any => results.any id

end Combination

/-- An automation rule of a tenant. -/
structure Rule where
  id : RuleId
  tenant : TenantId
  name : String
  trigger : Trigger
  combination : Combination
  active : Bool
  delaySeconds : Option Nat
  conditions : List Condition
  actions : List Action
  lastTick : Option Timestamp
  createdAt : Timestamp
  updatedAt : Timestamp

/-- The pause between the conditions of a rule and its actions. Seconds that 64 bits hold need not
be a length of time that the calendar can count in. -/
inductive ExecutionDelay where
  | none
  | lasting (d : Duration)
  | uncountable
deriving DecidableEq

namespace Rule

/-- The first fault of a list of conditions. -/
def validateConditions (trigger : Trigger) : List Condition → Except DefinitionFault Unit
  | [] => .ok ()
  | c :: rest => do
    c.validate trigger
    validateConditions trigger rest

/-- The first fault of a rule: of its name, its tenant, its conditions and its actions, in this
order. -/
def validate (r : Rule) : Except DefinitionFault Unit :=
  if Text.isBlankText r.name then .error .emptyName
  else if Text.isBlankText r.tenant then .error .emptyTenant
  else do
    validateConditions r.trigger r.conditions
    Action.validateAll [] r.actions

/-- The actions in ascending order; those of the same order keep their places. -/
def orderedActions (r : Rule) : List Action :=
  r.actions.mergeSort fun a b => a.order ≤ b.order

/-- The pause before the actions. There is none for zero seconds, nor for more seconds than a
signed 64-bit number holds. -/
def executionDelay (r : Rule) : ExecutionDelay :=
  match r.delaySeconds with
  | none | some 0 => .none
  | some s =>
    if 0x8000000000000000 ≤ s then .none
    else if Duration.maxSeconds < s then .uncountable
    else .lasting (Duration.seconds s)

end Rule

end RuleEngine
