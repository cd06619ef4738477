import RuleEngine.Context
import RuleEngine.Execution.Status
import RuleEngine.Rule

/-!
# Execution records

The audit entry of one evaluation of one rule for one cause: a trace of the conditions, the steps
of the actions, and the times.
-/

namespace RuleEngine

/-- The trace of one condition. `resolved` is absent if the field was not found, which differs
from a field that is null; `previous` is the value before the change, for operators on changes. -/
structure ConditionResult where
  field : String
  operator : Operator
  expected : Value
  resolved : Option Value
  previous : Option Value
  passed : Bool
  note : Option String

/-- How an action ended. -/
inductive StepOutcome where
  | success
  | failure
deriving DecidableEq

namespace StepOutcome

/-- The names of the outcomes. -/
def names : List (String × StepOutcome) := [("success", .success), ("failure", .failure)]

/-- The name of an outcome. -/
def name : StepOutcome → String
  | .success => "success"
  | .failure => "failure"

end StepOutcome

/-- The trace of one action that was tried. -/
structure ActionStep where
  order : Nat
  actionType : String
  parameters : Fields
  outcome : StepOutcome
  message : Option String
  effect : Option Value
  startedAt : Timestamp
  finishedAt : Timestamp

namespace ActionStep

/-- Whether the action succeeded. -/
def succeeded (s : ActionStep) : Bool :=
  s.outcome == .success

end ActionStep

/-- The audit entry of one evaluation. -/
structure ExecutionRecord where
  id : ExecutionId
  tenant : TenantId
  ruleId : RuleId
  ruleName : String
  triggerKind : TriggerKind
  trigger : TriggerSnapshot
  status : ExecutionStatus
  conditions : List ConditionResult
  steps : List ActionStep
  error : Option String
  delayedUntil : Option Timestamp
  startedAt : Timestamp
  finishedAt : Option Timestamp

namespace ExecutionRecord

/-- A new record of a rule that fires. -/
def pending (id : ExecutionId) (rule : Rule) (context : TriggerContext) (now : Timestamp) :
    ExecutionRecord where
  id
  tenant := context.tenant
  ruleId := rule.id
  ruleName := rule.name
  triggerKind := context.kind
  trigger := context.snapshot
  status := .pending
  conditions := []
  steps := []
  error := none
  delayedUntil := none
  startedAt := now
  finishedAt := none

/-- Whether the execution has ended. -/
def isTerminal (r : ExecutionRecord) : Bool :=
  r.status.isTerminal

/-- Moves the record to another status, if the move is allowed. A final status gets the time as
that of its end and drops the delay. -/
def move (target : ExecutionStatus) (now : Timestamp) :
    EStateM TransitionFault ExecutionRecord Unit := do
  let r ← get
  if !r.status.allows target then throw ⟨r.status, target⟩
  set { r with status := target }
  if target.isTerminal then
    modify fun r => { r with finishedAt := some now, delayedUntil := none }

/-- Moves the record to failure with an error, if it has not ended. -/
def moveToFailed (error : String) (now : Timestamp) :
    EStateM TransitionFault ExecutionRecord Unit := do
  move .failed now
  modify fun r => { r with error := some error }

/-- The record after a call that is accepted, or the fault of one that is refused. -/
def calling (r : ExecutionRecord) (call : EStateM TransitionFault ExecutionRecord Unit) :
    Except TransitionFault ExecutionRecord :=
  match call.run r with
  | .ok () r => .ok r
  | .error fault _ => .error fault

/-- The record after a move, if it is allowed. -/
def transition (r : ExecutionRecord) (target : ExecutionStatus) (now : Timestamp) :
    Except TransitionFault ExecutionRecord :=
  r.calling (move target now)

/-- The record after a failure with an error, if it has not ended. -/
def fail (r : ExecutionRecord) (error : String) (now : Timestamp) :
    Except TransitionFault ExecutionRecord :=
  r.calling (moveToFailed error now)

theorem transition_eq (r : ExecutionRecord) (target : ExecutionStatus) (now : Timestamp) :
    r.transition target now =
      if r.status.allows target then
        if target.isTerminal then
          .ok { r with status := target, finishedAt := some now, delayedUntil := none }
        else .ok { r with status := target }
      else .error ⟨r.status, target⟩ := by
  unfold transition calling
  cases ha : r.status.allows target with
  | false => simp [move, ha]
  | true => cases ht : target.isTerminal <;> simp [move, ha, ht]

end ExecutionRecord

end RuleEngine
