import RuleEngine.Evaluation.Path
import RuleEngine.Execution.Record

/-!
# Evaluating conditions

All conditions of a rule are evaluated, whatever the first ones yield, and leave one entry of the
trace each.
-/

namespace RuleEngine

/-- The result of the conditions of a rule, and the questions that were asked for it. -/
structure Evaluation where
  passed : Bool
  trace : List ConditionResult
  calls : List LookupCall

namespace Condition

/-- The trace of a condition of which nothing is known yet. -/
def untested (c : Condition) : ConditionResult where
  field := c.field
  operator := c.operator
  expected := c.value
  resolved := none
  previous := none
  passed := false
  note := none

/-- The trace of an ordinary condition, given what its path led to. A field that is not found
passes only the test for null. -/
def judge (c : Condition) : Option Value → ConditionResult
  | some actual =>
    let verdict := c.operator.apply actual c.value
    { c.untested with
      resolved := some actual
      passed := verdict.passed
      note := verdict.note }
  | none =>
    { c.untested with
      passed := c.operator == .isNull
      note := some "field not found" }

/-- The trace of a condition on the two sides of a change; a field that a side does not have is
null there. -/
def judgeChange (c : Condition) (before after : Fields) : ConditionResult :=
  let previous := (before.get? c.field).getD .null
  let current := (after.get? c.field).getD .null
  let side := if c.operator == .changedFrom then previous else current
  { c.untested with
    resolved := some current
    previous := some previous
    passed := !previous.equal current && side.equal c.value }

/-- Evaluates a condition on a change. The change has to be an update with both sides, and the
field one of the subject's own. -/
def evaluateChange (c : Condition) (context : TriggerContext) : ConditionResult :=
  match context.change with
  | some ⟨_, _, .updated, _, before, after⟩ =>
    match before, after with
    | some before, some after =>
      if c.field.toList.contains '.' then
        { c.untested with note := some "change operators only read direct fields" }
      else c.judgeChange before after
    | _, _ => { c.untested with note := some "update carries no before/after snapshots" }
  | _ => { c.untested with note := some (c.operator.name ++ " only applies to updated events") }

/-- Evaluates a condition, and tells the questions that were asked for it. -/
def evaluate (lookup : Lookup) (context : TriggerContext) (c : Condition) :
    ConditionResult × List LookupCall :=
  if c.operator.isChange then (c.evaluateChange context, [])
  else
    let found := Resolution.resolve lookup context c.field
    (c.judge found.value, found.calls)

end Condition

namespace Rule

/-- Evaluates the conditions of a rule. -/
def evaluate (lookup : Lookup) (context : TriggerContext) (r : Rule) : Evaluation :=
  let results := r.conditions.map (Condition.evaluate lookup context)
  let trace := results.map (·.1)
  { passed := r.combination.combine (trace.map (·.passed))
    trace
    calls := results.flatMap (·.2) }

end Rule

end RuleEngine
