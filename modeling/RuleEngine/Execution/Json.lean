import RuleEngine.Execution.Query
import RuleEngine.Rule.Json

/-!
# Execution records as data

How execution records are written as data and read back. A remark, a value before a change, a
message and an effect are left out of the data if there are none.
-/

namespace RuleEngine

namespace Json

/-- A member that is left out if it has no value. -/
def memberIfAny {α : Type} (name : String) (f : α → Json) : Option α → List (String × Json)
  | none => []
  | some a => [(name, f a)]

end Json

namespace ExecutionStatus

/-- The status that data denotes. -/
def ofJson? (j : Json) : Option ExecutionStatus := j.choice? .direct names

end ExecutionStatus

namespace TriggerSnapshot

/-- The data of the recorded cause. -/
def toJson : TriggerSnapshot → Json
  | .event subjectType subjectId eventKind =>
    .obj [("type", .str "event"), ("subject_type", .str subjectType),
      ("subject_id", .str subjectId), ("event_kind", .str eventKind.name)]
  | .schedule tick => .obj [("type", .str "schedule"), ("tick", tick.toJson)]

/-- The recorded cause that data denotes. -/
def ofJson? (j : Json) : Option TriggerSnapshot := do
  match ← j.tagged? "type" with
  | ("event", rest) =>
    match ← rest.record? [("subject_type", false), ("subject_id", false),
        ("event_kind", false)] with
    | [subjectType, subjectId, eventKind] =>
      some (.event (← Json.required Json.text? subjectType)
        (← Json.required Json.text? subjectId)
        (← Json.required (EventKind.ofJson? .held) eventKind))
    | _ => none
  | ("schedule", rest) =>
    match ← rest.record? [("tick", false)] with
    | [tick] => some (.schedule (← Json.required Timestamp.ofJson? tick))
    | _ => none
  | _ => none

end TriggerSnapshot

namespace ConditionResult

/-- The data of the trace of a condition. -/
def toJson (r : ConditionResult) : Json :=
  .obj ([("field", .str r.field), ("operator", .str r.operator.name),
      ("expected", r.expected.toJson), ("resolved", .ofOption Value.toJson r.resolved)] ++
    Json.memberIfAny "previous" Value.toJson r.previous ++
    [("passed", .bool r.passed)] ++
    Json.memberIfAny "note" Json.str r.note)

/-- The trace of a condition that data denotes. -/
def ofJson? (j : Json) : Option ConditionResult := do
  match ← j.record? [("field", false), ("operator", false), ("expected", false),
      ("resolved", false), ("previous", true), ("passed", false), ("note", true)] with
  | [field, operator, expected, resolved, previous, passed, note] =>
    some {
      field := ← Json.required Json.text? field
      operator := ← Json.required Operator.ofJson? operator
      expected := ← Json.required (Value.ofJson? .direct) expected
      resolved := ← Json.optional (Value.ofJson? .direct) resolved
      previous := ← Json.optional (Value.ofJson? .direct) previous
      passed := ← Json.required Json.bool? passed
      note := ← Json.optional Json.text? note }
  | _ => none

end ConditionResult

namespace ActionStep

/-- The data of the trace of an action. -/
def toJson (s : ActionStep) : Json :=
  .obj ([("order", .int s.order), ("action_type", .str s.actionType),
      ("parameters", s.parameters.toJson), ("outcome", .str s.outcome.name)] ++
    Json.memberIfAny "message" Json.str s.message ++
    Json.memberIfAny "effect" Value.toJson s.effect ++
    [("started_at", s.startedAt.toJson), ("finished_at", s.finishedAt.toJson)])

/-- The trace of an action that data denotes. -/
def ofJson? (j : Json) : Option ActionStep := do
  match ← j.record? [("order", false), ("action_type", false), ("parameters", true),
      ("outcome", false), ("message", true), ("effect", true), ("started_at", false),
      ("finished_at", false)] with
  | [order, actionType, parameters, outcome, message, effect, startedAt, finishedAt] =>
    some {
      order := ← Json.required (Json.natBelow? wordBound) order
      actionType := ← Json.required Json.text? actionType
      parameters := ← Json.defaulted .empty (Fields.ofJson? .direct) parameters
      outcome := ← Json.required (Json.choice? .direct StepOutcome.names) outcome
      message := ← Json.optional Json.text? message
      effect := ← Json.optional (Value.ofJson? .direct) effect
      startedAt := ← Json.required Timestamp.ofJson? startedAt
      finishedAt := ← Json.required Timestamp.ofJson? finishedAt }
  | _ => none

end ActionStep

namespace ExecutionRecord

/-- The data of a record. -/
def toJson (r : ExecutionRecord) : Json :=
  .obj [
    ("id", r.id.toJson),
    ("tenant_id", .str r.tenant),
    ("rule_id", r.ruleId.toJson),
    ("rule_name", .str r.ruleName),
    ("trigger_kind", .str r.triggerKind.name),
    ("trigger", r.trigger.toJson),
    ("status", .str r.status.name),
    ("conditions", .arr (r.conditions.map ConditionResult.toJson)),
    ("steps", .arr (r.steps.map ActionStep.toJson)),
    ("error", .ofOption Json.str r.error),
    ("delayed_until", .ofOption Timestamp.toJson r.delayedUntil),
    ("started_at", r.startedAt.toJson),
    ("finished_at", .ofOption Timestamp.toJson r.finishedAt)]

/-- The record that data denotes. -/
def ofJson? (j : Json) : Option ExecutionRecord := do
  match ← j.record? [("id", false), ("tenant_id", false), ("rule_id", false),
      ("rule_name", false), ("trigger_kind", false), ("trigger", false), ("status", false),
      ("conditions", true), ("steps", true), ("error", true), ("delayed_until", true),
      ("started_at", false), ("finished_at", true)] with
  | [id, tenant, ruleId, ruleName, triggerKind, trigger, status, conditions, steps, error,
      delayedUntil, startedAt, finishedAt] =>
    some {
      id := ← Json.required Identifier.ofJson? id
      tenant := ← Json.required Json.text? tenant
      ruleId := ← Json.required Identifier.ofJson? ruleId
      ruleName := ← Json.required Json.text? ruleName
      triggerKind := ← Json.required TriggerKind.ofJson? triggerKind
      trigger := ← Json.required TriggerSnapshot.ofJson? trigger
      status := ← Json.required ExecutionStatus.ofJson? status
      conditions := ← Json.defaulted [] (Json.list? ConditionResult.ofJson?) conditions
      steps := ← Json.defaulted [] (Json.list? ActionStep.ofJson?) steps
      error := ← Json.optional Json.text? error
      delayedUntil := ← Json.optional Timestamp.ofJson? delayedUntil
      startedAt := ← Json.required Timestamp.ofJson? startedAt
      finishedAt := ← Json.optional Timestamp.ofJson? finishedAt }
  | _ => none

end ExecutionRecord

namespace ExecutionQuery

/-- The filter that data denotes. Whatever is left out or null is left open. -/
def ofJson? (j : Json) : Option ExecutionQuery := do
  some {
    tenant := ← Json.optional Json.text? (j.get? "tenant_id")
    ruleId := ← Json.optional Identifier.ofJson? (j.get? "rule_id")
    status := ← Json.optional ExecutionStatus.ofJson? (j.get? "status")
    subjectType := ← Json.optional Json.text? (j.get? "subject_type")
    subjectId := ← Json.optional Json.text? (j.get? "subject_id")
    since := ← Json.optional Timestamp.ofJson? (j.get? "since")
    endBefore := ← Json.optional Timestamp.ofJson? (j.get? "until")
    limit := ← Json.optional (Json.natBelow? longBound) (j.get? "limit") }

end ExecutionQuery

end RuleEngine
