import RuleEngine.Context
import RuleEngine.Rule
import RuleEngine.Time.Text
import RuleEngine.Value.Json

/-!
# Rules and changes as data

How rules, change notifications and contexts are written as data and read back.
-/

namespace RuleEngine

/-- The bound of numbers of 32 bits. -/
def wordBound : Nat := 0x100000000

/-- The bound of numbers of 64 bits. -/
def longBound : Nat := 0x10000000000000000

namespace Json

/-- The data of an optional value, null if there is none. -/
def ofOption {α : Type} (f : α → Json) : Option α → Json
  | none => .null
  | some a => f a

end Json

namespace Timestamp

/-- The data of an instant. -/
def toJson (t : Timestamp) : Json := .str t.text

/-- The instant that data denotes. -/
def ofJson? (j : Json) : Option Timestamp := j.text?.bind read?

end Timestamp

namespace Identifier

/-- The data of an identifier. -/
def toJson (i : Identifier) : Json := .str i.text

/-- The identifier that data denotes. -/
def ofJson? (j : Json) : Option Identifier := j.text?.bind read?

end Identifier

namespace EventKind

/-- The kind of change that data denotes. -/
def ofJson? (access : Json.Access) (j : Json) : Option EventKind := j.choice? access names

end EventKind

namespace TriggerKind

/-- The kind of trigger that data denotes. -/
def ofJson? (j : Json) : Option TriggerKind := j.choice? .direct names

end TriggerKind

namespace Combination

/-- The combination that data denotes. -/
def ofJson? (j : Json) : Option Combination := j.choice? .direct names

end Combination

namespace Operator

/-- The operator that data denotes. -/
def ofJson? (j : Json) : Option Operator :=
  j.choice? .direct (all.map fun op => (op.name, op))

end Operator

namespace CronExpression

/-- The data of a cron expression is its text. -/
def toJson (e : CronExpression) : Json := .str e.source

/-- The cron expression that data denotes. -/
def ofJson? (j : Json) : Option CronExpression :=
  j.text?.bind fun s => (parse s).toOption

end CronExpression

namespace ChangeNotification

/-- The members of the data of a change. -/
def members (n : ChangeNotification) : List (String × Json) :=
  [("tenant_id", .str n.tenant),
    ("subject_type", .str n.subjectType),
    ("event_kind", .str n.eventKind.name),
    ("subject_id", .str n.subjectId),
    ("before", .ofOption Fields.toJson n.before),
    ("after", .ofOption Fields.toJson n.after)]

/-- The data of a change. -/
def toJson (n : ChangeNotification) : Json := .obj n.members

/-- The change that data denotes. -/
def ofJson? (access : Json.Access) (j : Json) : Option ChangeNotification := do
  match ← j.record? [("tenant_id", false), ("subject_type", false), ("event_kind", false),
      ("subject_id", false), ("before", true), ("after", true)] with
  | [tenant, subjectType, eventKind, subjectId, before, after] =>
    some {
      tenant := ← Json.required Json.text? tenant
      subjectType := ← Json.required Json.text? subjectType
      eventKind := ← Json.required (EventKind.ofJson? access) eventKind
      subjectId := ← Json.required Json.text? subjectId
      before := ← Json.optional (Fields.ofJson? access) before
      after := ← Json.optional (Fields.ofJson? access) after }
  | _ => none

end ChangeNotification

namespace Trigger

/-- The data of a trigger. -/
def toJson : Trigger → Json
  | .event subjectType eventKind =>
    .obj [("type", .str "event"), ("subject_type", .str subjectType),
      ("event_kind", .str eventKind.name)]
  | .schedule cron => .obj [("type", .str "schedule"), ("cron", cron.toJson)]

/-- The trigger that data denotes. -/
def ofJson? (j : Json) : Option Trigger := do
  match ← j.tagged? "type" with
  | ("event", rest) =>
    match ← rest.record? [("subject_type", false), ("event_kind", false)] with
    | [subjectType, eventKind] =>
      some (.event (← Json.required Json.text? subjectType)
        (← Json.required (EventKind.ofJson? .held) eventKind))
    | _ => none
  | ("schedule", rest) =>
    match ← rest.record? [("cron", false)] with
    | [cron] => some (.schedule (← Json.required CronExpression.ofJson? cron))
    | _ => none
  | _ => none

end Trigger

namespace Condition

/-- The data of a condition. -/
def toJson (c : Condition) : Json :=
  .obj [("field", .str c.field), ("operator", .str c.operator.name), ("value", c.value.toJson)]

/-- The condition that data denotes. -/
def ofJson? (j : Json) : Option Condition := do
  match ← j.record? [("field", false), ("operator", false), ("value", true)] with
  | [field, operator, value] =>
    some {
      field := ← Json.required Json.text? field
      operator := ← Json.required Operator.ofJson? operator
      value := ← Json.defaulted .null (Value.ofJson? .direct) value }
  | _ => none

end Condition

namespace Action

/-- The data of an action. -/
def toJson (a : Action) : Json :=
  .obj [("order", .int a.order), ("action_type", .str a.actionType),
    ("parameters", a.parameters.toJson)]

/-- The action that data denotes. -/
def ofJson? (j : Json) : Option Action := do
  match ← j.record? [("order", false), ("action_type", false), ("parameters", true)] with
  | [order, actionType, parameters] =>
    some {
      order := ← Json.required (Json.natBelow? wordBound) order
      actionType := ← Json.required Json.text? actionType
      parameters := ← Json.defaulted .empty (Fields.ofJson? .direct) parameters }
  | _ => none

end Action

namespace Rule

/-- The data of a rule. -/
def toJson (r : Rule) : Json :=
  .obj [
    ("id", r.id.toJson),
    ("tenant_id", .str r.tenant),
    ("name", .str r.name),
    ("trigger", r.trigger.toJson),
    ("combination", .str r.combination.name),
    ("active", .bool r.active),
    ("execution_delay_secs", .ofOption (fun s => .int (s : Nat)) r.delaySeconds),
    ("conditions", .arr (r.conditions.map Condition.toJson)),
    ("actions", .arr (r.actions.map Action.toJson)),
    ("last_scheduled_tick", .ofOption Timestamp.toJson r.lastTick),
    ("created_at", r.createdAt.toJson),
    ("updated_at", r.updatedAt.toJson)]

/-- The rule that data denotes. -/
def ofJson? (j : Json) : Option Rule := do
  match ← j.record? [("id", false), ("tenant_id", false), ("name", false), ("trigger", false),
      ("combination", true), ("active", false), ("execution_delay_secs", true),
      ("conditions", true), ("actions", true), ("last_scheduled_tick", true),
      ("created_at", false), ("updated_at", false)] with
  | [id, tenant, name, trigger, combination, active, delay, conditions, actions, lastTick,
      createdAt, updatedAt] =>
    some {
      id := ← Json.required Identifier.ofJson? id
      tenant := ← Json.required Json.text? tenant
      name := ← Json.required Json.text? name
      trigger := ← Json.required Trigger.ofJson? trigger
      combination := ← Json.defaulted .all Combination.ofJson? combination
      active := ← Json.required Json.bool? active
      delaySeconds := ← Json.optional (Json.natBelow? longBound) delay
      conditions := ← Json.defaulted [] (Json.list? Condition.ofJson?) conditions
      actions := ← Json.defaulted [] (Json.list? Action.ofJson?) actions
      lastTick := ← Json.optional Timestamp.ofJson? lastTick
      createdAt := ← Json.required Timestamp.ofJson? createdAt
      updatedAt := ← Json.required Timestamp.ofJson? updatedAt }
  | _ => none

end Rule

namespace TriggerSource

/-- The data of a cause. -/
def toJson : TriggerSource → Json
  | .change n => .obj (("type", .str "change") :: n.members)
  | .schedule tick => .obj [("type", .str "schedule"), ("tick", tick.toJson)]

/-- The cause that data denotes. -/
def ofJson? (j : Json) : Option TriggerSource := do
  match ← j.tagged? "type" with
  | ("change", rest) => some (.change (← ChangeNotification.ofJson? .held rest))
  | ("schedule", rest) =>
    match ← rest.record? [("tick", false)] with
    | [tick] => some (.schedule (← Json.required Timestamp.ofJson? tick))
    | _ => none
  | _ => none

end TriggerSource

namespace TriggerContext

/-- The data of a context. -/
def toJson (c : TriggerContext) : Json :=
  .obj [("tenant_id", .str c.tenant), ("fired_at", c.firedAt.toJson),
    ("source", c.source.toJson)]

/-- The context that data denotes. -/
def ofJson? (j : Json) : Option TriggerContext := do
  match ← j.record? [("tenant_id", false), ("fired_at", false), ("source", false)] with
  | [tenant, firedAt, source] =>
    some {
      tenant := ← Json.required Json.text? tenant
      firedAt := ← Json.required Timestamp.ofJson? firedAt
      source := ← Json.required TriggerSource.ofJson? source }
  | _ => none

end TriggerContext

end RuleEngine
