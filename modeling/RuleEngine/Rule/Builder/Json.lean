import RuleEngine.Rule.Builder
import RuleEngine.Rule.Json

/-!
# Building steps as data

How a step of putting a rule together is read from a name and its argument.
-/

namespace RuleEngine.RuleDraft.Step

/-- The step with a name and an argument. -/
def ofJson? : String × Json → Option Step
  | ("id", j) => (Identifier.ofJson? j).map .id
  | ("tenant", j) => j.text?.map .tenant
  | ("name", j) => j.text?.map .name
  | ("trigger", j) => (Trigger.ofJson? j).map .trigger
  | ("on_event", .arr [.str subjectType, kind]) =>
    (EventKind.ofJson? .direct kind).map (.onEvent subjectType)
  | ("schedule", j) => j.text?.map .schedule
  | ("combination", j) => (Combination.ofJson? j).map .combination
  | ("active", j) => j.bool?.map .active
  | ("execution_delay_secs", j) => (j.natBelow? longBound).map .delaySeconds
  | ("condition", j) => (Condition.ofJson? j).map .condition
  | ("action", j) => (Action.ofJson? j).map .action
  | ("last_scheduled_tick", j) => (Timestamp.ofJson? j).map .lastTick
  | ("created_at", j) => (Timestamp.ofJson? j).map .createdAt
  | _ => none

end RuleEngine.RuleDraft.Step
