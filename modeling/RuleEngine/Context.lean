import RuleEngine.Rule.Trigger

/-!
# Trigger contexts

What an evaluation knows of its cause.
-/

namespace RuleEngine

/-- The cause of an evaluation: a change, or a minute of the scheduler. -/
inductive TriggerSource where
  | change (n : ChangeNotification)
  | schedule (tick : Timestamp)

/-- The cause of an evaluation, with the tenant it belongs to and the instant it counts from. -/
structure TriggerContext where
  tenant : TenantId
  firedAt : Timestamp
  source : TriggerSource

/-- The part of a cause that an execution record keeps. -/
inductive TriggerSnapshot where
  | event (subjectType subjectId : String) (eventKind : EventKind)
  | schedule (tick : Timestamp)
deriving DecidableEq

namespace TriggerContext

/-- The context of a change at an instant. -/
def ofChange (n : ChangeNotification) (firedAt : Timestamp) : TriggerContext :=
  ⟨n.tenant, firedAt, .change n⟩

/-- The context of a minute of the scheduler, for a tenant. -/
def ofTick (tenant : TenantId) (tick : Timestamp) : TriggerContext :=
  ⟨tenant, tick, .schedule tick⟩

/-- The kind of trigger that caused the evaluation. -/
def kind (c : TriggerContext) : TriggerKind :=
  match c.source with
  | .change _ => .event
  | .schedule _ => .schedule

/-- The change that caused the evaluation, if one did. -/
def change (c : TriggerContext) : Option ChangeNotification :=
  match c.source with
  | .change n => some n
  | .schedule _ => none

/-- The part of the cause that an execution record keeps. -/
def snapshot (c : TriggerContext) : TriggerSnapshot :=
  match c.source with
  | .change n => .event n.subjectType n.subjectId n.eventKind
  | .schedule tick => .schedule tick

end TriggerContext

end RuleEngine
