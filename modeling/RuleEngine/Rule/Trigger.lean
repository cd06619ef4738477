import RuleEngine.Change
import RuleEngine.Cron

/-!
# Triggers

What makes a rule fire: a kind of change of a type of record, or a schedule.
-/

namespace RuleEngine

/-- The two kinds of trigger. -/
inductive TriggerKind where
  | event
  | schedule
deriving DecidableEq, Inhabited

namespace TriggerKind

/-- The names of the kinds of trigger. -/
def names : List (String × TriggerKind) :=
  [("event", .event), ("schedule", .schedule)]

/-- The name of a kind of trigger. -/
def name : TriggerKind → String
  | .event => "event"
  | .schedule => "schedule"

/-- The message about a text that names no kind of trigger. -/
def unknownMessage (text : String) : String :=
  "unknown trigger kind " ++ Text.quoted text

end TriggerKind

/-- A change of one kind to a record of one type, or the minutes of a cron expression. -/
inductive Trigger where
  | event (subjectType : String) (eventKind : EventKind)
  | schedule (cron : CronExpression)
deriving DecidableEq

namespace Trigger

/-- The kind of a trigger. -/
def kind : Trigger → TriggerKind
  | .event .. => .event
  | .schedule _ => .schedule

/-- The kind of change that an event trigger waits for. -/
def eventKind : Trigger → Option EventKind
  | .event _ k => some k
  | .schedule _ => none

/-- Whether a change fires the trigger: its type of subject and its kind are the trigger's. -/
def matchesChange (t : Trigger) (n : ChangeNotification) : Bool :=
  match t with
  | .event subjectType eventKind => subjectType == n.subjectType && eventKind == n.eventKind
  | .schedule _ => false

/-- Whether a minute of the scheduler fires the trigger. -/
def matchesTick (t : Trigger) (tick : Timestamp) : Bool :=
  match t with
  | .schedule cron => cron.selects tick
  | .event .. => false

/-- The text of a trigger. -/
def text : Trigger → String
  | .event subjectType eventKind => "event(" ++ subjectType ++ ", " ++ eventKind.name ++ ")"
  | .schedule cron => "schedule(" ++ cron.source ++ ")"

end Trigger

end RuleEngine
