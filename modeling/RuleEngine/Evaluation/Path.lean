import RuleEngine.Context
import RuleEngine.Evaluation.Lookup
import RuleEngine.Rule.Condition
import RuleEngine.Time.Text

/-!
# Field paths

How the path of a condition becomes a value. A path with a dollar sign in front names a field of
the instant at which the rule fired. Any other path starts at the subject of a change: one step
reads the subject's current fields first, and what they do not hold is asked for, step by step,
from the owner of the records.
-/

namespace RuleEngine

/-- What a path led to, and the questions that were asked on the way. -/
structure Resolution where
  value : Option Value
  calls : List LookupCall

namespace Resolution

/-- A resolution without questions. -/
def direct (value : Option Value) : Resolution := ⟨value, []⟩

/-- The field of an instant with a name. -/
def systemField (name : String) (at' : Timestamp) : Option Value :=
  match name with
  | "now" => some (.string at'.textWithOffset)
  | "timestamp" => some (.ofInt at'.second)
  | "minute" => some (.ofInt at'.minute)
  | "hour" => some (.ofInt at'.hour)
  | "day_of_month" => some (.ofInt at'.date.day)
  | "month" => some (.ofInt at'.date.month)
  | "day_of_week" => some (.ofInt at'.weekday)
  | _ => none

/-- Follows the steps of a path from an entity. Only a related record leads on, and at the end it
stands for its identifier; a failed question counts as one without an answer. -/
def follow (lookup : Lookup) (tenant : TenantId) (entity : EntityRef) :
    List String → Resolution
  | [] => direct none
  | step :: rest =>
    let call : LookupCall := ⟨tenant, entity, step⟩
    match lookup tenant entity step, rest with
    | .value v, [] => ⟨some v, [call]⟩
    | .related target, [] => ⟨some (.string target.id), [call]⟩
    | .related target, _ :: _ =>
      let further := follow lookup tenant target rest
      ⟨further.value, call :: further.calls⟩
    | _, _ => ⟨none, [call]⟩

/-- The value that a change itself has for a path of one step. -/
def currentField (n : ChangeNotification) : List String → Option Value
  | [field] => n.current.bind (·.get? field)
  | _ => none

/-- Resolves the path of a condition. -/
def resolve (lookup : Lookup) (context : TriggerContext) (path : String) : Resolution :=
  match path.toList with
  | '$' :: name => direct (systemField (String.ofList name) context.firedAt)
  | _ =>
    match context.change with
    | none => direct none
    | some n =>
      let steps := pathSteps path
      match currentField n steps with
      | some v => direct (some v)
      | none => follow lookup context.tenant ⟨n.subjectType, n.subjectId⟩ steps

end Resolution

end RuleEngine
