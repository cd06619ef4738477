import RuleEngine.Execution.Record

/-!
# Queries on the execution log

A filter on execution records. What a query leaves open matches everything.
-/

namespace RuleEngine

/-- A filter on execution records: `since` includes its instant and `endBefore` does not; `limit`
cuts the answer. -/
structure ExecutionQuery where
  tenant : Option TenantId := none
  ruleId : Option RuleId := none
  status : Option ExecutionStatus := none
  subjectType : Option String := none
  subjectId : Option String := none
  since : Option Timestamp := none
  endBefore : Option Timestamp := none
  limit : Option Nat := none

namespace ExecutionQuery

/-- Whether an optional demand is open or met. -/
def demand {α : Type} (d : Option α) (test : α → Bool) : Bool :=
  match d with
  | none => true
  | some a => test a

/-- Whether a record passes the filter, the limit aside. A record of the scheduler has no
subject. -/
def accepts (q : ExecutionQuery) (r : ExecutionRecord) : Bool :=
  let subject := match r.trigger with
    | .event subjectType subjectId _ => some (subjectType, subjectId)
    | .schedule _ => none
  demand q.tenant (· == r.tenant) &&
    demand q.ruleId (· == r.ruleId) &&
    demand q.status (· == r.status) &&
    demand q.subjectType (fun t => subject.any (·.1 == t)) &&
    demand q.subjectId (fun i => subject.any (·.2 == i)) &&
    demand q.since (fun t => t.notAfter r.startedAt) &&
    demand q.endBefore (fun t => r.startedAt.before t)

/-- The records of a list up to the limit. -/
def cut {α : Type} (q : ExecutionQuery) (found : List α) : List α :=
  match q.limit with
  | none => found
  | some n => found.take n

end ExecutionQuery

end RuleEngine
