import RuleEngine.Text.Quoted

/-!
# Execution statuses

The states of an execution and the moves between them. An execution is pending, then its
conditions are evaluated, and if they are met its actions run. It ends when the conditions are not
met, when the actions are completed, when it fails, or when it is abandoned.
-/

namespace RuleEngine

/-- The state of an execution. -/
inductive ExecutionStatus where
  | pending
  | evaluating
  | conditionsNotMet
  | conditionsMet
  | runningActions
  | completed
  | failed
  | abandoned
deriving DecidableEq, Inhabited

/-- A move that the states of an execution do not allow. -/
structure TransitionFault where
  source : ExecutionStatus
  target : ExecutionStatus
deriving DecidableEq

namespace ExecutionStatus

/-- Every status, from the first to the last. -/
def all : List ExecutionStatus :=
  [.pending, .evaluating, .conditionsNotMet, .conditionsMet, .runningActions, .completed, .failed,
    .abandoned]

/-- The name of a status. -/
def name : ExecutionStatus → String
  | .pending => "pending"
  | .evaluating => "evaluating"
  | .conditionsNotMet => "conditions_not_met"
  | .conditionsMet => "conditions_met"
  | .runningActions => "running_actions"
  | .completed => "completed"
  | .failed => "failed"
  | .abandoned => "abandoned"

/-- The names of the statuses. -/
def names : List (String × ExecutionStatus) :=
  all.map fun s => (s.name, s)

/-- The message about a text that names no status. -/
def unknownMessage (text : String) : String :=
  "unknown execution status " ++ Text.quoted text

/-- Whether a status is final. -/
def isTerminal : ExecutionStatus → Bool
  | .conditionsNotMet | .completed | .failed | .abandoned => true
  | _ => false

/-- Whether an execution may move from one status to another. Every execution that has not ended
may fail or be abandoned. -/
def allows (source target : ExecutionStatus) : Bool :=
  !source.isTerminal && match target with
    | .failed | .abandoned => true
    | .evaluating => source == .pending
    | .conditionsNotMet | .conditionsMet => source == .evaluating
    | .runningActions => source == .conditionsMet
    | .completed => source == .runningActions
    | .pending => false

end ExecutionStatus

namespace TransitionFault

/-- The message of a refused move. -/
def message (f : TransitionFault) : String :=
  "cannot move execution from " ++ f.source.name ++ " to " ++ f.target.name

end TransitionFault

end RuleEngine
