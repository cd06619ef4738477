import RuleEngine.Execution.Status
import RuleEngine.Rule.Condition

/-!
# Errors

Why an operation of the engine is refused.
-/

namespace RuleEngine

/-- The two kinds of stored things that messages name. -/
inductive Entity where
  | rule
  | execution
deriving DecidableEq

namespace Entity

/-- The name of a kind of stored things. -/
def name : Entity → String
  | .rule => "Rule"
  | .execution => "Execution"

end Entity

/-- Why an operation is refused. -/
inductive EngineError where
  | definition (fault : DefinitionFault)
  | notFound (entity : Entity) (id : Identifier)
  | conflict (entity : Entity) (key : String)
  | transition (fault : TransitionFault)
  | storage
  | queueClosed
deriving DecidableEq

namespace EngineError

/-- The message of an error: the kind of refusal, and what caused it. -/
def message : EngineError → String
  | .definition fault => "validation error: " ++ fault.message
  | .notFound entity id => "not found: " ++ entity.name ++ " " ++ id.text ++ " not found"
  | .conflict entity key =>
    "conflict: " ++ entity.name ++ " " ++ Text.quoted key ++ " already exists"
  | .transition fault => "invalid execution transition: " ++ fault.message
  | .storage => "storage error"
  | .queueClosed => "job queue is closed"

/-- The name of the kind of an error. -/
def kind : EngineError → String
  | .definition _ => "Validation"
  | .notFound .. => "NotFound"
  | .conflict .. => "Conflict"
  | .transition _ => "Transition"
  | .storage => "Storage"
  | .queueClosed => "QueueClosed"

end EngineError

end RuleEngine
