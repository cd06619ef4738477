import RuleEngine.Context
import RuleEngine.Dictionary
import RuleEngine.Execution.Record

/-!
# Action handlers

A handler carries out the actions of one type. Whatever a call of a handler comes to, the engine
sees an outcome: a fault, a crash and an overrun of the time allowed are failures.
-/

namespace RuleEngine

/-- What an action comes to: success or failure, a message, and what was done, if anything. -/
structure ActionOutcome where
  succeeded : Bool
  message : String
  effect : Option Value

namespace ActionOutcome

/-- A success without an effect. -/
def success (message : String) : ActionOutcome := ⟨true, message, none⟩

/-- A failure without an effect. -/
def failure (message : String) : ActionOutcome := ⟨false, message, none⟩

/-- The outcome of an action whose type has no handler. -/
def noHandler (actionType : String) : ActionOutcome :=
  failure ("handler not found: " ++ actionType)

end ActionOutcome

/-- How a call of a handler ends if it is given the time. -/
inductive HandlerReply where
  | outcome (o : ActionOutcome)
  | fault (message : String)
  | crash

/-- A line that a handler wrote to the log. -/
structure LogLine where
  level : String
  tenant : TenantId
  subject : Option String
  message : String

/-- A call of a handler: how it ends, how many milliseconds it takes, how far the clock moves on
meanwhile, and what it writes to the log. -/
structure HandlerCall where
  reply : HandlerReply
  runtime : Nat := 0
  drift : Duration := 0
  logged : Option LogLine := none

/-- A handler answers parameters and a context. -/
abbrev Handler := Fields → TriggerContext → HandlerCall

/-- The registered handlers by action type. -/
abbrev Registry := Dictionary Handler

namespace HandlerCall

/-- What a call comes to if `allowed` milliseconds are given to it. -/
def outcome (allowed : Nat) (c : HandlerCall) : ActionOutcome :=
  if allowed < c.runtime then .failure "timeout"
  else match c.reply with
    | .outcome o => o
    | .fault message => .failure message
    | .crash => .failure "handler panicked"

/-- A call that is made at an instant. It crashes if it would move the clock out of its range, and
the clock stays then. -/
def madeAt (t : Timestamp) (c : HandlerCall) : HandlerCall :=
  if (t.add? c.drift).isSome then c else { c with reply := .crash, drift := 0 }

/-- After how many milliseconds the outcome of a call is known. -/
def ending (allowed : Nat) (c : HandlerCall) : Nat :=
  min allowed c.runtime

end HandlerCall

namespace Handler

/-- The action type of the handler that writes to the log. -/
def logType : String := "log"

/-- The levels of the log. -/
def logLevels : List String := ["debug", "info", "warn", "error"]

/-- The handler that writes the parameter `message` to the log, at the level that the parameter
`level` names, and at level `info` if that is no text. The message is the effect. -/
def log : Handler := fun parameters context =>
  match parameters.get? "message" with
  | none | some .null => { reply := .outcome (.failure "missing \"message\" parameter") }
  | some message =>
    let level := ((parameters.get? "level").bind Value.asString).getD "info"
    if logLevels.contains level then
      { reply := .outcome ⟨true, "logged at " ++ level, some message⟩
        logged := some
          ⟨level, context.tenant, context.change.map (·.subjectId), message.text⟩ }
    else { reply := .outcome (.failure ("unknown log level " ++ Text.quoted level)) }

end Handler

namespace Registry

/-- The text of a registry: its action types in order. -/
def text (r : Registry) : String :=
  "ActionRegistry \x7b action_types: [" ++ ", ".intercalate (r.names.map Text.quoted) ++ "] \x7d"

end Registry

namespace Action

/-- The step of an action that came to an outcome. -/
def step (a : Action) (o : ActionOutcome) (startedAt finishedAt : Timestamp) : ActionStep where
  order := a.order
  actionType := a.actionType
  parameters := a.parameters
  outcome := if o.succeeded then .success else .failure
  message := some o.message
  effect := o.effect
  startedAt
  finishedAt

end Action

end RuleEngine
