import RuleEngine.Handler
import RuleEngine.Rule.Json

/-!
# Stand-ins for handlers

Handlers that do as they were told beforehand, for an engine whose actions are not to have any
effect outside.
-/

namespace RuleEngine

namespace Handler

/-- The message that a template stands for: the text of the parameter that it names behind a dollar
sign, or the template itself. -/
def fillTemplate (template : String) (parameters : Fields) : String :=
  match template.toList with
  | '$' :: name => match parameters.get? (String.ofList name) with
    | some v => v.text
    | none => "null"
  | _ => template

/-- The handler that succeeds or fails with a message and an effect, and takes some time on the
clock. -/
def answering (succeeded : Bool) (template : String) (effect : Option Value) (drift : Duration) :
    Handler := fun parameters _ =>
  { reply := .outcome ⟨succeeded, fillTemplate template parameters, effect⟩, drift }

/-- The handler that has a fault. -/
def faulty (message : String) : Handler := fun _ _ => { reply := .fault message }

/-- The handler that crashes. -/
def crashing : Handler := fun _ _ => { reply := .crash }

/-- The handler that succeeds after milliseconds. -/
def sleeping (ms : Nat) : Handler := fun _ _ =>
  { reply := .outcome (.success "slept"), runtime := ms }

end Handler

namespace LogLine

/-- The data of a line. -/
def toJson (l : LogLine) : Json :=
  .obj [("level", .str l.level), ("tenant", .str l.tenant),
    ("subject", .ofOption Json.str l.subject), ("message", .str l.message)]

end LogLine

end RuleEngine
