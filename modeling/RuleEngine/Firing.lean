import RuleEngine.Job
import RuleEngine.Store.Interface

/-!
# Firings

A change or a minute of the scheduler fires rules. For each of them a pending record is appended
to the log, and then a job is submitted to the queue. A firing is a sequence of steps, each of
which is one call of a store or of the queue.
-/

namespace RuleEngine

/-- What fires rules. All rules that a change fires share one context. -/
inductive FiringCause where
  | change (context : TriggerContext)
  | tick (tick : Timestamp)

/-- What a firing does next: it takes the next rule, appends the record of a rule whose minute it
has claimed, or submits a job whose record is in the log. -/
inductive FiringStage where
  | choosing
  | claimed (rule : Rule)
  | holding (job : Job)

/-- Rules being fired: the cause, the rules that still wait, and how many jobs were submitted. -/
structure Firing where
  cause : FiringCause
  waiting : List Rule
  stage : FiringStage
  submitted : Nat

/-- A firing that goes on, or has ended with the number of submitted jobs or an error. -/
inductive FiringProgress where
  | going (f : Firing)
  | ended (result : Except EngineError Nat)

namespace Firing

variable {σ : Type}

/-- The firing of a change: the active rules of its tenant whose trigger it matches. -/
def ofChange [RuleStore σ] (s : σ) (n : ChangeNotification) (now : Timestamp) :
    Except EngineError Firing := do
  let rules ← RuleStore.activeRules s (some n.tenant) .event
  return {
    cause := .change (.ofChange n now)
    waiting := rules.filter fun r => r.trigger.matchesChange n
    stage := .choosing
    submitted := 0 }

/-- Whether a minute of the scheduler is due for a rule as it was listed. -/
def isDue (tick : Timestamp) (r : Rule) : Bool :=
  r.trigger.matchesTick tick && !r.lastTick.any tick.notAfter

/-- The firing of the minute of an instant: the active rules for which it is due. -/
def ofInstant [RuleStore σ] (s : σ) (now : Timestamp) : Except EngineError Firing := do
  let tick := now.floorMinute
  let rules ← RuleStore.activeRules s none .schedule
  return {
    cause := .tick tick
    waiting := rules.filter (isDue tick)
    stage := .choosing
    submitted := 0 }

/-- How many steps a firing makes at most. -/
def stepsLeft (f : Firing) : Nat :=
  3 * f.waiting.length + match f.stage with
    | .choosing => 1
    | .holding _ => 2
    | .claimed _ => 3

/-- Appends the pending record of a rule, and holds its job. -/
def append [ExecutionLog σ] (f : Firing) (waiting : List Rule) (rule : Rule)
    (context : TriggerContext) (fresh : ExecutionId) (now : Timestamp) (s : σ) :
    FiringProgress × σ :=
  let record := ExecutionRecord.pending fresh rule context now
  match ExecutionLog.appendRecord s record with
  | .error e => (.ended (.error e), s)
  | .ok s => (.going { f with waiting, stage := .holding ⟨rule, context, record⟩ }, s)

/-- Makes the next step at an instant; a record that is appended gets the identifier `fresh`. -/
def step [RuleStore σ] [ExecutionLog σ] (f : Firing) (fresh : ExecutionId) (now : Timestamp)
    (s : σ) (q : JobQueue) : FiringProgress × σ × JobQueue :=
  match f.stage with
  | .holding job => match q.submit job with
    | .error e => (.ended (.error e), s, q)
    | .ok q => (.going { f with stage := .choosing, submitted := f.submitted + 1 }, s, q)
  | .claimed rule => match f.cause with
    | .tick tick =>
      let (f, s) := f.append f.waiting rule (.ofTick rule.tenant tick) fresh now s
      (f, s, q)
    | .change context =>
      let (f, s) := f.append f.waiting rule context fresh context.firedAt s
      (f, s, q)
  | .choosing => match f.waiting with
    | [] => (.ended (.ok f.submitted), s, q)
    | rule :: rest => match f.cause with
      | .change context =>
        let (f, s) := f.append rest rule context fresh context.firedAt s
        (f, s, q)
      | .tick tick => match RuleStore.claimTick s rule.id tick with
        | .error e => (.ended (.error e), s, q)
        | .ok (false, s) => (.going { f with waiting := rest }, s, q)
        | .ok (true, s) => (.going { f with waiting := rest, stage := .claimed rule }, s, q)

/-- Every step that a firing goes on after is one of those it had left. -/
theorem stepsLeft_of_step [RuleStore σ] [ExecutionLog σ] {f f' : Firing} {fresh : ExecutionId}
    {now : Timestamp} {s : σ} {q : JobQueue} (h : (f.step fresh now s q).1 = .going f') :
    f'.stepsLeft < f.stepsLeft := by
  obtain ⟨cause, waiting, stage, submitted⟩ := f
  cases stage <;> cases cause <;> cases waiting <;> simp only [step, append] at h <;>
    (repeat' split at h) <;> simp_all [stepsLeft] <;> subst h <;> simp <;> omega

end Firing

end RuleEngine
