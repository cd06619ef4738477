import RuleEngine.Firing
import RuleEngine.Run
import RuleEngine.Service.Script

/-!
# The engine

The engine in one piece: the stores, the clock, the queue of jobs, the handlers and the lookup.
Here each operation is carried through before the next one starts; a pool of workers interleaves
the same steps.
-/

namespace RuleEngine

/-- A call of a handler on behalf of an execution, for the action at a position in the order of its
rule. -/
structure Invocation where
  execution : ExecutionId
  position : Nat
  actionType : String
  parameters : Fields

/-- The state of an engine. `allowed` is the time given to a handler in milliseconds, and
`issued` counts the identifiers of executions that were handed out. The engine keeps account of
the handler calls, the lines they logged and the questions to the lookup, from the first to the
last. -/
structure Engine (σ : Type) where
  store : σ
  clock : Timestamp
  queue : JobQueue := {}
  registry : Registry := .empty
  lookup : Lookup := .detached
  allowed : Nat
  issued : Nat := 0
  invocations : List Invocation := []
  journal : List LogLine := []
  questions : List LookupCall := []

namespace Engine

variable {σ : Type}

/-- The identifier of the next execution. -/
def nextId (e : Engine σ) : ExecutionId := .numbered e.issued

/-- The engine after a step of a firing; an identifier counts as handed out by any step. -/
def stepFiring [RuleStore σ] [ExecutionLog σ] (e : Engine σ) (f : Firing) :
    FiringProgress × Engine σ :=
  let (progress, store, queue) := f.step e.nextId e.clock e.store e.queue
  (progress, { e with store, queue, issued := e.issued + 1 })

/-- Carries a firing through; `fuel` bounds its steps. -/
def carryFiring [RuleStore σ] [ExecutionLog σ] (e : Engine σ) (f : Firing) :
    Nat → FiringProgress × Engine σ
  | 0 => (.going f, e)
  | fuel + 1 => match e.stepFiring f with
    | (.going f, e) => e.carryFiring f fuel
    | (.ended result, e) => (.ended result, e)

/-- A firing that is given its steps ends. -/
theorem carryFiring_ne_going [RuleStore σ] [ExecutionLog σ] {e : Engine σ} {f f' : Firing}
    {fuel : Nat} (h : f.stepsLeft ≤ fuel) : (e.carryFiring f fuel).1 ≠ .going f' := by
  induction fuel generalizing e f with
  | zero =>
    have : 0 < f.stepsLeft := by
      simp only [Firing.stepsLeft]
      split <;> omega
    omega
  | succ fuel ih =>
    rw [carryFiring]
    split
    · next g e' hs =>
      refine ih ?_
      have : (e.stepFiring f).1 = .going g := by rw [hs]
      have := Firing.stepsLeft_of_step this
      omega
    · simp

/-- Carries a firing through, if it could be started; the number of submitted jobs is the
answer. -/
def fire [RuleStore σ] [ExecutionLog σ] (e : Engine σ) (start : Except EngineError Firing) :
    Except EngineError Nat × Engine σ :=
  match start with
  | .error error => (.error error, e)
  | .ok f => match h : e.carryFiring f f.stepsLeft with
    | (.ended result, e) => (result, e)
    | (.going _, _) =>
      absurd (congrArg Prod.fst h) (carryFiring_ne_going (Nat.le_refl f.stepsLeft))

/-- Dispatches a change. -/
def dispatch [RuleStore σ] [ExecutionLog σ] (e : Engine σ) (n : ChangeNotification) :
    Except EngineError Nat × Engine σ :=
  e.fire (Firing.ofChange e.store n e.clock)

/-- Lets the scheduler look at the clock. -/
def tick [RuleStore σ] [ExecutionLog σ] (e : Engine σ) : Except EngineError Nat × Engine σ :=
  e.fire (Firing.ofInstant e.store e.clock)

/-- The engine after a length of time; a clock that cannot go on stays. -/
def advance (e : Engine σ) (d : Duration) : Engine σ :=
  { e with clock := (e.clock.add? d).getD e.clock }

/-- Notes the questions to the lookup that an evaluation came to. -/
def noteQuestions (e : Engine σ) (calls : List LookupCall) : Engine σ :=
  { e with questions := e.questions ++ calls }

/-- Starts the call of the handler of an action, if it has one: the call and the engine with the
account of it. -/
def callHandler (e : Engine σ) (r : Run) (a : Action) : Option HandlerCall × Engine σ :=
  match e.registry.get? a.actionType with
  | none => (none, e)
  | some handler =>
    let call := (handler a.parameters r.context).madeAt e.clock
    (some call, { e.advance call.drift with
      invocations := e.invocations ++
        [⟨r.record.id, r.record.steps.length, a.actionType, a.parameters⟩]
      journal := e.journal ++ call.logged.toList })

/-- What the call of a handler comes to. -/
def outcomeOf (e : Engine σ) (a : Action) : Option HandlerCall → ActionOutcome
  | none => .noHandler a.actionType
  | some call => call.outcome e.allowed

/-- Carries an action out: the trace of it, and the engine after its handler was called. -/
def runStep (e : Engine σ) (r : Run) (a : Action) : ActionStep × Engine σ :=
  let startedAt := e.clock
  let (call, e) := e.callHandler r a
  (a.step (e.outcomeOf a call) startedAt e.clock, e)

/-- Makes the next step of a run. The call of a handler and its answer are one step here. -/
def stepRun [ExecutionLog σ] (e : Engine σ) (r : Run) : RunProgress × Engine σ :=
  match r.stage with
  | .evaluating =>
    let evaluation := r.rule.evaluate e.lookup r.context
    (.going (r.judged evaluation), e.noteQuestions evaluation.calls)
  | .calling action rest =>
    let startedAt := e.clock
    let (call, e) := e.callHandler r action
    (.going (r.answered action startedAt rest (e.outcomeOf action call) e.clock), e)
  | .awaiting action startedAt rest =>
    (.going (r.answered action startedAt rest (.failure "handler cancelled") e.clock), e)
  | _ =>
    let (progress, store) := r.write e.clock e.store
    (progress, { e with store })

/-- Every step that a run goes on after is one of those it had left. -/
theorem stepsLeft_of_stepRun [ExecutionLog σ] {e : Engine σ} {r r' : Run}
    (h : (e.stepRun r).1 = .going r') : r'.stepsLeft < r.stepsLeft := by
  cases hs : r.stage
  case evaluating =>
    simp only [stepRun, hs, RunProgress.going.injEq] at h
    subst h
    simp only [Run.stepsLeft, Run.judged, hs]
    split <;> simp [RunStage.stepsLeft]
  case calling action rest =>
    simp only [stepRun, hs, RunProgress.going.injEq] at h
    subst h
    simp [Run.stepsLeft, Run.answered, RunStage.stepsLeft, hs]
  case awaiting action startedAt rest =>
    simp only [stepRun, hs, RunProgress.going.injEq] at h
    subst h
    simp [Run.stepsLeft, Run.answered, RunStage.stepsLeft, hs]
  all_goals
    simp only [stepRun, hs] at h
    simpa [hs] using Run.stepsLeft_of_write h

/-- Carries a run through; `fuel` bounds its steps. -/
def carryRun [ExecutionLog σ] (e : Engine σ) (r : Run) : Nat → RunProgress × Engine σ
  | 0 => (.going r, e)
  | fuel + 1 => match e.stepRun r with
    | (.going r, e) => e.carryRun r fuel
    | (.ended ending, e) => (.ended ending, e)

/-- A run that is given its steps ends. -/
theorem carryRun_ne_going [ExecutionLog σ] {e : Engine σ} {r r' : Run} {fuel : Nat}
    (h : r.stepsLeft ≤ fuel) : (e.carryRun r fuel).1 ≠ .going r' := by
  induction fuel generalizing e r with
  | zero =>
    have : 0 < r.stepsLeft := by
      simp only [Run.stepsLeft, RunStage.stepsLeft]
      split <;> omega
    omega
  | succ fuel ih =>
    rw [carryRun]
    split
    · next q e' hs =>
      refine ih ?_
      have : (e.stepRun r).1 = .going q := by rw [hs]
      have := stepsLeft_of_stepRun this
      omega
    · simp

/-- Runs a job as far as it can go. -/
def run [ExecutionLog σ] (e : Engine σ) (j : Job) : RunEnding × Engine σ :=
  match Run.ofJob j with
  | .error error => (.refused error, e)
  | .ok r => match h : e.carryRun r r.stepsLeft with
    | (.ended ending, e) => (ending, e)
    | (.going _, _) =>
      absurd (congrArg Prod.fst h) (carryRun_ne_going (Nat.le_refl r.stepsLeft))

/-- Runs an operation on rules. -/
def manage [RuleStore σ] {ε α : Type} (e : Engine σ) (operation : ExceptT ε RuleScript α) :
    Except ε α × Engine σ :=
  let (result, store) := (ExceptT.run operation).run e.store
  (result, { e with store })

/-- Abandons every record that has not ended, and counts them. -/
def abandon [ExecutionLog σ] (e : Engine σ) : Except EngineError Nat × Engine σ :=
  match ExecutionLog.abandonOpen e.store e.clock with
  | .ok (n, store) => (.ok n, { e with store })
  | .error error => (.error error, e)

end Engine

end RuleEngine
