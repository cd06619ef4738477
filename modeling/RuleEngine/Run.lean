import RuleEngine.Evaluation
import RuleEngine.Handler
import RuleEngine.Job
import RuleEngine.Store.Interface

/-!
# Runs

A run takes a job as far as it can go. It is a sequence of steps, each of which is one write to
the execution log, the evaluation of the conditions, the start of one handler call, or its end.
Every change of the record is written before the run goes on, and a refused write ends it.
-/

namespace RuleEngine

/-- What a run does next. -/
inductive RunStage where
  /-- The record is written as being evaluated. -/
  | opening
  /-- The conditions are evaluated. -/
  | evaluating
  /-- The record is written with conditions that are not met. -/
  | declining
  /-- The record is written with conditions that are met. -/
  | accepting
  /-- The record is written as running its actions. -/
  | starting
  /-- The handler of an action is called; other actions come after it. -/
  | calling (action : Action) (rest : List Action)
  /-- The handler of an action has been called and has not answered. -/
  | awaiting (action : Action) (startedAt : Timestamp) (rest : List Action)
  /-- The step of an action is written, which failed with a message or did not. -/
  | noting (failure : Option String) (rest : List Action)
  /-- The record is written as ended, by a failure or not. -/
  | closing (failure : Option String)

/-- A job being run. -/
structure Run where
  rule : Rule
  context : TriggerContext
  record : ExecutionRecord
  stage : RunStage

/-- How a run ends: with a finished record, with a job that comes back for its actions at an
instant, with an error, or with a time that the calendar cannot express. -/
inductive RunEnding where
  | finished (record : ExecutionRecord)
  | deferred (job : Job) (runAt : Timestamp)
  | refused (error : EngineError)
  | outOfTime

/-- A run that goes on or has ended. -/
inductive RunProgress where
  | going (r : Run)
  | ended (e : RunEnding)

namespace RunStage

/-- The stage before the first of several actions, or before the end. -/
def before : List Action → RunStage
  | [] => .closing none
  | a :: rest => .calling a rest

/-- How many steps a run makes at most from a stage, if there are `n` actions. -/
def stepsLeft (n : Nat) : RunStage → Nat
  | .opening => 3 * n + 6
  | .evaluating => 3 * n + 5
  | .declining => 1
  | .accepting => 3 * n + 4
  | .starting => 3 * n + 3
  | .calling _ rest => 3 * rest.length + 5
  | .awaiting _ _ rest => 3 * rest.length + 4
  | .noting _ rest => 3 * rest.length + 3
  | .closing _ => 1

end RunStage

namespace Run

/-- The run of a job: a pending record is evaluated, and one whose conditions are met goes on to
its actions. A record in any other status cannot be run. -/
def ofJob (j : Job) : Except EngineError Run :=
  match j.record.status with
  | .pending => .ok ⟨j.rule, j.context, j.record, .opening⟩
  | .conditionsMet => .ok ⟨j.rule, j.context, j.record, .starting⟩
  | status => .error (.transition ⟨status, .evaluating⟩)

/-- How many steps a run makes at most. -/
def stepsLeft (r : Run) : Nat := r.stage.stepsLeft r.rule.actions.length

/-- The job of a run. -/
def job (r : Run) : Job := ⟨r.rule, r.context, r.record⟩

/-- The run in another stage, with a record. -/
def goOn (r : Run) (stage : RunStage) (record : ExecutionRecord) : RunProgress :=
  .going { r with record, stage }

section Write

variable {σ : Type} [ExecutionLog σ]

/-- Writes a version of the record, if it could be made, and goes on with it. -/
def save (s : σ) (version : Except TransitionFault ExecutionRecord)
    (next : ExecutionRecord → RunProgress) : RunProgress × σ :=
  match version with
  | .error fault => (.ended (.refused (.transition fault)), s)
  | .ok record => match ExecutionLog.updateRecord s record with
    | .error e => (.ended (.refused e), s)
    | .ok s => (next record, s)

/-- Writes the record with conditions that are met. If the rule has a delay, the run ends here and
comes back when the delay is over. -/
def accept (r : Run) (now : Timestamp) (s : σ) : RunProgress × σ :=
  match r.rule.executionDelay with
  | .none => save s (r.record.transition .conditionsMet now) (r.goOn .starting)
  | .uncountable => (.ended .outOfTime, s)
  | .lasting d => match now.add? d with
    | none => (.ended .outOfTime, s)
    | some runAt =>
      let parked := { r.record with delayedUntil := some runAt }
      save s (parked.transition .conditionsMet now) fun record =>
        .ended (.deferred ⟨r.rule, r.context, record⟩ runAt)

/-- Makes the write that is due at an instant; a run that waits for something else is left as it
is. -/
def write (r : Run) (now : Timestamp) (s : σ) : RunProgress × σ :=
  match r.stage with
  | .opening => save s (r.record.transition .evaluating now) (r.goOn .evaluating)
  | .declining =>
    save s (r.record.transition .conditionsNotMet now) fun record => .ended (.finished record)
  | .accepting => r.accept now s
  | .starting =>
    let resumed := { r.record with delayedUntil := none }
    save s (resumed.transition .runningActions now) (r.goOn (.before r.rule.orderedActions))
  | .noting failure rest =>
    save s (.ok r.record) (r.goOn (if failure.isSome then .closing failure else .before rest))
  | .closing failure =>
    let target := if failure.isSome then .failed else .completed
    let record := { r.record with error := failure <|> r.record.error }
    save s (record.transition target now) fun record => .ended (.finished record)
  | .evaluating | .calling .. | .awaiting .. => (.going r, s)

/-- A write for which the run was to go on in a stage leaves it the steps of that stage. -/
theorem stepsLeft_of_save {s : σ} {version : Except TransitionFault ExecutionRecord}
    {r r' : Run} {stage : RunStage} (h : (save s version (r.goOn stage)).1 = .going r') :
    r'.stepsLeft = stage.stepsLeft r.rule.actions.length := by
  unfold save at h
  split at h
  · simp at h
  · split at h
    · simp at h
    · simp only [goOn, RunProgress.going.injEq] at h
      rw [← h, stepsLeft]

/-- A write after which the run was to end does not let it go on. -/
theorem save_ne_going {s : σ} {version : Except TransitionFault ExecutionRecord}
    {next : ExecutionRecord → RunEnding} {r' : Run} :
    (save s version fun record => .ended (next record)).1 ≠ .going r' := by
  unfold save
  split
  · simp
  · split <;> simp

theorem stepsLeft_before (n : Nat) (actions : List Action) :
    (RunStage.before actions).stepsLeft n ≤ 3 * actions.length + 2 := by
  cases actions with
  | nil => simp [RunStage.before, RunStage.stepsLeft]
  | cons a rest => simp [RunStage.before, RunStage.stepsLeft]; omega

/-- Every write that a run goes on after takes one of its steps. -/
theorem stepsLeft_of_write {r r' : Run} {now : Timestamp} {s : σ}
    (h : (r.write now s).1 = .going r') :
    (∃ a rest, r.stage = .calling a rest) ∨ (∃ a t rest, r.stage = .awaiting a t rest) ∨
      r.stage = .evaluating ∨ r'.stepsLeft < r.stepsLeft := by
  obtain ⟨rule, context, record, stage⟩ := r
  cases stage with
  | opening =>
    have h : r'.stepsLeft = 3 * rule.actions.length + 5 := stepsLeft_of_save h
    refine .inr (.inr (.inr ?_))
    change r'.stepsLeft < 3 * rule.actions.length + 6
    omega
  | evaluating => simp
  | declining => exact absurd h save_ne_going
  | accepting =>
    simp only [write, accept] at h
    split at h
    · have h : r'.stepsLeft = 3 * rule.actions.length + 3 := stepsLeft_of_save h
      refine .inr (.inr (.inr ?_))
      change r'.stepsLeft < 3 * rule.actions.length + 4
      omega
    · simp at h
    · split at h
      · simp at h
      · exact absurd h save_ne_going
  | starting =>
    have h : r'.stepsLeft = (RunStage.before rule.orderedActions).stepsLeft rule.actions.length :=
      stepsLeft_of_save h
    have hl : rule.orderedActions.length = rule.actions.length := List.length_mergeSort _
    have hb := stepsLeft_before rule.actions.length rule.orderedActions
    refine .inr (.inr (.inr ?_))
    change r'.stepsLeft < 3 * rule.actions.length + 3
    omega
  | calling a rest => exact .inl ⟨a, rest, rfl⟩
  | awaiting a t rest => exact .inr (.inl ⟨a, t, rest, rfl⟩)
  | noting failure rest =>
    have h := stepsLeft_of_save h
    have hb := stepsLeft_before rule.actions.length rest
    refine .inr (.inr (.inr ?_))
    change r'.stepsLeft < 3 * rest.length + 3
    split at h
    · have h : r'.stepsLeft = 1 := h
      omega
    · have h : r'.stepsLeft = (RunStage.before rest).stepsLeft rule.actions.length := h
      omega
  | closing failure => exact absurd h save_ne_going

end Write

/-- The run after its conditions were evaluated. -/
def judged (r : Run) (e : Evaluation) : Run :=
  { r with
    record := { r.record with conditions := e.trace }
    stage := if e.passed then .accepting else .declining }

/-- The run after the handler of an action was called at an instant. -/
def called (r : Run) (action : Action) (rest : List Action) (now : Timestamp) : Run :=
  { r with stage := .awaiting action now rest }

/-- The run after an action came to an outcome at an instant. -/
def answered (r : Run) (action : Action) (startedAt : Timestamp) (rest : List Action)
    (outcome : ActionOutcome) (now : Timestamp) : Run :=
  { r with
    record := { r.record with
      steps := r.record.steps ++ [action.step outcome startedAt now] }
    stage := .noting (if outcome.succeeded then none else some outcome.message) rest }

end Run

end RuleEngine
