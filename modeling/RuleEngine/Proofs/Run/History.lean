import RuleEngine.Engine
import RuleEngine.Proofs.Run.Consistency

/-!
# Histories of runs

A run writes ahead: whatever it is about to do is in the log before it does it. What can be seen of
it, the versions that it writes and the handlers that it calls, is a canonical history of its job,
or as much of one as it came to before a version was refused, or before the delay of its rule turned
out to lead beyond the calendar. The steps of a run may be made in engines that have nothing else
in common, so that this holds whatever happens to the log, the clock, the handlers and the lookup
between them.

## Main definitions

* `RunEvent`, `Engine.observe`: what can be seen of a step of a run.
* `Job.Canonical`: the complete histories of a job.
* `Run.Course`: what can be seen of a run, the steps of which are made in any engines.
* `RunProgress.Orderly`: whether it is a canonical history, or as much of one as there was.

## Main results

* `Run.orderly_of_course`: what can be seen of a run is a canonical history or the start of one.
* `Engine.runStep_stepRun`: what a step of a run does in an engine.
-/

namespace RuleEngine

/-! ### Events of a run -/

/-- What can be seen of a run: a version that is accepted or refused, and the call of a handler. -/
inductive RunEvent where
  | wrote (version : ExecutionRecord)
  | refused (version : ExecutionRecord) (error : EngineError)
  | called (call : Invocation)

/-- The call of the handler of an action on behalf of a record, at the position after its steps. -/
def ExecutionRecord.callOf (v : ExecutionRecord) (a : Action) : Invocation :=
  ⟨v.id, v.steps.length, a.actionType, a.parameters⟩

/-- The version that a run asks to be written at an instant, if it does and the version can be
made. -/
def Run.version? (r : Run) (now : Timestamp) : Option ExecutionRecord :=
  match r.stage with
  | .opening => (r.record.transition .evaluating now).toOption
  | .declining => (r.record.transition .conditionsNotMet now).toOption
  | .accepting => match r.rule.executionDelay with
    | .none => (r.record.transition .conditionsMet now).toOption
    | .uncountable => none
    | .lasting d => (now.add? d).bind fun runAt =>
      ({ r.record with delayedUntil := some runAt }.transition .conditionsMet now).toOption
  | .starting => ({ r.record with delayedUntil := none }.transition .runningActions now).toOption
  | .noting _ _ => some r.record
  | .closing failure =>
    ({ r.record with error := failure <|> r.record.error }.transition
      (Run.finalStatus failure) now).toOption
  | .evaluating | .calling .. | .awaiting .. => none

/-- What can be seen of a step of a run: the write of the version that it asks for, or the calls
that the engine takes account of. -/
def Engine.observe {σ : Type} [ExecutionLog σ] (e : Engine σ) (r : Run) : List RunEvent :=
  match r.version? e.clock with
  | some v => match ExecutionLog.updateRecord e.store v with
    | .ok _ => [.wrote v]
    | .error error => [.refused v error]
  | none => ((e.stepRun r).2.invocations.drop e.invocations.length).map .called

/-! ### Steps of runs in an engine -/

/-- What a step of a run does in an engine: what can be seen of it, how the run goes on, and the
engine after it. -/
inductive Engine.RunStep {σ : Type} [ExecutionLog σ] (e : Engine σ) (r : Run) :
    List RunEvent → RunProgress → Engine σ → Prop
  | wrote {v : ExecutionRecord} {p : RunProgress} {s : σ} (hw : r.Writes e.clock v p)
      (ho : ExecutionLog.updateRecord e.store v = .ok s) :
      RunStep e r [.wrote v] p { e with store := s }
  | refused {v : ExecutionRecord} {p : RunProgress} {error : EngineError}
      (hw : r.Writes e.clock v p) (ho : ExecutionLog.updateRecord e.store v = .error error) :
      RunStep e r [.refused v error] (.ended (.refused error)) e
  | unsteady {events : List RunEvent} (fault : TransitionFault) (h : ¬r.IsSteady) :
      RunStep e r events (.ended (.refused (.transition fault))) e
  | outOfTime (hs : r.stage = .accepting) (hd : ¬Run.HasRunAt r.rule e.clock) :
      RunStep e r [] (.ended .outOfTime) e
  | judged (hs : r.stage = .evaluating) :
      RunStep e r [] (.going (r.judged (r.rule.evaluate e.lookup r.context)))
        (e.noteQuestions (r.rule.evaluate e.lookup r.context).calls)
  | carried (a : Action) (t now : Timestamp) (rest : List Action) (o : ActionOutcome)
      {calls : List Invocation} {e' : Engine σ}
      (hs : r.stage = .calling a rest ∨ ∃ u, r.stage = .awaiting a u rest)
      (hc : calls = [] ∨ calls = [r.record.callOf a]) (hstore : e'.store = e.store)
      (hi : e'.invocations = e.invocations ++ calls) :
      RunStep e r (calls.map .called) (.going (r.answered a t rest o now)) e'

/-- A run asks for the version that it is to write. -/
theorem Run.Writes.version?_eq {r : Run} {now : Timestamp} {v : ExecutionRecord} {p : RunProgress}
    (h : r.Writes now v p) : r.version? now = some v := by
  have hmove {v : ExecutionRecord} {target : ExecutionStatus}
      (ha : v.status.allows target = true) :
      (v.transition target now).toOption = some (v.moved target now) := by
    rw [ExecutionRecord.transition_of_allows ha]
    rfl
  cases h with
  | opening hs ha | declining hs ha | starting hs ha | closing failure hs ha =>
    simp only [version?, hs]
    exact hmove ha
  | accepting hs hd ha =>
    simp only [version?, hs, hd]
    exact hmove ha
  | parking d runAt hs hd ht ha =>
    simp only [version?, hs, hd, ht, Option.bind_some]
    exact hmove ha
  | noting failure rest hs => simp only [version?, hs]

/-- A run that has no instant to come back at asks for no version. -/
theorem Run.version?_of_not_hasRunAt {r : Run} {now : Timestamp} (hs : r.stage = .accepting)
    (hd : ¬HasRunAt r.rule now) : r.version? now = none := by
  simp only [version?, hs]
  cases he : r.rule.executionDelay with
  | none => exact absurd (.inl he) hd
  | uncountable => rfl
  | lasting d =>
    cases ht : now.add? d with
    | none => simp only [ht, Option.bind_none]
    | some runAt => exact absurd (.inr ⟨d, runAt, he, ht⟩) hd

namespace Engine

variable {σ : Type} [ExecutionLog σ]

omit [ExecutionLog σ] in
theorem callHandler_cases (e : Engine σ) (r : Run) (a : Action) :
    ∃ calls, (calls = [] ∨ calls = [r.record.callOf a]) ∧
      (e.callHandler r a).2.store = e.store ∧
      (e.callHandler r a).2.invocations = e.invocations ++ calls := by
  unfold callHandler
  split
  · exact ⟨[], .inl rfl, rfl, (List.append_nil _).symm⟩
  · exact ⟨_, .inr rfl, rfl, rfl⟩

/-- Every step of a run is one of these, and is seen as it is. -/
theorem runStep_stepRun (e : Engine σ) (r : Run) :
    e.RunStep r (e.observe r) (e.stepRun r).1 (e.stepRun r).2 := by
  cases hs : r.stage with
  | evaluating =>
    have hn : r.version? e.clock = none := by simp only [Run.version?, hs]
    have hstep : e.stepRun r = (.going (r.judged (r.rule.evaluate e.lookup r.context)),
        e.noteQuestions (r.rule.evaluate e.lookup r.context).calls) := by
      simp only [stepRun, hs]
    simp only [observe, hn, hstep, noteQuestions, List.drop_length, List.map_nil]
    exact .judged hs
  | calling a rest =>
    have hn : r.version? e.clock = none := by simp only [Run.version?, hs]
    obtain ⟨calls, hc, hstore, hi⟩ := e.callHandler_cases r a
    simp only [observe, hn, stepRun, hs, hi, List.drop_left]
    exact .carried a e.clock _ rest _ (.inl hs) hc hstore hi
  | awaiting a t rest =>
    have hn : r.version? e.clock = none := by simp only [Run.version?, hs]
    simp only [observe, hn, stepRun, hs, List.drop_length]
    exact .carried a t e.clock rest _ (.inr ⟨t, hs⟩) (.inl rfl) rfl (List.append_nil _).symm
  | opening | declining | accepting | starting | noting failure rest | closing failure =>
    have hstep : e.stepRun r =
        ((r.write e.clock e.store).1, { e with store := (r.write e.clock e.store).2 }) := by
      simp only [stepRun, hs]
    have hw := r.writeStep e.clock e.store
    rw [hstep]
    generalize (r.write e.clock e.store).1 = p at hw
    generalize (r.write e.clock e.store).2 = s at hw
    cases hw with
    | accepted hw ho =>
      simp only [observe, hw.version?_eq, ho]
      exact .wrote hw ho
    | refused hw ho =>
      simp only [observe, hw.version?_eq, ho]
      exact .refused hw ho
    | illegal fault h => exact .unsteady fault h
    | outOfTime ha hd =>
      simp only [observe, Run.version?_of_not_hasRunAt ha hd, hstep, List.drop_length, List.map_nil]
      exact .outOfTime ha hd
    | idle hi => simp [hs] at hi

end Engine

/-! ### Canonical histories -/

/-- The complete histories of the actions that are left once a version is in the log. Each action
leaves a version with one more step; the first one that fails is the last. -/
inductive ActionHistory : ExecutionRecord → List Action → List RunEvent → Prop
  | completed (v : ExecutionRecord) (now : Timestamp) :
      ActionHistory v [] [.wrote (v.moved .completed now)]
  | succeeded {v : ExecutionRecord} {a : Action} {rest : List Action} {s : ActionStep}
      {calls events : List RunEvent} (hc : calls = [] ∨ calls = [.called (v.callOf a)])
      (hs : s.action = a) (hok : s.succeeded = true)
      (h : ActionHistory { v with steps := v.steps ++ [s] } rest events) :
      ActionHistory v (a :: rest) (calls ++ .wrote { v with steps := v.steps ++ [s] } :: events)
  | failed {v : ExecutionRecord} {a : Action} {rest : List Action} {s : ActionStep}
      {calls : List RunEvent} (hc : calls = [] ∨ calls = [.called (v.callOf a)])
      (hs : s.action = a) (hok : s.succeeded = false) (now : Timestamp) :
      ActionHistory v (a :: rest) (calls ++
        [.wrote { v with steps := v.steps ++ [s] },
          .wrote ({ v with steps := v.steps ++ [s], error := s.message }.moved .failed now)])

/-- The complete histories once the conditions of a rule are met: a version that runs the actions,
and the history of all of them in their order. -/
def RunningHistory (rule : Rule) (v : ExecutionRecord) (events : List RunEvent) : Prop :=
  ∃ now later,
    events = .wrote ({ v with delayedUntil := none }.moved .runningActions now) :: later ∧
    ActionHistory ({ v with delayedUntil := none }.moved .runningActions now)
      rule.orderedActions later

/-- The complete histories once a version is being evaluated. The next version has the trace of
the conditions; it ends the history if they are not met or if the rule has a delay. -/
inductive JudgedHistory (rule : Rule) (context : TriggerContext) (v : ExecutionRecord) :
    List RunEvent → Prop
  | declined (lookup : Lookup) (hp : (rule.evaluate lookup context).passed = false)
      (now : Timestamp) :
      JudgedHistory rule context v
        [.wrote ({ v with conditions := (rule.evaluate lookup context).trace }.moved
          .conditionsNotMet now)]
  | parked (lookup : Lookup) (hp : (rule.evaluate lookup context).passed = true)
      (hd : rule.executionDelay ≠ .none) (runAt now : Timestamp) :
      JudgedHistory rule context v
        [.wrote ({ v with
          conditions := (rule.evaluate lookup context).trace
          delayedUntil := some runAt }.moved .conditionsMet now)]
  | acted (lookup : Lookup) (hp : (rule.evaluate lookup context).passed = true)
      (hd : rule.executionDelay = .none) (now : Timestamp) {later : List RunEvent}
      (h : RunningHistory rule
        ({ v with conditions := (rule.evaluate lookup context).trace }.moved .conditionsMet now)
        later) :
      JudgedHistory rule context v
        (.wrote ({ v with conditions := (rule.evaluate lookup context).trace }.moved
          .conditionsMet now) :: later)

/-- The complete histories of a job: of one that is pending, from its evaluation on, and of one
that comes back after its delay, from its actions on. -/
inductive Job.Canonical (j : Job) : List RunEvent → Prop
  | fired (hs : j.record.status = .pending) (now : Timestamp) {later : List RunEvent}
      (h : JudgedHistory j.rule j.context (j.record.moved .evaluating now) later) :
      Canonical j (.wrote (j.record.moved .evaluating now) :: later)
  | resumed (hs : j.record.status = .conditionsMet) {events : List RunEvent}
      (h : RunningHistory j.rule j.record events) : Canonical j events

namespace Run

/-- What is left of a canonical history when a run is in a stage. -/
def Tail (r : Run) (events : List RunEvent) : Prop :=
  match r.stage with
  | .opening => ∃ now later, events = .wrote (r.record.moved .evaluating now) :: later ∧
    JudgedHistory r.rule r.context (r.record.moved .evaluating now) later
  | .evaluating => JudgedHistory r.rule r.context r.record events
  | .declining => ∃ now, events = [.wrote (r.record.moved .conditionsNotMet now)]
  | .accepting =>
    (r.rule.executionDelay ≠ .none ∧ ∃ runAt now, events =
      [.wrote ({ r.record with delayedUntil := some runAt }.moved .conditionsMet now)]) ∨
    (r.rule.executionDelay = .none ∧ ∃ now later,
      events = .wrote (r.record.moved .conditionsMet now) :: later ∧
      RunningHistory r.rule (r.record.moved .conditionsMet now) later)
  | .starting => RunningHistory r.rule r.record events
  | .calling a rest | .awaiting a _ rest => ActionHistory r.record (a :: rest) events
  | .noting none rest => ∃ later, events = .wrote r.record :: later ∧
    ActionHistory r.record rest later
  | .noting (some message) _ => ∃ now, events = [.wrote r.record,
    .wrote ({ r.record with error := some message }.moved .failed now)]
  | .closing none => ∃ now, events = [.wrote (r.record.moved .completed now)]
  | .closing (some message) => ∃ now, events =
    [.wrote ({ r.record with error := some message }.moved .failed now)]

/-- The canonical histories of a job are what is left of them at the start of its run. -/
theorem canonical_iff_tail {j : Job} {r : Run} (h : Run.ofJob j = .ok r) {events : List RunEvent} :
    j.Canonical events ↔ r.Tail events := by
  rcases ofJob_eq_ok_iff.mp h with ⟨hs, rfl⟩ | ⟨hs, rfl⟩
  · constructor
    · intro hc
      cases hc with
      | fired _ now hj => exact ⟨now, _, rfl, hj⟩
      | resumed hs' => cases hs.symm.trans hs'
    · rintro ⟨now, later, rfl, hj⟩
      exact .fired hs now hj
  · constructor
    · intro hc
      cases hc with
      | fired hs' => cases hs.symm.trans hs'
      | resumed _ hr => exact hr
    · exact fun hr => .resumed hs hr

/-! ### What is left of a history -/

theorem exists_actionHistory (v : ExecutionRecord) (actions : List Action) :
    ∃ events, ActionHistory v actions events := by
  cases actions with
  | nil => exact ⟨_, .completed v .epoch⟩
  | cons a rest =>
    exact ⟨_, .failed (.inl rfl) (a.action_step (.noHandler a.actionType) .epoch .epoch) rfl .epoch⟩

theorem exists_runningHistory (rule : Rule) (v : ExecutionRecord) :
    ∃ events, RunningHistory rule v events := by
  obtain ⟨later, h⟩ := exists_actionHistory
    ({ v with delayedUntil := none }.moved .runningActions .epoch) rule.orderedActions
  exact ⟨_, .epoch, later, rfl, h⟩

/-- Whatever a run has come to, something is left of a canonical history. -/
theorem exists_tail (r : Run) : ∃ events, r.Tail events := by
  have hjudged (v : ExecutionRecord) : ∃ events, JudgedHistory r.rule r.context v events := by
    cases hp : (r.rule.evaluate .detached r.context).passed with
    | false => exact ⟨_, .declined .detached hp .epoch⟩
    | true =>
      by_cases hd : r.rule.executionDelay = .none
      · obtain ⟨later, h⟩ := exists_runningHistory r.rule
          ({ v with conditions := (r.rule.evaluate .detached r.context).trace }.moved
            .conditionsMet .epoch)
        exact ⟨_, .acted .detached hp hd .epoch h⟩
      · exact ⟨_, .parked .detached hp hd .epoch .epoch⟩
  unfold Tail
  split
  case h_1 =>
    obtain ⟨later, h⟩ := hjudged (r.record.moved .evaluating .epoch)
    exact ⟨_, .epoch, later, rfl, h⟩
  case h_2 => exact hjudged r.record
  case h_3 => exact ⟨_, .epoch, rfl⟩
  case h_4 =>
    by_cases hd : r.rule.executionDelay = .none
    · obtain ⟨later, h⟩ := exists_runningHistory r.rule (r.record.moved .conditionsMet .epoch)
      exact ⟨_, .inr ⟨hd, .epoch, later, rfl, h⟩⟩
    · exact ⟨_, .inl ⟨hd, .epoch, .epoch, rfl⟩⟩
  case h_5 => exact exists_runningHistory r.rule r.record
  case h_6 | h_7 => exact exists_actionHistory _ _
  case h_8 _ rest _ =>
    obtain ⟨later, h⟩ := exists_actionHistory r.record rest
    exact ⟨_, later, rfl, h⟩
  case h_9 | h_10 | h_11 => exact ⟨_, .epoch, rfl⟩

end Run

/-- What is left of a canonical history when a run goes on or has ended. -/
def RunProgress.Tail (events : List RunEvent) : RunProgress → Prop
  | .going r => r.Tail events
  | .ended _ => events = []

theorem RunProgress.exists_tail (p : RunProgress) : ∃ events, p.Tail events := by
  cases p with
  | going r => exact r.exists_tail
  | ended ending => exact ⟨[], rfl⟩

namespace Run

/-- An accepted version comes before what is left after it. -/
theorem Writes.tail {r : Run} {now : Timestamp} {v : ExecutionRecord} {p : RunProgress}
    (h : r.Writes now v p) {events : List RunEvent} (ht : p.Tail events) :
    r.Tail (.wrote v :: events) := by
  cases h with
  | opening hs ha =>
    simp only [Tail, hs]
    exact ⟨now, events, rfl, ht⟩
  | declining hs ha =>
    subst ht
    simp only [Tail, hs]
    exact ⟨now, rfl⟩
  | accepting hs hd ha =>
    simp only [Tail, hs]
    exact .inr ⟨hd, now, events, rfl, ht⟩
  | parking d runAt hs hd _ ha =>
    subst ht
    simp only [Tail, hs]
    exact .inl ⟨by simp [hd], runAt, now, rfl⟩
  | starting hs ha =>
    simp only [Tail, hs]
    refine ⟨now, events, rfl, ?_⟩
    cases ho : r.rule.orderedActions with
    | nil =>
      rw [ho] at ht
      obtain ⟨end', rfl⟩ := ht
      exact .completed _ end'
    | cons a rest =>
      rw [ho] at ht
      exact ht
  | noting failure rest hs =>
    cases failure with
    | none =>
      simp only [Tail, hs]
      refine ⟨events, rfl, ?_⟩
      cases rest with
      | nil =>
        obtain ⟨end', rfl⟩ := ht
        exact .completed _ end'
      | cons a rest => exact ht
    | some message =>
      simp only [Tail, hs]
      obtain ⟨end', rfl⟩ := ht
      exact ⟨end', rfl⟩
  | closing failure hs ha =>
    subst ht
    cases failure with
    | none =>
      simp only [Tail, hs]
      exact ⟨now, rfl⟩
    | some message =>
      simp only [Tail, hs]
      exact ⟨now, rfl⟩

/-- What is seen of a step comes before what is left after it. -/
theorem tail_of_runStep {σ : Type} [ExecutionLog σ] {e e' : Engine σ} {r r' : Run}
    {events later : List RunEvent} (h : e.RunStep r events (.going r') e') (ht : r'.Tail later) :
    r.Tail (events ++ later) := by
  generalize hp : RunProgress.going r' = p at h
  cases h with
  | wrote hw ho =>
    subst hp
    exact hw.tail ht
  | refused | unsteady | outOfTime => cases hp
  | judged hs =>
    cases hp
    have hj : JudgedHistory r.rule r.context r.record later := by
      cases hpass : (r.rule.evaluate e.lookup r.context).passed with
      | false =>
        simp only [judged, hpass, Bool.false_eq_true, if_false, Tail] at ht
        obtain ⟨now, rfl⟩ := ht
        exact .declined e.lookup hpass now
      | true =>
        simp only [judged, hpass, if_true, Tail] at ht
        rcases ht with ⟨hd, runAt, now, rfl⟩ | ⟨hd, now, later, rfl, hr⟩
        · exact .parked e.lookup hpass hd runAt now
        · exact .acted e.lookup hpass hd now hr
    simpa only [Tail, hs, List.nil_append] using hj
  | carried a t now rest o hs hc hstore hi =>
    cases hp
    rename_i calls
    have hcalls : calls.map RunEvent.called = [] ∨
        calls.map RunEvent.called = [.called (r.record.callOf a)] :=
      hc.imp (fun hc => by rw [hc]; rfl) fun hc => by rw [hc]; rfl
    have hact : ActionHistory r.record (a :: rest) (calls.map .called ++ later) := by
      by_cases hok : o.succeeded = true
      · simp only [answered, hok, if_true, Tail] at ht
        obtain ⟨later, rfl, hh⟩ := ht
        exact .succeeded hcalls rfl (by simpa using hok) hh
      · simp only [answered, hok, Tail] at ht
        obtain ⟨now', rfl⟩ := ht
        exact .failed hcalls (a.action_step o t now) (by simpa using hok) now'
    rcases hs with hs | ⟨u, hs⟩ <;> simpa only [Tail, hs] using hact

/-! ### Courses -/

/-- What can be seen of a run, each step of which is made in some engine, and what it comes to. -/
inductive Course (σ : Type) [ExecutionLog σ] : Run → List RunEvent → RunProgress → Prop
  | here (r : Run) : Course σ r [] (.going r)
  | on {r r' : Run} {events : List RunEvent} {p : RunProgress} (e : Engine σ)
      (h : (e.stepRun r).1 = .going r') (later : Course σ r' events p) :
      Course σ r (e.observe r ++ events) p
  | last {r : Run} {ending : RunEnding} (e : Engine σ) (h : (e.stepRun r).1 = .ended ending) :
      Course σ r (e.observe r) (.ended ending)

/-- Whether a run that met its conditions was stopped by a delay that leads beyond the calendar,
after its first version if there was one. -/
def Stopped (r : Run) (events : List RunEvent) : Prop :=
  (∃ now, ¬HasRunAt r.rule now) ∧
    match r.stage with
    | .opening => (∃ now, events = [.wrote (r.record.moved .evaluating now)]) ∧
      ∃ lookup, (r.rule.evaluate lookup r.context).passed = true
    | .evaluating => events = [] ∧ ∃ lookup, (r.rule.evaluate lookup r.context).passed = true
    | .accepting => events = []
    | .declining | .starting | .calling .. | .awaiting .. | .noting .. | .closing _ => False

end Run

/-- What can have been seen of a run that has come to something: a complete history, the start of
one, or as much of it as there was before a version was refused or the run was stopped. -/
def RunProgress.Orderly (complete stopped : List RunEvent → Prop) (events : List RunEvent) :
    RunProgress → Prop
  | .going _ => ∃ later, complete (events ++ later)
  | .ended (.finished v) => complete events ∧ ∃ before, events = before ++ [.wrote v]
  | .ended (.deferred job _) => complete events ∧ ∃ before, events = before ++ [.wrote job.record]
  | .ended (.refused error) => ∃ before v later, events = before ++ [.refused v error] ∧
    complete (before ++ .wrote v :: later)
  | .ended .outOfTime => stopped events

namespace Run

/-- A step that goes on leaves the run steady, with its rule and its cause. -/
theorem steady_of_runStep {σ : Type} [ExecutionLog σ] {e e' : Engine σ} {r r' : Run}
    {events : List RunEvent} (h : e.RunStep r events (.going r') e') (hr : r.IsSteady) :
    r'.IsSteady ∧ r'.rule = r.rule ∧ r'.context = r.context := by
  generalize hp : RunProgress.going r' = p at h
  cases h with
  | wrote hw ho =>
    subst hp
    exact ⟨hr.of_writes hw, hw.going_eq.1, hw.going_eq.2.1⟩
  | refused | unsteady | outOfTime => cases hp
  | judged hs =>
    cases hp
    exact ⟨hr.judged hs _, rfl, rfl⟩
  | carried a t now rest o hs hc hstore hi =>
    cases hp
    have hrun : r.record.status = .runningActions := by
      rcases hs with hs | ⟨u, hs⟩ <;> exact hr.trans (by rw [hs]; rfl)
    exact ⟨.answered hrun a t rest o now, rfl, rfl⟩

/-- A run that is stopped after a step was so before it. -/
private theorem Stopped.of_runStep {σ : Type} [ExecutionLog σ] {e e' : Engine σ} {r r' : Run}
    {events later : List RunEvent} (h : e.RunStep r events (.going r') e')
    (hl : r'.Stopped later) : r.Stopped (events ++ later) := by
  generalize hp : RunProgress.going r' = p at h
  cases h with
  | wrote hw ho =>
    subst hp
    obtain ⟨hd, hl⟩ := hl
    cases hw with
    | opening hs ha =>
      obtain ⟨rfl, hpass⟩ := hl
      refine ⟨hd, ?_⟩
      simp only [hs]
      exact ⟨⟨e.clock, rfl⟩, hpass⟩
    | accepting hs => exact hl.elim
    | starting hs ha =>
      dsimp only at hl
      cases ho : r.rule.orderedActions <;> simp [ho, RunStage.before] at hl
    | noting failure rest hs =>
      cases failure with
      | some message => exact hl.elim
      | none => cases rest <;> exact hl.elim
  | refused | unsteady | outOfTime => cases hp
  | judged hs =>
    cases hp
    obtain ⟨hd, hl⟩ := hl
    refine ⟨hd, ?_⟩
    cases hpass : (r.rule.evaluate e.lookup r.context).passed with
    | false => simp [judged, hpass] at hl
    | true =>
      simp only [judged, hpass, if_true] at hl
      simp only [hs]
      exact ⟨hl, e.lookup, hpass⟩
  | carried a t now rest o hs hc hstore hi =>
    cases hp
    exact hl.2.elim

/-- What can be seen of a steady run is orderly. -/
theorem orderly_of_course {σ : Type} [ExecutionLog σ] {r : Run} {events : List RunEvent}
    {p : RunProgress} (h : Course σ r events p) (hr : r.IsSteady) :
    p.Orderly r.Tail r.Stopped events := by
  induction h with
  | here r =>
    obtain ⟨later, ht⟩ := r.exists_tail
    exact ⟨later, ht⟩
  | @on r r' events p e h later ih =>
    have hstep := e.runStep_stepRun r
    rw [h] at hstep
    have hl := ih (steady_of_runStep hstep hr).1
    cases p with
    | going q =>
      obtain ⟨more, ht⟩ := hl
      exact ⟨more, by simpa using tail_of_runStep hstep ht⟩
    | ended ending =>
      cases ending with
      | finished v | deferred job runAt =>
        obtain ⟨ht, before, rfl⟩ := hl
        exact ⟨tail_of_runStep hstep ht, e.observe r ++ before, by simp⟩
      | refused error =>
        obtain ⟨before, v, more, rfl, ht⟩ := hl
        exact ⟨e.observe r ++ before, v, more, by simp, by simpa using tail_of_runStep hstep ht⟩
      | outOfTime => exact Stopped.of_runStep hstep hl
  | @last r ending e h =>
    have hstep := e.runStep_stepRun r
    rw [h] at hstep
    generalize e.observe r = events at hstep
    generalize (e.stepRun r).2 = e' at hstep
    cases hstep with
    | wrote hw ho =>
      have ht := hw.tail rfl
      cases hw with
      | declining | parking | closing => exact ⟨ht, [], rfl⟩
    | @refused v p error hw ho =>
      obtain ⟨more, hmore⟩ := p.exists_tail
      exact ⟨[], v, more, rfl, hw.tail hmore⟩
    | unsteady fault hn => exact absurd hr hn
    | outOfTime hs hd =>
      refine ⟨⟨_, hd⟩, ?_⟩
      simp only [hs]

end Run

end RuleEngine
