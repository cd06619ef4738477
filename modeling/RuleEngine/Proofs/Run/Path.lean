import RuleEngine.Proofs.Run.WriteAhead

/-!
# Paths of runs

The steps of a run together with the engines in which they are made. What can be seen of a run and
what it asks the lookup are read off its path. Once a run is past its conditions it asks nothing
any more, and comes to a finished record unless it is refused. An engine that runs a job makes the
steps of a path in engines that differ from it in their logs, clocks and accounts only.

## Main definitions

* `RunStage.isActing`: the stages after the conditions.
* `Run.Path`: the steps of a run, each in an engine of its own.
* `Engine.SameMeans`: engines with the same handlers and the same lookup.

## Main results

* `Run.Path.acting`: a run past its conditions stays there, and ends finished or refused.
* `Engine.exists_path_run`: an engine that runs a job makes the steps of a path.
-/

namespace RuleEngine

namespace RunStage

/-- Whether a run in a stage is past its conditions, with its actions left. -/
def isActing : RunStage → Bool
  | .opening | .evaluating | .declining | .accepting => false
  | .starting | .calling .. | .awaiting .. | .noting .. | .closing _ => true

theorem isActing_before (actions : List Action) : (RunStage.before actions).isActing = true := by
  cases actions <;> rfl

end RunStage

/-! ### What a step leaves alone -/

namespace Engine

/-- Whether two engines have the same handlers, give them the same time, and have the same
lookup. -/
structure SameMeans {σ : Type} (e e' : Engine σ) : Prop where
  registry : e'.registry = e.registry
  allowed : e'.allowed = e.allowed
  lookup : e'.lookup = e.lookup

theorem SameMeans.refl {σ : Type} (e : Engine σ) : e.SameMeans e := ⟨rfl, rfl, rfl⟩

theorem SameMeans.trans {σ : Type} {e e' e'' : Engine σ} (h : e.SameMeans e')
    (h' : e'.SameMeans e'') : e.SameMeans e'' :=
  ⟨h'.registry.trans h.registry, h'.allowed.trans h.allowed, h'.lookup.trans h.lookup⟩

variable {σ : Type} [ExecutionLog σ] (e : Engine σ) (r : Run)

/-- The questions to the lookup that a step of a run comes to. -/
def asked (e : Engine σ) (r : Run) : List LookupCall :=
  (e.stepRun r).2.questions.drop e.questions.length

omit [ExecutionLog σ] in
/-- What an action of a run comes to if its handler is called in an engine. -/
def reply (e : Engine σ) (r : Run) (a : Action) : ActionOutcome :=
  (e.callHandler r a).2.outcomeOf a (e.callHandler r a).1

theorem stepRun_calling {e : Engine σ} {r : Run} {a : Action} {rest : List Action}
    (hs : r.stage = .calling a rest) : (e.stepRun r).1 =
      .going (r.answered a e.clock rest (e.reply r a) (e.callHandler r a).2.clock) := by
  simp only [stepRun, hs]
  rfl

omit [ExecutionLog σ] in
/-- The reply to an action is that of the handler of its type, called at the time of the clock. -/
theorem reply_eq (e : Engine σ) (r : Run) (a : Action) : e.reply r a =
    match e.registry.get? a.actionType with
    | none => .noHandler a.actionType
    | some handler => ((handler a.parameters r.context).madeAt e.clock).outcome e.allowed := by
  unfold reply callHandler
  cases e.registry.get? a.actionType <;> rfl

omit [ExecutionLog σ] in
theorem callHandler_means (a : Action) : e.SameMeans (e.callHandler r a).2 ∧
    (e.callHandler r a).2.questions = e.questions := by
  unfold callHandler
  split <;> exact ⟨⟨rfl, rfl, rfl⟩, rfl⟩

/-- A step leaves the handlers and the lookup alone, asks the lookup only to evaluate conditions,
and leaves the clock to the handlers. -/
theorem stepRun_means : e.SameMeans (e.stepRun r).2 ∧
    (r.stage ≠ .evaluating → (e.stepRun r).2.questions = e.questions) ∧
    (r.stage.isActing = false → (e.stepRun r).2.clock = e.clock) := by
  cases hs : r.stage with
  | calling a rest =>
    obtain ⟨hmeans, hquestions⟩ := e.callHandler_means r a
    simp only [stepRun, hs]
    exact ⟨hmeans, fun _ => hquestions, fun hn => Bool.noConfusion hn⟩
  | evaluating =>
    simp only [stepRun, hs]
    exact ⟨⟨rfl, rfl, rfl⟩, fun hn => absurd rfl hn, fun _ => rfl⟩
  | _ =>
    simp only [stepRun, hs]
    exact ⟨⟨rfl, rfl, rfl⟩, fun _ => trivial, fun _ => trivial⟩

theorem asked_eq_nil (h : r.stage ≠ .evaluating) : e.asked r = [] := by
  rw [asked, (e.stepRun_means r).2.1 h, List.drop_length]

/-- The account of the questions goes on with those of the step. -/
theorem stepRun_questions : (e.stepRun r).2.questions = e.questions ++ e.asked r := by
  by_cases hs : r.stage = .evaluating
  · simp [asked, stepRun, hs, noteQuestions]
  · rw [e.asked_eq_nil r hs, List.append_nil, (e.stepRun_means r).2.1 hs]

end Engine

/-! ### Paths -/

namespace Run

/-- The steps of a run, each with the engine in which it is made, and what the run comes to. -/
inductive Path {σ : Type} [ExecutionLog σ] : Run → List (Engine σ × Run) → RunProgress → Prop
  | here (r : Run) : Path r [] (.going r)
  | on {r r' : Run} {steps : List (Engine σ × Run)} {p : RunProgress} (e : Engine σ)
      (h : (e.stepRun r).1 = .going r') (later : Path r' steps p) : Path r ((e, r) :: steps) p
  | last {r : Run} {ending : RunEnding} (e : Engine σ) (h : (e.stepRun r).1 = .ended ending) :
      Path r [(e, r)] (.ended ending)

variable {σ : Type} [ExecutionLog σ]

/-- What can be seen of the steps of a run. -/
def observed (steps : List (Engine σ × Run)) : List RunEvent :=
  steps.flatMap fun x => x.1.observe x.2

/-- The questions to the lookup that the steps of a run come to. -/
def asked (steps : List (Engine σ × Run)) : List LookupCall :=
  steps.flatMap fun x => x.1.asked x.2

variable {r : Run} {steps : List (Engine σ × Run)} {p : RunProgress}

@[simp] theorem observed_cons (e : Engine σ) (r : Run) (steps : List (Engine σ × Run)) :
    observed ((e, r) :: steps) = e.observe r ++ observed steps := rfl

@[simp] theorem observed_nil : observed ([] : List (Engine σ × Run)) = [] := rfl

theorem observed_append (steps later : List (Engine σ × Run)) :
    observed (steps ++ later) = observed steps ++ observed later :=
  List.flatMap_append

/-- The steps of a steady run are made for one cause. -/
theorem Path.context_eq (h : Path r steps p) (hr : r.IsSteady) :
    ∀ x ∈ steps, x.2.context = r.context := by
  induction h with
  | here r => exact fun x hx => (nomatch hx)
  | @on r r' steps p e hstep later ih =>
    have hrun := e.runStep_stepRun r
    rw [hstep] at hrun
    obtain ⟨hsteady, -, hcontext⟩ := steady_of_runStep hrun hr
    refine List.forall_mem_cons.mpr ⟨rfl, fun x hx => ?_⟩
    exact (ih hsteady x hx).trans hcontext
  | last e hstep => exact List.forall_mem_singleton.mpr rfl

/-- A step after which a steady run is not refused is not seen to be. -/
theorem accepted_of_runStep {e e' : Engine σ} {events : List RunEvent}
    (h : e.RunStep r events p e') (hr : r.IsSteady) (hp : ∀ error, p ≠ .ended (.refused error))
    (v : ExecutionRecord) (error : EngineError) : RunEvent.refused v error ∉ events := by
  cases h with
  | wrote | outOfTime | judged => simp
  | refused => exact absurd rfl (hp _)
  | unsteady fault hn => exact absurd hr hn
  | carried => simp

/-- A steady run that does not end refused was not seen to be. -/
theorem Path.accepted (h : Path r steps p) (hr : r.IsSteady)
    (hp : ∀ error, p ≠ .ended (.refused error)) (v : ExecutionRecord) (error : EngineError) :
    RunEvent.refused v error ∉ observed steps := by
  induction h with
  | here r => exact List.not_mem_nil
  | @on r r' steps p e hstep later ih =>
    have hrun := e.runStep_stepRun r
    rw [hstep] at hrun
    rw [observed_cons, List.mem_append, not_or]
    exact ⟨accepted_of_runStep hrun hr (fun _ hn => nomatch hn) v error,
      ih (steady_of_runStep hrun hr).1 hp⟩
  | @last r ending e hstep =>
    have hrun := e.runStep_stepRun r
    rw [hstep] at hrun
    rw [observed_cons, observed_nil, List.append_nil]
    exact accepted_of_runStep hrun hr hp v error

/-- A step past the conditions leads to another one there, or to the end of a run that is finished
or refused. -/
theorem acting_of_runStep {e e' : Engine σ} {events : List RunEvent}
    (h : e.RunStep r events p e') (ha : r.stage.isActing = true) :
    (∃ r', p = .going r' ∧ r'.stage.isActing = true) ∨
      (∃ v, p = .ended (.finished v)) ∨ ∃ error, p = .ended (.refused error) := by
  cases h with
  | wrote hw ho =>
    cases hw with
    | opening hs | declining hs | accepting hs | parking d runAt hs =>
      rw [hs] at ha
      cases ha
    | starting hs => exact .inl ⟨_, rfl, RunStage.isActing_before _⟩
    | noting failure rest hs =>
      refine .inl ⟨_, rfl, ?_⟩
      cases failure with
      | none => exact RunStage.isActing_before rest
      | some message => rfl
    | closing failure hs => exact .inr (.inl ⟨_, rfl⟩)
  | refused | unsteady => exact .inr (.inr ⟨_, rfl⟩)
  | outOfTime hs | judged hs =>
    rw [hs] at ha
    cases ha
  | carried => exact .inl ⟨_, rfl, rfl⟩

/-- A run past its conditions stays there as long as it goes on. -/
theorem acting_of_going {e e' : Engine σ} {r' : Run} {events : List RunEvent}
    (h : e.RunStep r events (.going r') e') (ha : r.stage.isActing = true) :
    r'.stage.isActing = true := by
  obtain ⟨q, hq, hacting⟩ | ⟨v, hv⟩ | ⟨error, herror⟩ := acting_of_runStep h ha
  · cases hq
    exact hacting
  · cases hv
  · cases herror

/-- A run past its conditions stays there, and ends finished or refused. -/
theorem Path.acting (h : Path r steps p) (ha : r.stage.isActing = true) :
    (∀ x ∈ steps, x.2.stage.isActing = true) ∧
      ∀ ending, p = .ended ending →
        (∃ v, ending = .finished v) ∨ ∃ error, ending = .refused error := by
  induction h with
  | here r => exact ⟨fun x hx => (nomatch hx), fun ending hp => (nomatch hp)⟩
  | @on r r' later p e hstep hlater ih =>
    have hrun := e.runStep_stepRun r
    rw [hstep] at hrun
    obtain ⟨hsteps, hend⟩ := ih (acting_of_going hrun ha)
    exact ⟨List.forall_mem_cons.mpr ⟨ha, hsteps⟩, hend⟩
  | last e hstep =>
    have hnext := acting_of_runStep (e.runStep_stepRun _) ha
    rw [hstep] at hnext
    refine ⟨List.forall_mem_singleton.mpr ha, fun ending hp => ?_⟩
    cases hp
    obtain ⟨r', hr', -⟩ | ⟨v, hv⟩ | ⟨error, herror⟩ := hnext
    · cases hr'
    · cases hv
      exact .inl ⟨v, rfl⟩
    · cases herror
      exact .inr ⟨error, rfl⟩

theorem ne_evaluating_of_acting (h : r.stage.isActing = true) : r.stage ≠ .evaluating := by
  intro hs
  rw [hs] at h
  cases h

theorem ne_calling_of_not_acting (h : r.stage.isActing = false) (a : Action)
    (rest : List Action) : r.stage ≠ .calling a rest := by
  intro hs
  rw [hs] at h
  cases h

/-- A run past its conditions is not parked, and needs no instant to be parked until. -/
theorem Path.not_parked {ending : RunEnding} (h : Path r steps (.ended ending))
    (ha : r.stage.isActing = true) :
    ending ≠ .outOfTime ∧ ∀ j runAt, ending ≠ .deferred j runAt := by
  obtain ⟨v, rfl⟩ | ⟨error, rfl⟩ := (h.acting ha).2 ending rfl
  · exact ⟨fun hn => (nomatch hn), fun j runAt hn => (nomatch hn)⟩
  · exact ⟨fun hn => (nomatch hn), fun j runAt hn => (nomatch hn)⟩

/-- Nothing is asked past the conditions. -/
theorem asked_of_acting (h : ∀ x ∈ steps, x.2.stage.isActing = true) : asked steps = [] :=
  List.flatMap_eq_nil_iff.mpr fun x hx =>
    x.1.asked_eq_nil x.2 (ne_evaluating_of_acting (h x hx))

end Run

/-! ### Paths in an engine -/

namespace Engine

variable {σ : Type} [ExecutionLog σ] {r : Run}

/-- A run that is carried through makes the steps of a path. Its clock stands still up to the first
action. -/
theorem exists_path_carryRun (e : Engine σ) (r : Run) (hr : r.IsSteady) (fuel : Nat) :
    ∃ steps, Run.Path r steps (e.carryRun r fuel).1 ∧
      (∀ x ∈ steps, e.SameMeans x.1 ∧ (x.2.stage.isActing = false → x.1.clock = e.clock)) ∧
      e.Accounts (Run.observed steps) (e.carryRun r fuel).2 ∧
      (e.carryRun r fuel).2.questions = e.questions ++ Run.asked steps := by
  induction fuel generalizing e r with
  | zero => exact ⟨[], .here r, fun x hx => (nomatch hx), ⟨rfl, by simp [carryRun]⟩,
      (List.append_nil _).symm⟩
  | succ fuel ih =>
    have hstep := e.runStep_stepRun r
    have hacc := hstep.accounts hr
    obtain ⟨hmeans, -, hclock⟩ := e.stepRun_means r
    have hasked := e.stepRun_questions r
    rw [carryRun]
    rcases hs : e.stepRun r with ⟨p, e'⟩
    rw [hs] at hstep hacc hmeans hclock hasked
    cases p with
    | going r' =>
      obtain ⟨steps, hpath, hengines, haccounts, hquestions⟩ :=
        ih e' r' (Run.steady_of_runStep hstep hr).1
      refine ⟨(e, r) :: steps, .on e (congrArg Prod.fst hs) hpath,
        List.forall_mem_cons.mpr ⟨⟨.refl e, fun _ => rfl⟩, fun x hx => ?_⟩,
        hacc.append haccounts, ?_⟩
      · refine ⟨hmeans.trans (hengines x hx).1, fun hx' => ((hengines x hx).2 hx').trans ?_⟩
        refine hclock ?_
        by_contra ha
        have hacting := Run.acting_of_going hstep (by simpa using ha)
        have hx := (hpath.acting hacting).1 x hx
        rw [hx'] at hx
        cases hx
      · change (e'.carryRun r' fuel).2.questions = _
        rw [hquestions, hasked, List.append_assoc]
        rfl
    | ended ending =>
      refine ⟨[(e, r)], .last e (congrArg Prod.fst hs),
        List.forall_mem_singleton.mpr ⟨.refl e, fun _ => rfl⟩, ?_, ?_⟩
      · rw [Run.observed_cons, Run.observed_nil, List.append_nil]
        exact hacc
      · change e'.questions = _
        rw [hasked]
        exact congrArg _ (List.append_nil _).symm

/-- A job that is not refused can be run. -/
theorem exists_ofJob {e : Engine σ} {j : Job} (h : ∀ error, (e.run j).1 ≠ .refused error) :
    ∃ r, Run.ofJob j = .ok r := by
  cases hj : Run.ofJob j with
  | ok r => exact ⟨r, rfl⟩
  | error error => exact absurd (congrArg Prod.fst (run_of_error hj e)) (h error)

/-- An engine that runs a job makes the steps of a path, in engines with its handlers and its
lookup. -/
theorem exists_path_run {j : Job} (hj : Run.ofJob j = .ok r) (e : Engine σ) :
    ∃ steps, Run.Path r steps (.ended (e.run j).1) ∧
      (∀ x ∈ steps, e.SameMeans x.1 ∧ (x.2.stage.isActing = false → x.1.clock = e.clock)) ∧
      e.Accounts (Run.observed steps) (e.run j).2 ∧
      (e.run j).2.questions = e.questions ++ Run.asked steps := by
  have h := e.exists_path_carryRun r (Run.isSteady_of_ofJob hj) r.stepsLeft
  rwa [carryRun_eq_run hj e] at h

end Engine

end RuleEngine
