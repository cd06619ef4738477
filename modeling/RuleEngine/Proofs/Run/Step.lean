import RuleEngine.Engine

/-!
# Steps of runs

A step of a run leaves the log alone or asks it to accept one version of the record. Which version
that is, and how the run goes on once it is accepted, depends on the run and the clock alone
(`Run.Writes`); what the log answers decides between going on and ending.

## Main definitions

* `ExecutionRecord.moved`: the record after a move to another status.
* `RunStage.status`, `Run.IsSteady`: the status that a record has while its run is in a stage.
* `Run.Writes`: the version that a run asks to be written, and what follows.
* `Run.WriteStep`: what the write of a run does to a log.

## Main results

* `Run.writeStep`: every write of a run is one of these.
* `Run.IsSteady.of_writes`: a run stays steady, so that it never asks for a move that is not
  allowed.
-/

namespace RuleEngine

/-! ### Moves of records -/

namespace ExecutionRecord

variable {r v : ExecutionRecord} {target : ExecutionStatus} {now : Timestamp}

/-- The record after a move to a status; a final one stamps its end and drops the delay. -/
def moved (r : ExecutionRecord) (target : ExecutionStatus) (now : Timestamp) : ExecutionRecord :=
  { r with
    status := target
    finishedAt := if target.isTerminal then some now else r.finishedAt
    delayedUntil := if target.isTerminal then none else r.delayedUntil }

/-- A move succeeds when the statuses allow it, and changes the status and the two times only. -/
theorem transition_eq_ok_iff :
    r.transition target now = .ok v ↔ r.status.allows target = true ∧ v = r.moved target now := by
  rw [transition_eq]
  unfold moved
  by_cases ha : r.status.allows target = true
  · cases ht : target.isTerminal <;> simp [ha, eq_comm]
  · simp [ha]

theorem transition_of_allows (h : r.status.allows target = true) :
    r.transition target now = .ok (r.moved target now) :=
  transition_eq_ok_iff.mpr ⟨h, rfl⟩

@[simp] theorem id_moved : (r.moved target now).id = r.id := rfl

@[simp] theorem status_moved : (r.moved target now).status = target := rfl

@[simp] theorem conditions_moved : (r.moved target now).conditions = r.conditions := rfl

@[simp] theorem steps_moved : (r.moved target now).steps = r.steps := rfl

@[simp] theorem error_moved : (r.moved target now).error = r.error := rfl

end ExecutionRecord

/-! ### The status of a stage -/

namespace RunStage

/-- The status of the record of a run in a stage. -/
def status : RunStage → ExecutionStatus
  | .opening => .pending
  | .evaluating | .declining | .accepting => .evaluating
  | .starting => .conditionsMet
  | .calling .. | .awaiting .. | .noting .. | .closing _ => .runningActions

theorem status_before (actions : List Action) :
    (RunStage.before actions).status = .runningActions := by
  cases actions <;> rfl

end RunStage

namespace Run

/-- Whether the record of a run has the status of the stage. -/
def IsSteady (r : Run) : Prop := r.record.status = r.stage.status

theorem isSteady_of_ofJob {j : Job} {r : Run} (h : Run.ofJob j = .ok r) : r.IsSteady := by
  unfold ofJob at h
  split at h
  case h_1 hs => cases h; exact hs
  case h_2 hs => cases h; exact hs
  case h_3 => cases h

/-- The run of a job has its rule, its context and its record, and is at the first stage for the
status. -/
theorem ofJob_eq_ok_iff {j : Job} {r : Run} :
    Run.ofJob j = .ok r ↔
      (j.record.status = .pending ∧ r = ⟨j.rule, j.context, j.record, .opening⟩) ∨
      (j.record.status = .conditionsMet ∧ r = ⟨j.rule, j.context, j.record, .starting⟩) := by
  unfold ofJob
  constructor
  · intro h
    split at h
    case h_1 hs => cases h; exact .inl ⟨hs, rfl⟩
    case h_2 hs => cases h; exact .inr ⟨hs, rfl⟩
    case h_3 => cases h
  · rintro (⟨hs, rfl⟩ | ⟨hs, rfl⟩) <;> simp only [hs]

@[simp] theorem job_of_ofJob {j : Job} {r : Run} (h : Run.ofJob j = .ok r) : r.job = j := by
  rcases ofJob_eq_ok_iff.mp h with ⟨-, rfl⟩ | ⟨-, rfl⟩ <;> rfl

/-! ### Writes -/

/-- The status with which a run ends after its actions. -/
def finalStatus (failure : Option String) : ExecutionStatus :=
  if failure.isSome then .failed else .completed

/-- The version that a run asks the log to accept at an instant, and what follows if it does. -/
inductive Writes (r : Run) (now : Timestamp) : ExecutionRecord → RunProgress → Prop
  | opening (hs : r.stage = .opening) (ha : r.record.status.allows .evaluating = true) :
      Writes r now (r.record.moved .evaluating now)
        (r.goOn .evaluating (r.record.moved .evaluating now))
  | declining (hs : r.stage = .declining) (ha : r.record.status.allows .conditionsNotMet = true) :
      Writes r now (r.record.moved .conditionsNotMet now)
        (.ended (.finished (r.record.moved .conditionsNotMet now)))
  | accepting (hs : r.stage = .accepting) (hd : r.rule.executionDelay = .none)
      (ha : r.record.status.allows .conditionsMet = true) :
      Writes r now (r.record.moved .conditionsMet now)
        (r.goOn .starting (r.record.moved .conditionsMet now))
  | parking (d : Duration) (runAt : Timestamp) (hs : r.stage = .accepting)
      (hd : r.rule.executionDelay = .lasting d) (ht : now.add? d = some runAt)
      (ha : r.record.status.allows .conditionsMet = true) :
      Writes r now (({ r.record with delayedUntil := some runAt }).moved .conditionsMet now)
        (.ended (.deferred ⟨r.rule, r.context,
          ({ r.record with delayedUntil := some runAt }).moved .conditionsMet now⟩ runAt))
  | starting (hs : r.stage = .starting) (ha : r.record.status.allows .runningActions = true) :
      Writes r now (({ r.record with delayedUntil := none }).moved .runningActions now)
        (r.goOn (.before r.rule.orderedActions)
          (({ r.record with delayedUntil := none }).moved .runningActions now))
  | noting (failure : Option String) (rest : List Action) (hs : r.stage = .noting failure rest) :
      Writes r now r.record
        (r.goOn (if failure.isSome then .closing failure else .before rest) r.record)
  | closing (failure : Option String) (hs : r.stage = .closing failure)
      (ha : r.record.status.allows (finalStatus failure) = true) :
      Writes r now
        (({ r.record with error := failure <|> r.record.error }).moved (finalStatus failure) now)
        (.ended (.finished
          (({ r.record with error := failure <|> r.record.error }).moved
            (finalStatus failure) now)))

/-- Whether the delay of a rule leads from an instant to one that can be expressed. -/
def HasRunAt (r : Rule) (now : Timestamp) : Prop :=
  r.executionDelay = .none ∨ ∃ d runAt, r.executionDelay = .lasting d ∧ now.add? d = some runAt

/-- What the write of a run does to a log: the version is accepted or refused, the run cannot make
a version, or it waits for something else. -/
inductive WriteStep {σ : Type} [ExecutionLog σ] (r : Run) (now : Timestamp) (s : σ) :
    RunProgress → σ → Prop
  | accepted {v p s'} (hw : r.Writes now v p) (ho : ExecutionLog.updateRecord s v = .ok s') :
      WriteStep r now s p s'
  | refused {v p error} (hw : r.Writes now v p)
      (ho : ExecutionLog.updateRecord s v = .error error) :
      WriteStep r now s (.ended (.refused error)) s
  | illegal (fault : TransitionFault) (h : ¬r.IsSteady) :
      WriteStep r now s (.ended (.refused (.transition fault))) s
  | outOfTime (hs : r.stage = .accepting) (hd : ¬HasRunAt r.rule now) :
      WriteStep r now s (.ended .outOfTime) s
  | idle (hs : r.stage = .evaluating ∨ (∃ a rest, r.stage = .calling a rest) ∨
        ∃ a t rest, r.stage = .awaiting a t rest) :
      WriteStep r now s (.going r) s

section

variable {σ : Type} [ExecutionLog σ]

/-- A version that the run asks for is accepted or refused; one that cannot be made shows that the
status was not that of the stage. -/
private theorem writeStep_save {r : Run} {now : Timestamp} {s : σ} (base : ExecutionRecord)
    {target : ExecutionStatus} {next : ExecutionRecord → RunProgress}
    (hw : base.status.allows target = true →
      r.Writes now (base.moved target now) (next (base.moved target now)))
    (hl : r.IsSteady → base.status.allows target = true) :
    r.WriteStep now s (save s (base.transition target now) next).1
      (save s (base.transition target now) next).2 := by
  by_cases ha : base.status.allows target = true
  · rw [ExecutionRecord.transition_of_allows ha]
    simp only [save]
    cases ho : ExecutionLog.updateRecord s (base.moved target now) with
    | ok s' => exact .accepted (hw ha) ho
    | error error => exact .refused (hw ha) ho
  · have hf : base.transition target now = .error ⟨base.status, target⟩ := by
      simp [ExecutionRecord.transition_eq, ha]
    rw [hf]
    exact .illegal _ fun h => ha (hl h)

/-- A steady run has the status of its stage, so that the moves of the stage are allowed. -/
private theorem IsSteady.allows {r : Run} {stage : RunStage} {target : ExecutionStatus}
    (h : r.IsSteady) (hs : r.stage = stage) (ha : stage.status.allows target = true) :
    r.record.status.allows target = true := by
  rw [h, hs]
  exact ha

/-- Every write of a run is a write step. -/
theorem writeStep (r : Run) (now : Timestamp) (s : σ) :
    r.WriteStep now s (r.write now s).1 (r.write now s).2 := by
  cases hs : r.stage with
  | opening =>
    simp only [write, hs]
    exact writeStep_save r.record (.opening hs) fun h => h.allows hs rfl
  | evaluating =>
    simp only [write, hs]
    exact .idle (.inl hs)
  | declining =>
    simp only [write, hs]
    exact writeStep_save r.record (.declining hs) fun h => h.allows hs rfl
  | accepting =>
    simp only [write, hs, accept]
    cases hd : r.rule.executionDelay with
    | none => exact writeStep_save r.record (.accepting hs hd) fun h => h.allows hs rfl
    | uncountable => exact .outOfTime hs (by simp [HasRunAt, hd])
    | lasting d =>
      dsimp only
      cases ht : now.add? d with
      | none =>
        have hn : ¬HasRunAt r.rule now := by
          rintro (h | ⟨d', runAt, hd', ht'⟩)
          · simp [hd] at h
          · cases hd.symm.trans hd'
            simp [ht] at ht'
        exact .outOfTime hs hn
      | some runAt =>
        refine writeStep_save { r.record with delayedUntil := some runAt }
          (.parking d runAt hs hd ht) fun h => ?_
        exact (h.allows hs rfl : r.record.status.allows .conditionsMet = true)
  | starting =>
    simp only [write, hs]
    exact writeStep_save { r.record with delayedUntil := none } (.starting hs) fun h =>
      h.allows hs rfl
  | calling a rest =>
    simp only [write, hs]
    exact .idle (.inr (.inl ⟨a, rest, hs⟩))
  | awaiting a t rest =>
    simp only [write, hs]
    exact .idle (.inr (.inr ⟨a, t, rest, hs⟩))
  | noting failure rest =>
    simp only [write, hs, save]
    cases ho : ExecutionLog.updateRecord s r.record with
    | ok s' => exact .accepted (.noting failure rest hs) ho
    | error error => exact .refused (.noting failure rest hs) ho
  | closing failure =>
    simp only [write, hs]
    exact writeStep_save { r.record with error := failure <|> r.record.error }
      (.closing failure hs) fun h => h.allows hs (by cases failure <;> rfl)

end

/-! ### What a version keeps -/

section

variable {r : Run} {now : Timestamp} {v : ExecutionRecord} {p : RunProgress}

/-- Every version of a record has its identifier. -/
theorem Writes.id_eq (h : r.Writes now v p) : v.id = r.record.id := by
  cases h <;> rfl

/-- A run that goes on has the accepted version, of the same rule and cause. -/
theorem Writes.going_eq {r' : Run} (h : r.Writes now v (.going r')) :
    r'.rule = r.rule ∧ r'.context = r.context ∧ r'.record = v := by
  cases h <;> exact ⟨rfl, rfl, rfl⟩

/-- A run that is parked comes back with the accepted version, of the same rule and cause. -/
theorem Writes.deferred_eq {j : Job} {runAt : Timestamp}
    (h : r.Writes now v (.ended (.deferred j runAt))) :
    j = ⟨r.rule, r.context, v⟩ ∧ v.status = .conditionsMet := by
  cases h
  exact ⟨rfl, rfl⟩

/-- After an accepted write the status is again that of the stage. -/
theorem IsSteady.of_writes {r' : Run} (h : r.Writes now v (.going r')) (hr : r.IsSteady) :
    r'.IsSteady := by
  cases h with
  | opening | accepting => rfl
  | starting => exact (RunStage.status_before _).symm
  | noting failure rest hs =>
    have hv : r.record.status = .runningActions := hr.trans (by rw [hs]; rfl)
    cases failure with
    | none => exact hv.trans (RunStage.status_before rest).symm
    | some message => exact hv

theorem IsSteady.judged (hr : r.IsSteady) (hs : r.stage = .evaluating) (e : Evaluation) :
    (r.judged e).IsSteady := by
  have hv : r.record.status = .evaluating := hr.trans (by rw [hs]; rfl)
  unfold IsSteady Run.judged
  split <;> exact hv

theorem IsSteady.called {a : Action} {rest : List Action} (hr : r.IsSteady)
    (hs : r.stage = .calling a rest) : (r.called a rest now).IsSteady :=
  hr.trans (by rw [hs]; rfl)

/-- A run whose action came to an outcome is steady if it was running its actions. -/
theorem IsSteady.answered (hr : r.record.status = .runningActions) (a : Action)
    (startedAt : Timestamp) (rest : List Action) (o : ActionOutcome) (now : Timestamp) :
    (r.answered a startedAt rest o now).IsSteady := hr

end

end Run

end RuleEngine
