import RuleEngine.Proofs.Run.Actions

/-!
# Actions in another order

A rule is accepted for its actions if their types are not blank and no two of them have the same
order. So their order in the list makes no difference to whether it is accepted. The actions of a
rule that is accepted have one strictly ascending order, and a run reads them in this order only.
Two runs of rules that differ in the list of their actions alone, and have the same ordered actions,
make the same steps: they write the same versions, call the same handlers, ask the same questions
and come to the same end, up to the rule of a job that is deferred. The numbers in parameters are
finite.

## Main definitions

* `Rule.withActions`: a rule with another list of actions; likewise for jobs, runs and what they
  come to.

## Main results

* `Action.validateAll_eq_ok_iff`: the lists of actions that are accepted.
* `Action.IsOrdering.strictly`, `Action.IsOrdering.unique`: actions of different orders have one
  ordering, which is strictly ascending.
* `Engine.stepRun_withActions`: the steps of two such runs.
* `Engine.run_withActions`, `Run.Path.withActions`: two such runs from their starts to their ends.
* `Rule.permutes_actions`: the actions of every rule in every order.
-/

namespace RuleEngine

/-! ### Actions that are accepted -/

namespace Action

variable {actions actions' ordered ordered' : List Action}

/-- Actions are accepted if their types are not blank, and their orders differ from each other and
from those that are used already. -/
theorem validateAll_eq_ok_iff {seen : List Nat} : validateAll seen actions = .ok () ↔
    (∀ a ∈ actions, Text.isBlankText a.actionType = false) ∧ (actions.map (·.order)).Nodup ∧
      ∀ a ∈ actions, a.order ∉ seen := by
  induction actions generalizing seen with
  | nil => simp [validateAll]
  | cons a rest ih =>
    rw [validateAll]
    by_cases hblank : Text.isBlankText a.actionType = true
    · rw [if_pos hblank]
      exact iff_of_false (fun hn => nomatch hn) fun hn =>
        Bool.false_ne_true ((hn.1 a (.head _)).symm.trans hblank)
    rw [if_neg hblank]
    by_cases hseen : a.order ∈ seen
    · rw [if_pos (List.contains_iff_mem.mpr hseen)]
      exact iff_of_false (fun hn => nomatch hn) fun hn => hn.2.2 a (.head _) hseen
    -- an order that was not used before this action must not be used after it
    have hused : (∀ b ∈ rest, b.order ∉ a.order :: seen) ↔
        a.order ∉ rest.map (·.order) ∧ ∀ b ∈ rest, b.order ∉ seen := by
      simp only [List.mem_cons, not_or, List.mem_map, not_exists, not_and, forall_and]
    rw [if_neg (mt List.contains_iff_mem.mp hseen), ih, hused, List.map_cons, List.nodup_cons,
      List.forall_mem_cons, List.forall_mem_cons]
    have hblank : Text.isBlankText a.actionType = false := by simpa using hblank
    tauto

/-- The order of a list of actions makes no difference to whether they are accepted. -/
theorem validateAll_perm (h : actions.Perm actions') (seen : List Nat) :
    validateAll seen actions = .ok () ↔ validateAll seen actions' = .ok () := by
  rw [validateAll_eq_ok_iff, validateAll_eq_ok_iff, (h.map (·.order)).nodup_iff]
  simp only [h.mem_iff]

/-- The ordering of actions of different orders is strictly ascending. -/
theorem IsOrdering.strictly (h : IsOrdering actions ordered)
    (hn : (actions.map (·.order)).Nodup) : ordered.Pairwise fun a b => a.order < b.order := by
  have hne : (ordered.map (·.order)).Nodup := (h.perm.map _).nodup_iff.mpr hn
  exact (h.ascending.and (List.pairwise_map.mp hne)).imp fun hab =>
    Nat.lt_of_le_of_ne hab.1 hab.2

/-- Actions of different orders have one ordering, in whatever order they are listed. -/
theorem IsOrdering.unique (h : IsOrdering actions ordered) (h' : IsOrdering actions' ordered')
    (hp : actions.Perm actions') (hn : (actions.map (·.order)).Nodup) : ordered = ordered' :=
  List.Perm.eq_of_pairwise (fun _ _ _ _ hab hba => absurd hba (Nat.lt_asymm hab)) (h.strictly hn)
    (h'.strictly ((hp.map (·.order)).nodup_iff.mp hn)) (h.perm.trans (hp.trans h'.perm.symm))

end Action

namespace Rule

/-- The rule with another list of actions. -/
def withActions (r : Rule) (actions : List Action) : Rule := { r with actions }

variable {r : Rule} {actions : List Action}

/-- A rule is accepted if it is without its actions, and they are. -/
theorem validate_eq_ok_iff : r.validate = .ok () ↔
    (r.withActions []).validate = .ok () ∧ Action.validateAll [] r.actions = .ok () := by
  simp only [validate, withActions, Action.validateAll]
  split
  · exact iff_of_false (fun hn => nomatch hn) fun hn => nomatch hn.1
  split
  · exact iff_of_false (fun hn => nomatch hn) fun hn => nomatch hn.1
  cases validateConditions r.trigger r.conditions with
  | error fault => exact iff_of_false (fun hn => nomatch hn) fun hn => nomatch hn.1
  | ok => exact (and_iff_right rfl).symm

theorem validate_withActions_iff (h : actions.Perm r.actions) :
    (r.withActions actions).validate = .ok () ↔ r.validate = .ok () := by
  rw [validate_eq_ok_iff, r.validate_eq_ok_iff, ← Action.validateAll_perm h []]
  rfl

/-- No two actions of a rule that is accepted have the same order. -/
theorem nodup_order_of_validate (h : r.validate = .ok ()) : (r.actions.map (·.order)).Nodup :=
  (Action.validateAll_eq_ok_iff.mp (validate_eq_ok_iff.mp h).2).2.1

theorem orderedActions_withActions (h : actions.Perm r.actions) (hr : r.validate = .ok ()) :
    (r.withActions actions).orderedActions = r.orderedActions :=
  ((r.isOrdering_orderedActions).unique (r.withActions actions).isOrdering_orderedActions h.symm
    (nodup_order_of_validate hr)).symm

end Rule

/-! ### Runs with another list of actions -/

/-- The job of the rule with another list of actions. -/
def Job.withActions (j : Job) (actions : List Action) : Job :=
  { j with rule := j.rule.withActions actions }

/-- The end of a run for the rule with another list of actions, which is the same one unless the
job is deferred. -/
def RunEnding.withActions (actions : List Action) : RunEnding → RunEnding
  | .deferred j runAt => .deferred (j.withActions actions) runAt
  | ending => ending

/-- The run of the rule with another list of actions. -/
def Run.withActions (r : Run) (actions : List Action) : Run :=
  { r with rule := r.rule.withActions actions }

/-- What a run comes to for the rule with another list of actions. -/
def RunProgress.withActions (actions : List Action) : RunProgress → RunProgress
  | .going r => .going (r.withActions actions)
  | .ended ending => .ended (ending.withActions actions)

section Runs

variable {σ : Type} [ExecutionLog σ] {actions : List Action} {r : Run} {j : Job}

namespace Run

/-- A write is the same one if what comes after it is the same up to the actions. -/
theorem save_withActions {s : σ} {version : Except TransitionFault ExecutionRecord}
    {next next' : ExecutionRecord → RunProgress} (h : ∀ v, next' v = (next v).withActions actions) :
    save s version next' = (save s version next).map (.withActions actions) id := by
  unfold save
  cases version with
  | error fault => rfl
  | ok v =>
    dsimp only
    cases ExecutionLog.updateRecord s v with
    | error error => rfl
    | ok s => exact congrArg (·, s) (h v)

theorem accept_withActions (now : Timestamp) (s : σ) :
    (r.withActions actions).accept now s = (r.accept now s).map (.withActions actions) id := by
  have hdelay : (r.withActions actions).rule.executionDelay = r.rule.executionDelay := rfl
  unfold accept
  rw [hdelay]
  cases r.rule.executionDelay with
  | none => exact save_withActions fun v => rfl
  | uncountable => rfl
  | lasting d =>
    dsimp only
    cases now.add? d with
    | none => rfl
    | some runAt => exact save_withActions fun v => rfl

end Run

section SameOrder

variable (h : (r.rule.withActions actions).orderedActions = r.rule.orderedActions)

include h

/-- A run makes the same write for the rule with another list of actions, if they are ordered in the
same way. -/
theorem Run.write_withActions (now : Timestamp) (s : σ) :
    (r.withActions actions).write now s = (r.write now s).map (.withActions actions) id := by
  have hstage : (r.withActions actions).stage = r.stage := rfl
  unfold write
  rw [hstage]
  cases r.stage with
  | opening | declining | noting | closing => exact save_withActions fun v => rfl
  | accepting => exact accept_withActions now s
  | starting =>
    refine save_withActions fun v => ?_
    change RunProgress.going ⟨_, _, v, .before (r.rule.withActions actions).orderedActions⟩ = _
    rw [h]
    rfl
  | evaluating | calling | awaiting => rfl

namespace Engine

/-- A run makes the same step. -/
theorem stepRun_withActions (e : Engine σ) :
    e.stepRun (r.withActions actions) = (e.stepRun r).map (.withActions actions) id := by
  have hstage : (r.withActions actions).stage = r.stage := rfl
  have hwrite := Run.write_withActions h e.clock e.store
  unfold stepRun
  rw [hstage]
  cases r.stage with
  | evaluating | calling | awaiting => rfl
  | _ =>
    dsimp only
    rw [hwrite]
    rfl

/-- The same can be seen of a step. -/
theorem observe_withActions (e : Engine σ) :
    e.observe (r.withActions actions) = e.observe r := by
  have hversion : (r.withActions actions).version? e.clock = r.version? e.clock := rfl
  rw [observe, observe, hversion, stepRun_withActions h]
  rfl

theorem asked_withActions (e : Engine σ) : e.asked (r.withActions actions) = e.asked r := by
  rw [asked, asked, stepRun_withActions h]
  rfl

/-- A run is carried equally far. -/
theorem carryRun_withActions (hr : r.IsSteady) (e : Engine σ) (fuel : Nat) :
    e.carryRun (r.withActions actions) fuel =
      (e.carryRun r fuel).map (.withActions actions) id := by
  induction fuel generalizing e r with
  | zero => rfl
  | succ fuel ih =>
    have hstep := e.runStep_stepRun r
    rw [carryRun, carryRun, stepRun_withActions h]
    rcases hs : e.stepRun r with ⟨p, e'⟩
    rw [hs] at hstep
    cases p with
    | going r' =>
      obtain ⟨hsteady, hrule, -⟩ := Run.steady_of_runStep hstep hr
      exact ih (hrule ▸ h) hsteady e'
    | ended ending => rfl

end Engine

end SameOrder

theorem Run.ofJob_withActions (j : Job) (actions : List Action) :
    ofJob (j.withActions actions) = (ofJob j).map (·.withActions actions) := by
  unfold ofJob Job.withActions
  cases j.record.status <;> rfl

/-- An engine runs a job in the same way for the rule with another list of actions, if they are
ordered in the same way. -/
theorem Engine.run_withActions
    (h : (j.rule.withActions actions).orderedActions = j.rule.orderedActions) (e : Engine σ) :
    e.run (j.withActions actions) = (e.run j).map (.withActions actions) id := by
  have hofJob := Run.ofJob_withActions j actions
  cases hj : Run.ofJob j with
  | error error =>
    rw [hj] at hofJob
    rw [run_of_error hofJob, run_of_error hj]
    rfl
  | ok r =>
    rw [hj] at hofJob
    obtain rfl : r.job = j := Run.job_of_ofJob hj
    have hlength : (r.withActions actions).stepsLeft = r.stepsLeft := by
      have hordered := congrArg List.length h
      rw [Rule.orderedActions, Rule.orderedActions, List.length_mergeSort,
        List.length_mergeSort] at hordered
      exact congrArg r.stage.stepsLeft hordered
    have hcarry := carryRun_eq_run hofJob e
    rw [hlength, carryRun_withActions h (Run.isSteady_of_ofJob hj), carryRun_eq_run hj] at hcarry
    simp only [Prod.map, RunProgress.withActions, id_eq, Prod.mk.injEq, RunProgress.ended.injEq]
      at hcarry
    exact Prod.ext hcarry.1.symm hcarry.2.symm

/-- Whatever the engines of its steps, a run takes the same path for the rule with another list of
actions, if they are ordered in the same way. -/
theorem Run.Path.withActions {steps : List (Engine σ × Run)} {p : RunProgress}
    (h : Path r steps p) (hr : r.IsSteady)
    (ho : (r.rule.withActions actions).orderedActions = r.rule.orderedActions) :
    ∃ steps', Path (r.withActions actions) steps' (p.withActions actions) ∧
      steps'.map (·.1) = steps.map (·.1) ∧ observed steps' = observed steps ∧
      asked steps' = asked steps := by
  induction h with
  | here r => exact ⟨[], .here _, rfl, rfl, rfl⟩
  | @on r r' steps p e hstep later ih =>
    have hrun := e.runStep_stepRun r
    rw [hstep] at hrun
    obtain ⟨hsteady, hrule, -⟩ := steady_of_runStep hrun hr
    obtain ⟨steps', hpath, hengines, hobserved, hasked⟩ := ih hsteady (hrule ▸ ho)
    have hstep' : (e.stepRun (r.withActions actions)).1 = .going (r'.withActions actions) := by
      rw [e.stepRun_withActions ho, Prod.map_fst, hstep]
      rfl
    refine ⟨_, .on e hstep' hpath, congrArg (e :: ·) hengines, ?_, ?_⟩
    · rw [observed_cons, observed_cons, e.observe_withActions ho, hobserved]
    · exact congrArg₂ (· ++ ·) (e.asked_withActions ho) hasked
  | @last r ending e hstep =>
    have hstep' : (e.stepRun (r.withActions actions)).1 = .ended (ending.withActions actions) := by
      rw [e.stepRun_withActions ho, Prod.map_fst, hstep]
      rfl
    refine ⟨_, .last e hstep', rfl, ?_, ?_⟩
    · rw [observed_cons, observed_cons, e.observe_withActions ho]
    · exact congrArg (· ++ []) (e.asked_withActions ho)

end Runs

/-- The actions of every rule in every order. The rule is accepted with its actions in another order
if and only if it is as it is. If it is accepted, its actions are put in the same strictly ascending
order, with every one of them in it. Every engine then runs every job of the one rule as it runs
that of the other: it comes to the same end, with the same calls of handlers and the same log. And
so does every run of the one rule, however the engines change in which its steps are made: the run
of the other that makes its steps in the same engines is not seen to differ from it. -/
theorem Rule.permutes_actions {σ : Type} [ExecutionLog σ] (r : Rule) {actions : List Action}
    (h : actions.Perm r.actions) :
    ((r.withActions actions).validate = .ok () ↔ r.validate = .ok ()) ∧
    (r.validate = .ok () →
      (r.withActions actions).orderedActions = r.orderedActions ∧
      r.orderedActions.Perm r.actions ∧
      r.orderedActions.Pairwise (fun a b => a.order < b.order) ∧
      (∀ (e : Engine σ) (context : TriggerContext) (record : ExecutionRecord),
        e.run ⟨r.withActions actions, context, record⟩ =
          ((e.run ⟨r, context, record⟩).1.withActions actions,
            (e.run ⟨r, context, record⟩).2)) ∧
      ∀ (context : TriggerContext) (record : ExecutionRecord) (q : Run)
        (steps : List (Engine σ × Run)) (p : RunProgress),
        Run.ofJob ⟨r, context, record⟩ = .ok q → Run.Path q steps p →
          ∃ q' steps', Run.ofJob ⟨r.withActions actions, context, record⟩ = .ok q' ∧
            Run.Path q' steps' (p.withActions actions) ∧ steps'.map (·.1) = steps.map (·.1) ∧
            Run.observed steps' = Run.observed steps ∧ Run.asked steps' = Run.asked steps) := by
  refine ⟨validate_withActions_iff h, fun hr => ?_⟩
  have ho := orderedActions_withActions h hr
  refine ⟨ho, r.isOrdering_orderedActions.perm,
    r.isOrdering_orderedActions.strictly (nodup_order_of_validate hr),
    fun e context record => Engine.run_withActions (j := ⟨r, context, record⟩) ho e,
    fun context record q steps p hj hpath => ?_⟩
  have hjob := Run.job_of_ofJob hj
  have hq : q.rule = r := congrArg Job.rule hjob
  obtain ⟨steps', hpath', hsame⟩ := hpath.withActions (Run.isSteady_of_ofJob hj) (hq ▸ ho)
  refine ⟨q.withActions actions, steps', ?_, hpath', hsame⟩
  have hofJob := Run.ofJob_withActions ⟨r, context, record⟩ actions
  rw [hj] at hofJob
  exact hofJob

namespace Sample

/-- The actions of the job that is to write a letter, as they are tried. -/
def letterFirst : List Action := [⟨0, "letter", .empty⟩, ⟨1, Handler.logType, .empty⟩]

end Sample

/-- A rule that lists its letter first is as good as the one that lists it last. -/
theorem Rule.permutes_actions_letter :
    (Sample.letterJob.rule.withActions Sample.letterFirst).validate = .ok () ∧
    (Sample.letterJob.rule.withActions Sample.letterFirst).orderedActions = Sample.letterFirst ∧
    (Sample.letterless.run (Sample.letterJob.withActions Sample.letterFirst)).2 =
      (Sample.letterless.run Sample.letterJob).2 := by
  have hvalid : Sample.letterJob.rule.validate = .ok () := by decide
  have hswap : Sample.letterFirst.Perm Sample.letterJob.rule.actions := .swap _ _ []
  obtain ⟨haccepted, hsame⟩ := permutes_actions (σ := MemoryStore) Sample.letterJob.rule hswap
  obtain ⟨hordered, -, -, hrun, -⟩ := hsame hvalid
  have hengine := congrArg Prod.snd
    (hrun Sample.letterless Sample.letterJob.context Sample.letterJob.record)
  exact ⟨haccepted.mpr hvalid, hordered.trans Sample.orderedActions_letterJob, hengine⟩

end RuleEngine
