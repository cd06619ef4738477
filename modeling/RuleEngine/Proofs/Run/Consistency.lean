import RuleEngine.Proofs.Run.Step

/-!
# Consistency of records

What every version of a record has to say about the execution of its rule: the times, the error,
the trace of the conditions and the steps of the actions go with the status. A run that stands as
its stage demands writes consistent versions only, whatever the conditions yield and whatever the
handlers answer.

## Main definitions

* `Combination.Met`: all or any of the conditions in a trace have passed.
* `Action.IsOrdering`: actions by ascending order, with ties as they are listed.
* `ExecutionRecord.Consistent`: a version goes with an execution of a rule.
* `Run.Sound`, `Job.Sound`: the record of a run is as its stage demands.

## Main results

* `Rule.isOrdering_orderedActions`: the actions of a rule are put in this order.
* `Run.Sound.consistent_of_writes`: a sound run writes consistent versions only.
* `Run.Sound.of_writes`, `Run.Sound.judged`, `Run.Sound.called`, `Run.Sound.answered`: a sound run
  stays sound.
* `ExecutionRecord.Consistent.abandon`: a consistent record that is abandoned stays consistent.
-/

namespace RuleEngine

/-! ### What traces and steps are about -/

/-- The condition that a trace is about. -/
def ConditionResult.condition (c : ConditionResult) : Condition :=
  ⟨c.field, c.operator, c.expected⟩

/-- The action that a step is about. -/
def ActionStep.action (s : ActionStep) : Action := ⟨s.order, s.actionType, s.parameters⟩

@[simp] theorem Action.action_step (a : Action) (o : ActionOutcome) (t u : Timestamp) :
    (a.step o t u).action = a := rfl

@[simp] theorem Action.succeeded_step (a : Action) (o : ActionOutcome) (t u : Timestamp) :
    (a.step o t u).succeeded = o.succeeded := by
  cases h : o.succeeded <;> simp [Action.step, ActionStep.succeeded, h]

/-- The trace of a condition is about the condition, whatever it yields. -/
theorem Condition.condition_evaluate (c : Condition) (lookup : Lookup)
    (context : TriggerContext) : (c.evaluate lookup context).1.condition = c := by
  have hjudge (found : Option Value) : (c.judge found).condition = c := by
    cases found <;> rfl
  have hchange : (c.evaluateChange context).condition = c := by
    unfold evaluateChange
    repeat' split
    all_goals rfl
  unfold evaluate
  split
  · exact hchange
  · exact hjudge _

/-! ### Combined conditions -/

/-- The results of all conditions hold, or those of some do. -/
theorem Combination.combine_eq_true_iff {c : Combination} {results : List Bool} :
    c.combine results = true ↔
      match c with
      | .all => ∀ b ∈ results, b = true
      | .any => ∃ b ∈ results, b = true := by
  cases c <;> simp [combine]

/-- Whether all the conditions in a trace have passed, or any, as the combination asks for. -/
def Combination.Met : Combination → List ConditionResult → Prop
  | .all, trace => ∀ c ∈ trace, c.passed = true
  | .any, trace => ∃ c ∈ trace, c.passed = true

/-! ### The order of actions -/

/-- Whether actions are those of a list by ascending order, where those of the same order are in the
order of the list. -/
structure Action.IsOrdering (actions ordered : List Action) : Prop where
  perm : ordered.Perm actions
  ascending : ordered.Pairwise fun a b => a.order ≤ b.order
  ties : ∀ n, ordered.filter (·.order = n) = actions.filter (·.order = n)

/-- Actions by order compare as their orders do. -/
private theorem order_le_trans (a b c : Action) (hab : decide (a.order ≤ b.order) = true)
    (hbc : decide (b.order ≤ c.order) = true) : decide (a.order ≤ c.order) = true :=
  decide_eq_true (Nat.le_trans (of_decide_eq_true hab) (of_decide_eq_true hbc))

private theorem order_le_total (a b : Action) :
    (decide (a.order ≤ b.order) || decide (b.order ≤ a.order)) = true := by
  simpa using Nat.le_total a.order b.order

theorem Rule.isOrdering_orderedActions (r : Rule) :
    Action.IsOrdering r.actions r.orderedActions where
  perm := List.mergeSort_perm r.actions _
  ascending :=
    (List.pairwise_mergeSort order_le_trans order_le_total r.actions).imp of_decide_eq_true
  ties n := by
    have hperm : (r.orderedActions.filter (·.order = n)).Perm (r.actions.filter (·.order = n)) :=
      (List.mergeSort_perm r.actions _).filter _
    have hpairwise : (r.actions.filter (·.order = n)).Pairwise
        fun a b => decide (a.order ≤ b.order) = true := by
      refine List.pairwise_filter.mpr (List.pairwise_of_forall fun a b ha hb => ?_)
      simp only [decide_eq_true_eq] at ha hb ⊢
      omega
    -- the actions of one order stand in the sorted list as they do in the rule, with no others
    have hsublist : (r.actions.filter (·.order = n)).Sublist r.orderedActions :=
      List.sublist_mergeSort order_le_trans order_le_total hpairwise List.filter_sublist
    have hfilter := hsublist.filter (·.order = n)
    rw [List.filter_filter] at hfilter
    simp only [Bool.and_self] at hfilter
    exact (hfilter.eq_of_length hperm.length_eq.symm).symm

/-! ### Consistent versions -/

namespace ExecutionRecord

/-- Whether the trace has an entry for every condition of a rule, and the verdict is that the
conditions are met. -/
def Judged (rule : Rule) (verdict : Bool) (v : ExecutionRecord) : Prop :=
  v.conditions.map ConditionResult.condition = rule.conditions ∧
    (verdict = true ↔ rule.combination.Met v.conditions)

/-- Whether actions are those that a rule tries first, in order. -/
def BeginsWith (rule : Rule) (tried : List Action) : Prop :=
  ∃ ordered, Action.IsOrdering rule.actions ordered ∧ tried <+: ordered

/-- Whether actions were tried up to a failure: all steps were successful, or all but the last,
which failed with a message. -/
inductive Carried : Option String → List ActionStep → Prop
  | through {steps : List ActionStep} (h : ∀ s ∈ steps, s.succeeded = true) : Carried none steps
  | failed {done : List ActionStep} {last : ActionStep} {message : String}
      (h : ∀ s ∈ done, s.succeeded = true) (hl : last.succeeded = false)
      (hm : last.message = some message) : Carried (some message) (done ++ [last])

/-- What a version of a record with a status holds of the conditions and actions of a rule. -/
def Content (rule : Rule) (v : ExecutionRecord) : ExecutionStatus → Prop
  | .pending | .evaluating => v.conditions = [] ∧ v.steps = []
  | .conditionsNotMet => v.Judged rule false ∧ v.steps = []
  | .conditionsMet => v.Judged rule true ∧ v.steps = []
  | .runningActions => v.Judged rule true ∧
    BeginsWith rule (v.steps.map ActionStep.action) ∧ ∃ failure, Carried failure v.steps
  | .completed => v.Judged rule true ∧
    Action.IsOrdering rule.actions (v.steps.map ActionStep.action) ∧
    ∀ s ∈ v.steps, s.succeeded = true
  | .failed => v.Judged rule true ∧
    BeginsWith rule (v.steps.map ActionStep.action) ∧
    ∃ done last, v.steps = done ++ [last] ∧ (∀ s ∈ done, s.succeeded = true) ∧
      last.succeeded = false ∧ v.error = last.message
  | .abandoned => True

/-- Whether a version of a record goes with an execution of a rule. -/
structure Consistent (rule : Rule) (v : ExecutionRecord) : Prop where
  ruleId : v.ruleId = rule.id
  finishedAt : v.finishedAt.isSome = v.status.isTerminal
  delayedUntil : v.delayedUntil.isSome = true →
    v.status = .conditionsMet ∧ ∃ seconds, rule.delaySeconds = some seconds ∧ seconds ≠ 0
  error : v.error.isSome = true ↔ v.status = .failed
  content : v.Content rule v.status

/-- A record that has not ended is consistent after a move if its delay, its error and the rest of
it are as the new status demands. -/
theorem consistent_moved {rule : Rule} (v : ExecutionRecord) (target : ExecutionStatus)
    (hid : v.ruleId = rule.id) (hf : v.finishedAt = none)
    (hd : target.isTerminal = false → v.delayedUntil.isSome = true →
      target = .conditionsMet ∧ ∃ seconds, rule.delaySeconds = some seconds ∧ seconds ≠ 0)
    (he : v.error.isSome = true ↔ target = .failed) (hc : v.Content rule target)
    (now : Timestamp) : (v.moved target now).Consistent rule where
  ruleId := hid
  finishedAt := by
    cases ht : target.isTerminal <;> simp [moved, ht, hf]
  delayedUntil := by
    cases ht : target.isTerminal with
    | true => simp [moved, ht]
    | false => simpa [moved, ht] using hd ht
  error := he
  content := by
    cases target <;> exact hc

/-- The last minute of a rule has no part in its executions. -/
theorem Consistent.of_lastTick {rule : Rule} {tick : Option Timestamp} {v : ExecutionRecord}
    (h : v.Consistent { rule with lastTick := tick }) : v.Consistent rule where
  ruleId := h.ruleId
  finishedAt := h.finishedAt
  delayedUntil := h.delayedUntil
  error := h.error
  content := h.content

/-- The record of a rule that has just fired is consistent. -/
theorem consistent_pending (id : ExecutionId) (rule : Rule) (context : TriggerContext)
    (now : Timestamp) : (pending id rule context now).Consistent rule := by
  constructor <;> simp [pending, ExecutionStatus.isTerminal, Content]

theorem Consistent.error_eq_none {rule : Rule} {v : ExecutionRecord} (h : v.Consistent rule)
    (hv : v.status ≠ .failed) : v.error = none := by
  cases hm : v.error with
  | none => rfl
  | some message => exact absurd (h.error.mp (by rw [hm]; rfl)) hv

theorem Consistent.finishedAt_eq_none {rule : Rule} {v : ExecutionRecord} (h : v.Consistent rule)
    (hv : v.status.isTerminal = false) : v.finishedAt = none := by
  have hf := h.finishedAt
  rw [hv] at hf
  exact Option.not_isSome_iff_eq_none.mp (Bool.eq_false_iff.mp hf)

/-- A consistent record that has not ended is consistent when it is abandoned. -/
theorem Consistent.abandon {rule : Rule} {v : ExecutionRecord} (h : v.Consistent rule)
    (hv : v.status.isTerminal = false) (now : Timestamp) :
    (v.moved .abandoned now).Consistent rule := by
  have hn : v.status ≠ .failed := by
    intro hs
    rw [hs] at hv
    cases hv
  refine consistent_moved v .abandoned h.ruleId (h.finishedAt_eq_none hv) (fun ht => by cases ht) ?_
    trivial now
  simp [h.error_eq_none hn]

end ExecutionRecord

/-- A delay that lasts is one of some seconds. -/
theorem Rule.seconds_of_executionDelay {r : Rule} {d : Duration}
    (h : r.executionDelay = .lasting d) :
    ∃ seconds, r.delaySeconds = some seconds ∧ seconds ≠ 0 := by
  unfold executionDelay at h
  split at h
  case h_1 | h_2 => cases h
  case h_3 seconds hz hs => exact ⟨seconds, hs, hz⟩

namespace Run

open ExecutionRecord

/-! ### Sound runs -/

/-- What the record of a run holds in a stage. -/
def Stands (r : Run) : Prop :=
  match r.stage with
  | .opening | .evaluating => r.record.conditions = [] ∧ r.record.steps = []
  | .declining => r.record.Judged r.rule false ∧ r.record.steps = []
  | .accepting | .starting => r.record.Judged r.rule true ∧ r.record.steps = []
  | .calling action rest | .awaiting action _ rest => r.record.Judged r.rule true ∧
    Carried none r.record.steps ∧
    r.record.steps.map ActionStep.action ++ action :: rest = r.rule.orderedActions
  | .noting failure rest => r.record.Judged r.rule true ∧ Carried failure r.record.steps ∧
    r.record.steps.map ActionStep.action ++ rest = r.rule.orderedActions
  | .closing failure => r.record.Judged r.rule true ∧ Carried failure r.record.steps ∧
    ∃ rest, r.record.steps.map ActionStep.action ++ rest = r.rule.orderedActions ∧
      (failure = none → rest = [])

/-- Whether the record of a run is as the stage demands. -/
structure Sound (r : Run) : Prop where
  steady : r.IsSteady
  stands : r.Stands
  ruleId : r.record.ruleId = r.rule.id
  finishedAt : r.record.finishedAt = none
  error : r.record.error = none
  delayedUntil : r.record.delayedUntil.isSome = true →
    r.stage = .starting ∧ ∃ seconds, r.rule.delaySeconds = some seconds ∧ seconds ≠ 0

/-- The conditions of a rule are judged by its trace, which is about all of them. -/
theorem judged_evaluate (r : Run) (lookup : Lookup) :
    (r.judged (r.rule.evaluate lookup r.context)).record.Judged r.rule
      (r.rule.evaluate lookup r.context).passed := by
  refine ⟨?_, ?_⟩
  · simp only [judged, Rule.evaluate, List.map_map]
    calc r.rule.conditions.map _ = r.rule.conditions.map (fun c => c) :=
          List.map_congr_left fun c _ => c.condition_evaluate lookup r.context
      _ = r.rule.conditions := List.map_id' _
  · change r.rule.combination.combine ((r.rule.evaluate lookup r.context).trace.map (·.passed)) =
      true ↔ r.rule.combination.Met (r.rule.evaluate lookup r.context).trace
    rw [Combination.combine_eq_true_iff]
    cases r.rule.combination <;> simp [Combination.Met]

/-- A run whose conditions were evaluated stays sound. -/
theorem Sound.judged {r : Run} (h : r.Sound) (hs : r.stage = .evaluating) (lookup : Lookup) :
    (r.judged (r.rule.evaluate lookup r.context)).Sound := by
  have hstands : r.record.conditions = [] ∧ r.record.steps = [] := by
    simpa only [Stands, hs] using h.stands
  have hd : r.record.delayedUntil.isSome = true → False := fun hd => by
    have := (h.delayedUntil hd).1
    simp [hs] at this
  have hj := r.judged_evaluate lookup
  refine ⟨h.steady.judged hs _, ?_, h.ruleId, h.finishedAt, h.error, fun hn => (hd hn).elim⟩
  cases hp : (r.rule.evaluate lookup r.context).passed with
  | true =>
    rw [hp] at hj
    simp only [Stands, Run.judged, hp, if_true]
    exact ⟨hj, hstands.2⟩
  | false =>
    rw [hp] at hj
    simp only [Stands, Run.judged, hp, Bool.false_eq_true, if_false]
    exact ⟨hj, hstands.2⟩

/-- A run that has called a handler stays sound. -/
theorem Sound.called {r : Run} {a : Action} {rest : List Action} (h : r.Sound)
    (hs : r.stage = .calling a rest) (now : Timestamp) : (r.called a rest now).Sound := by
  refine ⟨h.steady.called hs, ?_, h.ruleId, h.finishedAt, h.error, fun hd => ?_⟩
  · simpa only [Stands, Run.called, hs] using h.stands
  · have := (h.delayedUntil hd).1
    simp [hs] at this

/-- A run whose action came to an outcome stays sound, with one more step. -/
theorem Sound.answered {r : Run} {a : Action} {rest : List Action} {t : Timestamp}
    (h : r.Sound) (hs : r.stage = .calling a rest ∨ ∃ u, r.stage = .awaiting a u rest)
    (o : ActionOutcome) (now : Timestamp) : (r.answered a t rest o now).Sound := by
  have hstands : r.record.Judged r.rule true ∧ Carried none r.record.steps ∧
      r.record.steps.map ActionStep.action ++ a :: rest = r.rule.orderedActions := by
    have := h.stands
    rcases hs with hs | ⟨u, hs⟩ <;> simpa only [Stands, hs] using this
  obtain ⟨hj, hc, ho⟩ := hstands
  have hrun : r.record.status = .runningActions := by
    rcases hs with hs | ⟨u, hs⟩ <;> exact h.steady.trans (by rw [hs]; rfl)
  have hdone : ∀ s ∈ r.record.steps, s.succeeded = true := by
    cases hc
    assumption
  refine ⟨.answered hrun a t rest o now, ?_, h.ruleId, h.finishedAt, h.error, fun hd => ?_⟩
  · simp only [Stands, Run.answered]
    refine ⟨hj, ?_, by simpa using ho⟩
    by_cases hok : o.succeeded = true
    · rw [if_pos hok]
      refine .through fun s hm => ?_
      rcases List.mem_append.mp hm with hm | hm
      · exact hdone s hm
      · rw [List.mem_singleton.mp hm, Action.succeeded_step, hok]
    · rw [if_neg hok]
      exact .failed hdone (by simpa using hok) rfl
  · have hn := (h.delayedUntil hd).1
    rcases hs with hs | ⟨u, hs⟩ <;> simp [hs] at hn

theorem Sound.delayedUntil_eq_none {r : Run} (h : r.Sound) (hs : r.stage ≠ .starting) :
    r.record.delayedUntil = none := by
  cases hd : r.record.delayedUntil with
  | none => rfl
  | some t => exact absurd (h.delayedUntil (by rw [hd]; rfl)).1 hs

/-- A sound run writes consistent versions only. -/
theorem Sound.consistent_of_writes {r : Run} {now : Timestamp} {v : ExecutionRecord}
    {p : RunProgress} (h : r.Sound) (hw : r.Writes now v p) : v.Consistent r.rule := by
  have hst := h.stands
  have hd := h.delayedUntil_eq_none
  have hn := h.error
  cases hw with
  | opening hs ha =>
    simp only [Stands, hs] at hst
    exact consistent_moved r.record .evaluating h.ruleId h.finishedAt (by simp [hd, hs])
      (by simp [hn]) hst now
  | declining hs ha =>
    simp only [Stands, hs] at hst
    exact consistent_moved r.record .conditionsNotMet h.ruleId h.finishedAt (by simp [hd, hs])
      (by simp [hn]) hst now
  | accepting hs he ha =>
    simp only [Stands, hs] at hst
    exact consistent_moved r.record .conditionsMet h.ruleId h.finishedAt (by simp [hd, hs])
      (by simp [hn]) hst now
  | parking d runAt hs he ht ha =>
    simp only [Stands, hs] at hst
    have hsec := Rule.seconds_of_executionDelay he
    exact consistent_moved { r.record with delayedUntil := some runAt } .conditionsMet h.ruleId
      h.finishedAt (fun _ _ => ⟨rfl, hsec⟩)
      (by simp [hn]) hst now
  | starting hs ha =>
    simp only [Stands, hs] at hst
    refine consistent_moved { r.record with delayedUntil := none } .runningActions h.ruleId
      h.finishedAt (by simp) (by simp [hn]) ⟨hst.1, ?_⟩ now
    simp only [hst.2, List.map_nil]
    exact ⟨⟨_, r.rule.isOrdering_orderedActions, List.nil_prefix⟩, none, .through (by simp)⟩
  | noting failure rest hs =>
    simp only [Stands, hs] at hst
    have hrun : r.record.status = .runningActions := h.steady.trans (by rw [hs]; rfl)
    refine ⟨h.ruleId, by simp [h.finishedAt, hrun, ExecutionStatus.isTerminal],
      by simp [hd, hs], by simp [hn, hrun], ?_⟩
    rw [hrun]
    exact ⟨hst.1, ⟨_, r.rule.isOrdering_orderedActions, rest, hst.2.2⟩, failure, hst.2.1⟩
  | closing failure hs ha =>
    simp only [Stands, hs] at hst
    obtain ⟨hj, hc, rest, ho, hr⟩ := hst
    generalize hsteps : r.record.steps = steps at hc
    cases hc with
    | through hok =>
      rw [hr rfl, List.append_nil] at ho
      exact consistent_moved { r.record with error := none <|> r.record.error } .completed
        h.ruleId h.finishedAt (fun ht => by cases ht) (by simp [hn])
        ⟨hj, ho ▸ r.rule.isOrdering_orderedActions, hsteps ▸ hok⟩ now
    | @failed done last message hok hl hm =>
      exact consistent_moved { r.record with error := some message <|> r.record.error } .failed
        h.ruleId h.finishedAt (fun ht => by cases ht) (by simp)
        ⟨hj, ⟨_, r.rule.isOrdering_orderedActions, rest, ho⟩, done, last, hsteps, hok, hl,
          hm.symm⟩ now

/-- A sound run whose version was accepted stays sound. -/
theorem Sound.of_writes {r r' : Run} {now : Timestamp} {v : ExecutionRecord} (h : r.Sound)
    (hw : r.Writes now v (.going r')) : r'.Sound := by
  have hsteady := h.steady.of_writes hw
  have hst := h.stands
  have hd := h.delayedUntil_eq_none
  cases hw with
  | opening hs ha =>
    simp only [Stands, hs] at hst
    exact ⟨hsteady, hst, h.ruleId, h.finishedAt, h.error, by simp [moved, hd, hs]⟩
  | accepting hs he ha =>
    simp only [Stands, hs] at hst
    exact ⟨hsteady, hst, h.ruleId, h.finishedAt, h.error, by simp [moved, hd, hs]⟩
  | starting hs ha =>
    simp only [Stands, hs] at hst
    refine ⟨hsteady, ?_, h.ruleId, h.finishedAt, h.error, by simp [moved]⟩
    have hc : Carried none r.record.steps := .through (by simp [hst.2])
    cases ho : r.rule.orderedActions with
    | nil => exact ⟨hst.1, hc, [], by simp [hst.2, ho], fun _ => rfl⟩
    | cons a rest => exact ⟨hst.1, hc, by simp [hst.2, ho]⟩
  | noting failure rest hs =>
    simp only [Stands, hs] at hst
    refine ⟨hsteady, ?_, h.ruleId, h.finishedAt, h.error, by simp [hd, hs]⟩
    obtain ⟨hj, hc, ho⟩ := hst
    cases failure with
    | some message => exact ⟨hj, hc, rest, ho, fun hn => by cases hn⟩
    | none => cases rest with
      | nil => exact ⟨hj, hc, [], ho, fun _ => rfl⟩
      | cons a rest => exact ⟨hj, hc, ho⟩

end Run

/-! ### Sound jobs -/

/-- Whether a job can be run, and its run is sound. -/
def Job.Sound (j : Job) : Prop := ∃ r, Run.ofJob j = .ok r ∧ r.Sound

namespace Run

/-- A sound run that is parked comes back sound. -/
theorem Sound.of_deferred {r : Run} {now runAt : Timestamp} {v : ExecutionRecord} {j : Job}
    (h : r.Sound) (hw : r.Writes now v (.ended (.deferred j runAt))) : j.Sound := by
  cases hw with
  | parking d _ hs he ht ha =>
    have hst := h.stands
    simp only [Stands, hs] at hst
    exact ⟨_, ofJob_eq_ok_iff.mpr (.inr ⟨rfl, rfl⟩), rfl, hst, h.ruleId, h.finishedAt, h.error,
      fun _ => ⟨rfl, Rule.seconds_of_executionDelay he⟩⟩

end Run

/-- The job of a rule that has just fired is sound. -/
theorem Job.sound_pending (id : ExecutionId) (rule : Rule) (context : TriggerContext)
    (now : Timestamp) : (Job.mk rule context (.pending id rule context now)).Sound :=
  ⟨_, Run.ofJob_eq_ok_iff.mpr (.inl ⟨rfl, rfl⟩), rfl, ⟨rfl, rfl⟩, rfl, rfl, rfl,
    fun hd => by cases hd⟩

/-- The run of a sound job is sound. -/
theorem Job.Sound.run {j : Job} {r : Run} (h : j.Sound) (hr : Run.ofJob j = .ok r) : r.Sound := by
  obtain ⟨r', hr', hs⟩ := h
  cases hr.symm.trans hr'
  exact hs

/-! ### A rule -/

namespace Sample

/-- A rule that logs a greeting for every order that is created. -/
def rule : Rule where
  id := .numbered 0
  tenant := "acme"
  name := "greet"
  trigger := .event "order" .created
  combination := .all
  active := true
  delaySeconds := none
  conditions := []
  actions := [⟨0, Handler.logType, Dictionary.empty.insert "message" (.string "hello")⟩]
  lastTick := none
  createdAt := .epoch
  updatedAt := .epoch

/-- An order that was created. -/
def order : ChangeNotification := ⟨"acme", "order", .created, "17", none, none⟩

/-- The record of the execution of a rule for the order. -/
def record (rule : Rule) : ExecutionRecord :=
  .pending (.numbered 0) rule (.ofChange order .epoch) .epoch

end Sample

end RuleEngine
