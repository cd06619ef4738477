import RuleEngine.Proofs.Run.Path

/-!
# Alike runs

Two runs are alike if they are in the same stage with records that differ in times only, and if the
rule of the second one has no delay. Alike runs stay alike: what their conditions and their handlers
come to does not depend on the times, and the logs accept what they write. If the first one is
parked, the second one has come as far, and is alike the run that is to come back. So the versions
that they write are the same but for their times, and so is the record in the end.

## Main definitions

* `ExecutionRecord.untimed`: a record without the times that differ from run to run.
* `Run.Alike`: runs that differ in times and in the delay of their rule only.
* `Run.Matches`: what steps of alike runs lead to.

## Main results

* `Run.Alike.step`: the next steps of alike runs match.
* `Run.Alike.paths`: alike runs come to the same, or one of them is parked on the way.
-/

namespace RuleEngine

/-! ### Records without their times -/

/-- The step of an action without its times. -/
def ActionStep.untimed (s : ActionStep) : ActionStep :=
  { s with startedAt := .epoch, finishedAt := .epoch }

namespace ExecutionRecord

/-- The record without the times that differ from run to run: whether it has ended is kept, and
when it started. -/
def untimed (v : ExecutionRecord) : ExecutionRecord :=
  { v with
    steps := v.steps.map ActionStep.untimed
    delayedUntil := none
    finishedAt := v.finishedAt.map fun _ => .epoch }

variable {v w : ExecutionRecord}

/-- A move changes the status of a record and whether it has ended. -/
theorem untimed_moved (v : ExecutionRecord) (target : ExecutionStatus) (now : Timestamp) :
    (v.moved target now).untimed = { v.untimed with
      status := target
      finishedAt := if target.isTerminal then some .epoch else v.untimed.finishedAt } := by
  cases ht : target.isTerminal <;> simp [untimed, moved, ht]

theorem untimed_moved_congr (h : v.untimed = w.untimed) (target : ExecutionStatus)
    (now now' : Timestamp) : (v.moved target now).untimed = (w.moved target now').untimed := by
  rw [untimed_moved, untimed_moved, h]

theorem status_congr (h : v.untimed = w.untimed) : v.status = w.status :=
  congrArg (·.status) h

/-- A step that comes to the same outcome is the same but for its times. -/
theorem untimed_concat_step (h : v.untimed = w.untimed) (a : Action) (o : ActionOutcome)
    (t u t' u' : Timestamp) :
    { v with steps := v.steps ++ [a.step o t u] }.untimed =
      { w with steps := w.steps ++ [a.step o t' u'] }.untimed := by
  have hadd (v : ExecutionRecord) (t u : Timestamp) :
      { v with steps := v.steps ++ [a.step o t u] }.untimed =
        { v.untimed with steps := v.untimed.steps ++ [a.step o .epoch .epoch] } := by
    simp [untimed, ActionStep.untimed, Action.step]
  rw [hadd, hadd, h]

end ExecutionRecord

/-! ### Versions that are written -/

/-- The version that an event writes, if it does. -/
def RunEvent.written? : RunEvent → Option ExecutionRecord
  | .wrote v => some v
  | .refused .. | .called _ => none

/-- Calls write nothing. -/
theorem RunEvent.filterMap_written?_called (calls : List Invocation) :
    (calls.map RunEvent.called).filterMap RunEvent.written? = [] := by
  rw [List.filterMap_map]
  exact List.filterMap_eq_nil_iff.mpr fun _ _ => rfl

namespace Run

variable {σ : Type} [ExecutionLog σ]

/-- The versions that the steps of a run write. -/
def versions (steps : List (Engine σ × Run)) : List ExecutionRecord :=
  (observed steps).filterMap RunEvent.written?

theorem versions_cons (e : Engine σ) (r : Run) (steps : List (Engine σ × Run)) :
    versions ((e, r) :: steps) = (e.observe r).filterMap RunEvent.written? ++ versions steps :=
  List.filterMap_append

theorem versions_append (steps later : List (Engine σ × Run)) :
    versions (steps ++ later) = versions steps ++ versions later := by
  rw [versions, observed_append, List.filterMap_append, versions, versions]

variable {e : Engine σ} {r : Run} {v : ExecutionRecord} {p : RunProgress}

/-- A move that is allowed is saved if the log accepts it. -/
private theorem save_of_allows {s s' : σ} {base : ExecutionRecord} {target : ExecutionStatus}
    {now : Timestamp} {next : ExecutionRecord → RunProgress}
    (ho : ExecutionLog.updateRecord s (base.moved target now) = .ok s')
    (ha : base.status.allows target = true) :
    save s (base.transition target now) next = (next (base.moved target now), s') := by
  rw [ExecutionRecord.transition_of_allows ha]
  simp only [save, ho]

/-- A run whose version is not refused writes it, and goes on as it does after it. -/
theorem Writes.stepRun_eq (hw : r.Writes e.clock v p)
    (hacc : ∀ w error, RunEvent.refused w error ∉ e.observe r) :
    e.observe r = [.wrote v] ∧ (e.stepRun r).1 = p := by
  have hv := hw.version?_eq
  cases ho : ExecutionLog.updateRecord e.store v with
  | error error => exact absurd (by simp [Engine.observe, hv, ho]) (hacc v error)
  | ok s =>
    refine ⟨by simp only [Engine.observe, hv, ho], ?_⟩
    cases hw with
    | opening hs ha | declining hs ha | starting hs ha | closing failure hs ha =>
      simp only [Engine.stepRun, hs, write]
      exact congrArg Prod.fst (save_of_allows ho ha)
    | accepting hs hd ha =>
      simp only [Engine.stepRun, hs, write, accept, hd]
      exact congrArg Prod.fst (save_of_allows ho ha)
    | parking d runAt hs hd ht ha =>
      simp only [Engine.stepRun, hs, write, accept, hd, ht]
      exact congrArg Prod.fst (save_of_allows ho ha)
    | noting failure rest hs => simp only [Engine.stepRun, hs, write, save, ho]

/-- A step that asks for no version writes none. -/
theorem written_of_version?_eq_none (hn : r.version? e.clock = none) :
    (e.observe r).filterMap RunEvent.written? = [] := by
  rw [Engine.observe, hn]
  exact RunEvent.filterMap_written?_called _

/-! ### Alike runs -/

/-- Whether two runs are in the same stage of the same execution, with records that differ in times
only; the rule of the second one has no delay. -/
structure Alike (r r₀ : Run) : Prop where
  rule : r₀.rule = { r.rule with delaySeconds := none }
  context : r₀.context = r.context
  record : r.record.untimed = r₀.record.untimed
  stage : r₀.stage = r.stage

/-- Whether steps of two runs lead to alike runs, or to records that differ in times only. A run
that is parked is to come back as the other one goes on. -/
inductive Matches : RunProgress → RunProgress → Prop
  | going {r r₀ : Run} (h : Alike r r₀) : Matches (.going r) (.going r₀)
  | finished {v v₀ : ExecutionRecord} (h : v.untimed = v₀.untimed) (hd : v.delayedUntil = none)
      (hd₀ : v₀.delayedUntil = none) : Matches (.ended (.finished v)) (.ended (.finished v₀))
  | parked {j : Job} {runAt : Timestamp} {r r₀ : Run} (hj : Run.ofJob j = .ok r)
      (h : Alike r r₀) : Matches (.ended (.deferred j runAt)) (.going r₀)

variable {e₀ : Engine σ} {r₀ : Run} {v₀ : ExecutionRecord} {p₀ : RunProgress}

/-- Two steps that write versions which differ in times only, and lead to what matches. -/
private theorem matches_of_writes (hw : r.Writes e.clock v p) (hw₀ : r₀.Writes e₀.clock v₀ p₀)
    (hacc : ∀ w error, RunEvent.refused w error ∉ e.observe r)
    (hacc₀ : ∀ w error, RunEvent.refused w error ∉ e₀.observe r₀)
    (hv : v.untimed = v₀.untimed) (hp : Matches p p₀) :
    Matches (e.stepRun r).1 (e₀.stepRun r₀).1 ∧
      ((e.observe r).filterMap RunEvent.written?).map ExecutionRecord.untimed =
        ((e₀.observe r₀).filterMap RunEvent.written?).map ExecutionRecord.untimed := by
  obtain ⟨hobs, hstep⟩ := hw.stepRun_eq hacc
  obtain ⟨hobs₀, hstep₀⟩ := hw₀.stepRun_eq hacc₀
  rw [hobs, hstep, hobs₀, hstep₀]
  exact ⟨hp, congrArg (fun w => [w]) hv⟩

/-- Whether the lookup and the handlers of an engine answer a step of a run as they are to. -/
structure Suits (lookup : Lookup) (answer : Action → ActionOutcome) (e : Engine σ) (r : Run) :
    Prop where
  lookup : r.stage = .evaluating → e.lookup = lookup
  reply : ∀ a rest, r.stage = .calling a rest → e.reply r a = answer a

/-- The next steps of alike runs match, and write versions that differ in times only, if lookups and
handlers answer alike, nothing is refused, and a delay leads to an instant. -/
theorem Alike.step {lookup : Lookup} {answer : Action → ActionOutcome} (h : Alike r r₀)
    (hr : r.IsSteady) (hs : Suits lookup answer e r) (hs₀ : Suits lookup answer e₀ r₀)
    (hacc : ∀ w error, RunEvent.refused w error ∉ e.observe r)
    (hacc₀ : ∀ w error, RunEvent.refused w error ∉ e₀.observe r₀)
    (ht : (e.stepRun r).1 ≠ .ended .outOfTime) :
    Matches (e.stepRun r).1 (e₀.stepRun r₀).1 ∧
      ((e.observe r).filterMap RunEvent.written?).map ExecutionRecord.untimed =
        ((e₀.observe r₀).filterMap RunEvent.written?).map ExecutionRecord.untimed := by
  have hl (he : r.stage = .evaluating) : e₀.lookup = e.lookup :=
    (hs₀.lookup (h.stage.trans he)).trans (hs.lookup he).symm
  have ha (a : Action) (rest : List Action) (hc : r.stage = .calling a rest) :
      e₀.reply r₀ a = e.reply r a :=
    (hs₀.reply a rest (h.stage.trans hc)).trans (hs.reply a rest hc).symm
  clear hs hs₀
  have hallows {stage : RunStage} (hs : r.stage = stage) (target : ExecutionStatus)
      (hmove : stage.status.allows target = true) : r.record.status.allows target = true := by
    rw [hr, hs]
    exact hmove
  have hstatus : r₀.record.status = r.record.status :=
    (ExecutionRecord.status_congr h.record).symm
  have hundelayed : r₀.rule.executionDelay = .none := by rw [h.rule]; rfl
  have hactions : r₀.rule.orderedActions = r.rule.orderedActions := by rw [h.rule]; rfl
  have hs₀ := h.stage
  have hmoved (target : ExecutionStatus) :
      (r.record.moved target e.clock).untimed = (r₀.record.moved target e₀.clock).untimed :=
    ExecutionRecord.untimed_moved_congr h.record target _ _
  have hsilent (hn : r.version? e.clock = none) (hn₀ : r₀.version? e₀.clock = none) :
      ((e.observe r).filterMap RunEvent.written?).map ExecutionRecord.untimed =
        ((e₀.observe r₀).filterMap RunEvent.written?).map ExecutionRecord.untimed := by
    rw [written_of_version?_eq_none hn, written_of_version?_eq_none hn₀]
  cases hs : r.stage with
  | opening =>
    rw [hs] at hs₀
    have hm := hallows hs .evaluating rfl
    exact matches_of_writes (.opening hs hm) (.opening hs₀ (hstatus ▸ hm)) hacc hacc₀
      (hmoved .evaluating) (.going ⟨h.rule, h.context, hmoved .evaluating, rfl⟩)
  | evaluating =>
    rw [hs] at hs₀
    have hsame : r₀.rule.evaluate e₀.lookup r₀.context = r.rule.evaluate e.lookup r.context := by
      rw [hl hs, h.rule, h.context]
      rfl
    have hstep : (e.stepRun r).1 = .going (r.judged (r.rule.evaluate e.lookup r.context)) := by
      simp only [Engine.stepRun, hs]
    have hstep₀ : (e₀.stepRun r₀).1 = .going (r₀.judged (r.rule.evaluate e.lookup r.context)) := by
      simp only [Engine.stepRun, hs₀, hsame]
    refine ⟨?_, hsilent (by simp only [version?, hs]) (by simp only [version?, hs₀])⟩
    rw [hstep, hstep₀]
    refine .going ⟨h.rule, h.context, ?_, rfl⟩
    exact congrArg (fun v : ExecutionRecord =>
      { v with conditions := (r.rule.evaluate e.lookup r.context).trace }) h.record
  | declining =>
    rw [hs] at hs₀
    have hm := hallows hs .conditionsNotMet rfl
    exact matches_of_writes (.declining hs hm) (.declining hs₀ (hstatus ▸ hm)) hacc hacc₀
      (hmoved .conditionsNotMet) (.finished (hmoved .conditionsNotMet) rfl rfl)
  | accepting =>
    rw [hs] at hs₀
    have hm := hallows hs .conditionsMet rfl
    have hw₀ : r₀.Writes e₀.clock _ _ := .accepting hs₀ hundelayed (hstatus ▸ hm)
    cases hd : r.rule.executionDelay with
    | none =>
      exact matches_of_writes (.accepting hs hd hm) hw₀ hacc hacc₀ (hmoved .conditionsMet)
        (.going ⟨h.rule, h.context, hmoved .conditionsMet, rfl⟩)
    | uncountable =>
      refine absurd ?_ ht
      simp only [Engine.stepRun, hs, write, accept, hd]
    | lasting d =>
      cases hadd : e.clock.add? d with
      | none =>
        refine absurd ?_ ht
        simp only [Engine.stepRun, hs, write, accept, hd, hadd]
      | some runAt =>
        have hparked : ({ r.record with delayedUntil := some runAt }.moved .conditionsMet
            e.clock).untimed = (r₀.record.moved .conditionsMet e₀.clock).untimed :=
          ExecutionRecord.untimed_moved_congr h.record .conditionsMet _ _
        exact matches_of_writes (.parking d runAt hs hd hadd hm) hw₀ hacc hacc₀ hparked
          (.parked (ofJob_eq_ok_iff.mpr (.inr ⟨rfl, rfl⟩)) ⟨h.rule, h.context, hparked, rfl⟩)
  | starting =>
    rw [hs] at hs₀
    have hm := hallows hs .runningActions rfl
    have hresumed : ({ r.record with delayedUntil := none }.moved .runningActions e.clock).untimed =
        ({ r₀.record with delayedUntil := none }.moved .runningActions e₀.clock).untimed :=
      ExecutionRecord.untimed_moved_congr h.record .runningActions _ _
    refine matches_of_writes (.starting hs hm) (.starting hs₀ (hstatus ▸ hm)) hacc hacc₀ hresumed
      (.going ⟨h.rule, h.context, hresumed, ?_⟩)
    exact congrArg RunStage.before hactions
  | calling a rest =>
    rw [hs] at hs₀
    refine ⟨?_, hsilent (by simp only [version?, hs]) (by simp only [version?, hs₀])⟩
    rw [Engine.stepRun_calling hs, Engine.stepRun_calling hs₀, ha a rest hs]
    exact .going ⟨h.rule, h.context, ExecutionRecord.untimed_concat_step h.record a _ _ _ _ _, rfl⟩
  | awaiting a t rest =>
    rw [hs] at hs₀
    refine ⟨?_, hsilent (by simp only [version?, hs]) (by simp only [version?, hs₀])⟩
    simp only [Engine.stepRun, hs, hs₀]
    exact .going ⟨h.rule, h.context, ExecutionRecord.untimed_concat_step h.record a _ _ _ _ _, rfl⟩
  | noting failure rest =>
    rw [hs] at hs₀
    exact matches_of_writes (.noting failure rest hs) (.noting failure rest hs₀) hacc hacc₀ h.record
      (.going ⟨h.rule, h.context, h.record, rfl⟩)
  | closing failure =>
    rw [hs] at hs₀
    have hm := hallows hs (finalStatus failure) (by cases failure <;> rfl)
    have herror : r.record.error = r₀.record.error := congrArg (·.error) h.record
    have hclosed : ({ r.record with error := failure <|> r.record.error }.moved
          (finalStatus failure) e.clock).untimed =
        ({ r₀.record with error := failure <|> r₀.record.error }.moved
          (finalStatus failure) e₀.clock).untimed := by
      refine ExecutionRecord.untimed_moved_congr ?_ _ _ _
      rw [herror]
      exact congrArg (fun v : ExecutionRecord =>
        { v with error := failure <|> r₀.record.error }) h.record
    have hfinal : (finalStatus failure).isTerminal = true := by cases failure <;> rfl
    refine matches_of_writes (.closing failure hs hm) (.closing failure hs₀ (hstatus ▸ hm)) hacc
      hacc₀ hclosed (.finished hclosed ?_ ?_)
    all_goals simp [ExecutionRecord.moved, hfinal]

/-- Alike runs of which no version is refused, and whose lookups and handlers answer alike, come to
records that differ in times only, having written the same versions up to times; or the first one is
parked, when the second one has come to a run like the one that is to come back. -/
theorem Alike.paths {lookup : Lookup} {answer : Action → ActionOutcome}
    {steps steps₀ : List (Engine σ × Run)} {ending ending₀ : RunEnding} (h : Alike r r₀)
    (hr : r.IsSteady) (hp : Path r steps (.ended ending)) (hp₀ : Path r₀ steps₀ (.ended ending₀))
    (hs : ∀ x ∈ steps, Suits lookup answer x.1 x.2)
    (hs₀ : ∀ x ∈ steps₀, Suits lookup answer x.1 x.2)
    (hacc : ∀ w error, RunEvent.refused w error ∉ observed steps)
    (hacc₀ : ∀ w error, RunEvent.refused w error ∉ observed steps₀) (ht : ending ≠ .outOfTime) :
    (∃ v v₀, ending = .finished v ∧ ending₀ = .finished v₀ ∧ v.untimed = v₀.untimed ∧
      v.delayedUntil = none ∧ v₀.delayedUntil = none ∧
      (versions steps).map ExecutionRecord.untimed =
        (versions steps₀).map ExecutionRecord.untimed) ∨
    ∃ j runAt first rest q q₀, ending = .deferred j runAt ∧ Run.ofJob j = .ok q ∧ Alike q q₀ ∧
      steps₀ = first ++ rest ∧ Path q₀ rest (.ended ending₀) ∧
      (versions steps).map ExecutionRecord.untimed =
        (versions first).map ExecutionRecord.untimed := by
  generalize hprogress : RunProgress.ended ending = p at hp
  induction hp generalizing r₀ steps₀ with
  | here r => cases hprogress
  | @on r r' later p e hstep hlater ih =>
    have hgoing : (e.stepRun r).1 ≠ .ended .outOfTime := by
      rw [hstep]
      exact fun hn => nomatch hn
    have hrun := e.runStep_stepRun r
    rw [hstep] at hrun
    have hr' := (steady_of_runStep hrun hr).1
    obtain ⟨hsuits, hslater⟩ := List.forall_mem_cons.mp hs
    simp only [observed_cons, List.mem_append, not_or, forall_and] at hacc
    cases hp₀ with
    | @on _ r₀' later₀ _ e₀ hstep₀ hlater₀ =>
      obtain ⟨hsuits₀, hslater₀⟩ := List.forall_mem_cons.mp hs₀
      simp only [observed_cons, List.mem_append, not_or, forall_and] at hacc₀
      obtain ⟨hmatch, hwritten⟩ := h.step hr hsuits hsuits₀ hacc.1 hacc₀.1 hgoing
      rw [hstep, hstep₀] at hmatch
      cases hmatch with
      | going halike =>
        obtain ⟨v, v₀, hv, hv₀, hsame, hd, hd₀, hw⟩ |
          ⟨j, runAt, first, rest, q, q₀, hj, hq, hqq, rfl, hrest, hw⟩ :=
          ih halike hr' hlater₀ hslater hslater₀ hacc.2 hacc₀.2 hprogress
        · refine .inl ⟨v, v₀, hv, hv₀, hsame, hd, hd₀, ?_⟩
          rw [versions_cons, versions_cons, List.map_append, List.map_append, hwritten, hw]
        · refine .inr ⟨j, runAt, (e₀, _) :: first, rest, q, q₀, hj, hq, hqq, rfl, hrest, ?_⟩
          rw [versions_cons, versions_cons, List.map_append, List.map_append, hwritten, hw]
    | last e₀ hstep₀ =>
      rw [observed_cons, observed_nil, List.append_nil] at hacc₀
      obtain ⟨hmatch, -⟩ := h.step hr hsuits (hs₀ _ (.head _)) hacc.1 hacc₀ hgoing
      rw [hstep, hstep₀] at hmatch
      cases hmatch
  | @last r ending' e hstep =>
    cases hprogress
    have htime : (e.stepRun r).1 ≠ .ended .outOfTime := by
      rw [hstep]
      rintro ⟨⟩
      exact ht rfl
    have hsuits := hs _ (.head _)
    rw [observed_cons, observed_nil, List.append_nil] at hacc
    cases hp₀ with
    | @on _ r₀' later₀ _ e₀ hstep₀ hlater₀ =>
      obtain ⟨hsuits₀, -⟩ := List.forall_mem_cons.mp hs₀
      simp only [observed_cons, List.mem_append, not_or, forall_and] at hacc₀
      obtain ⟨hmatch, hwritten⟩ := h.step hr hsuits hsuits₀ hacc hacc₀.1 htime
      rw [hstep, hstep₀] at hmatch
      cases hmatch with
      | parked hj halike =>
        refine .inr ⟨_, _, [(e₀, r₀)], later₀, _, r₀', rfl, hj, halike, rfl, hlater₀, ?_⟩
        rw [versions_cons, versions_cons, List.map_append, List.map_append, hwritten]
    | last e₀ hstep₀ =>
      rw [observed_cons, observed_nil, List.append_nil] at hacc₀
      obtain ⟨hmatch, hwritten⟩ := h.step hr hsuits (hs₀ _ (.head _)) hacc hacc₀ htime
      rw [hstep, hstep₀] at hmatch
      cases hmatch with
      | finished hsame hd hd₀ =>
        refine .inl ⟨_, _, rfl, rfl, hsame, hd, hd₀, ?_⟩
        rw [versions_cons, versions_cons, List.map_append, List.map_append, hwritten]

section

variable {lookup : Lookup} {answer : Action → ActionOutcome} {steps steps₀ : List (Engine σ × Run)}
  {ending ending₀ : RunEnding} (h : Alike r r₀) (hr : r.IsSteady)
  (hp : Path r steps (.ended ending)) (hp₀ : Path r₀ steps₀ (.ended ending₀))
  (hs₀ : ∀ x ∈ steps₀, Suits lookup answer x.1 x.2)
  (hacc₀ : ∀ w error, RunEvent.refused w error ∉ observed steps₀)

include h hr hp hp₀ hs₀ hacc₀

/-- If a run is parked, a run that is alike and has no delay has got as far by some of its steps,
and goes on like the one that is to come back. -/
theorem Alike.paths_of_deferred {j : Job} {runAt : Timestamp} (hj : ending = .deferred j runAt)
    (hs : ∀ x ∈ steps, Suits lookup answer x.1 x.2) :
    ∃ first rest q q₀, Run.ofJob j = .ok q ∧ Alike q q₀ ∧ steps₀ = first ++ rest ∧
      Path q₀ rest (.ended ending₀) ∧
      (versions steps).map ExecutionRecord.untimed =
        (versions first).map ExecutionRecord.untimed := by
  subst hj
  obtain ⟨v, v₀, hv, -⟩ | ⟨k, t, first, rest, q, q₀, hk, hfound⟩ :=
    h.paths hr hp hp₀ hs hs₀ (hp.accepted hr fun error hn => nomatch hn) hacc₀
      (fun hn => nomatch hn)
  · cases hv
  · cases hk
    exact ⟨first, rest, q, q₀, hfound⟩

/-- Past their conditions alike runs are finished, with records that differ in times only. -/
theorem Alike.paths_of_acting (ha : r.stage.isActing = true)
    (hs : ∀ x ∈ steps, ∀ a rest, x.2.stage = .calling a rest → x.1.reply x.2 a = answer a)
    (hacc : ∀ w error, RunEvent.refused w error ∉ observed steps) :
    ∃ v v₀, ending = .finished v ∧ ending₀ = .finished v₀ ∧ v.untimed = v₀.untimed ∧
      v.delayedUntil = none ∧ v₀.delayedUntil = none ∧
      (versions steps).map ExecutionRecord.untimed =
        (versions steps₀).map ExecutionRecord.untimed := by
  have hsuits (x) (hx : x ∈ steps) : Suits lookup answer x.1 x.2 :=
    ⟨fun he => absurd he (ne_evaluating_of_acting ((hp.acting ha).1 x hx)), hs x hx⟩
  obtain ⟨htime, hparked⟩ := hp.not_parked ha
  obtain hfinished | ⟨j, runAt, -, -, -, -, hj, -⟩ :=
    h.paths hr hp hp₀ hsuits hs₀ hacc hacc₀ htime
  · exact hfinished
  · exact absurd hj (hparked j runAt)

end

end Run

end RuleEngine
