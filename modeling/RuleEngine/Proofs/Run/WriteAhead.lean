import Mathlib.Data.List.Chain
import RuleEngine.Proofs.Run.History
import RuleEngine.Store.Memory

/-!
# Writing ahead

An engine that runs a job makes the steps of a course, so that what can be seen of it is a canonical
history or as much of one as there was. In such a history a handler is called right after the
version that reached the position of its action was accepted, and the next version, if there is
one, has one more step. A run that no write of which was refused is cut short in one case only: the
conditions are met, and the delay of the rule leads beyond the calendar.

## Main definitions

* `RunEvent.Precedes`: an event of a run may come right after another.
* `Engine.Accounts`: the store and the account of calls of an engine go with events.

## Main results

* `Job.Canonical.isChain`: the events of a canonical history may come after each other.
* `Engine.exists_course_run`: an engine that runs a job makes the steps of a course.
* `Engine.run_eq_outOfTime_iff`: when a run is cut short without a refusal.
* `Engine.history_of_run`: the history of every run of every job.
-/

namespace RuleEngine

/-! ### What comes after what -/

namespace RunEvent

/-- Whether an event of a run may come right after another one. A call comes after the version that
reached its position, and a version with one more step after a call. A version that comes after
another is of the same record and has at most one step more. Nothing comes after a refusal. -/
def Precedes : RunEvent → RunEvent → Prop
  | .wrote v, .called c =>
    v.status = .runningActions ∧ c.execution = v.id ∧ c.position = v.steps.length
  | .called c, .wrote w | .called c, .refused w _ =>
    w.status = .runningActions ∧ w.id = c.execution ∧ w.steps.length = c.position + 1
  | .wrote v, .wrote w | .wrote v, .refused w _ =>
    w.id = v.id ∧ (w.steps = v.steps ∨ ∃ s, w.steps = v.steps ++ [s])
  | .called _, .called _ | .refused .., _ => False

/-- A version may be refused where it may be accepted. -/
theorem Precedes.refused {x : RunEvent} {v : ExecutionRecord} (h : x.Precedes (.wrote v))
    (error : EngineError) : x.Precedes (.refused v error) := by
  cases x with
  | wrote w => exact h
  | called c => exact h
  | refused w error => exact h.elim

end RunEvent

open RunEvent

/-- The events of the actions may come after each other. -/
theorem ActionHistory.isChain {v : ExecutionRecord} {actions : List Action}
    {events : List RunEvent} (h : ActionHistory v actions events)
    (hv : v.status = .runningActions) : List.IsChain Precedes (.wrote v :: events) := by
  induction h with
  | completed v now => exact List.isChain_pair.mpr ⟨rfl, .inl rfl⟩
  | @succeeded v a rest s calls events hc hs hok h ih =>
    have hnext := ih hv
    rcases hc with rfl | rfl
    · exact List.isChain_cons_cons.mpr ⟨⟨rfl, .inr ⟨s, rfl⟩⟩, hnext⟩
    · refine List.isChain_cons_cons.mpr ⟨⟨hv, rfl, rfl⟩, List.isChain_cons_cons.mpr ⟨?_, hnext⟩⟩
      exact ⟨hv, rfl, by simp [ExecutionRecord.callOf]⟩
  | @failed v a rest s calls hc hs hok now =>
    have hend : Precedes (.wrote { v with steps := v.steps ++ [s] })
        (.wrote ({ v with steps := v.steps ++ [s], error := s.message }.moved .failed now)) :=
      ⟨rfl, .inl rfl⟩
    rcases hc with rfl | rfl
    · exact List.isChain_cons_cons.mpr ⟨⟨rfl, .inr ⟨s, rfl⟩⟩, List.isChain_pair.mpr hend⟩
    · refine List.isChain_cons_cons.mpr ⟨⟨hv, rfl, rfl⟩,
        List.isChain_cons_cons.mpr ⟨?_, List.isChain_pair.mpr hend⟩⟩
      exact ⟨hv, rfl, by simp [ExecutionRecord.callOf]⟩

theorem RunningHistory.isChain {rule : Rule} {v : ExecutionRecord} {events : List RunEvent}
    (h : RunningHistory rule v events) : List.IsChain Precedes (.wrote v :: events) := by
  obtain ⟨now, later, rfl, h⟩ := h
  exact List.isChain_cons_cons.mpr ⟨⟨rfl, .inl rfl⟩, h.isChain rfl⟩

theorem JudgedHistory.isChain {rule : Rule} {context : TriggerContext} {v : ExecutionRecord}
    {events : List RunEvent} (h : JudgedHistory rule context v events) :
    List.IsChain Precedes (.wrote v :: events) := by
  cases h with
  | declined lookup hp now => exact List.isChain_pair.mpr ⟨rfl, .inl rfl⟩
  | parked lookup hp hd runAt now => exact List.isChain_pair.mpr ⟨rfl, .inl rfl⟩
  | acted lookup hp hd now h => exact List.isChain_cons_cons.mpr ⟨⟨rfl, .inl rfl⟩, h.isChain⟩

/-- The events of a canonical history may come after each other, and after the version with which
the job came. -/
theorem Job.Canonical.isChain {j : Job} {events : List RunEvent} (h : j.Canonical events) :
    List.IsChain Precedes (.wrote j.record :: events) := by
  cases h with
  | fired hs now h => exact List.isChain_cons_cons.mpr ⟨⟨rfl, .inl rfl⟩, h.isChain⟩
  | resumed hs h => exact h.isChain

/-! ### Courses of jobs -/

namespace Job

/-- Whether the run of a pending job that met its conditions was stopped after its first version by
a delay that leads beyond the calendar. -/
def Stopped (j : Job) (events : List RunEvent) : Prop :=
  j.record.status = .pending ∧ (∃ now, events = [.wrote (j.record.moved .evaluating now)]) ∧
    (∃ lookup, (j.rule.evaluate lookup j.context).passed = true) ∧ ∃ now, ¬Run.HasRunAt j.rule now

/-- What can be seen of the run of a job is orderly. -/
theorem orderly_of_course {σ : Type} [ExecutionLog σ] {j : Job} {r : Run}
    (hj : Run.ofJob j = .ok r) {events : List RunEvent} {p : RunProgress}
    (h : Run.Course σ r events p) : p.Orderly j.Canonical j.Stopped events := by
  have hr := Run.orderly_of_course h (Run.isSteady_of_ofJob hj)
  have hc {events : List RunEvent} (ht : r.Tail events) : j.Canonical events :=
    (Run.canonical_iff_tail hj).mpr ht
  cases p with
  | going q =>
    obtain ⟨later, ht⟩ := hr
    exact ⟨later, hc ht⟩
  | ended ending =>
    cases ending with
    | finished v | deferred job runAt => exact ⟨hc hr.1, hr.2⟩
    | refused error =>
      obtain ⟨before, v, later, he, ht⟩ := hr
      exact ⟨before, v, later, he, hc ht⟩
    | outOfTime =>
      obtain ⟨hd, hr⟩ := hr
      rcases Run.ofJob_eq_ok_iff.mp hj with ⟨hs, rfl⟩ | ⟨hs, rfl⟩
      · exact ⟨hs, hr.1, hr.2, hd⟩
      · exact hr.elim

/-- What can be seen of the run of a job may come after each other. -/
theorem isChain_of_orderly {j : Job} {events : List RunEvent} {p : RunProgress}
    (h : p.Orderly j.Canonical j.Stopped events) :
    List.IsChain Precedes (.wrote j.record :: events) := by
  cases p with
  | going q =>
    obtain ⟨later, hc⟩ := h
    have hchain : List.IsChain Precedes ((.wrote j.record :: events) ++ later) := hc.isChain
    exact hchain.left_of_append
  | ended ending =>
    cases ending with
    | finished v | deferred job runAt => exact h.1.isChain
    | refused error =>
      obtain ⟨before, v, later, rfl, hc⟩ := h
      have hchain : List.IsChain Precedes ((.wrote j.record :: before) ++ .wrote v :: later) :=
        hc.isChain
      obtain ⟨hb, -, hlast⟩ := List.isChain_append.mp hchain
      refine List.isChain_append.mpr ⟨hb, List.isChain_singleton _, fun x hx y hy => ?_⟩
      cases hy
      exact (hlast x hx (.wrote v) rfl).refused error
    | outOfTime =>
      obtain ⟨-, ⟨now, rfl⟩, -⟩ := h
      exact List.isChain_pair.mpr ⟨rfl, .inl rfl⟩

end Job

/-! ### Runs in an engine -/

namespace RunEvent

/-- The call that an event is, if it is one. -/
def call? : RunEvent → Option Invocation
  | .called c => some c
  | .wrote _ | .refused .. => none

/-- The log after an event: a version that it accepts is written to it. -/
def apply {σ : Type} [ExecutionLog σ] (s : σ) : RunEvent → σ
  | .wrote v => match ExecutionLog.updateRecord s v with
    | .ok s => s
    | .error _ => s
  | .refused .. | .called _ => s

end RunEvent

namespace Engine

variable {σ : Type} [ExecutionLog σ] {e e' : Engine σ} {r r' : Run} {events : List RunEvent}
  {p : RunProgress}

/-- Whether an engine has written the versions of events, and has taken account of their calls. -/
def Accounts (e : Engine σ) (events : List RunEvent) (e' : Engine σ) : Prop :=
  e'.store = events.foldl RunEvent.apply e.store ∧
    e'.invocations = e.invocations ++ events.filterMap call?

theorem Accounts.append {e'' : Engine σ} {later : List RunEvent} (h : e.Accounts events e')
    (hl : e'.Accounts later e'') : e.Accounts (events ++ later) e'' := by
  refine ⟨?_, ?_⟩
  · rw [hl.1, h.1, List.foldl_append]
  · rw [hl.2, h.2, List.filterMap_append, List.append_assoc]

/-- What a step of a steady run does is accounted for. -/
theorem RunStep.accounts (h : e.RunStep r events p e') (hr : r.IsSteady) :
    e.Accounts events e' := by
  cases h with
  | wrote hw ho => exact ⟨by simp [RunEvent.apply, ho], by simp [call?]⟩
  | refused hw ho => exact ⟨rfl, by simp [call?]⟩
  | unsteady fault hn => exact absurd hr hn
  | outOfTime hs hd => exact ⟨rfl, by simp⟩
  | judged hs => exact ⟨rfl, by simp [noteQuestions]⟩
  | carried a t now rest o hs hc hstore hi =>
    rcases hc with rfl | rfl
    · exact ⟨hstore, by simpa using hi⟩
    · exact ⟨hstore, by simpa [call?] using hi⟩

/-- A run that is carried through makes the steps of a course. -/
theorem exists_course_carryRun (e : Engine σ) (r : Run) (hr : r.IsSteady) (fuel : Nat) :
    ∃ events, Run.Course σ r events (e.carryRun r fuel).1 ∧
      e.Accounts events (e.carryRun r fuel).2 := by
  induction fuel generalizing e r with
  | zero => exact ⟨[], .here r, rfl, by simp [carryRun]⟩
  | succ fuel ih =>
    have hstep := e.runStep_stepRun r
    have hacc := hstep.accounts hr
    rw [carryRun]
    rcases hs : e.stepRun r with ⟨p, e'⟩
    rw [hs] at hstep hacc
    cases p with
    | going r' =>
      obtain ⟨events, hc, ha⟩ := ih e' r' (Run.steady_of_runStep hstep hr).1
      exact ⟨e.observe r ++ events, .on e (congrArg Prod.fst hs) hc, hacc.append ha⟩
    | ended ending => exact ⟨e.observe r, .last e (congrArg Prod.fst hs), hacc⟩

/-- A job that cannot be run is refused. -/
theorem run_of_error {j : Job} {error : EngineError} (hj : Run.ofJob j = .error error)
    (e : Engine σ) : e.run j = (.refused error, e) := by
  unfold run
  split
  · next hn =>
    cases hj.symm.trans hn
    rfl
  · next hn => cases hj.symm.trans hn

/-- To run a job is to carry its run through. -/
theorem carryRun_eq_run {j : Job} (hj : Run.ofJob j = .ok r) (e : Engine σ) :
    e.carryRun r r.stepsLeft = (.ended (e.run j).1, (e.run j).2) := by
  unfold run
  split
  · next hn => cases hj.symm.trans hn
  · next r' hr' =>
    cases hj.symm.trans hr'
    split
    · next hc => exact hc
    · next hc => exact absurd (congrArg Prod.fst hc) (carryRun_ne_going (Nat.le_refl _))

/-- An engine that runs a job makes the steps of a course. -/
theorem exists_course_run {j : Job} (hj : Run.ofJob j = .ok r) (e : Engine σ) :
    ∃ events, Run.Course σ r events (.ended (e.run j).1) ∧ e.Accounts events (e.run j).2 := by
  have h := e.exists_course_carryRun r (Run.isSteady_of_ofJob hj) r.stepsLeft
  rwa [carryRun_eq_run hj e] at h

/-! ### Runs that are stopped -/

private theorem stopped_of_carryRun {fuel : Nat} (hr : r.IsSteady)
    (h : (e.carryRun r fuel).1 = .ended .outOfTime) : ∃ events, r.Stopped events := by
  obtain ⟨events, hc, -⟩ := e.exists_course_carryRun r hr fuel
  rw [h] at hc
  exact ⟨events, Run.orderly_of_course hc hr⟩

/-- A run that met its conditions is stopped if its rule has no instant to come back at. -/
private theorem carryRun_accepting_iff (hs : r.stage = .accepting) (hr : r.IsSteady) (fuel : Nat) :
    (e.carryRun r (fuel + 1)).1 = .ended .outOfTime ↔ ¬Run.HasRunAt r.rule e.clock := by
  have hstep := e.runStep_stepRun r
  rw [carryRun]
  generalize e.observe r = events at hstep
  generalize e.stepRun r = q at hstep ⊢
  obtain ⟨p, e'⟩ := q
  cases hstep with
  | wrote hw ho =>
    cases hw with
    | accepting _ hd ha =>
      refine iff_of_false (fun hn => ?_) (not_not_intro (.inl hd))
      obtain ⟨events, -, hfalse⟩ := stopped_of_carryRun (r := ⟨r.rule, r.context,
        r.record.moved .conditionsMet e.clock, .starting⟩) rfl hn
      exact hfalse
    | parking d runAt _ hd ht ha =>
      exact iff_of_false (by simp) (not_not_intro (.inr ⟨d, runAt, hd, ht⟩))
    | _ => simp_all
  | refused hw ho =>
    refine iff_of_false (by simp) (not_not_intro ?_)
    cases hw with
    | accepting _ hd ha => exact .inl hd
    | parking d runAt _ hd ht ha => exact .inr ⟨d, runAt, hd, ht⟩
    | _ => simp_all
  | unsteady fault hn => exact absurd hr hn
  | outOfTime _ hd => exact iff_of_true rfl hd
  | judged hj => simp [hs] at hj
  | carried a t now rest o hc => simp [hs] at hc

/-- A run that is evaluated is stopped if its conditions are met and its rule has no instant to come
back at. -/
private theorem carryRun_evaluating_iff (hs : r.stage = .evaluating) (hr : r.IsSteady)
    (fuel : Nat) :
    (e.carryRun r (fuel + 2)).1 = .ended .outOfTime ↔
      (r.rule.evaluate e.lookup r.context).passed = true ∧ ¬Run.HasRunAt r.rule e.clock := by
  have hstep : e.stepRun r = (.going (r.judged (r.rule.evaluate e.lookup r.context)),
      e.noteQuestions (r.rule.evaluate e.lookup r.context).calls) := by
    simp only [stepRun, hs]
  have hsteady := hr.judged hs (r.rule.evaluate e.lookup r.context)
  rw [carryRun, hstep]
  cases hp : (r.rule.evaluate e.lookup r.context).passed with
  | true =>
    have ha : (r.judged (r.rule.evaluate e.lookup r.context)).stage = .accepting := by
      simp [Run.judged, hp]
    rw [carryRun_accepting_iff ha hsteady fuel]
    simp [Run.judged, noteQuestions]
  | false =>
    refine iff_of_false (fun hn => ?_) (by simp)
    obtain ⟨events, -, hfalse⟩ := stopped_of_carryRun hsteady hn
    simp [Run.judged, hp] at hfalse

/-- A run is cut short without a refusal if and only if its record is pending, its first version is
accepted, its conditions are met, and the delay of its rule leads beyond the calendar. -/
theorem run_eq_outOfTime_iff (e : Engine σ) (j : Job) :
    (e.run j).1 = .outOfTime ↔ j.record.status = .pending ∧
      (∃ s, ExecutionLog.updateRecord e.store (j.record.moved .evaluating e.clock) = .ok s) ∧
      (j.rule.evaluate e.lookup j.context).passed = true ∧ ¬Run.HasRunAt j.rule e.clock := by
  cases hj : Run.ofJob j with
  | error error =>
    refine iff_of_false (by simp [run_of_error hj e]) fun hn => ?_
    rw [Run.ofJob_eq_ok_iff.mpr (.inl ⟨hn.1, rfl⟩)] at hj
    cases hj
  | ok r =>
    have hend : (e.run j).1 = .outOfTime ↔ (e.carryRun r r.stepsLeft).1 = .ended .outOfTime := by
      rw [carryRun_eq_run hj e]
      simp
    rw [hend]
    rcases Run.ofJob_eq_ok_iff.mp hj with ⟨hs, rfl⟩ | ⟨hs, rfl⟩
    · have ha : j.record.status.allows .evaluating = true := by rw [hs]; rfl
      let v := j.record.moved .evaluating e.clock
      have hwrite : Run.write ⟨j.rule, j.context, j.record, .opening⟩ e.clock e.store =
          Run.save e.store (.ok v) (Run.goOn ⟨j.rule, j.context, j.record, .opening⟩
            .evaluating) := by
        rw [← ExecutionRecord.transition_of_allows ha]
        rfl
      have hleft : Run.stepsLeft ⟨j.rule, j.context, j.record, .opening⟩ =
          3 * j.rule.actions.length + 3 + 2 + 1 := rfl
      rw [hleft, carryRun]
      simp only [stepRun, hwrite, Run.save]
      cases ho : ExecutionLog.updateRecord e.store v with
      | error error => simp
      | ok s =>
        have hnext := carryRun_evaluating_iff (e := { e with store := s })
          (r := ⟨j.rule, j.context, v, .evaluating⟩) rfl rfl (3 * j.rule.actions.length + 3)
        simp only [Run.goOn]
        rw [hnext]
        simp [hs]
    · refine iff_of_false (fun hn => ?_) (by simp [hs])
      obtain ⟨events, -, hfalse⟩ := stopped_of_carryRun (Run.isSteady_of_ofJob hj) hn
      exact hfalse

/-- A record that is neither pending nor met its conditions is not run, and nothing happens. -/
theorem run_of_not_ready {j : Job} (hp : j.record.status ≠ .pending)
    (hm : j.record.status ≠ .conditionsMet) (e : Engine σ) :
    e.run j = (.refused (.transition ⟨j.record.status, .evaluating⟩), e) := by
  have hj : Run.ofJob j = .error (.transition ⟨j.record.status, .evaluating⟩) := by
    unfold Run.ofJob
    split
    · next hs => exact absurd hs hp
    · next hs => exact absurd hs hm
    · rfl
  unfold run
  split
  · next hn =>
    cases hj.symm.trans hn
    rfl
  · next hn => cases hj.symm.trans hn

/-- The history of every run of every job. What can be seen of a run, whatever happens between its
steps, is a canonical history of the job, or as much of one as there was before a version was
refused, and its events come after each other as they may. An engine that runs a job makes the steps
of such a run and accounts for them, or leaves everything as it is if the record is not ready. A run
is cut short without a refusal in one case only: the record is pending, its first version is
accepted, its conditions are met, and the delay of its rule leads beyond the calendar. -/
theorem history_of_run {σ : Type} [ExecutionLog σ] (j : Job) :
    (∀ r events p, Run.ofJob j = .ok r → Run.Course σ r events p →
      p.Orderly j.Canonical j.Stopped events ∧
      List.IsChain RunEvent.Precedes (.wrote j.record :: events)) ∧
    (∀ e : Engine σ,
      (j.record.status = .pending ∨ j.record.status = .conditionsMet →
        ∃ r events, Run.ofJob j = .ok r ∧ Run.Course σ r events (.ended (e.run j).1) ∧
          e.Accounts events (e.run j).2) ∧
      (j.record.status ≠ .pending → j.record.status ≠ .conditionsMet →
        e.run j = (.refused (.transition ⟨j.record.status, .evaluating⟩), e)) ∧
      ((e.run j).1 = .outOfTime ↔ j.record.status = .pending ∧
        (∃ s, ExecutionLog.updateRecord e.store (j.record.moved .evaluating e.clock) = .ok s) ∧
        (j.rule.evaluate e.lookup j.context).passed = true ∧
        ¬Run.HasRunAt j.rule e.clock)) := by
  constructor
  · intro r events p hj hc
    have ho := Job.orderly_of_course hj hc
    exact ⟨ho, Job.isChain_of_orderly ho⟩
  · intro e
    refine ⟨fun hs => ?_, fun hp hm => run_of_not_ready hp hm e, e.run_eq_outOfTime_iff j⟩
    obtain ⟨r, hj⟩ : ∃ r, Run.ofJob j = .ok r := by
      rcases hs with hs | hs
      · exact ⟨_, Run.ofJob_eq_ok_iff.mpr (.inl ⟨hs, rfl⟩)⟩
      · exact ⟨_, Run.ofJob_eq_ok_iff.mpr (.inr ⟨hs, rfl⟩)⟩
    obtain ⟨events, hc, ha⟩ := exists_course_run hj e
    exact ⟨r, events, hj, hc, ha⟩

end Engine

namespace Sample

/-- The sample rule with more seconds of delay than a length of time can have. -/
def overlongRule : Rule := { rule with delaySeconds := some 0x7FFFFFFFFFFFFFFF }

/-- An engine whose log has the record of the rule. -/
def overlongEngine : Engine MemoryStore where
  store := ({} : MemoryStore).putRecord (record overlongRule)
  clock := .epoch
  allowed := 1000

end Sample

/-- The run of a rule whose delay is no length of time is cut short after its first version. -/
theorem Engine.history_of_run_overlong :
    let j : Job := ⟨Sample.overlongRule, .ofChange Sample.order .epoch,
      Sample.record Sample.overlongRule⟩
    (Sample.overlongEngine.run j).1 = .outOfTime ∧
      (Sample.overlongEngine.run j).2.store.versions.map (·.status) = [.pending, .evaluating] := by
  intro j
  refine ⟨(((history_of_run j).2 Sample.overlongEngine).2.2).mpr ⟨rfl, ⟨_, rfl⟩, rfl, ?_⟩, ?_⟩
  · have hd : Sample.overlongRule.executionDelay = .uncountable := by decide
    rintro (h | ⟨d, runAt, h, -⟩)
    · exact absurd (hd.symm.trans h) (by simp)
    · exact absurd (hd.symm.trans h) (by simp)
  · decide +kernel

end RuleEngine
