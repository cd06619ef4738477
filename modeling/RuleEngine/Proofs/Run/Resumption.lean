import RuleEngine.Proofs.Run.Acceptance
import RuleEngine.Proofs.Run.Alike

/-!
# Delayed runs

The run of a job whose rule has a delay is parked once the conditions are met, and resumed from the
job that it left behind. Up to the park it is alike the run of the same job without the delay, and
the run that comes back is alike the rest of it. So the two parts together come to the same record
and write the same versions, up to times. After the conditions nothing is asked any more. The delay
is noted by the version whose conditions are met, and by no later one.

## Main definitions

* `Job.Returns`: a job is parked and resumed, and is run without its delay.
* `Job.Resumes`: how the parked and resumed job compares with the one without a delay.
* `Registry.IsTimeless`: handlers whose answers do not depend on when they are called.

## Main results

* `Job.Returns.resumes`: a job that returns comes to what it comes to without its delay.
* `Job.resumes_as_undelayed`: so does a job that an engine parks and another one resumes.
-/

namespace RuleEngine

namespace Run

variable {σ : Type} [ExecutionLog σ] {e : Engine σ} {r : Run} {p : RunProgress}

/-! ### The delay that is noted -/

/-- A step past the conditions writes no delay. -/
private theorem delayedUntil_of_runStep {e' : Engine σ} {events : List RunEvent}
    (h : e.RunStep r events p e') (hr : r.IsSteady) (ha : r.stage.isActing = true)
    (hd : r.stage ≠ .starting → r.record.delayedUntil = none) :
    (∀ v ∈ events.filterMap RunEvent.written?, v.delayedUntil = none ∧
      v.status ≠ .conditionsMet ∧ v.status ≠ .evaluating) ∧
    ∀ r', p = .going r' → r'.record.delayedUntil = none := by
  cases h with
  | wrote hw ho =>
    cases hw with
    | opening hs | declining hs | accepting hs | parking d runAt hs =>
      rw [hs] at ha
      cases ha
    | starting hs =>
      refine ⟨List.forall_mem_singleton.mpr ⟨rfl, by simp, by simp⟩, ?_⟩
      rintro r' ⟨⟩
      rfl
    | noting failure rest hs =>
      have hrun : r.record.status = .runningActions := hr.trans (by rw [hs]; rfl)
      have hnone : r.record.delayedUntil = none := hd (by simp [hs])
      refine ⟨List.forall_mem_singleton.mpr ⟨hnone, by simp [hrun], by simp [hrun]⟩, ?_⟩
      rintro r' ⟨⟩
      exact hnone
    | closing failure hs =>
      refine ⟨List.forall_mem_singleton.mpr ?_, fun r' hn => (nomatch hn)⟩
      cases failure <;> exact ⟨rfl, by simp [finalStatus], by simp [finalStatus]⟩
  | refused hw ho => exact ⟨fun v hv => (nomatch hv), fun r' hn => (nomatch hn)⟩
  | unsteady fault hn => exact absurd hr hn
  | outOfTime hs | judged hs =>
    rw [hs] at ha
    cases ha
  | carried a t now rest o hs hc hstore hi =>
    refine ⟨?_, ?_⟩
    · rw [RunEvent.filterMap_written?_called]
      exact fun v hv => (nomatch hv)
    · rintro r' ⟨⟩
      refine hd fun hn => ?_
      rcases hs with hs | ⟨u, hs⟩ <;> simp [hs] at hn

/-- A run past its conditions writes no delay. -/
theorem Path.delayedUntil_eq_none {steps : List (Engine σ × Run)} (h : Path r steps p)
    (hr : r.IsSteady) (ha : r.stage.isActing = true)
    (hd : r.stage ≠ .starting → r.record.delayedUntil = none) :
    ∀ v ∈ versions steps, v.delayedUntil = none ∧ v.status ≠ .conditionsMet ∧
      v.status ≠ .evaluating := by
  induction h with
  | here r => exact fun v hv => (nomatch hv)
  | @on r r' later p e hstep hlater ih =>
    have hrun := e.runStep_stepRun r
    rw [hstep] at hrun
    obtain ⟨hwritten, hnext⟩ := delayedUntil_of_runStep hrun hr ha hd
    rw [versions_cons]
    exact List.forall_mem_append.mpr ⟨hwritten,
      ih (steady_of_runStep hrun hr).1 (acting_of_going hrun ha) fun _ => hnext r' rfl⟩
  | @last r ending e hstep =>
    have hrun := e.runStep_stepRun r
    rw [versions_cons]
    exact List.forall_mem_append.mpr
      ⟨(delayedUntil_of_runStep hrun hr ha hd).1, fun v hv => (nomatch hv)⟩

/-- A run that ends parked does not come past its conditions. It writes that it is evaluated, and
then that it is to come back at the instant which the delay of its rule leads to. -/
theorem Path.of_deferred {steps : List (Engine σ × Run)} {j : Job} {runAt : Timestamp}
    (h : Path r steps (.ended (.deferred j runAt))) (hr : r.IsSteady)
    (ha : r.stage.isActing = false) :
    j.record.status = .conditionsMet ∧ j.context = r.context ∧
      (∀ x ∈ steps, x.2.stage.isActing = false) ∧
      (∀ v ∈ versions steps, v.status = .evaluating ∧ v.delayedUntil = r.record.delayedUntil ∨
        v.status = .conditionsMet ∧ v.delayedUntil = some runAt) ∧
      ∃ x ∈ steps, ∃ d, x.2.stage = .accepting ∧ r.rule.executionDelay = .lasting d ∧
        x.1.clock.add? d = some runAt := by
  generalize hp : RunProgress.ended (.deferred j runAt) = p at h
  induction h with
  | here r => cases hp
  | @on r r' later p e hstep hlater ih =>
    have hrun := e.runStep_stepRun r
    rw [hstep] at hrun
    have hwaits : r'.stage.isActing = false := by
      by_contra hn
      exact ((hp ▸ hlater).not_parked (by simpa using hn)).2 j runAt rfl
    obtain ⟨hsteady, hrule, hcontext⟩ := steady_of_runStep hrun hr
    obtain ⟨hmet, hcause, hsteps, hversions, x, hx, d, hxs, hd, ht⟩ := ih hsteady hwaits hp
    refine ⟨hmet, hcause.trans hcontext, List.forall_mem_cons.mpr ⟨ha, hsteps⟩, ?_, x, hx.tail _,
      d, hxs, hrule ▸ hd, ht⟩
    rw [versions_cons]
    generalize e.observe r = events, (e.stepRun r).2 = e' at hrun
    generalize hgoing : RunProgress.going r' = p' at hrun
    cases hrun with
    | wrote hw ho =>
      cases hw with
      | opening hs =>
        cases hgoing
        exact List.forall_mem_cons.mpr ⟨.inl ⟨rfl, rfl⟩, hversions⟩
      | accepting hs =>
        cases hgoing
        cases hwaits
      | starting hs | noting failure rest hs =>
        rw [hs] at ha
        cases ha
      | declining | parking | closing => cases hgoing
    | judged hs =>
      cases hgoing
      exact hversions
    | carried a t now rest o hs =>
      rcases hs with hs | ⟨u, hs⟩ <;> simp [hs, RunStage.isActing] at ha
    | refused | unsteady | outOfTime => cases hgoing
  | @last r ending e hstep =>
    have hrun := e.runStep_stepRun r
    rw [hstep] at hrun
    have hversions := versions_cons e r []
    generalize e.observe r = events, (e.stepRun r).2 = e' at hrun hversions
    cases hp
    cases hrun with
    | wrote hw ho =>
      cases hw with
      | parking d _ hs hd ht =>
        rw [hversions]
        exact ⟨rfl, rfl, List.forall_mem_singleton.mpr ha,
          List.forall_mem_singleton.mpr (.inr ⟨rfl, rfl⟩), _, .head _, d, hs, hd, ht⟩

end Run

/-! ### Jobs that are parked and resumed -/

/-- The job without the delay of its rule. -/
def Job.undelayed (j : Job) : Job := { j with rule := { j.rule with delaySeconds := none } }

open Run

section

variable {σ : Type} [ExecutionLog σ]

/-- The steps that run a job, each in an engine of its own, and how its run ends. -/
def Job.RunsBy (j : Job) (steps : List (Engine σ × Run)) (ending : RunEnding) : Prop :=
  ∃ r, Run.ofJob j = .ok r ∧ Path r steps (.ended ending)

/-- A job is parked by the steps of its run, and resumed by the later steps, in any engines; and
without its delay it is run by steps of its own. Lookups and handlers answer alike, and the log
accepts what is written after the job comes back, and what is written without the delay. -/
structure Job.Returns (j : Job) (runAt : Timestamp) (steps later steps₀ : List (Engine σ × Run))
    (ending ending₀ : RunEnding) : Prop where
  resumed : ∃ j', j.RunsBy steps (.deferred j' runAt) ∧ j'.RunsBy later ending
  undelayed : j.undelayed.RunsBy steps₀ ending₀
  lookups : ∃ lookup, ∀ x ∈ steps ++ steps₀, x.2.stage = .evaluating → x.1.lookup = lookup
  replies : ∃ answer : Action → ActionOutcome, ∀ x ∈ later ++ steps₀, ∀ a rest,
    x.2.stage = .calling a rest → x.1.reply x.2 a = answer a
  accepted : ∀ v error, RunEvent.refused v error ∉ observed later
  accepted₀ : ∀ v error, RunEvent.refused v error ∉ observed steps₀

/-- How a job that is parked, by the steps of its run, and resumed, by the later steps and their
ending, compares with the job without a delay. -/
structure Job.Resumes (j : Job) (runAt : Timestamp) (steps later steps₀ : List (Engine σ × Run))
    (ending ending₀ : RunEnding) : Prop where
  /-- Both end with a record, which is the same up to its times and notes no delay. -/
  finished : ∃ v v₀, ending = .finished v ∧ ending₀ = .finished v₀ ∧ v.untimed = v₀.untimed ∧
    v.delayedUntil = none ∧ v₀.delayedUntil = none
  /-- The lookup is asked nothing when the job is resumed. -/
  asked : Run.asked later = []
  /-- The conditions are not evaluated again. -/
  evaluated : ∀ x ∈ later, x.2.stage ≠ .evaluating
  /-- The same versions are written up to their times, with the same statuses and steps. -/
  written : (versions steps ++ versions later).map ExecutionRecord.untimed =
    (versions steps₀).map ExecutionRecord.untimed
  /-- The job comes back when the delay is over, counted from the end of the evaluation. -/
  runAt_eq : ∃ x ∈ steps, ∃ d, x.2.stage = .accepting ∧ j.rule.executionDelay = .lasting d ∧
    x.1.clock.add? d = some runAt
  /-- Only the version whose conditions are met notes the delay. -/
  delayedUntil : ∀ v ∈ versions steps ++ versions later, v.delayedUntil = match v.status with
    | .conditionsMet => some runAt
    | .evaluating => j.record.delayedUntil
    | _ => none

/-- A job that is parked was run from its first step on. -/
theorem Job.pending_of_deferred {j j' : Job} {r : Run} {steps : List (Engine σ × Run)}
    {runAt : Timestamp} (hj : Run.ofJob j = .ok r)
    (hp : Path r steps (.ended (.deferred j' runAt))) :
    j.record.status = .pending ∧ r = ⟨j.rule, j.context, j.record, .opening⟩ := by
  rcases ofJob_eq_ok_iff.mp hj with hpending | ⟨-, rfl⟩
  · exact hpending
  · exact absurd rfl ((hp.not_parked rfl).2 j' runAt)

/-- A job that returns comes to what it comes to without its delay. -/
theorem Job.Returns.resumes {j : Job} {steps later steps₀ : List (Engine σ × Run)}
    {runAt : Timestamp} {ending ending₀ : RunEnding}
    (h : j.Returns runAt steps later steps₀ ending ending₀) :
    j.Resumes runAt steps later steps₀ ending ending₀ := by
  obtain ⟨j', ⟨r, hj, hp⟩, r', hj', hp'⟩ := h.resumed
  obtain ⟨r₀, hj₀, hp₀⟩ := h.undelayed
  obtain ⟨lookup, hl⟩ := h.lookups
  obtain ⟨answer, ha⟩ := h.replies
  have hr := isSteady_of_ofJob hj
  have hr' := isSteady_of_ofJob hj'
  obtain ⟨hpending, rfl⟩ := Job.pending_of_deferred hj hp
  obtain rfl : r₀ = ⟨j.undelayed.rule, j.context, j.record, .opening⟩ := by
    simpa [Job.undelayed, ofJob, hpending, eq_comm] using hj₀
  obtain ⟨hmet, -, hwaits, hnoted, hback⟩ := hp.of_deferred hr rfl
  have hresumed : r' = ⟨j'.rule, j'.context, j'.record, .starting⟩ := by
    simpa [ofJob, hmet, eq_comm] using hj'
  have hacting : r'.stage.isActing = true := by rw [hresumed]; rfl
  have hsuits₀ : ∀ x ∈ steps₀, Suits lookup answer x.1 x.2 := fun x hx =>
    ⟨hl x (List.mem_append_right _ hx), ha x (List.mem_append_right _ hx)⟩
  -- The parked run and the run without a delay go the same way up to the park.
  have halike : Alike ⟨j.rule, j.context, j.record, .opening⟩
      ⟨j.undelayed.rule, j.context, j.record, .opening⟩ := ⟨rfl, rfl, rfl, rfl⟩
  have hsuits (x) (hx : x ∈ steps) : Suits lookup answer x.1 x.2 :=
    ⟨hl x (List.mem_append_left _ hx),
      fun a rest hc => absurd hc (ne_calling_of_not_acting (hwaits x hx) a rest)⟩
  obtain ⟨first, rest, q, q₀, hq, hqq, rfl, hrest, hw⟩ :=
    halike.paths_of_deferred hr hp hp₀ hsuits₀ h.accepted₀ rfl hsuits
  cases hj'.symm.trans hq
  -- From there on the resumed run and the rest of the other one do.
  have haccrest (v error) : RunEvent.refused v error ∉ observed rest := fun hn =>
    h.accepted₀ v error (by rw [observed_append]; exact List.mem_append_right _ hn)
  obtain ⟨v, v₀, hv, hv₀, hsame, hd, hd₀, hw'⟩ :=
    hqq.paths_of_acting hr' hp' hrest (fun x hx => hsuits₀ x (List.mem_append_right _ hx))
      haccrest hacting (fun x hx => ha x (List.mem_append_left _ hx)) h.accepted
  have hlater := (hp'.acting hacting).1
  refine ⟨⟨v, v₀, hv, hv₀, hsame, hd, hd₀⟩, asked_of_acting hlater,
    fun x hx => ne_evaluating_of_acting (hlater x hx), ?_, hback, ?_⟩
  · rw [versions_append, List.map_append, List.map_append, hw, hw']
  · refine List.forall_mem_append.mpr ⟨fun v hv => ?_, fun v hv => ?_⟩
    · rcases hnoted v hv with ⟨hs, hd⟩ | ⟨hs, hd⟩ <;> rw [hs, hd]
    · have hstart : r'.stage ≠ .starting → r'.record.delayedUntil = none := by
        rw [hresumed]
        exact fun hn => absurd rfl hn
      obtain ⟨hnone, hm, he⟩ := hp'.delayedUntil_eq_none hr' hacting hstart v hv
      rw [hnone]
      split
      · next hs => exact absurd hs hm
      · next hs => exact absurd hs he
      · rfl

/-- Whether what handlers come to in a context depends on the parameters only, and not on when they
are called. -/
def Registry.IsTimeless (registry : Registry) (context : TriggerContext) (allowed : Nat) : Prop :=
  ∀ name handler, registry.get? name = some handler → ∀ parameters t u,
    ((handler parameters context).madeAt t).outcome allowed =
      ((handler parameters context).madeAt u).outcome allowed

/-- No time leads to where it started. -/
theorem Timestamp.add?_zero (t : Timestamp) : t.add? 0 = some t := by
  have hof : Timestamp.of? t.second t.nano = some t :=
    dif_pos ⟨t.first_le, t.le_last, t.nano_lt, t.leap_closes_minute⟩
  by_cases hleap : t.nano < 1000000000
  · have hsecond : (t.second * 1000000000 + t.nano + 0) / 1000000000 = t.second := by omega
    have hrest : ((t.second * 1000000000 + t.nano + 0) % 1000000000).toNat = t.nano := by omega
    simp only [add?, if_pos hleap, hsecond, hrest, hof]
  · simp [add?, hleap, hof]

/-- Handlers that leave the clock alone are timeless. -/
theorem Registry.isTimeless_of_drift {registry : Registry} {context : TriggerContext}
    (h : ∀ name handler, registry.get? name = some handler →
      ∀ parameters, (handler parameters context).drift = 0) (allowed : Nat) :
    registry.IsTimeless context allowed := by
  intro name handler hg parameters t u
  have hsame (t : Timestamp) :
      (handler parameters context).madeAt t = handler parameters context := by
    rw [HandlerCall.madeAt, h name handler hg parameters, Timestamp.add?_zero]
    rfl
  rw [hsame, hsame]

/-- What an action comes to in a context if its handler is called at the epoch. -/
def Registry.answer (registry : Registry) (context : TriggerContext) (allowed : Nat)
    (a : Action) : ActionOutcome :=
  match registry.get? a.actionType with
  | none => .noHandler a.actionType
  | some handler => ((handler a.parameters context).madeAt .epoch).outcome allowed

omit [ExecutionLog σ] in
/-- Timeless handlers reply at any time as they do at the epoch. -/
theorem Registry.IsTimeless.reply_eq {registry : Registry} {context : TriggerContext}
    {allowed : Nat} (h : registry.IsTimeless context allowed) {e : Engine σ} {r : Run}
    (hr : e.registry = registry) (ha : e.allowed = allowed) (hc : r.context = context)
    (a : Action) : e.reply r a = registry.answer context allowed a := by
  subst hr ha hc
  rw [Engine.reply_eq, answer]
  cases hg : e.registry.get? a.actionType with
  | none => rfl
  | some handler => exact h a.actionType handler hg a.parameters _ _

/-- A job that an engine parks, and that engines run afterwards and without its delay, returns. -/
theorem Engine.exists_returns {e e' e₀ : Engine σ} {j j' : Job} {runAt : Timestamp}
    (hp : (e.run j).1 = .deferred j' runAt) (hr : e'.registry = e.registry)
    (ha : e'.allowed = e.allowed) (hm : e.SameMeans e₀)
    (ht : e.registry.IsTimeless j.context e.allowed)
    (hacc : ∀ error, (e'.run j').1 ≠ .refused error)
    (hacc₀ : ∀ error, (e₀.run j.undelayed).1 ≠ .refused error) :
    ∃ steps later steps₀ : List (Engine σ × Run),
      j.Returns runAt steps later steps₀ (e'.run j').1 (e₀.run j.undelayed).1 ∧
      e.Accounts (observed steps) (e.run j).2 ∧ e'.Accounts (observed later) (e'.run j').2 ∧
      e₀.Accounts (observed steps₀) (e₀.run j.undelayed).2 ∧
      (e'.run j').2.questions = e'.questions ++ Run.asked later ∧
      ∀ x ∈ steps, x.2.stage = .accepting → x.1.clock = e.clock := by
  obtain ⟨r, hj⟩ : ∃ r, Run.ofJob j = .ok r := exists_ofJob fun error hn => by
    cases hp.symm.trans hn
  obtain ⟨r', hj'⟩ := exists_ofJob hacc
  obtain ⟨r₀, hj₀⟩ := exists_ofJob hacc₀
  obtain ⟨steps, hpath, hengines, haccounts, -⟩ := exists_path_run hj e
  obtain ⟨later, hpath', hengines', haccounts', hquestions⟩ := exists_path_run hj' e'
  obtain ⟨steps₀, hpath₀, hengines₀, haccounts₀, -⟩ := exists_path_run hj₀ e₀
  rw [hp] at hpath
  have hr' := isSteady_of_ofJob hj'
  have hr₀ := isSteady_of_ofJob hj₀
  have hcontext₀ : r₀.context = j.context := congrArg Job.context (job_of_ofJob hj₀)
  have hcontext : r'.context = j.context := by
    obtain ⟨-, rfl⟩ := Job.pending_of_deferred hj hpath
    exact (congrArg Job.context (job_of_ofJob hj')).trans
      (hpath.of_deferred (isSteady_of_ofJob hj) rfl).2.1
  have hlookup : ∀ x ∈ steps ++ steps₀, x.2.stage = .evaluating → x.1.lookup = e.lookup :=
    List.forall_mem_append.mpr ⟨fun x hx _ => (hengines x hx).1.lookup,
      fun x hx _ => (hengines₀ x hx).1.lookup.trans hm.lookup⟩
  have hreply : ∀ x ∈ later ++ steps₀, ∀ a rest, x.2.stage = .calling a rest →
      x.1.reply x.2 a = e.registry.answer j.context e.allowed a := by
    refine List.forall_mem_append.mpr ⟨fun x hx a _ _ => ?_, fun x hx a _ _ => ?_⟩
    · exact ht.reply_eq ((hengines' x hx).1.registry.trans hr)
        ((hengines' x hx).1.allowed.trans ha) ((hpath'.context_eq hr' x hx).trans hcontext) a
    · exact ht.reply_eq ((hengines₀ x hx).1.registry.trans hm.registry)
        ((hengines₀ x hx).1.allowed.trans hm.allowed)
        ((hpath₀.context_eq hr₀ x hx).trans hcontext₀) a
  refine ⟨steps, later, steps₀, ⟨⟨j', ⟨r, hj, hpath⟩, r', hj', hpath'⟩, ⟨r₀, hj₀, hpath₀⟩,
    ⟨e.lookup, hlookup⟩, ⟨_, hreply⟩, ?_, ?_⟩, haccounts, haccounts', haccounts₀, hquestions, ?_⟩
  · exact hpath'.accepted hr' fun error hn => hacc error (RunProgress.ended.inj hn)
  · exact hpath₀.accepted hr₀ fun error hn => hacc₀ error (RunProgress.ended.inj hn)
  · exact fun x hx hs => (hengines x hx).2 (by rw [hs]; rfl)

/-- A delay changes nothing but times. A job that is parked and resumed, each step in an engine of
its own, comes to the record that it comes to without its delay, having written the same versions,
and asks nothing when it is resumed. In particular, if an engine parks a job, another one with the
same timeless handlers runs what it left behind to the end, at any time and with any lookup, unless
the log refuses it; and the job was to come back when its delay is over from the time of the engine
on. -/
theorem Job.resumes_as_undelayed (j : Job) (runAt : Timestamp) :
    (∀ (steps later steps₀ : List (Engine σ × Run)) (ending ending₀ : RunEnding),
      j.Returns runAt steps later steps₀ ending ending₀ →
        j.Resumes runAt steps later steps₀ ending ending₀) ∧
    ∀ (e e' e₀ : Engine σ) (j' : Job), (e.run j).1 = .deferred j' runAt →
      e'.registry = e.registry → e'.allowed = e.allowed → e.SameMeans e₀ →
      e.registry.IsTimeless j.context e.allowed →
      (∀ error, (e'.run j').1 ≠ .refused error) →
      (∀ error, (e₀.run j.undelayed).1 ≠ .refused error) →
      (∃ steps later steps₀ : List (Engine σ × Run), e.Accounts (observed steps) (e.run j).2 ∧
        e'.Accounts (observed later) (e'.run j').2 ∧
        e₀.Accounts (observed steps₀) (e₀.run j.undelayed).2 ∧
        j.Resumes runAt steps later steps₀ (e'.run j').1 (e₀.run j.undelayed).1) ∧
      (e'.run j').2.questions = e'.questions ∧
      ∃ d, j.rule.executionDelay = .lasting d ∧ e.clock.add? d = some runAt := by
  refine ⟨fun steps later steps₀ ending ending₀ h => h.resumes, ?_⟩
  intro e e' e₀ j' hp hr ha hm ht hacc hacc₀
  obtain ⟨steps, later, steps₀, hreturns, haccounts, haccounts', haccounts₀, hquestions, hclock⟩ :=
    Engine.exists_returns hp hr ha hm ht hacc hacc₀
  have hresumes := hreturns.resumes
  refine ⟨⟨steps, later, steps₀, haccounts, haccounts', haccounts₀, hresumes⟩, ?_, ?_⟩
  · rw [hquestions, hresumes.asked, List.append_nil]
  · obtain ⟨x, hx, d, hs, hd, hadd⟩ := hresumes.runAt_eq
    exact ⟨d, hd, hclock x hx hs ▸ hadd⟩

end

/-! ### A greeting a minute later -/

namespace Sample

/-- The job of the sample rule with a delay of a minute. -/
def delayedJob : Job :=
  let rule := { rule with delaySeconds := some 60 }
  ⟨rule, .ofChange order .epoch, record rule⟩

/-- An engine with the record of a job in its log, and the handler that writes to the log. -/
def engineOf (j : Job) (clock : Timestamp) : Engine MemoryStore where
  store := ({} : MemoryStore).putRecord j.record
  clock
  registry := Dictionary.empty.insert Handler.logType Handler.log
  allowed := 1000

/-- A minute after the epoch. -/
def minuteLater : Timestamp := (Timestamp.of? 60 0).getD .epoch

/-- The job that comes back after a minute. -/
def parkedJob : Job :=
  let waiting := { delayedJob.record with delayedUntil := some minuteLater }
  { delayedJob with record := waiting.moved .conditionsMet .epoch }

theorem run_delayedJob :
    ((engineOf delayedJob .epoch).run delayedJob).1 = .deferred parkedJob minuteLater := rfl

/-- The handler that writes to the log leaves the clock alone. -/
theorem isTimeless_engineOf (j : Job) (clock : Timestamp) (context : TriggerContext) :
    (engineOf j clock).registry.IsTimeless context 1000 := by
  refine Registry.isTimeless_of_drift (fun name handler hg parameters => ?_) 1000
  obtain rfl : handler = Handler.log := by
    change (match name == Handler.logType with
      | true => some Handler.log
      | false => none) = some handler at hg
    split at hg
    · exact (Option.some.inj hg).symm
    · cases hg
  unfold Handler.log
  split
  · rfl
  · rfl
  · exact (apply_ite HandlerCall.drift ..).trans (ite_self _)

end Sample

/-- A greeting that is parked for a minute and comes back to the log of its engine. -/
theorem Job.resumes_as_undelayed_greeting :
    let e := Sample.engineOf Sample.delayedJob .epoch
    let e' := { Sample.engineOf Sample.parkedJob Sample.minuteLater with
      store := (e.run Sample.delayedJob).2.store }
    let e₀ := Sample.engineOf Sample.delayedJob.undelayed .epoch
    (e.run Sample.delayedJob).1 = .deferred Sample.parkedJob Sample.minuteLater ∧
    (∃ steps later steps₀ : List (Engine MemoryStore × Run),
      Sample.delayedJob.Returns Sample.minuteLater steps later steps₀
          (e'.run Sample.parkedJob).1 (e₀.run Sample.delayedJob.undelayed).1 ∧
        Sample.delayedJob.Resumes Sample.minuteLater steps later steps₀
          (e'.run Sample.parkedJob).1 (e₀.run Sample.delayedJob.undelayed).1) ∧
    (e'.run Sample.parkedJob).2.questions = e'.questions ∧
    ∃ d, Sample.delayedJob.rule.executionDelay = .lasting d ∧
      e.clock.add? d = some Sample.minuteLater := by
  intro e e' e₀
  have hp : (e.run Sample.delayedJob).1 = .deferred Sample.parkedJob Sample.minuteLater :=
    Sample.run_delayedJob
  have hm : e.SameMeans e₀ := ⟨rfl, rfl, rfl⟩
  have hr : e'.registry = e.registry := rfl
  have ha : e'.allowed = e.allowed := rfl
  have ht : e.registry.IsTimeless Sample.delayedJob.context e.allowed :=
    Sample.isTimeless_engineOf Sample.delayedJob .epoch _
  have hopen : OpenLog.HoldsOpen e.store Sample.delayedJob.record.id := ⟨_, rfl, rfl⟩
  have hopen' : OpenLog.HoldsOpen e'.store Sample.parkedJob.record.id :=
    (e.run_accepted rfl hopen).2 _ _ hp
  have hacc := (e'.run_accepted rfl hopen').1
  have hopen₀ : OpenLog.HoldsOpen e₀.store Sample.delayedJob.undelayed.record.id := ⟨_, rfl, rfl⟩
  have hacc₀ := (e₀.run_accepted rfl hopen₀).1
  obtain ⟨steps, later, steps₀, hreturns, -⟩ := Engine.exists_returns hp hr ha hm ht hacc hacc₀
  obtain ⟨hresumes, hreruns⟩ := Job.resumes_as_undelayed (σ := MemoryStore) Sample.delayedJob
    Sample.minuteLater
  obtain ⟨-, hquestions, hdelay⟩ := hreruns e e' e₀ _ hp hr ha hm ht hacc hacc₀
  exact ⟨hp, ⟨steps, later, steps₀, hreturns, hresumes _ _ _ _ _ hreturns⟩, hquestions, hdelay⟩

end RuleEngine
