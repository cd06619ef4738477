import Mathlib.Algebra.Order.Group.Multiset
import Mathlib.Tactic.Abel
import RuleEngine.Live.Load
import RuleEngine.Proofs.Run.Step

/-!
# What an event does to a live engine

A live engine carries each of its jobs in one place: in the hand of a producer, in the queue, in
the hand of the pool, in a slot, or with a sleeper. Whatever happens, it moves jobs between these
places, loses one, takes on the job of a record it has just appended, or lets one worker make a
move. `LiveEngine.change_perform` says so for every event, with all that the event does to the
stores and the accounts; what holds of every reachable engine follows case by case.

## Main definitions

* `Holder`, `LiveEngine.holders`: the jobs that an engine carries, with multiplicity.
* `LiveEngine.candidates`: the rules that its producers have not fired yet.
* `Worker.Move`: what a step of a worker does.
* `LiveEngine.Change`: what an event does.
* `LiveMove`, `LiveEngine.life`: events in their order, while handlers and lookup change.

## Main results

* `LiveEngine.move_workStep`: every step of a worker is a move.
* `LiveEngine.change_perform`: every event is a change.
-/

namespace RuleEngine

/-! ### Places of jobs -/

/-- A job that an engine carries: one that waits, or one that a worker is at. -/
inductive Holder where
  | waiting (job : Job)
  | working (w : Worker)

namespace Holder

/-- The job that is carried. -/
def job : Holder → Job
  | waiting j => j
  | working w => w.run.job

/-- The identifier of the record of the job that is carried. -/
def id (h : Holder) : ExecutionId := h.job.record.id

end Holder

/-- The rules that a firing has still to fire. -/
def Firing.candidates (f : Firing) : List Rule :=
  match f.stage with
  | .claimed rule => rule :: f.waiting
  | .choosing | .holding _ => f.waiting

namespace Producer

/-- The job whose record a producer has appended, and which it has not submitted. -/
def hand : Producer → Multiset Job
  | .busy f => match f.stage with
    | .holding job => {job}
    | .choosing | .claimed _ => 0
  | .idle | .gone => 0

/-- The rules that a producer has still to fire. -/
def candidates : Producer → List Rule
  | .busy f => f.candidates
  | .idle | .gone => []

/-- What a producer is firing rules for. -/
def causes : Producer → List FiringCause
  | .busy f => [f.cause]
  | .idle | .gone => []

@[simp] theorem hand_after_ended (r : Except EngineError Nat) : (after (.ended r)).hand = 0 := by
  rcases r with error | n
  · cases error <;> rfl
  · rfl

@[simp] theorem candidates_after_ended (r : Except EngineError Nat) :
    (after (.ended r)).candidates = [] := by
  rcases r with error | n
  · cases error <;> rfl
  · rfl

/-- A producer that starts a firing of listed rules holds no job. -/
theorem hand_starting (listed : Except EngineError (List Rule)) (cause : FiringCause)
    (p : Rule → Bool) :
    (starting do
      let rules ← listed
      return ⟨cause, rules.filter p, .choosing, 0⟩).hand = 0 := by
  cases listed with
  | error error => exact hand_after_ended _
  | ok rules => rfl

/-- A producer that starts a firing of listed rules is to fire some of them. -/
theorem mem_candidates_starting {listed : Except EngineError (List Rule)} {cause : FiringCause}
    {p : Rule → Bool} {rule : Rule}
    (h : rule ∈ (starting do
      let rules ← listed
      return ⟨cause, rules.filter p, .choosing, 0⟩).candidates) :
    ∃ rules, listed = .ok rules ∧ rule ∈ rules := by
  cases listed with
  | error error =>
    have hn := candidates_after_ended (.error error)
    change rule ∈ (after (.ended (.error error))).candidates at h
    rw [hn] at h
    exact absurd h List.not_mem_nil
  | ok rules => exact ⟨rules, rfl, List.mem_of_mem_filter h⟩

theorem eq_idle_of_isIdle {p : Producer} (h : p.isIdle = true) : p = .idle := by
  cases p with
  | idle => rfl
  | busy f => cases h
  | gone => cases h

end Producer

namespace LiveEngine

variable {σ : Type}

/-- The jobs that wait: with a producer, in the queue, with the pool, or with a sleeper. -/
def waitingJobs (e : LiveEngine σ) : Multiset Job :=
  e.dispatcher.hand + e.scheduler.hand + ↑e.queue.jobs + ↑e.held.toList +
    ↑(e.sleepers.map Sleeper.job)

/-- The jobs that an engine carries. -/
def holders (e : LiveEngine σ) : Multiset Holder :=
  e.waitingJobs.map .waiting + (e.workers : Multiset Worker).map .working

/-- The rules that the producers of an engine have still to fire. -/
def candidates (e : LiveEngine σ) : List Rule :=
  e.dispatcher.candidates ++ e.scheduler.candidates

/-- What the producers of an engine are firing rules for. -/
def causes (e : LiveEngine σ) : List FiringCause :=
  e.dispatcher.causes ++ e.scheduler.causes

end LiveEngine

/-! ### Moves of workers -/

namespace RunProgress

/-- What is carried on of a worker's job after a step: the run in its slot, the job of a deferred
run, or nothing. -/
def carriedOn (w : Worker) : RunProgress → Multiset Holder
  | .going r => {.working { w with run := r }}
  | .ended (.deferred job _) => {.waiting job}
  | .ended (.finished _) | .ended (.refused _) | .ended .outOfTime => 0

end RunProgress

/-- What a step of a worker does: the log after it, the handler calls in it, and what is carried on
of its job. -/
inductive Worker.Move {σ : Type} [ExecutionLog σ] (e : Engine σ) (w : Worker) :
    σ → List Invocation → Multiset Holder → Prop
  | judged (hs : w.run.stage = .evaluating) :
      Move e w e.store []
        {.working { w with run := w.run.judged (w.run.rule.evaluate e.lookup w.run.context) }}
  | called (a : Action) (rest : List Action) (hs : w.run.stage = .calling a rest) :
      Move e w e.store [] {.working { run := w.run.called a rest e.clock }}
  | invoked (a : Action) (t : Timestamp) (rest : List Action) (calls : List Invocation)
      (o : ActionOutcome) (due : Nat) (hs : w.run.stage = .awaiting a t rest)
      (ho : w.outcome = none)
      (hc : calls = [] ∨
        calls = [⟨w.run.record.id, w.run.record.steps.length, a.actionType, a.parameters⟩]) :
      Move e w e.store calls {.working ⟨w.run, some o, due⟩}
  | answered (a : Action) (t : Timestamp) (rest : List Action) (o : ActionOutcome)
      (hs : w.run.stage = .awaiting a t rest) (ho : w.outcome = some o) :
      Move e w e.store [] {.working { run := w.run.answered a t rest o e.clock }}
  | wrote {v : ExecutionRecord} {p : RunProgress} {s : σ} (hw : w.run.Writes e.clock v p)
      (ho : ExecutionLog.updateRecord e.store v = .ok s) : Move e w s [] (p.carriedOn w)
  | refused {v : ExecutionRecord} {p : RunProgress} {error : EngineError}
      (hw : w.run.Writes e.clock v p) (ho : ExecutionLog.updateRecord e.store v = .error error) :
      Move e w e.store [] 0
  | unsteady (h : ¬w.run.IsSteady) : Move e w e.store [] 0
  | outOfTime (hs : w.run.stage = .accepting) (hd : ¬Run.HasRunAt w.run.rule e.clock) :
      Move e w e.store [] 0

/-! ### Changes -/

namespace LiveEngine

variable {σ : Type}

/-- Whether an event has left the log and the account of the handler calls alone: at most a minute
of a rule was claimed in the store. -/
structure Undisturbed [RuleStore σ] (e e' : LiveEngine σ) : Prop where
  store : e'.store = e.store ∨
    ∃ id tick b, RuleStore.claimTick e.store id tick = .ok (b, e'.store)
  invocations : e'.invocations = e.invocations
  issued_le : e.issued ≤ e'.issued

/-- What an event does to an engine. -/
inductive Change [RuleStore σ] [ExecutionLog σ] (e : LiveEngine σ) :
    LiveEvent → LiveEngine σ → Prop
  /-- Jobs and candidates are moved at most. -/
  | quiet {event e'} (hu : Undisturbed e e') (hh : e'.holders = e.holders)
      (hc : e'.candidates ⊆ e.candidates) : Change e event e'
  /-- A producer has asked for the rules it is to fire. -/
  | listed {event e'} (tenant : Option TenantId) (kind : TriggerKind) (hu : Undisturbed e e')
      (hh : e'.holders = e.holders)
      (hc : ∀ rule ∈ e'.candidates, rule ∈ e.candidates ∨
        ∃ rules, RuleStore.activeRules e.store tenant kind = .ok rules ∧ rule ∈ rules) :
      Change e event e'
  /-- A job gets a slot. -/
  | employed {event e'} (job : Job) (run : Run) (others : Multiset Holder)
      (hr : Run.ofJob job = .ok run) (hu : Undisturbed e e')
      (hb : e.holders = {.waiting job} + others) (ha : e'.holders = {.working { run }} + others)
      (hc : e'.candidates = e.candidates) : Change e event e'
  /-- A job is lost: the queue is closed, or the job cannot be run. -/
  | lost {event e'} (job : Job) (hu : Undisturbed e e')
      (hh : e.holders = {.waiting job} + e'.holders) (hc : e'.candidates ⊆ e.candidates)
      (why : e.queue.isOpen = false ∨ ∃ error, Run.ofJob job = .error error) : Change e event e'
  /-- The record of a candidate is appended. It starts now, or when the change was heard of that the
  candidate is fired for. -/
  | fired {event e'} (rule : Rule) (context : TriggerContext) (now : Timestamp)
      (hm : rule ∈ e.candidates) (hc : e'.candidates ⊆ e.candidates)
      (ho : ExecutionLog.appendRecord e.store (.pending e.nextId rule context now) = .ok e'.store)
      (hh : e'.holders =
        {.waiting ⟨rule, context, .pending e.nextId rule context now⟩} + e.holders)
      (hi : e'.invocations = e.invocations) (hn : e'.issued = e.issued + 1)
      (ht : now = e.clock ∨ .change context ∈ e.causes ∧ now = context.firedAt) :
      Change e event e'
  /-- A worker makes a step. -/
  | worked {event e'} (w : Worker) (calls : List Invocation) (next others : Multiset Holder)
      (hm : Worker.Move e.toEngine w e'.store calls next) (hw : w ∈ e.workers)
      (hb : e.holders = {.working w} + others) (ha : e'.holders = next + others)
      (hc : e'.candidates = e.candidates) (hi : e'.invocations = e.invocations ++ calls)
      (hn : e'.issued = e.issued) : Change e event e'
  /-- The records that have not ended are abandoned. -/
  | abandoned {e'} (n : Nat) (ho : ExecutionLog.abandonOpen e.store e.clock = .ok (n, e'.store))
      (hh : e'.holders = e.holders) (hc : e'.candidates = e.candidates)
      (hi : e'.invocations = e.invocations) (hn : e'.issued = e.issued) : Change e .abandon e'
  /-- The engine has started anew, and has abandoned the records that had not ended. -/
  | restarted {e'}
      (ho : e'.store = e.store ∨
        ∃ n, ExecutionLog.abandonOpen e.store e.clock = .ok (n, e'.store))
      (hh : e'.holders = 0) (hc : e'.candidates = []) (hi : e'.invocations = e.invocations)
      (hn : e'.issued = e.issued) : Change e .restart e'

end LiveEngine

/-! ### Turns of firings -/

/-- What a step of a firing does to the log, the queue and the firing. -/
inductive Firing.Turn {σ : Type} [RuleStore σ] [ExecutionLog σ] (f : Firing) (fresh : ExecutionId)
    (clock : Timestamp) (s : σ) (q : JobQueue) : FiringProgress → σ → JobQueue → Prop
  | submitted (job : Job) (hs : f.stage = .holding job) :
      Turn f fresh clock s q (.going { f with stage := .choosing, submitted := f.submitted + 1 }) s
        { q with jobs := q.jobs ++ [job] }
  | dropped (job : Job) (hs : f.stage = .holding job) (hq : q.isOpen = false) :
      Turn f fresh clock s q (.ended (.error .queueClosed)) s q
  | appended (rule : Rule) (context : TriggerContext) (now : Timestamp) {f' : Firing} {s' : σ}
      (hs : (Producer.busy f).hand = 0) (hm : rule ∈ f.candidates)
      (ho : ExecutionLog.appendRecord s (.pending fresh rule context now) = .ok s')
      (hf : f'.stage = .holding ⟨rule, context, .pending fresh rule context now⟩)
      (hc : f'.candidates ⊆ f.candidates)
      (ht : now = clock ∨ f.cause = .change context ∧ now = context.firedAt) :
      Turn f fresh clock s q (.going f') s' q
  | passed {p : FiringProgress} {s' : σ} (hs : (Producer.busy f).hand = 0)
      (ho : s' = s ∨ ∃ id tick b, RuleStore.claimTick s id tick = .ok (b, s'))
      (hh : (Producer.after p).hand = 0)
      (hc : (Producer.after p).candidates ⊆ f.candidates) : Turn f fresh clock s q p s' q

namespace Firing

variable {σ : Type} [RuleStore σ] [ExecutionLog σ]

/-- An attempt to append the record of a candidate is a turn. -/
private theorem turn_append {f : Firing} {waiting : List Rule} {rule : Rule}
    (context : TriggerContext) (fresh : ExecutionId) (clock now : Timestamp) (s : σ) (q : JobQueue)
    (hs : (Producer.busy f).hand = 0) (hm : rule ∈ f.candidates)
    (hw : waiting ⊆ f.candidates)
    (ht : now = clock ∨ f.cause = .change context ∧ now = context.firedAt) :
    f.Turn fresh clock s q (f.append waiting rule context fresh now s).1
      (f.append waiting rule context fresh now s).2 q := by
  unfold append
  dsimp only
  split
  · exact .passed hs (.inl rfl) (by simp) (by simp)
  · next s' ho => exact .appended rule context now hs hm ho rfl hw ht

/-- Every step of a firing is a turn. -/
theorem turn_step (f : Firing) (fresh : ExecutionId) (now : Timestamp) (s : σ) (q : JobQueue) :
    f.Turn fresh now s q (f.step fresh now s q).1 (f.step fresh now s q).2.1
      (f.step fresh now s q).2.2 := by
  obtain ⟨cause, waiting, stage, submitted⟩ := f
  cases stage with
  | holding job =>
    by_cases hq : q.isOpen = true
    · have ho : q.submit job = .ok { q with jobs := q.jobs ++ [job] } := if_pos hq
      simp only [step, ho]
      exact .submitted job rfl
    · have ho : q.submit job = .error .queueClosed := if_neg hq
      simp only [step, ho]
      exact .dropped job rfl (Bool.eq_false_iff.mpr hq)
  | claimed rule =>
    have hw : waiting ⊆ rule :: waiting := List.subset_cons_self rule waiting
    cases cause with
    | tick tick => exact turn_append _ fresh now now s q rfl List.mem_cons_self hw (.inl rfl)
    | change context =>
      exact turn_append context fresh now _ s q rfl List.mem_cons_self hw (.inr ⟨rfl, rfl⟩)
  | choosing =>
    cases waiting with
    | nil => exact .passed rfl (.inl rfl) rfl (by simp [step])
    | cons rule rest =>
      have hw : rest ⊆ rule :: rest := List.subset_cons_self rule rest
      cases cause with
      | change context =>
        exact turn_append context fresh now _ s q rfl List.mem_cons_self hw (.inr ⟨rfl, rfl⟩)
      | tick tick =>
        simp only [step]
        split
        · exact .passed rfl (.inl rfl) (by simp) (by simp)
        · next s' ho => exact .passed rfl (.inr ⟨_, _, _, ho⟩) rfl hw
        · next s' ho => exact .passed rfl (.inr ⟨_, _, _, ho⟩) rfl (List.Subset.refl _)

omit [RuleStore σ] in
private theorem cause_of_append {f f' : Firing} {waiting : List Rule} {rule : Rule}
    {context : TriggerContext} {fresh : ExecutionId} {now : Timestamp} {s : σ}
    (h : (f.append waiting rule context fresh now s).1 = .going f') : f'.cause = f.cause := by
  unfold append at h
  dsimp only at h
  split at h <;> cases h
  rfl

/-- A firing goes on for its cause. -/
theorem cause_of_step {f f' : Firing} {fresh : ExecutionId} {now : Timestamp} {s : σ} {q : JobQueue}
    (h : (f.step fresh now s q).1 = .going f') : f'.cause = f.cause := by
  obtain ⟨cause, waiting, stage, submitted⟩ := f
  cases stage with
  | holding job =>
    simp only [step] at h
    split at h <;> cases h
    rfl
  | claimed rule => cases cause <;> simp only [step] at h <;> exact cause_of_append h
  | choosing =>
    cases waiting with
    | nil => cases h
    | cons rule rest =>
      cases cause <;> simp only [step] at h
      case change context => exact cause_of_append h
      case tick tick => split at h <;> cases h <;> rfl

end Firing

namespace LiveEngine

variable {σ : Type} [RuleStore σ] [ExecutionLog σ]

/-- A turn of the firing of one producer changes the engine, whatever the other places hold. -/
private theorem change_of_turn {e e' : LiveEngine σ} {f : Firing} {p : FiringProgress}
    {event : LiveEvent} (others : Multiset Holder)
    (ht : f.Turn e.nextId e.clock e.store e.queue p e'.store e'.queue)
    (hb : e.holders =
      ((Producer.busy f).hand + e.queue.jobs).map .waiting + others)
    (ha : e'.holders =
      ((Producer.after p).hand + e'.queue.jobs).map .waiting + others)
    (hf : f.candidates ⊆ e.candidates) (hcause : f.cause ∈ e.causes)
    (hc : ∀ r ∈ e'.candidates, r ∈ (Producer.after p).candidates ∨ r ∈ e.candidates)
    (hi : e'.invocations = e.invocations) (hn : e'.issued = e.issued + 1) :
    Change e event e' := by
  have hu (hs : e'.store = e.store ∨
      ∃ id tick b, RuleStore.claimTick e.store id tick = .ok (b, e'.store)) :
      Undisturbed e e' := ⟨hs, hi, by omega⟩
  have hsub (h : (Producer.after p).candidates ⊆ f.candidates) : e'.candidates ⊆ e.candidates :=
    fun r hr => (hc r hr).elim (fun h' => hf (h h')) id
  generalize hs' : e'.store = s' at ht
  generalize hq' : e'.queue = q' at ht
  cases ht with
  | submitted job hs =>
    refine .quiet (hu (.inl hs')) ?_ (hsub ?_)
    · rw [ha, hb, hq']
      simp only [Producer.after, Producer.hand, hs, zero_add, ← Multiset.coe_add,
        Multiset.coe_singleton, Multiset.map_add]
      abel
    · simp [Producer.after, Producer.candidates, Firing.candidates, hs]
  | dropped job hs hq =>
    refine .lost job (hu (.inl hs')) ?_ (hsub (by simp)) (.inl hq)
    rw [ha, hb, hq']
    simp only [Producer.after, Producer.hand, hs, zero_add, Multiset.map_add,
      Multiset.map_singleton]
    abel
  | appended rule context now hs hm ho hf' hcf ht =>
    have hnow : now = e.clock ∨ .change context ∈ e.causes ∧ now = context.firedAt := by
      rcases ht with hclock | ⟨hchange, hfired⟩
      · exact .inl hclock
      · exact .inr ⟨hchange ▸ hcause, hfired⟩
    refine .fired rule context now (hf hm) (hsub hcf) (hs' ▸ ho) ?_ hi hn hnow
    rw [ha, hb, hq', hs]
    simp only [Producer.after, Producer.hand, hf', zero_add, Multiset.map_add,
      Multiset.map_singleton]
    abel
  | passed hs ho hh hcf =>
    refine .quiet (hu (hs' ▸ ho)) ?_ (hsub hcf)
    rw [ha, hb, hq', hs, hh]

theorem change_dispatchStep {e : LiveEngine σ} {f : Firing} (h : e.dispatcher = .busy f) :
    Change e .dispatch (e.dispatchStep f) := by
  refine change_of_turn
    ((e.scheduler.hand + e.held.toList + ↑(e.sleepers.map Sleeper.job)).map .waiting +
      (e.workers : Multiset Worker).map .working)
    (f.turn_step e.nextId e.clock e.store e.queue) ?_ ?_ ?_ ?_ ?_ rfl rfl
  · simp only [holders, waitingJobs, h, Multiset.map_add]
    abel
  · simp only [holders, waitingJobs, dispatchStep, Engine.stepFiring, Multiset.map_add]
    abel
  · simp only [candidates, h, Producer.candidates]
    exact List.subset_append_left _ _
  · simp [causes, h, Producer.causes]
  · intro r hr
    rcases List.mem_append.mp hr with hr | hr
    · exact .inl hr
    · exact .inr (List.mem_append_right _ hr)

theorem change_scheduleStep {e : LiveEngine σ} {f : Firing} (h : e.scheduler = .busy f) :
    Change e .schedule (e.scheduleStep f) := by
  refine change_of_turn
    ((e.dispatcher.hand + e.held.toList + ↑(e.sleepers.map Sleeper.job)).map .waiting +
      (e.workers : Multiset Worker).map .working)
    (f.turn_step e.nextId e.clock e.store e.queue) ?_ ?_ ?_ ?_ ?_ rfl rfl
  · simp only [holders, waitingJobs, h, Multiset.map_add]
    abel
  · simp only [holders, waitingJobs, scheduleStep, Engine.stepFiring, Multiset.map_add]
    abel
  · simp only [candidates, h, Producer.candidates]
    exact List.subset_append_right _ _
  · simp [causes, h, Producer.causes]
  · intro r hr
    rcases List.mem_append.mp hr with hr | hr
    · exact .inr (List.mem_append_left _ hr)
    · exact .inl hr

/-! ### Events -/

omit [RuleStore σ]

/-- A step of a worker calls a handler at most, or writes at most. -/
theorem move_workStep (e : LiveEngine σ) (w : Worker) :
    ∃ calls, w.Move e.toEngine (e.workStep w).2.2.store calls
        ((e.workStep w).1.carriedOn (e.workStep w).2.1) ∧
      (e.workStep w).2.2.invocations = e.invocations ++ calls ∧
      (e.workStep w).2.2.issued = e.issued := by
  have hnil : e.invocations = e.invocations ++ [] := (List.append_nil _).symm
  cases hs : w.run.stage with
  | calling a rest =>
    simp only [workStep, hs, RunProgress.carriedOn]
    exact ⟨[], .called a rest hs, hnil, trivial⟩
  | awaiting a t rest =>
    cases ho : w.outcome with
    | none =>
      simp only [workStep, hs, ho, RunProgress.carriedOn, Engine.callHandler]
      split
      · exact ⟨[], .invoked a t rest [] _ _ hs ho (.inl rfl), hnil, rfl⟩
      · exact ⟨_, .invoked a t rest _ _ _ hs ho (.inr rfl), rfl, rfl⟩
    | some o =>
      simp only [workStep, hs, ho, RunProgress.carriedOn]
      exact ⟨[], .answered a t rest o hs ho, hnil, trivial⟩
  | evaluating =>
    simp only [workStep, hs, RunProgress.carriedOn, Engine.stepRun]
    exact ⟨[], .judged hs, hnil, rfl⟩
  | opening | declining | accepting | starting | noting failure rest | closing failure =>
    simp only [workStep, hs, Engine.stepRun]
    refine ⟨[], ?_, hnil, trivial⟩
    rcases hw : w.run.write e.clock e.store with ⟨p, s⟩
    have hstep := w.run.writeStep e.clock e.store
    rw [hw] at hstep
    cases hstep with
    | accepted hv ho => exact .wrote hv ho
    | refused hv ho => exact .refused hv ho
    | illegal fault h => exact .unsteady h
    | outOfTime ha hd => exact .outOfTime ha hd
    | idle hi => simp [hs] at hi

variable [RuleStore σ]

omit [ExecutionLog σ] [RuleStore σ] in
/-- The workers are the one at a place and the others. -/
private theorem coe_workers {e : LiveEngine σ} {i : Nat} {w : Worker} (h : e.workers[i]? = some w) :
    (e.workers : Multiset Worker) = {w} + ↑(e.workers.eraseIdx i) := by
  obtain ⟨hlt, rfl⟩ := List.getElem?_eq_some_iff.mp h
  exact Multiset.coe_eq_coe.mpr (List.getElem_cons_eraseIdx_perm hlt).symm

theorem change_work {e : LiveEngine σ} {i : Nat} {w : Worker} (h : e.workers[i]? = some w) :
    Change e (.work i) (e.work i w) := by
  obtain ⟨calls, hm, hi, hn⟩ := e.move_workStep w
  obtain ⟨engine, he, hq⟩ := e.workStep_engine w
  have hlt : i < e.workers.length := (List.getElem?_eq_some_iff.mp h).1
  let others := e.waitingJobs.map Holder.waiting +
    (e.workers.eraseIdx i : Multiset Worker).map Holder.working
  have hb : e.holders = {.working w} + others := by
    simp only [holders, coe_workers h, Multiset.map_add, Multiset.map_singleton, others]
    abel
  have hmem : w ∈ e.workers := List.mem_of_getElem? h
  unfold work
  rcases hr : e.workStep w with ⟨p, w', e'⟩
  simp only [hr] at hm hi hn he
  subst he
  cases p with
  | going r =>
    refine .worked w calls _ others hm hmem hb ?_ rfl hi hn
    have hset : (e.workers.set i { w' with run := r } : Multiset Worker) =
        {{ w' with run := r }} + ↑(e.workers.eraseIdx i) :=
      Multiset.coe_eq_coe.mpr (List.set_perm_cons_eraseIdx hlt _)
    simp only [holders, hset, RunProgress.carriedOn, waitingJobs, hq, Multiset.map_add,
      Multiset.map_singleton, others]
    abel
  | ended ending =>
    cases ending with
    | deferred job runAt =>
      refine .worked w calls _ others hm hmem hb ?_ rfl hi hn
      simp only [holders, RunProgress.carriedOn, waitingJobs, hq, List.map_append, List.map_cons,
        List.map_nil, ← Multiset.coe_add, Multiset.coe_singleton, Multiset.map_add,
        Multiset.map_singleton, others]
      abel
    | finished _ | refused _ | outOfTime =>
      refine .worked w calls _ others hm hmem hb ?_ rfl hi hn
      simp only [holders, RunProgress.carriedOn, waitingJobs, hq, zero_add, others]

theorem change_employ {e : LiveEngine σ} {job : Job} (h : e.held = some job) :
    Change e .employ (e.employ job) := by
  have hu : Undisturbed e (e.employ job) := by
    unfold employ
    split <;> exact ⟨.inl rfl, rfl, le_rfl⟩
  let others : Multiset Holder :=
    (e.dispatcher.hand + e.scheduler.hand + ↑e.queue.jobs +
      ↑(e.sleepers.map Sleeper.job)).map .waiting + (e.workers : Multiset Worker).map .working
  have hb : e.holders = {.waiting job} + others := by
    simp only [holders, waitingJobs, h, Option.toList_some, Multiset.coe_singleton,
      Multiset.map_add, Multiset.map_singleton, others]
    abel
  cases hr : Run.ofJob job with
  | ok run =>
    refine .employed job run others hr hu hb ?_ ?_
    · simp only [employ, hr, holders, waitingJobs, Option.toList_none, Multiset.coe_nil, add_zero,
        ← Multiset.coe_add, Multiset.coe_singleton, Multiset.map_add, Multiset.map_singleton,
        others]
      abel
    · simp only [employ, hr, candidates]
  | error error =>
    refine .lost job hu ?_ ?_ (.inr ⟨error, hr⟩)
    · rw [hb]
      simp only [employ, hr, holders, waitingJobs, Option.toList_none, Multiset.coe_nil, add_zero,
        others]
    · simp only [employ, hr, candidates]
      exact List.Subset.refl _

theorem change_receive {e : LiveEngine σ} (h : e.held = none) : Change e .receive e.receive := by
  unfold receive JobQueue.next?
  cases hq : e.queue.jobs with
  | nil => exact .quiet ⟨.inl rfl, rfl, le_rfl⟩ rfl (List.Subset.refl _)
  | cons job rest =>
    refine .quiet ⟨.inl rfl, rfl, le_rfl⟩ ?_ (List.Subset.refl _)
    simp only [holders, waitingJobs, h, hq, Option.toList_none, Option.toList_some,
      Multiset.coe_nil, add_zero, ← Multiset.cons_coe,
      ← Multiset.singleton_add, Multiset.map_add]
    abel

omit [ExecutionLog σ] [RuleStore σ] in
/-- The jobs of the sleepers are that of the one at a place and those of the others. -/
private theorem coe_sleepers {e : LiveEngine σ} {i : Nat} {s : Sleeper}
    (h : e.sleepers[i]? = some s) :
    (e.sleepers.map Sleeper.job : Multiset Job) =
      {s.job} + ↑((e.sleepers.eraseIdx i).map Sleeper.job) := by
  obtain ⟨hlt, rfl⟩ := List.getElem?_eq_some_iff.mp h
  exact Multiset.coe_eq_coe.mpr ((List.getElem_cons_eraseIdx_perm hlt).symm.map Sleeper.job)

theorem change_wake {e : LiveEngine σ} {i : Nat} {s : Sleeper} (h : e.sleepers[i]? = some s) :
    Change e (.wake i) (e.wake i s) := by
  have hlt : i < e.sleepers.length := (List.getElem?_eq_some_iff.mp h).1
  have hs := coe_sleepers h
  unfold wake
  by_cases ha : s.isAwake = true
  · rw [if_pos ha]
    by_cases hq : e.queue.isOpen = true
    · have ho : e.queue.submit s.job = .ok { e.queue with jobs := e.queue.jobs ++ [s.job] } :=
        if_pos hq
      refine .quiet ⟨.inl rfl, rfl, le_rfl⟩ ?_ (List.Subset.refl _)
      simp only [holders, waitingJobs, ho, hs, ← Multiset.coe_add, Multiset.coe_singleton,
        Multiset.map_add]
      abel
    · have ho : e.queue.submit s.job = .error .queueClosed := if_neg hq
      refine .lost s.job ⟨.inl rfl, rfl, le_rfl⟩ ?_ (List.Subset.refl _)
        (.inl (Bool.eq_false_iff.mpr hq))
      simp only [holders, waitingJobs, ho, hs, Multiset.map_add, Multiset.map_singleton]
      abel
  · rw [if_neg ha]
    refine .quiet ⟨.inl rfl, rfl, le_rfl⟩ ?_ (List.Subset.refl _)
    have hset : ((e.sleepers.set i { s with isAwake := true }).map Sleeper.job : Multiset Job) =
        {s.job} + ↑((e.sleepers.eraseIdx i).map Sleeper.job) :=
      Multiset.coe_eq_coe.mpr ((List.set_perm_cons_eraseIdx hlt _).map Sleeper.job)
    simp only [holders, waitingJobs, hset, hs]

theorem change_listen {e : LiveEngine σ} (h : e.dispatcher.isIdle = true) :
    Change e .listen e.listen := by
  have hi := Producer.eq_idle_of_isIdle h
  unfold listen
  rcases e.feed.receive e.subscription with ⟨delivery, subscription⟩
  cases delivery with
  | lagged _ | empty => exact .quiet ⟨.inl rfl, rfl, le_rfl⟩ rfl (List.Subset.refl _)
  | closed =>
    refine .quiet ⟨.inl rfl, rfl, le_rfl⟩ ?_ ?_
    · simp only [holders, waitingJobs, hi, Producer.hand]
    · simp [candidates, hi, Producer.candidates]
  | notification n =>
    refine .listed (some n.tenant) .event ⟨.inl rfl, rfl, le_rfl⟩ ?_ fun rule hr => ?_
    · simp only [holders, waitingJobs, hi, Firing.ofChange, Producer.hand_starting]
      rfl
    · rcases List.mem_append.mp hr with hr | hr
      · exact .inr (Producer.mem_candidates_starting hr)
      · exact .inl (List.mem_append_right _ hr)

theorem change_look {e : LiveEngine σ} (h : e.scheduler.isIdle = true) :
    Change e .look e.look := by
  have hi := Producer.eq_idle_of_isIdle h
  refine .listed none .schedule ⟨.inl rfl, rfl, le_rfl⟩ ?_ fun rule hr => ?_
  · simp only [look, holders, waitingJobs, hi, Firing.ofInstant, Producer.hand_starting]
    rfl
  · rcases List.mem_append.mp hr with hr | hr
    · exact .inl (List.mem_append_left _ hr)
    · exact .inr (Producer.mem_candidates_starting hr)

theorem change_retire {e : LiveEngine σ} (h : (e.dispatcher.isIdle || e.scheduler.isIdle) = true) :
    Change e .retire e.retire := by
  unfold retire
  by_cases hd : e.dispatcher.isIdle = true
  · have hi := Producer.eq_idle_of_isIdle hd
    rw [if_pos hd]
    refine .quiet ⟨.inl rfl, rfl, le_rfl⟩ ?_ ?_
    · simp only [holders, waitingJobs, hi, Producer.hand]
    · simp [candidates, hi, Producer.candidates]
  · have hi := Producer.eq_idle_of_isIdle ((Bool.or_eq_true_iff.mp h).resolve_left hd)
    rw [if_neg hd]
    refine .quiet ⟨.inl rfl, rfl, le_rfl⟩ ?_ ?_
    · simp only [holders, waitingJobs, hi, Producer.hand]
    · simp [candidates, hi, Producer.candidates]

theorem change_ingest (e : LiveEngine σ) : Change e .ingest e.ingest := by
  unfold ingest
  cases e.lines with
  | nil => exact .quiet ⟨.inl rfl, rfl, le_rfl⟩ rfl (List.Subset.refl _)
  | cons line rest => exact .quiet ⟨.inl rfl, rfl, le_rfl⟩ rfl (List.Subset.refl _)

theorem change_abandon (e : LiveEngine σ) : Change e .abandon e.abandonOpen.2 := by
  unfold abandonOpen Engine.abandon
  cases ho : ExecutionLog.abandonOpen e.store e.clock with
  | ok answer => exact .abandoned answer.1 ho rfl rfl rfl rfl
  | error error => exact .quiet ⟨.inl rfl, rfl, le_rfl⟩ rfl (List.Subset.refl _)

theorem change_restart (e : LiveEngine σ) : Change e .restart e.crashed.abandonOpen.2 := by
  unfold abandonOpen Engine.abandon
  cases ho : ExecutionLog.abandonOpen e.crashed.store e.crashed.clock with
  | ok answer => exact .restarted (.inr ⟨answer.1, ho⟩) rfl rfl rfl rfl
  | error error => exact .restarted (.inl rfl) rfl rfl rfl rfl

/-- Whatever happens to an engine is a change of one of the kinds above. -/
theorem change_perform (e : LiveEngine σ) (event : LiveEvent) :
    Change e event (e.perform event) := by
  have hquiet : Change e event e := .quiet ⟨.inl rfl, rfl, le_rfl⟩ rfl (List.Subset.refl _)
  unfold perform
  by_cases hp : e.isPossible event = true
  · rw [if_pos hp]
    cases event with
    | ingest => exact e.change_ingest
    | listen =>
      simp only [isPossible, Bool.and_eq_true] at hp
      exact change_listen hp.1
    | dispatch =>
      simp only [carryOut]
      cases hd : e.dispatcher with
      | busy f => exact change_dispatchStep hd
      | idle | gone => exact hquiet
    | look =>
      simp only [isPossible, Bool.and_eq_true] at hp
      exact change_look hp.1
    | schedule =>
      simp only [carryOut]
      cases hd : e.scheduler with
      | busy f => exact change_scheduleStep hd
      | idle | gone => exact hquiet
    | retire =>
      simp only [isPossible, Bool.and_eq_true] at hp
      exact change_retire hp.2
    | receive =>
      simp only [isPossible, Bool.and_eq_true, Option.isNone_iff_eq_none] at hp
      exact change_receive hp.1.2
    | employ =>
      simp only [carryOut]
      cases hh : e.held with
      | some job => exact change_employ hh
      | none => exact hquiet
    | work i =>
      simp only [carryOut]
      cases hw : e.workers[i]? with
      | some w => exact change_work hw
      | none => exact hquiet
    | wake i =>
      simp only [carryOut]
      cases hs : e.sleepers[i]? with
      | some s => exact change_wake hs
      | none => exact hquiet
    | leave | publish | closeFeed | closeQueue | setClock | pass | stop =>
      exact .quiet ⟨.inl rfl, rfl, le_rfl⟩ rfl (List.Subset.refl _)
    | abandon => exact e.change_abandon
    | restart => exact e.change_restart
  · rw [if_neg hp]
    exact hquiet

end LiveEngine

/-! ### Lives -/

/-- What comes next in the life of an engine: an event, or other handlers and another lookup, since
they need not answer the same whenever they are asked. -/
inductive LiveMove where
  | event (event : LiveEvent)
  | surroundings (registry : Registry) (lookup : Lookup)

namespace LiveEngine

variable {σ : Type} [RuleStore σ] [ExecutionLog σ]

/-- The engine after a move. -/
def make (e : LiveEngine σ) : LiveMove → LiveEngine σ
  | .event event => e.perform event
  | .surroundings registry lookup => { e with registry, lookup }

/-- The engine after moves in their order. -/
def life (e : LiveEngine σ) (moves : List LiveMove) : LiveEngine σ := moves.foldl make e

theorem life_append (e : LiveEngine σ) (before after : List LiveMove) :
    e.life (before ++ after) = (e.life before).life after := List.foldl_append

/-- What an engine has at first and keeps in every move, it has throughout its life. -/
theorem life_induction {P : LiveEngine σ → Prop} {e : LiveEngine σ} {moves : List LiveMove}
    (h : P e) (hstep : ∀ now, ∀ move ∈ moves, P now → P (now.make move)) : P (e.life moves) := by
  induction moves generalizing e with
  | nil => exact h
  | cons move rest ih =>
    exact ih (hstep e move List.mem_cons_self h) fun now m hm =>
      hstep now m (List.mem_cons_of_mem move hm)

/-- Every move is a change, and abandons records at work only if its event does. -/
theorem change_make (e : LiveEngine σ) (move : LiveMove) :
    ∃ event, Change e event (e.make move) ∧ (event = .abandon → move = .event .abandon) := by
  cases move with
  | event event => exact ⟨event, e.change_perform event, congrArg LiveMove.event⟩
  | surroundings registry lookup =>
    exact ⟨.stop, .quiet ⟨.inl rfl, rfl, le_rfl⟩ rfl (List.Subset.refl _), fun h => by cases h⟩

end LiveEngine

end RuleEngine
