import RuleEngine.Live.Event

/-!
# The load of a live engine

How much an engine has left to do at one moment. What it has not begun with is its agenda: lines,
notifications and a look at the clock. What it has begun with is its load. An event from within
takes something off the agenda, or leaves the agenda as it is and takes something off the load
(`LiveEngine.lighter_of_carryOut`). So an engine comes to rest.
-/

namespace RuleEngine

/-- The sum of the weights of the items of a list. -/
def totalWeight {α : Type} (weight : α → Nat) : List α → Nat
  | [] => 0
  | a :: rest => weight a + totalWeight weight rest

section TotalWeight

variable {α : Type} (weight : α → Nat)

@[simp] theorem totalWeight_nil : totalWeight weight [] = 0 := rfl

@[simp] theorem totalWeight_cons (a : α) (rest : List α) :
    totalWeight weight (a :: rest) = weight a + totalWeight weight rest := rfl

@[simp] theorem totalWeight_append (l m : List α) :
    totalWeight weight (l ++ m) = totalWeight weight l + totalWeight weight m := by
  induction l with
  | nil => simp
  | cons a rest ih => simp [ih, Nat.add_assoc]

@[simp] theorem totalWeight_map {β : Type} (f : β → α) (l : List β) :
    totalWeight weight (l.map f) = totalWeight (fun b => weight (f b)) l := by
  induction l with
  | nil => rfl
  | cons b rest ih => simp [ih]

/-- An item that is taken out of a list takes its weight with it. -/
theorem totalWeight_eraseIdx {l : List α} {i : Nat} {a : α} (h : l[i]? = some a) :
    totalWeight weight (l.eraseIdx i) + weight a = totalWeight weight l := by
  induction l generalizing i with
  | nil => simp at h
  | cons b rest ih =>
    cases i with
    | zero =>
      simp only [List.getElem?_cons_zero, Option.some.injEq] at h
      simp [h, Nat.add_comm]
    | succ i =>
      simp only [List.getElem?_cons_succ] at h
      have := ih h
      simp only [List.eraseIdx_cons_succ, totalWeight_cons]
      omega

/-- An item that takes the place of another in a list brings its own weight. -/
theorem totalWeight_set {l : List α} {i : Nat} {a : α} (b : α) (h : l[i]? = some a) :
    totalWeight weight (l.set i b) + weight a = totalWeight weight l + weight b := by
  induction l generalizing i with
  | nil => simp at h
  | cons c rest ih =>
    cases i with
    | zero =>
      simp only [List.getElem?_cons_zero, Option.some.injEq] at h
      simp [h]
      omega
    | succ i =>
      simp only [List.getElem?_cons_succ] at h
      have := ih h
      simp only [List.set_cons_succ, totalWeight_cons]
      omega

end TotalWeight

namespace Run

/-- The load of a run. -/
def load (r : Run) : Nat := 6 * r.stepsLeft

end Run

namespace Job

/-- The load of a job: that of its run. -/
def load (j : Job) : Nat :=
  match Run.ofJob j with
  | .ok r => r.load
  | .error _ => 0

/-- The load of jobs to which `extra` is added for each. -/
def loads (extra : Nat) (jobs : List Job) : Nat :=
  totalWeight (fun j => j.load + extra) jobs

theorem loads_append (extra : Nat) (jobs : List Job) (j : Job) :
    loads extra (jobs ++ [j]) = loads extra jobs + (j.load + extra) := by
  simp [loads]

theorem load_of_pending {j : Job} (h : j.record.status = .pending) :
    j.load = 18 * j.rule.actions.length + 36 := by
  simp only [load, Run.ofJob, h, Run.load, Run.stepsLeft, RunStage.stepsLeft]
  omega

theorem load_of_conditionsMet {j : Job} (h : j.record.status = .conditionsMet) :
    j.load = 18 * j.rule.actions.length + 18 := by
  simp only [load, Run.ofJob, h, Run.load, Run.stepsLeft, RunStage.stepsLeft]
  omega

end Job

namespace Firing

/-- The load of a rule that is to be fired. -/
def ruleLoad (r : Rule) : Nat := 18 * r.actions.length + 42

/-- The load of what a firing does next. -/
def stageLoad : FiringStage → Nat
  | .choosing => 0
  | .claimed r => 18 * r.actions.length + 41
  | .holding j => j.load + 3

/-- The load of a firing. -/
def load (f : Firing) : Nat := totalWeight ruleLoad f.waiting + stageLoad f.stage + 1

end Firing

namespace Producer

/-- The load of a producer. -/
def load : Producer → Nat
  | .idle => 1
  | .busy f => f.load + 1
  | .gone => 0

end Producer

namespace Worker

/-- The load of a worker: that of its run, less once a handler has been at work. -/
def load (w : Worker) : Nat := w.run.load - w.outcome.isSome.toNat

end Worker

namespace Sleeper

/-- The load of a sleeper: that of its job, and more if it has not waked. -/
def load (s : Sleeper) : Nat := s.job.load + 3 + (!s.isAwake).toNat

end Sleeper

namespace LiveEngine

variable {σ : Type}

/-- What an engine has not begun with. -/
def agenda (e : LiveEngine σ) : Nat :=
  2 * e.lines.length + e.feed.unread e.subscription + if e.elapsed < e.nextLook then 0 else 1

/-- What an engine has begun with. -/
def load (e : LiveEngine σ) : Nat :=
  e.dispatcher.load + e.scheduler.load + Job.loads 2 e.queue.jobs +
    Job.loads 1 e.held.toList + totalWeight Worker.load e.workers +
    totalWeight Sleeper.load e.sleepers + e.isReceiving.toNat

/-- Whether an engine has less to do than another: less that it has not begun with, or as much of
it and a smaller load. -/
def Lighter (a b : LiveEngine σ) : Prop :=
  a.agenda < b.agenda ∨ (a.agenda = b.agenda ∧ a.load < b.load)

end LiveEngine

/-! ### Steps of runs -/

namespace Run

variable {σ : Type}

theorem stepsLeft_pos (r : Run) : 0 < r.stepsLeft := by
  simp only [stepsLeft, RunStage.stepsLeft]
  split <;> omega

/-- A job comes back only when its conditions were just met, and is then ready for its actions. -/
theorem eq_accepting_of_write [ExecutionLog σ] {r : Run} {now runAt : Timestamp} {s : σ} {j : Job}
    (h : (r.write now s).1 = .ended (.deferred j runAt)) :
    r.stage = .accepting ∧ j.rule = r.rule ∧ j.record.status = .conditionsMet := by
  obtain ⟨rule, context, record, stage⟩ := r
  cases stage <;> simp only [write, accept, save, goOn] at h <;>
    (repeat' split at h) <;> simp_all [ExecutionRecord.transition_eq]
  obtain ⟨⟨rfl⟩, rfl⟩ := h
  split at * <;> simp_all [ExecutionStatus.isTerminal]
  next heq => rw [← heq]

theorem load_lt_of_deferred [ExecutionLog σ] {r : Run} {now runAt : Timestamp} {s : σ} {j : Job}
    (h : (r.write now s).1 = .ended (.deferred j runAt)) : j.load + 5 < r.load := by
  obtain ⟨hs, hr, hj⟩ := eq_accepting_of_write h
  rw [Job.load_of_conditionsMet hj, hr, load, stepsLeft, hs, RunStage.stepsLeft]
  omega

end Run

namespace Engine

variable {σ : Type}

/-- What a run does leaves the queue as it is. -/
theorem queue_stepRun [ExecutionLog σ] (e : Engine σ) (r : Run) :
    (e.stepRun r).2.queue = e.queue := by
  unfold stepRun
  split
  · rfl
  · simp only [callHandler]
    split <;> rfl
  · rfl
  · rfl

theorem queue_callHandler (e : Engine σ) (r : Run) (a : Action) :
    (e.callHandler r a).2.queue = e.queue := by
  unfold callHandler
  split <;> rfl

/-- A job that comes back from a run has less than the load of the run. -/
theorem load_lt_of_stepRun [ExecutionLog σ] {e : Engine σ} {r : Run} {runAt : Timestamp} {j : Job}
    (h : (e.stepRun r).1 = .ended (.deferred j runAt)) : j.load + 5 < r.load := by
  unfold stepRun at h
  split at h
  · simp at h
  · simp at h
  · simp at h
  · exact Run.load_lt_of_deferred h

end Engine

/-! ### Steps of producers -/

namespace Producer

theorem load_ended (r : Except EngineError Nat) : (after (.ended r)).load ≤ 1 := by
  unfold after
  split <;> simp [load] at *

end Producer

namespace Firing

variable {σ : Type} [RuleStore σ] [ExecutionLog σ]

theorem load_pos (f : Firing) : 0 < f.load := by
  unfold load
  omega

omit [RuleStore σ] in
theorem load_append_lt (f : Firing) (waiting : List Rule) (rule : Rule) (context : TriggerContext)
    (fresh : ExecutionId) (now : Timestamp) (s : σ) :
    (Producer.after (f.append waiting rule context fresh now s).1).load ≤
      totalWeight ruleLoad waiting + 18 * rule.actions.length + 41 := by
  unfold append
  dsimp only
  split
  · have := Producer.load_ended (Except.error ‹EngineError›)
    dsimp only
    omega
  · have := Job.load_of_pending
      (show (Job.mk rule context (.pending fresh rule context now)).record.status = .pending
        from rfl)
    simp only [Producer.after, Producer.load, load, stageLoad, this]
    omega

/-- A step of a firing takes something off its load and off that of the queue together. -/
theorem load_of_step (f : Firing) (fresh : ExecutionId) (now : Timestamp) (s : σ) (q : JobQueue) :
    (Producer.after (f.step fresh now s q).1).load + Job.loads 2 (f.step fresh now s q).2.2.jobs <
      (Producer.busy f).load + Job.loads 2 q.jobs := by
  obtain ⟨cause, waiting, stage, submitted⟩ := f
  cases stage with
  | holding job =>
    simp only [step, JobQueue.submit]
    by_cases hq : q.isOpen
    · simp only [hq, if_true, Producer.after, Producer.load, load, stageLoad, Job.loads_append]
      omega
    · have := Producer.load_ended (Except.error EngineError.queueClosed)
      simp only [hq, Producer.load, load, stageLoad] at *
      simp at *
      omega
  | claimed rule =>
    cases cause <;> simp only [step] <;>
      refine Nat.add_lt_add_right (Nat.lt_of_le_of_lt (load_append_lt ..) ?_) _ <;>
      simp only [Producer.load, load, stageLoad] <;> omega
  | choosing =>
    cases waiting with
    | nil => simp [step, Producer.after, Producer.load, load, stageLoad]
    | cons rule rest =>
      cases cause with
      | change context =>
        simp only [step]
        refine Nat.add_lt_add_right (Nat.lt_of_le_of_lt (load_append_lt ..) ?_) _
        simp only [Producer.load, load, stageLoad, ruleLoad, totalWeight_cons]
        omega
      | tick tick =>
        simp only [step]
        split <;> refine Nat.add_lt_add_right ?_ _
        · have := Producer.load_ended (Except.error ‹EngineError›)
          simp only [Producer.load, load, stageLoad] at *
          omega
        · simp only [Producer.after, Producer.load, load, stageLoad, ruleLoad, totalWeight_cons]
          omega
        · simp only [Producer.after, Producer.load, load, stageLoad, ruleLoad, totalWeight_cons]
          omega

end Firing

/-! ### Reading the feed -/

namespace ChangeFeed

theorem unread_ingestLine (f : ChangeFeed) (s : Subscription) (count : Nat) (line : String) :
    (f.ingestLine count line).2.unread s ≤ f.unread s + 1 := by
  unfold ingestLine
  split
  · simp only [unread, publish]
    omega
  · exact Nat.le_succ _

/-- A subscriber that reads a notification or is told of a loss has passed some more. -/
theorem unread_receive {f : ChangeFeed} {s : Subscription}
    (h : s.passed < f.published) : f.unread (f.receive s).2 < f.unread s := by
  unfold receive
  split
  · next hl =>
    simp only [unread, lost] at *
    omega
  · next hl =>
    split
    · simp only [unread]
      omega
    · next hn =>
      rw [List.getElem?_eq_none_iff] at hn
      simp only [lost] at *
      omega

/-- A subscriber that has passed everything reads nothing. -/
theorem receive_of_published_le {f : ChangeFeed} {s : Subscription} (h : f.published ≤ s.passed) :
    f.receive s = (if f.isOpen then .empty else .closed, s) := by
  have := f.length_kept_le
  have hn : f.kept[s.passed - f.lost]? = none := by
    rw [List.getElem?_eq_none_iff]
    simp only [lost]
    omega
  have hl : ¬s.passed < f.lost := by
    simp only [lost]
    omega
  simp [receive, hl, hn]

end ChangeFeed

namespace Worker

theorem load_pos (w : Worker) : 0 < w.load := by
  have := Nat.mul_le_mul_left 6 w.run.stepsLeft_pos
  have := Bool.toNat_le w.outcome.isSome
  simp only [load, Run.load]
  omega

end Worker

/-! ### Events from within -/

namespace LiveEvent

/-- Whether an event comes from within the engine. -/
def isInternal : LiveEvent → Bool
  | .ingest | .listen | .dispatch | .look | .schedule | .retire | .receive | .employ | .leave
  | .work _ | .wake _ => true
  | .publish _ | .closeFeed | .closeQueue | .setClock _ | .pass _ | .stop | .abandon
  | .restart => false

end LiveEvent

namespace LiveEngine

variable {σ : Type}

theorem lighter_ingest {e : LiveEngine σ} (h : e.lines ≠ []) : Lighter e.ingest e := by
  cases hl : e.lines with
  | nil => exact absurd hl h
  | cons line rest =>
    have := e.feed.unread_ingestLine e.subscription e.ingested line
    refine .inl ?_
    simp only [ingest, hl, agenda, List.length_cons]
    omega

theorem lighter_listen [RuleStore σ] {e : LiveEngine σ} (h : e.dispatcher = .idle)
    (hd : (e.feed.receive e.subscription).1 ≠ .empty) : Lighter e.listen e := by
  by_cases hp : e.subscription.passed < e.feed.published
  · have := ChangeFeed.unread_receive hp
    refine .inl ?_
    simp only [listen]
    split <;> simp only [agenda] <;> omega
  · have hr := ChangeFeed.receive_of_published_le (Nat.le_of_not_lt hp)
    refine .inr ?_
    simp only [listen, hr] at *
    split at hd
    · exact absurd rfl hd
    · next ho => simp [ho, agenda, load, h, Producer.load]

theorem lighter_look [RuleStore σ] {e : LiveEngine σ} (h : ¬e.elapsed < e.nextLook) :
    Lighter e.look e := by
  refine .inl ?_
  simp only [look, agenda, h, if_false]
  have : e.elapsed < max (e.elapsed + 1)
      (e.nextLook + ((e.elapsed - e.nextLook) / e.cadence + 1) * e.cadence) := by omega
  simp [this]

theorem lighter_dispatchStep [RuleStore σ] [ExecutionLog σ] {e : LiveEngine σ} {f : Firing}
    (h : e.dispatcher = .busy f) : Lighter (e.dispatchStep f) e := by
  have := f.load_of_step e.nextId e.clock e.store e.queue
  refine .inr ⟨rfl, ?_⟩
  rcases hs : f.step e.nextId e.clock e.store e.queue with ⟨progress, store, queue⟩
  simp only [dispatchStep, Engine.stepFiring, load, h, hs] at *
  omega

theorem lighter_scheduleStep [RuleStore σ] [ExecutionLog σ] {e : LiveEngine σ} {f : Firing}
    (h : e.scheduler = .busy f) : Lighter (e.scheduleStep f) e := by
  have := f.load_of_step e.nextId e.clock e.store e.queue
  refine .inr ⟨rfl, ?_⟩
  rcases hs : f.step e.nextId e.clock e.store e.queue with ⟨progress, store, queue⟩
  simp only [scheduleStep, Engine.stepFiring, load, h, hs] at *
  omega

theorem lighter_receive {e : LiveEngine σ} (hh : e.held = none) (hq : e.queue.jobs ≠ []) :
    Lighter e.receive e := by
  cases hj : e.queue.jobs with
  | nil => exact absurd hj hq
  | cons j rest =>
    refine .inr ?_
    simp only [receive, JobQueue.next?, hj, agenda, load, hh]
    simp [Job.loads]
    omega

theorem lighter_employ {e : LiveEngine σ} {j : Job} (hh : e.held = some j) :
    Lighter (e.employ j) e := by
  refine .inr ?_
  unfold employ
  split
  · next r hr =>
    have : j.load = r.load := by simp [Job.load, hr]
    simp [agenda, load, hh, Job.loads, Worker.load, this]
    omega
  · simp [agenda, load, hh, Job.loads]

theorem lighter_leave {e : LiveEngine σ} (h : e.isReceiving = true) : Lighter e.leave e := by
  refine .inr ⟨rfl, ?_⟩
  simp [leave, JobQueue.close, load, h]

theorem lighter_wake {e : LiveEngine σ} {i : Nat} {s : Sleeper} (h : e.sleepers[i]? = some s) :
    Lighter (e.wake i s) e := by
  have hs := totalWeight_eraseIdx Sleeper.load h
  unfold wake
  split
  · refine .inr ⟨rfl, ?_⟩
    simp only [JobQueue.submit, load, Job.loads, Sleeper.load] at *
    split
    · next hq =>
      split at hq
      · simp only [Except.ok.injEq] at hq
        subst hq
        simp only [totalWeight_append, totalWeight_cons, totalWeight_nil]
        omega
      · simp at hq
    · omega
  · next ha =>
    have hset := totalWeight_set Sleeper.load { s with isAwake := true } h
    refine .inr ⟨rfl, ?_⟩
    simp only [Sleeper.load, ha, Bool.not_true, Bool.toNat_false, Bool.not_false,
      Bool.toNat_true] at hset
    simp only [load]
    omega

/-- A step of a worker leaves everything but the stores, the clock and the accounts as it is. -/
theorem workStep_engine [ExecutionLog σ] (e : LiveEngine σ) (w : Worker) :
    ∃ engine : Engine σ,
      (e.workStep w).2.2 = { e with toEngine := engine } ∧ engine.queue = e.queue := by
  unfold workStep
  split
  · exact ⟨e.toEngine, rfl, rfl⟩
  · exact ⟨_, rfl, e.toEngine.queue_callHandler _ _⟩
  · exact ⟨e.toEngine, rfl, rfl⟩
  · exact ⟨_, rfl, e.toEngine.queue_stepRun _⟩

/-- A worker touches nothing but what its step does, the slots and the sleepers. -/
theorem work_eq [ExecutionLog σ] (e : LiveEngine σ) (i : Nat) (w : Worker) :
    ∃ workers sleepers, e.work i w = { (e.workStep w).2.2 with workers, sleepers } := by
  unfold work
  rcases e.workStep w with ⟨p, w', e'⟩
  cases p with
  | going r => exact ⟨_, _, rfl⟩
  | ended ending => cases ending <;> exact ⟨_, _, rfl⟩

/-- A worker that goes on has become smaller. -/
theorem load_lt_of_workStep [ExecutionLog σ] {e : LiveEngine σ} {w : Worker} {r : Run}
    (h : (e.workStep w).1 = .going r) :
    ({ (e.workStep w).2.1 with run := r } : Worker).load < w.load := by
  have hp := Nat.mul_pos (by decide : 0 < 6) w.run.stepsLeft_pos
  obtain ⟨run, outcome, due⟩ := w
  unfold workStep at h ⊢
  split at h
  · next hs =>
    simp only [RunProgress.going.injEq] at h
    subst h
    dsimp only at hs
    simp only [Worker.load, Run.load, Run.stepsLeft, Run.called, hs, RunStage.stepsLeft]
    cases outcome with
    | none => simp
    | some o => simp; omega
  · next hs ho =>
    simp only [RunProgress.going.injEq] at h
    subst h
    dsimp only at hs ho hp
    subst ho
    simp only [Worker.load, Run.load, Option.isSome_some, Option.isSome_none, Bool.toNat_true,
      Bool.toNat_false]
    omega
  · next hs ho =>
    simp only [RunProgress.going.injEq] at h
    subst h
    dsimp only at hs ho
    subst ho
    simp only [Worker.load, Run.load, Run.stepsLeft, Run.answered, hs, RunStage.stepsLeft]
    simp
    omega
  · have := Engine.stepsLeft_of_stepRun h
    have := r.stepsLeft_pos
    simp only [Worker.load, Run.load]
    dsimp only at *
    cases outcome <;> simp <;> omega

/-- A job that a worker puts to sleep is smaller than the worker. -/
theorem load_lt_of_workStep_deferred [ExecutionLog σ] {e : LiveEngine σ} {w : Worker} {j : Job}
    {runAt : Timestamp} (h : (e.workStep w).1 = .ended (.deferred j runAt)) :
    j.load + 4 < w.load := by
  unfold workStep at h
  split at h
  · simp at h
  · simp at h
  · simp at h
  · have := Engine.load_lt_of_stepRun h
    simp only [Worker.load]
    have := Bool.toNat_le w.outcome.isSome
    omega

theorem lighter_work [ExecutionLog σ] {e : LiveEngine σ} {i : Nat} {w : Worker}
    (h : e.workers[i]? = some w) : Lighter (e.work i w) e := by
  have hw := totalWeight_eraseIdx Worker.load h
  obtain ⟨engine, he, hq⟩ := e.workStep_engine w
  unfold work
  split
  · next r w' e' hs =>
    have hr := load_lt_of_workStep (e := e) (w := w) (r := r) (by rw [hs])
    have hset := totalWeight_set Worker.load { w' with run := r } h
    simp only [hs] at he hr
    subst he
    refine .inr ⟨rfl, ?_⟩
    simp only [load, hq] at *
    omega
  · next j runAt w' e' hs =>
    have hd : (e.workStep w).1 = .ended (.deferred j runAt) := by rw [hs]
    have hj := load_lt_of_workStep_deferred hd
    simp only [hs] at he
    subst he
    refine .inr ⟨rfl, ?_⟩
    simp only [load, hq, totalWeight_append, totalWeight_cons, totalWeight_nil, Sleeper.load,
      Bool.not_false, Bool.toNat_true]
    omega
  · next hs =>
    have := w.load_pos
    simp only [hs] at he
    subst he
    refine .inr ⟨rfl, ?_⟩
    simp only [load, hq] at *
    omega

theorem lighter_retire {e : LiveEngine σ}
    (h : (e.dispatcher.isIdle || e.scheduler.isIdle) = true) : Lighter e.retire e := by
  refine .inr ?_
  unfold retire
  cases hd : e.dispatcher <;> cases hs : e.scheduler <;>
    simp_all [Producer.isIdle, agenda, load, Producer.load]

/-- An event from within that can happen leaves the engine less to do. -/
theorem lighter_of_carryOut [RuleStore σ] [ExecutionLog σ] {e : LiveEngine σ} {event : LiveEvent}
    (hi : event.isInternal = true) (h : e.isPossible event = true) :
    Lighter (e.carryOut event) e := by
  cases event <;> simp only [LiveEvent.isInternal, Bool.false_eq_true] at hi <;>
    simp only [isPossible, Bool.and_eq_true, Bool.not_eq_eq_eq_not, Bool.not_true,
      List.isEmpty_eq_false_iff, decide_eq_true_eq] at h <;>
    simp only [carryOut]
  case ingest => exact lighter_ingest h
  case listen =>
    cases hd : e.dispatcher <;> simp only [hd, Producer.isIdle, Bool.false_eq_true, false_and] at h
    refine lighter_listen hd fun he => ?_
    simp [he] at h
  case dispatch =>
    cases hd : e.dispatcher <;> simp only [hd, Producer.isBusy, Bool.false_eq_true, false_and] at h
    exact lighter_dispatchStep hd
  case look => exact lighter_look (Nat.not_lt.2 h.2)
  case schedule =>
    cases hs : e.scheduler <;> simp only [hs, Producer.isBusy, Bool.false_eq_true, false_and] at h
    exact lighter_scheduleStep hs
  case retire => exact lighter_retire h.2
  case receive => exact lighter_receive (Option.isNone_iff_eq_none.1 h.1.2) h.2
  case employ =>
    obtain ⟨j, hj⟩ := Option.isSome_iff_exists.1 h.1
    simp only [hj]
    exact lighter_employ hj
  case leave => exact lighter_leave h.1.1
  case work i =>
    cases hw : e.workers[i]? with
    | none => simp [hw] at h
    | some w => exact lighter_work hw
  case wake i =>
    cases hs : e.sleepers[i]? with
    | none => simp [hs] at h
    | some s => exact lighter_wake hs

end LiveEngine

end RuleEngine
