import RuleEngine.Live.Load

/-!
# The passage of time

How an engine lives when its parts are prompt: whatever is due happens at once, and time passes
only when nothing is. The parts take turns in the order in which they became ready, and each of
them goes on until it has to wait. So those who wait for room in the queue get it in the order in
which they came. A line of input is read when no part is ready, so that no subscriber falls behind
more than it has to.
-/

namespace RuleEngine.LiveEngine

variable {σ : Type}

/-- The parts that an engine has now. -/
def parties (e : LiveEngine σ) : List Party :=
  [.pool, .dispatcher, .scheduler] ++ e.workers.map Worker.party ++
    e.sleepers.map fun s => .sleeper s.job.record.id

/-- The events by which a part goes on. -/
def duties (e : LiveEngine σ) : Party → List LiveEvent
  | .pool => [.leave, .employ, .receive]
  | .dispatcher => [.retire, .dispatch, .listen]
  | .scheduler => [.retire, .schedule, .look]
  | .run id => (e.workers.findIdx? fun w => w.party == .run id).toList.map .work
  | .handler id => (e.workers.findIdx? fun w => w.party == .handler id).toList.map .work
  | .sleeper id => (e.sleepers.findIdx? fun s => s.job.record.id == id).toList.map .wake

/-- The event by which a part goes on now, if it can. -/
def nextDuty? (e : LiveEngine σ) (p : Party) : Option LiveEvent :=
  (e.duties p).find? e.isPossible

/-- Whether a part can go on. -/
def canGoOn (e : LiveEngine σ) (p : Party) : Bool :=
  (e.nextDuty? p).isSome

/-- The engine with its turns brought up to date: what has become ready joins the end of those that
are, and what has to wait joins the end of those that rest. -/
def takeStock (e : LiveEngine σ) : LiveEngine σ :=
  let isNew (p : Party) : Bool := !e.turns.ready.contains p && !e.turns.resting.contains p
  let (ready, stopped) := e.turns.ready.partition e.canGoOn
  let (roused, resting) := (e.turns.resting ++ e.parties.filter isNew).partition e.canGoOn
  { e with turns :=
    { ready := ready ++ roused
      resting := resting ++ stopped.filter e.parties.contains } }

/-- What happens next within the engine, if anything can. -/
def nextEvent? (e : LiveEngine σ) : Option LiveEvent :=
  match e.turns.ready with
  | p :: _ => e.nextDuty? p
  | [] => if !e.isStopping && e.isPossible .ingest then some .ingest else none

theorem isInternal_of_mem_duties {e : LiveEngine σ} {p : Party} {event : LiveEvent}
    (h : event ∈ e.duties p) : event.isInternal = true := by
  cases p <;> simp only [duties, List.mem_map, List.mem_cons, List.not_mem_nil, or_false] at h
  case pool | dispatcher | scheduler => rcases h with rfl | rfl | rfl <;> rfl
  case run | handler | sleeper => obtain ⟨_, -, rfl⟩ := h; rfl

theorem isInternal_of_nextEvent {e : LiveEngine σ} {event : LiveEvent}
    (h : e.nextEvent? = some event) : event.isInternal = true ∧ e.isPossible event = true := by
  unfold nextEvent? at h
  split at h
  · exact ⟨isInternal_of_mem_duties (List.mem_of_find?_eq_some h), List.find?_some h⟩
  · simp only [Option.ite_none_right_eq_some, Option.some.injEq, Bool.and_eq_true] at h
    obtain ⟨⟨-, hp⟩, rfl⟩ := h
    exact ⟨rfl, hp⟩

variable [RuleStore σ] [ExecutionLog σ]

/-- The engine after the next event within it, if there is one. -/
def prompt? (e : LiveEngine σ) : Option (LiveEngine σ) :=
  let e := e.takeStock
  e.nextEvent?.map e.carryOut

/-- What happens promptly leaves the engine less to do. -/
theorem lighter_of_prompt {e e' : LiveEngine σ} (h : e.prompt? = some e') : Lighter e' e := by
  obtain ⟨event, he, rfl⟩ := Option.map_eq_some_iff.1 h
  have hi := isInternal_of_nextEvent he
  exact lighter_of_carryOut hi.1 hi.2

/-- The engine at rest: nothing from within can happen until time passes. -/
def settle (e : LiveEngine σ) : LiveEngine σ :=
  match _h : e.prompt? with
  | some e' => e'.settle
  | none => e.takeStock
termination_by (e.agenda, e.load)
decreasing_by
  rcases lighter_of_prompt _h with h | h
  · exact Prod.Lex.left _ _ h
  · exact h.1 ▸ Prod.Lex.right _ h.2

/-- The times at which something becomes due: the answers of handlers, the ends of delays, and the
next look at the clock. -/
def dueTimes (e : LiveEngine σ) : List Nat :=
  e.workers.map (·.due) ++ e.sleepers.map (·.due) ++
    match e.scheduler with
    | .idle => [e.nextLook]
    | .busy _ | .gone => []

/-- The first time after `now` at which something becomes due. -/
def nextDue? (e : LiveEngine σ) (now : Nat) : Option Nat :=
  (e.dueTimes.filter (now < ·)).min?

omit [RuleStore σ] [ExecutionLog σ] in
theorem lt_of_nextDue {e : LiveEngine σ} {now t : Nat} (h : e.nextDue? now = some t) :
    now < t := by
  have := List.min?_mem h
  simpa using (List.mem_filter.1 this).2

/-- The engine at a time, after everything that is due from `now` on has happened, or as soon as
nobody waits for it any more. -/
def liveUntil (isOver : LiveEngine σ → Bool) (e : LiveEngine σ) (now target : Nat) :
    LiveEngine σ :=
  let settled := { e with elapsed := now }.settle
  if isOver settled then settled
  else
    match _h : settled.nextDue? now with
    | some t =>
      if t ≤ target then settled.liveUntil isOver t target else { settled with elapsed := target }
    | none => { settled with elapsed := target }
termination_by target - now
decreasing_by
  have := lt_of_nextDue _h
  omega

/-- The engine after milliseconds. -/
def wait (e : LiveEngine σ) (ms : Nat) : LiveEngine σ :=
  e.liveUntil (fun _ => false) e.elapsed (e.elapsed + ms)

/-- The milliseconds after which every run that has a slot, and the job that waits for one, is
certain to have ended. -/
def patience (e : LiveEngine σ) : Nat :=
  (totalWeight (·.run.load) e.workers + Job.loads 0 e.held.toList) * e.allowed

/-- The engine after it was told to stop and its pool is gone. -/
def finish (e : LiveEngine σ) : LiveEngine σ :=
  let stopped := e.stop
  stopped.liveUntil isGone stopped.elapsed (stopped.elapsed + stopped.patience)

end RuleEngine.LiveEngine
