import RuleEngine.Live.Basic

/-!
# What happens to a live engine

The events in the life of an engine. Those from within are the steps of its parts, in any order;
each of them is at most one call of a store. The others come from outside.
-/

namespace RuleEngine

/-- An event in the life of an engine. -/
inductive LiveEvent where
  /-- A line of input is read. -/
  | ingest
  /-- The dispatcher reads the feed. -/
  | listen
  /-- The dispatcher makes a step of its firing. -/
  | dispatch
  /-- The scheduler looks at the clock. -/
  | look
  /-- The scheduler makes a step of its firing. -/
  | schedule
  /-- A producer that has nothing to do notices that the engine stops. -/
  | retire
  /-- The pool takes a job out of the queue. -/
  | receive
  /-- The job that was taken out gets a slot. -/
  | employ
  /-- The pool stops taking jobs. -/
  | leave
  /-- The worker at a place makes a step, or the handler that it has called does. -/
  | work (i : Nat)
  /-- The sleeper at a place wakes, or submits its job again if it is awake. -/
  | wake (i : Nat)
  /-- A notification is published. -/
  | publish (n : ChangeNotification)
  /-- The feed loses its publishers. -/
  | closeFeed
  /-- The queue is closed. -/
  | closeQueue
  /-- The clock is set. -/
  | setClock (t : Timestamp)
  /-- Milliseconds pass. -/
  | pass (ms : Nat)
  /-- The engine is told to stop. -/
  | stop
  /-- Every record that has not ended is abandoned. -/
  | abandon
  /-- The engine crashes, starts again, and abandons what it finds. -/
  | restart

namespace LiveEngine

variable {σ : Type} [RuleStore σ] [ExecutionLog σ]

/-- Whether an event can happen. What comes from outside always can. Nobody need notice at once that
the engine is told to stop: lines may be read after it, the producers may go on until they retire,
and the pool may take jobs until it leaves. -/
def isPossible (e : LiveEngine σ) : LiveEvent → Bool
  | .ingest => !e.lines.isEmpty
  | .listen => e.dispatcher.isIdle &&
    match (e.feed.receive e.subscription).1 with
    | .notification _ | .lagged _ | .closed => true
    | .empty => false
  | .dispatch => e.dispatcher.isBusy && !e.dispatcher.isBlocked e.queue
  | .look => e.scheduler.isIdle && e.nextLook ≤ e.elapsed
  | .schedule => e.scheduler.isBusy && !e.scheduler.isBlocked e.queue
  | .retire => e.isStopping && (e.dispatcher.isIdle || e.scheduler.isIdle)
  | .receive => e.isReceiving && e.held.isNone && !e.queue.jobs.isEmpty
  | .employ => e.held.isSome && e.workers.length < e.slots
  | .leave => e.isReceiving && e.held.isNone &&
    (e.isStopping || (!e.queue.isOpen && e.queue.jobs.isEmpty))
  | .work i => e.workers[i]?.any fun w => w.due ≤ e.elapsed
  | .wake i => e.sleepers[i]?.any fun s => s.due ≤ e.elapsed && !(s.isAwake && e.queue.isFull)
  | .publish _ | .closeFeed | .closeQueue | .setClock _ | .pass _ | .stop | .abandon
  | .restart => true

/-- An idle producer of an engine that stops is gone. -/
def retire (e : LiveEngine σ) : LiveEngine σ :=
  if e.dispatcher.isIdle then { e with dispatcher := .gone } else { e with scheduler := .gone }

/-- What an event makes of an engine in which it can happen. -/
def carryOut (e : LiveEngine σ) : LiveEvent → LiveEngine σ
  | .ingest => e.ingest
  | .listen => e.listen
  | .dispatch => match e.dispatcher with
    | .busy f => e.dispatchStep f
    | .idle | .gone => e
  | .look => e.look
  | .schedule => match e.scheduler with
    | .busy f => e.scheduleStep f
    | .idle | .gone => e
  | .retire => e.retire
  | .receive => e.receive
  | .employ => match e.held with
    | some job => e.employ job
    | none => e
  | .leave => e.leave
  | .work i => match e.workers[i]? with
    | some w => e.work i w
    | none => e
  | .wake i => match e.sleepers[i]? with
    | some s => e.wake i s
    | none => e
  | .publish n => e.publish n
  | .closeFeed => { e with feed := e.feed.close }
  | .closeQueue => { e with queue := e.queue.close }
  | .setClock t => { e with clock := t }
  | .pass ms => { e with elapsed := e.elapsed + ms }
  | .stop => e.stop
  | .abandon => e.abandonOpen.2
  | .restart => e.crashed.abandonOpen.2

/-- The engine after an event; one that cannot happen changes nothing. -/
def perform (e : LiveEngine σ) (event : LiveEvent) : LiveEngine σ :=
  if e.isPossible event then e.carryOut event else e

/-- The engine after events in their order. -/
def history (e : LiveEngine σ) (events : List LiveEvent) : LiveEngine σ :=
  events.foldl perform e

end LiveEngine

end RuleEngine
