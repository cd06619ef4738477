import RuleEngine.Engine
import RuleEngine.Feed

/-!
# The live engine

The engine at work. Lines of input go to the change feed, the dispatcher reads the feed and the
scheduler looks at the clock, and both submit jobs. A pool takes the jobs out of the queue and runs
a limited number of them side by side. A job that has to wait for its delay sleeps outside of the
pool and is submitted again. All of them share the stores and the clock of one engine.
-/

namespace RuleEngine

/-- A source of jobs: with nothing to do, with rules being fired, or gone. -/
inductive Producer where
  | idle
  | busy (f : Firing)
  | gone

/-- A run in a slot of the pool. Once a handler is at work for it, `outcome` is what its call comes
to and `due` the time at which that is known. -/
structure Worker where
  run : Run
  outcome : Option ActionOutcome := none
  due : Nat := 0

/-- Whether a run waits for a handler that has not been at work yet. -/
def Worker.isCalling (w : Worker) : Bool :=
  match w.run.stage, w.outcome with
  | .awaiting .., none => true
  | _, _ => false

/-- A job that is submitted again when its time has come. Its sleeper is awake from then on, and
waits until there is room in the queue. -/
structure Sleeper where
  job : Job
  due : Nat
  isAwake : Bool := false

/-- A part of an engine that takes turns with the others: the pool, a producer, a run, the handler
that a run has called, or a sleeper. -/
inductive Party where
  | pool
  | dispatcher
  | scheduler
  | run (id : ExecutionId)
  | handler (id : ExecutionId)
  | sleeper (id : ExecutionId)
deriving DecidableEq

/-- The part that a worker is now: its run, or the handler that the run has called. -/
def Worker.party (w : Worker) : Party :=
  if w.isCalling then .handler w.run.record.id else .run w.run.record.id

/-- The order in which the parts of an engine take turns. Those that can go on come in the order in
which they became ready, the others in the order in which they stopped. -/
structure Turns where
  ready : List Party := []
  resting : List Party := []

/-- An engine at work. `slots` is the number of runs that go on side by side, `cadence` the
milliseconds between two looks of the scheduler at the clock, `held` the job that was taken out of
the queue and waits for a slot, and `elapsed` the milliseconds that have passed. When the
engine is told to stop, each part leaves as soon as it notices: a producer if it has nothing to
fire, the pool if it has no job that waits for a slot. -/
structure LiveEngine (σ : Type) extends Engine σ where
  slots : Nat
  cadence : Nat
  feed : ChangeFeed
  subscription : Subscription := feed.subscribe
  lines : List String := []
  ingested : Nat := 0
  dispatcher : Producer := .idle
  scheduler : Producer := .idle
  nextLook : Nat := 0
  isReceiving : Bool := true
  held : Option Job := none
  workers : List Worker := []
  sleepers : List Sleeper := []
  isStopping : Bool := false
  elapsed : Nat := 0
  turns : Turns := {}

namespace Duration

/-- The milliseconds after which a length of time is over. -/
def ceilMillis (d : Duration) : Nat := ((d + 999999) / 1000000).toNat

end Duration

namespace Producer

/-- Whether a producer has nothing to do. -/
def isIdle : Producer → Bool
  | .idle => true
  | .busy _ | .gone => false

/-- Whether a producer has rules to fire. -/
def isBusy : Producer → Bool
  | .busy _ => true
  | .idle | .gone => false

/-- Whether a producer waits for room in the queue. -/
def isBlocked (q : JobQueue) : Producer → Bool
  | .busy f => match f.stage with
    | .holding _ => q.isFull
    | .choosing | .claimed _ => false
  | .idle | .gone => false

/-- What a producer does after a step of its firing. It is gone once the queue is closed; any other
error ends the firing only. -/
def after : FiringProgress → Producer
  | .going f => .busy f
  | .ended (.ok _) => .idle
  | .ended (.error .queueClosed) => .gone
  | .ended (.error _) => .idle

/-- What a producer does after it tried to start a firing. -/
def starting : Except EngineError Firing → Producer
  | .ok f => .busy f
  | .error e => after (.ended (.error e))

end Producer

namespace LiveEngine

variable {σ : Type}

/-- Publishes a notification. -/
def publish (e : LiveEngine σ) (n : ChangeNotification) : LiveEngine σ :=
  { e with feed := e.feed.publish n }

/-- Publishes the notification of the next line of input, if it has one. -/
def ingest (e : LiveEngine σ) : LiveEngine σ :=
  match e.lines with
  | [] => e
  | line :: rest =>
    let (ingested, feed) := e.feed.ingestLine e.ingested line
    { e with lines := rest, ingested, feed }

/-- The dispatcher reads the feed. -/
def listen [RuleStore σ] (e : LiveEngine σ) : LiveEngine σ :=
  let (delivery, subscription) := e.feed.receive e.subscription
  let e := { e with subscription }
  match delivery with
  | .notification n =>
    { e with dispatcher := .starting (Firing.ofChange e.store n e.clock) }
  | .lagged _ | .empty => e
  | .closed => { e with dispatcher := .gone }

/-- The scheduler looks at the clock, and will look again after a whole number of cadences from its
first look. -/
def look [RuleStore σ] (e : LiveEngine σ) : LiveEngine σ :=
  let late := e.elapsed - e.nextLook
  { e with
    scheduler := .starting (Firing.ofInstant e.store e.clock)
    nextLook := max (e.elapsed + 1) (e.nextLook + (late / e.cadence + 1) * e.cadence) }

/-- The dispatcher makes a step of its firing. -/
def dispatchStep [RuleStore σ] [ExecutionLog σ] (e : LiveEngine σ) (f : Firing) :
    LiveEngine σ :=
  let (progress, engine) := e.toEngine.stepFiring f
  { e with toEngine := engine, dispatcher := .after progress }

/-- The scheduler makes a step of its firing. -/
def scheduleStep [RuleStore σ] [ExecutionLog σ] (e : LiveEngine σ) (f : Firing) :
    LiveEngine σ :=
  let (progress, engine) := e.toEngine.stepFiring f
  { e with toEngine := engine, scheduler := .after progress }

/-- The pool takes the next job out of the queue. -/
def receive (e : LiveEngine σ) : LiveEngine σ :=
  match e.queue.next? with
  | some (job, queue) => { e with queue, held := some job }
  | none => e

/-- The job that waits gets a slot. A job that cannot be run leaves it at once. -/
def employ (e : LiveEngine σ) (job : Job) : LiveEngine σ :=
  match Run.ofJob job with
  | .ok run => { e with held := none, workers := e.workers ++ [{ run }] }
  | .error _ => { e with held := none }

/-- The pool leaves: it takes no more jobs, and the queue refuses them. -/
def leave (e : LiveEngine σ) : LiveEngine σ :=
  { e with isReceiving := false, queue := e.queue.close }

/-- The most slots that the pool asks back when it has left, as many as 32 bits count. -/
def mostAwaited : Nat := 0xFFFFFFFF

/-- Whether the pool is gone: it has left, and the slots that it asks back are free. -/
def isGone (e : LiveEngine σ) : Bool :=
  !e.isReceiving && min e.slots mostAwaited + e.workers.length ≤ e.slots

/-- A worker makes its next step. To call a handler, to let it work and to hear its answer are three
steps. -/
def workStep [ExecutionLog σ] (e : LiveEngine σ) (w : Worker) :
    RunProgress × Worker × LiveEngine σ :=
  match w.run.stage, w.outcome with
  | .calling action rest, _ =>
    let run := w.run.called action rest e.clock
    (.going run, { run }, e)
  | .awaiting action _ _, none =>
    let (call, engine) := e.toEngine.callHandler w.run action
    let wait := (call.map (·.ending e.allowed)).getD 0
    (.going w.run, ⟨w.run, e.outcomeOf action call, e.elapsed + wait⟩,
      { e with toEngine := engine })
  | .awaiting action startedAt rest, some outcome =>
    let run := w.run.answered action startedAt rest outcome e.clock
    (.going run, { run }, e)
  | _, _ =>
    let (progress, engine) := e.toEngine.stepRun w.run
    (progress, w, { e with toEngine := engine })

/-- The worker at a place makes its next step. If its run is deferred, the job goes to sleep and the
slot becomes free. -/
def work [ExecutionLog σ] (e : LiveEngine σ) (i : Nat) (w : Worker) : LiveEngine σ :=
  match e.workStep w with
  | (.going run, w, e) => { e with workers := e.workers.set i { w with run } }
  | (.ended (.deferred job runAt), _, e) =>
    let due := e.elapsed + (runAt.since e.clock).ceilMillis
    { e with workers := e.workers.eraseIdx i, sleepers := e.sleepers ++ [{ job, due }] }
  | (.ended _, _, e) => { e with workers := e.workers.eraseIdx i }

/-- The sleeper at a place wakes or, if it is awake, submits its job again; a closed queue loses the
job. -/
def wake (e : LiveEngine σ) (i : Nat) (s : Sleeper) : LiveEngine σ :=
  if s.isAwake then
    { e with
      sleepers := e.sleepers.eraseIdx i
      queue := match e.queue.submit s.job with
        | .ok queue => queue
        | .error _ => e.queue }
  else { e with sleepers := e.sleepers.set i { s with isAwake := true } }

/-- The engine is told to stop. -/
def stop (e : LiveEngine σ) : LiveEngine σ := { e with isStopping := true }

/-- Abandons every record that has not ended. -/
def abandonOpen [ExecutionLog σ] (e : LiveEngine σ) : Except EngineError Nat × LiveEngine σ :=
  let (count, engine) := e.toEngine.abandon
  (count, { e with toEngine := engine })

/-- The engine after a crash: what is in the stores is all that it keeps. -/
def crashed (e : LiveEngine σ) : LiveEngine σ :=
  { e with
    queue := { capacity := e.queue.capacity }
    feed := .fresh e.feed.slots
    subscription := ⟨0⟩
    lines := []
    ingested := 0
    dispatcher := .idle
    scheduler := .idle
    nextLook := e.elapsed
    isReceiving := true
    held := none
    workers := []
    sleepers := []
    isStopping := false
    turns := {} }

end LiveEngine

end RuleEngine
