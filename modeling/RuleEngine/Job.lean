import RuleEngine.Error
import RuleEngine.Execution.Record

/-!
# Jobs

A job is one execution on its way: the rule, the cause, and the record as it was last written.
Jobs wait in a queue, first come, first served.
-/

namespace RuleEngine

/-- An execution on its way. -/
structure Job where
  rule : Rule
  context : TriggerContext
  record : ExecutionRecord

/-- The jobs that wait, the first one in front, and whether more may come. Whoever submits to a
queue with `capacity` jobs waits until one was taken out. -/
structure JobQueue where
  capacity : Nat := 1024
  jobs : List Job := []
  isOpen : Bool := true

namespace JobQueue

/-- Whether a queue makes those wait who submit: a closed one refuses them at once. -/
def isFull (q : JobQueue) : Bool := q.isOpen && q.capacity ≤ q.jobs.length

/-- Adds a job at the end of an open queue. -/
def submit (q : JobQueue) (j : Job) : Except EngineError JobQueue :=
  if q.isOpen then .ok { q with jobs := q.jobs ++ [j] } else .error .queueClosed

/-- The first job and the queue behind it. -/
def next? (q : JobQueue) : Option (Job × JobQueue) :=
  match q.jobs with
  | [] => none
  | j :: rest => some (j, { q with jobs := rest })

/-- The queue that takes no more jobs and keeps those it has. -/
def close (q : JobQueue) : JobQueue := { q with isOpen := false }

/-- The queue that is gone, with the jobs in it. -/
def drop (q : JobQueue) : JobQueue := { q with jobs := [], isOpen := false }

end JobQueue

end RuleEngine
