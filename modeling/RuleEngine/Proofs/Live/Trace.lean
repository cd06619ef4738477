import Mathlib.Data.List.Induction
import RuleEngine.Proofs.Live.Change

/-!
# Traces of lives

What is seen of an engine at each of its moves, put in a row, is a trace of its life: the jobs that
it submits, say, or the lines that it reads. A place that gives back what comes to it in the order
in which it came does so in every move; then it does so throughout a life, and whatever has come to
it has left it in this order or is still there.

## Main definitions

* `LiveEngine.along`: what is seen of an engine at moves, in their order.
* `LiveEngine.submissions`: the job that is added to the queue in an event.

## Main results

* `LiveEngine.along_account`: a place whose account is kept by every move keeps it in a life.
* `Firing.queue_step`: a step of a firing adds the job that it holds to an open queue, and nothing
  to a closed one.
-/

namespace RuleEngine

namespace LiveEngine

variable {σ α : Type} [RuleStore σ] [ExecutionLog σ]

/-- What is seen at a move: something at an event that can happen, and nothing else. -/
def sightings (seen : LiveEngine σ → LiveEvent → List α) (e : LiveEngine σ) : LiveMove → List α
  | .event event => if e.isPossible event then seen e event else []
  | .surroundings .. => []

/-- What is seen of an engine at moves, in their order. -/
def along (seen : LiveEngine σ → LiveEvent → List α) (e : LiveEngine σ) : List LiveMove → List α
  | [] => []
  | move :: rest => e.sightings seen move ++ along seen (e.make move) rest

@[simp] theorem along_nil (seen : LiveEngine σ → LiveEvent → List α) (e : LiveEngine σ) :
    along seen e [] = [] := rfl

theorem along_append (seen : LiveEngine σ → LiveEvent → List α) (e : LiveEngine σ)
    (before after : List LiveMove) :
    along seen e (before ++ after) = along seen e before ++ along seen (e.life before) after := by
  induction before generalizing e with
  | nil => rfl
  | cons move rest ih =>
    exact (congrArg (e.sightings seen move ++ ·) (ih _)).trans (List.append_assoc ..).symm

theorem along_concat (seen : LiveEngine σ → LiveEvent → List α) (e : LiveEngine σ)
    (before : List LiveMove) (move : LiveMove) :
    along seen e (before ++ [move]) =
      along seen e before ++ (e.life before).sightings seen move := by
  rw [along_append, along, along_nil, List.append_nil]

theorem life_concat (e : LiveEngine σ) (before : List LiveMove) (move : LiveMove) :
    e.life (before ++ [move]) = (e.life before).make move := e.life_append before [move]

/-- A place that gives back what comes to it in the order in which it came, does so in a life. -/
theorem along_account (place : LiveEngine σ → List α)
    {coming leaving : LiveEngine σ → LiveEvent → List α} {e : LiveEngine σ}
    {moves : List LiveMove}
    (h : ∀ before move, before ++ [move] <+: moves →
      place (e.life before) ++ (e.life before).sightings coming move =
        (e.life before).sightings leaving move ++ place ((e.life before).make move)) :
    place e ++ along coming e moves = along leaving e moves ++ place (e.life moves) := by
  induction moves using List.reverseRecOn with
  | nil => simp [life]
  | append_singleton before move ih =>
    have hbefore := ih fun b m hb => h b m (hb.trans (List.prefix_append _ _))
    calc place e ++ along coming e (before ++ [move])
      _ = along leaving e before ++
          (place (e.life before) ++ (e.life before).sightings coming move) := by
        rw [along_concat, ← List.append_assoc, hbefore, List.append_assoc]
      _ = along leaving e (before ++ [move]) ++ place (e.life (before ++ [move])) := by
        rw [h before move List.prefix_rfl, along_concat, List.append_assoc, life_concat]

end LiveEngine

/-! ### Submitted jobs -/

/-- The job that a producer has to submit next, if there is one. -/
def Producer.offer : Producer → List Job
  | .busy f => match f.stage with
    | .holding job => [job]
    | .choosing | .claimed _ => []
  | .idle | .gone => []

/-- A step of a firing adds the job that it holds to an open queue, and nothing to a closed one. -/
theorem Firing.queue_step {σ : Type} [RuleStore σ] [ExecutionLog σ] (f : Firing)
    (fresh : ExecutionId) (now : Timestamp) (s : σ) (q : JobQueue) :
    (f.step fresh now s q).2.2 =
      if q.isOpen then { q with jobs := q.jobs ++ (Producer.busy f).offer } else q := by
  have hstay : q = if q.isOpen then { q with jobs := q.jobs ++ [] } else q := by
    rw [List.append_nil, ite_self]
  obtain ⟨cause, waiting, stage, submitted⟩ := f
  cases stage with
  | holding job =>
    simp only [step, JobQueue.submit, Producer.offer]
    by_cases hq : q.isOpen = true <;> simp [hq]
  | claimed rule => cases cause <;> exact hstay
  | choosing =>
    cases waiting with
    | nil => exact hstay
    | cons rule rest =>
      cases cause with
      | change context => exact hstay
      | tick tick =>
        simp only [step]
        split <;> exact hstay

namespace LiveEngine

variable {σ : Type}

/-- The job that is to be submitted in an event. -/
def offered (e : LiveEngine σ) : LiveEvent → List Job
  | .dispatch => e.dispatcher.offer
  | .schedule => e.scheduler.offer
  | .wake i => (e.sleepers[i]?.filter (·.isAwake)).toList.map Sleeper.job
  | _ => []

/-- The job that is added to the queue in an event. A closed queue takes none. -/
def submissions (e : LiveEngine σ) (event : LiveEvent) : List Job :=
  if e.queue.isOpen then e.offered event else []

end LiveEngine

end RuleEngine
