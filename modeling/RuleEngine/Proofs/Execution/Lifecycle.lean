import Mathlib.Data.List.Induction
import RuleEngine.Proofs.Run.Consistency

/-!
# The life of a record

A record is asked to move, or to fail, any number of times and with any arguments. A call that its
status does not allow is refused and changes nothing; one that it does allow leads one step along
the path of an execution, or off it into one of the statuses that end it. The path has five
statuses, so at most four calls are accepted, and the one that reaches an end leaves its time and
its error in the record for good.

## Main definitions

* `RecordCall`: a move to a status at an instant, or a failure with an error.
* `ExecutionRecord.afterAll`, `ExecutionRecord.accepted`: the record after a sequence of calls, and
  the calls that it accepted, each with the version that it made.
* `ExecutionStatus.IsCourse`: a way through the statuses from the first one.

## Main results

* `ExecutionStatus.IsCourse.concat`: a move that is allowed goes on with a course.
* `ExecutionRecord.IsTraced.afterAll`: what a record keeps of the calls that it accepted.
* `ExecutionRecord.calls_of_pending`: what any sequence of calls makes of a pending record.
-/

namespace RuleEngine

/-! ### Courses -/

namespace ExecutionStatus

/-- The statuses of an execution that meets no obstacle. -/
def path : List ExecutionStatus :=
  [.pending, .evaluating, .conditionsMet, .runningActions, .completed]

/-- A way through the statuses: along the path, off it before its end into a failure or into
abandonment, or off it after the evaluation because the conditions are not met. -/
inductive IsCourse : List ExecutionStatus → Prop
  | along {l} (hl : l ≠ []) (hp : l <+: path) : IsCourse l
  | broken {l s} (hl : l ≠ []) (hp : l <+: path) (hc : .completed ∉ l)
      (hs : s = .failed ∨ s = .abandoned) : IsCourse (l ++ [s])
  | declined : IsCourse [.pending, .evaluating, .conditionsNotMet]

/-- A prefix of the path that is not empty is one of five. -/
theorem prefix_path_iff {l : List ExecutionStatus} (hl : l ≠ []) :
    l <+: path ↔ l = [.pending] ∨ l = [.pending, .evaluating] ∨
      l = [.pending, .evaluating, .conditionsMet] ∨
      l = [.pending, .evaluating, .conditionsMet, .runningActions] ∨ l = path := by
  simp only [path, List.prefix_cons_iff, List.prefix_nil]
  grind

/-- A course has at most five statuses. -/
theorem IsCourse.length_le {l : List ExecutionStatus} (h : IsCourse l) : l.length ≤ 5 := by
  cases h with
  | along _ hp => exact hp.length_le
  | @broken l s hl hp hc hs =>
    rcases (prefix_path_iff hl).mp hp with rfl | rfl | rfl | rfl | rfl
    case inr.inr.inr.inr => simp [path] at hc
    all_goals simp
  | declined => decide

/-- The statuses that an execution goes on to from a status when it does not fail. -/
def ahead : ExecutionStatus → List ExecutionStatus
  | .pending => [.evaluating]
  | .evaluating => [.conditionsMet, .conditionsNotMet]
  | .conditionsMet => [.runningActions]
  | .runningActions => [.completed]
  | .conditionsNotMet | .completed | .failed | .abandoned => []

theorem allows_iff {s t : ExecutionStatus} :
    s.allows t = true ↔ t ∈ s.ahead ∨ s.isTerminal = false ∧ (t = .failed ∨ t = .abandoned) := by
  cases s <;> cases t <;> decide

theorem not_allows_of_isTerminal {s : ExecutionStatus} (h : s.isTerminal = true)
    (t : ExecutionStatus) : s.allows t = false := by
  simp [allows, h]

theorem isTerminal_of_allows {s t : ExecutionStatus} (h : s.allows t = true) :
    s.isTerminal = false := by
  cases ht : s.isTerminal with
  | false => rfl
  | true => rw [not_allows_of_isTerminal ht] at h; cases h

/-- A move that is allowed from the last status of a course leads to a course. -/
theorem IsCourse.concat {l : List ExecutionStatus} {s t : ExecutionStatus} (h : IsCourse l)
    (hs : l.getLast? = some s) (ha : s.allows t = true) : IsCourse (l ++ [t]) := by
  cases h with
  | along hl hp =>
    rcases allows_iff.mp ha with ht | ⟨hopen, ht⟩
    · rcases (prefix_path_iff hl).mp hp with rfl | rfl | rfl | rfl | rfl <;> cases hs
      · rw [List.mem_singleton.mp ht]
        exact .along (by simp) (by decide)
      · rcases (List.mem_cons.trans (or_congr_right List.mem_singleton)).mp ht with rfl | rfl
        · exact .along (by simp) (by decide)
        · exact .declined
      · rw [List.mem_singleton.mp ht]
        exact .along (by simp) (by decide)
      · rw [List.mem_singleton.mp ht]
        exact .along (by simp) (by decide)
      · cases ht
    · -- only the whole path contains its end, and the end is not open
      refine .broken hl hp (fun hc => ?_) ht
      rcases (prefix_path_iff hl).mp hp with rfl | rfl | rfl | rfl | rfl
      case inr.inr.inr.inr =>
        cases hs
        cases hopen
      all_goals simp at hc
  | @broken l e hl hp hc he =>
    rw [List.getLast?_concat] at hs
    cases hs
    rcases he with rfl | rfl <;> cases ha
  | declined =>
    cases hs
    cases ha

end ExecutionStatus

/-! ### Calls -/

/-- A call on a record: a move to a status at an instant, or a failure with an error. -/
inductive RecordCall where
  | move (target : ExecutionStatus) (now : Timestamp)
  | fail (error : String) (now : Timestamp)

namespace RecordCall

variable {c : RecordCall} {r v : ExecutionRecord}

/-- The status that a call asks for. -/
def target : RecordCall → ExecutionStatus
  | .move target _ => target
  | .fail .. => .failed

/-- The time of a call. -/
def time : RecordCall → Timestamp
  | .move _ now | .fail _ now => now

/-- The error that a call gives. -/
def error? : RecordCall → Option String
  | .move .. => none
  | .fail error _ => some error

/-- The call on a record. -/
def run : RecordCall → EStateM TransitionFault ExecutionRecord Unit
  | .move target now => ExecutionRecord.move target now
  | .fail error now => ExecutionRecord.moveToFailed error now

/-- What a record answers to a call. -/
def perform (c : RecordCall) (r : ExecutionRecord) : Except TransitionFault Unit :=
  match c.run.run r with
  | .ok () _ => .ok ()
  | .error fault _ => .error fault

/-- The version of a record that an accepted call makes. -/
def version (c : RecordCall) (r : ExecutionRecord) : ExecutionRecord :=
  { r.moved c.target c.time with error := c.error? <|> r.error }

/-- A call whose move the statuses allow makes its version. -/
theorem run_of_allows (h : r.status.allows c.target = true) :
    c.run.run r = .ok () (c.version r) := by
  have hm {target now} (h : r.status.allows target = true) :
      (ExecutionRecord.move target now).run r = .ok () (r.moved target now) := by
    cases ht : target.isTerminal <;> simp [ExecutionRecord.move, ExecutionRecord.moved, h, ht]
  cases c with
  | move target now => exact hm h
  | fail error now =>
    have h : r.status.allows .failed = true := h
    simp [run, ExecutionRecord.moveToFailed, hm h, version, target, time, error?]

/-- A call whose move the statuses do not allow is refused, with the status that the record has and
the one that the call asks for, before it changes anything. -/
theorem run_of_not_allows (h : r.status.allows c.target = false) :
    c.run.run r = .error ⟨r.status, c.target⟩ r := by
  have hm {target now} (h : r.status.allows target = false) :
      (ExecutionRecord.move target now).run r = .error ⟨r.status, target⟩ r := by
    simp [ExecutionRecord.move, h]
  cases c with
  | move target now => exact hm h
  | fail error now =>
    have h : r.status.allows .failed = false := h
    simp [run, ExecutionRecord.moveToFailed, hm h, target]

theorem perform_of_allows (h : r.status.allows c.target = true) : c.perform r = .ok () := by
  rw [perform, run_of_allows h]

theorem perform_of_not_allows (h : r.status.allows c.target = false) :
    c.perform r = .error ⟨r.status, c.target⟩ := by
  rw [perform, run_of_not_allows h]

/-- Only a call for an end gives an error. -/
theorem error?_of_not_isTerminal (h : c.target.isTerminal = false) : c.error? = none := by
  cases c with
  | move => rfl
  | fail => cases h

end RecordCall

namespace ExecutionRecord

/-- The record that a call leaves, whatever it answers. -/
def after (r : ExecutionRecord) (c : RecordCall) : ExecutionRecord :=
  match c.run.run r with
  | .ok () r' | .error _ r' => r'

/-- The record after a sequence of calls. -/
def afterAll (r : ExecutionRecord) (calls : List RecordCall) : ExecutionRecord :=
  calls.foldl after r

/-- The calls that a record accepts, each with the version that it makes. -/
def accepted (r : ExecutionRecord) : List RecordCall → List (RecordCall × ExecutionRecord)
  | [] => []
  | c :: rest =>
    match c.perform r with
    | .ok () => (c, r.after c) :: (r.after c).accepted rest
    | .error _ => (r.after c).accepted rest

/-- The statuses that a record goes through. -/
def statuses (r : ExecutionRecord) (calls : List RecordCall) : List ExecutionStatus :=
  r.status :: (r.accepted calls).map fun p => p.2.status

/-- The accepted calls that ask for an end. -/
def endings (r : ExecutionRecord) (calls : List RecordCall) : List RecordCall :=
  ((r.accepted calls).map Prod.fst).filter fun c => c.target.isTerminal

section

variable {r : ExecutionRecord} {calls : List RecordCall} {c : RecordCall}

theorem after_of_allows (h : r.status.allows c.target = true) : r.after c = c.version r := by
  simp [after, RecordCall.run_of_allows h]

theorem after_of_not_allows (h : r.status.allows c.target = false) : r.after c = r := by
  simp [after, RecordCall.run_of_not_allows h]

theorem afterAll_append (r : ExecutionRecord) (calls more : List RecordCall) :
    r.afterAll (calls ++ more) = (r.afterAll calls).afterAll more :=
  List.foldl_append

/-- Of two sequences of calls, the second one meets the record that the first one leaves. -/
theorem accepted_append (r : ExecutionRecord) (calls more : List RecordCall) :
    r.accepted (calls ++ more) = r.accepted calls ++ (r.afterAll calls).accepted more := by
  induction calls generalizing r with
  | nil => rfl
  | cons c rest ih =>
    have hc : r.afterAll (c :: rest) = (r.after c).afterAll rest := rfl
    rw [hc, List.cons_append, accepted, accepted]
    cases c.perform r with
    | ok => simp only [ih, List.cons_append]
    | error => exact ih _

theorem accepted_singleton_of_allows (h : r.status.allows c.target = true) :
    r.accepted [c] = [(c, c.version r)] := by
  simp only [accepted, RecordCall.perform_of_allows h, after_of_allows h]

theorem accepted_singleton_of_not_allows (h : r.status.allows c.target = false) :
    r.accepted [c] = [] := by
  simp only [accepted, RecordCall.perform_of_not_allows h]

theorem statuses_concat_of_allows (h : (r.afterAll calls).status.allows c.target = true) :
    r.statuses (calls ++ [c]) = r.statuses calls ++ [c.target] := by
  simp [statuses, accepted_append, accepted_singleton_of_allows h, RecordCall.version]

theorem endings_concat_of_allows (h : (r.afterAll calls).status.allows c.target = true) :
    r.endings (calls ++ [c]) = r.endings calls ++ [c].filter fun d => d.target.isTerminal := by
  simp only [endings, accepted_append, accepted_singleton_of_allows h, List.map_append,
    List.filter_append, List.map_cons, List.map_nil]

/-- A record that has ended accepts no call and stays as it is. -/
theorem accepted_of_isTerminal (h : r.status.isTerminal = true) (calls : List RecordCall) :
    r.accepted calls = [] ∧ r.afterAll calls = r := by
  induction calls with
  | nil => exact ⟨rfl, rfl⟩
  | cons c rest ih =>
    have hn := ExecutionStatus.not_allows_of_isTerminal h c.target
    have hc : r.afterAll (c :: rest) = (r.after c).afterAll rest := rfl
    rw [hc, after_of_not_allows hn]
    refine ⟨?_, ih.2⟩
    simp only [accepted, RecordCall.perform_of_not_allows hn, after_of_not_allows hn, ih.1]

end

/-! ### What the accepted calls leave -/

/-- What a record keeps of the calls that it accepted: its status is the last one of a course, and
it has the time and the error of the one call that asked for an end, if there was one. -/
structure IsTraced (r : ExecutionRecord) (statuses : List ExecutionStatus)
    (endings : List RecordCall) : Prop where
  course : ExecutionStatus.IsCourse statuses
  last : statuses.getLast? = some r.status
  still : r.status.isTerminal = false → endings = [] ∧ r.finishedAt = none ∧ r.error = none
  ended : r.status.isTerminal = true →
    ∃ c, endings = [c] ∧ r.finishedAt = some c.time ∧ r.error = c.error?

/-- One call that is accepted goes on with the course, and is the one that ends it if it asks for
an end. -/
theorem IsTraced.version {r : ExecutionRecord} {c : RecordCall} {statuses : List ExecutionStatus}
    {endings : List RecordCall} (h : r.IsTraced statuses endings)
    (ha : r.status.allows c.target = true) :
    (c.version r).IsTraced (statuses ++ [c.target])
      (endings ++ [c].filter fun d => d.target.isTerminal) := by
  obtain ⟨he, hf, herr⟩ := h.still (ExecutionStatus.isTerminal_of_allows ha)
  refine ⟨h.course.concat h.last ha, by rw [List.getLast?_concat]; rfl, fun ht => ?_, fun ht => ?_⟩
  · have ht : c.target.isTerminal = false := ht
    simp [RecordCall.version, moved, he, hf, herr, ht, RecordCall.error?_of_not_isTerminal ht]
  · have ht : c.target.isTerminal = true := ht
    exact ⟨c, by simp [RecordCall.version, moved, he, herr, ht]⟩

/-- Any sequence of calls leaves what the accepted ones say. -/
theorem IsTraced.afterAll {r : ExecutionRecord} (hs : r.status = .pending)
    (hf : r.finishedAt = none) (he : r.error = none) (calls : List RecordCall) :
    (r.afterAll calls).IsTraced (r.statuses calls) (r.endings calls) := by
  induction calls using List.reverseRecOn with
  | nil =>
    refine ⟨?_, rfl, fun _ => ⟨rfl, hf, he⟩, fun ht => ?_⟩
    · have hp : r.statuses [] = [.pending] := congrArg (fun s => [s]) hs
      rw [hp]
      exact .along (by simp) (by decide)
    · have ht : r.status.isTerminal = true := ht
      rw [hs] at ht
      cases ht
  | append_singleton calls c ih =>
    rw [afterAll_append]
    change ((r.afterAll calls).after c).IsTraced _ _
    by_cases ha : (r.afterAll calls).status.allows c.target = true
    · rw [statuses_concat_of_allows ha, endings_concat_of_allows ha, after_of_allows ha]
      exact ih.version ha
    · have hn : (r.afterAll calls).status.allows c.target = false := by simpa using ha
      rw [statuses, endings, accepted_append, accepted_singleton_of_not_allows hn,
        after_of_not_allows hn, List.append_nil]
      exact ih

/-- The calls on a pending record, in any number and with any arguments. A call that is refused
names the status that the record has and the one asked for, and leaves the record as it is; at
most four are accepted, along a course of the statuses; after an end none is, whatever follows; and
the record has an end exactly if its status is final, with the time and the error of the one
accepted call that asked for it. -/
theorem calls_of_pending {r : ExecutionRecord} (hs : r.status = .pending)
    (hf : r.finishedAt = none) (he : r.error = none) (calls : List RecordCall) :
    (∀ c fault, c.perform (r.afterAll calls) = .error fault →
      fault = ⟨(r.afterAll calls).status, c.target⟩ ∧
        r.afterAll (calls ++ [c]) = r.afterAll calls) ∧
    (r.accepted calls).length ≤ 4 ∧
    ExecutionStatus.IsCourse (r.statuses calls) ∧
    (r.statuses calls).getLast? = some (r.afterAll calls).status ∧
    ((r.afterAll calls).status.isTerminal = true → ∀ more,
      r.accepted (calls ++ more) = r.accepted calls ∧
        r.afterAll (calls ++ more) = r.afterAll calls) ∧
    ((r.afterAll calls).finishedAt.isSome = (r.afterAll calls).status.isTerminal) ∧
    ((r.afterAll calls).status.isTerminal = true → ∃ c, r.endings calls = [c] ∧
      (r.afterAll calls).finishedAt = some c.time ∧ (r.afterAll calls).error = c.error?) ∧
    (∀ error, (r.afterAll calls).error = some error ↔
      ∃ now, r.endings calls = [.fail error now]) := by
  have h := IsTraced.afterAll hs hf he calls
  refine ⟨fun c fault hc => ?_, ?_, h.course, h.last, fun ht more => ?_, ?_, h.ended, fun e => ?_⟩
  · by_cases ha : (r.afterAll calls).status.allows c.target = true
    · rw [RecordCall.perform_of_allows ha] at hc
      cases hc
    · have hn : (r.afterAll calls).status.allows c.target = false := by simpa using ha
      rw [RecordCall.perform_of_not_allows hn] at hc
      cases hc
      exact ⟨rfl, (afterAll_append r calls [c]).trans (after_of_not_allows hn)⟩
  · have hl : (r.statuses calls).length = (r.accepted calls).length + 1 := by simp [statuses]
    have := h.course.length_le
    omega
  · obtain ⟨hn, hk⟩ := accepted_of_isTerminal ht more
    rw [accepted_append, afterAll_append, hn, hk, List.append_nil]
    exact ⟨rfl, rfl⟩
  · cases ht : (r.afterAll calls).status.isTerminal with
    | false => rw [(h.still ht).2.1]; rfl
    | true =>
      obtain ⟨c, -, hc, -⟩ := h.ended ht
      rw [hc]; rfl
  · cases ht : (r.afterAll calls).status.isTerminal with
    | false =>
      obtain ⟨hn, -, herr⟩ := h.still ht
      simp [hn, herr]
    | true =>
      obtain ⟨c, hc, -, herr⟩ := h.ended ht
      rw [herr, hc]
      cases c <;> simp [RecordCall.error?]

end ExecutionRecord

/-! ### The calls on one record -/

namespace Sample

/-- A record is evaluated, fails, and then is asked to complete and to fail once more. -/
def recordCalls : List RecordCall :=
  [.move .evaluating .epoch, .fail "no connection" .epoch, .move .completed .epoch,
    .fail "too late" .epoch]

end Sample

/-- A pending record that fails keeps the first error, whatever is asked for after it. -/
theorem ExecutionRecord.calls_of_pending_recordCalls :
    (Sample.record Sample.rule).status = .pending ∧
      (Sample.record Sample.rule).finishedAt = none ∧ (Sample.record Sample.rule).error = none ∧
      ((Sample.record Sample.rule).afterAll Sample.recordCalls).error = some "no connection" :=
  ⟨rfl, rfl, rfl, ((calls_of_pending rfl rfl rfl Sample.recordCalls).2.2.2.2.2.2.2 _).mpr
    ⟨.epoch, rfl⟩⟩

end RuleEngine
