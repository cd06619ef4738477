import RuleEngine.Proofs.Run.Delay
import RuleEngine.Proofs.Store.ExecutionRow
import RuleEngine.Proofs.Time.Minute

/-!
# The times of a record

A record has the time at which its execution started, two times for each of its steps, and the time
at which it ended. They are readings of one clock, made one after the other, so they follow each
other as long as the clock does not go back: whatever a run writes into a record stands behind what
is there. A record is underway at an instant if what it has so far is not after the instant, and
all that its run makes of it then is in order.

A log that keeps some of the times with less precision than others keeps their order only up to that
precision. What is cut is the start, the end and the time up to which an execution is delayed, but
not the times of the steps. So a record that is read back may end before its last step does.

## Main definitions

* `ExecutionRecord.instants`, `ExecutionRecord.lastInstant`: the start of a record, and the start
  and the end of each of its steps.
* `ExecutionRecord.InOrder`: the times of a record follow each other, the last one up to a cut.
* `ExecutionRecord.IsTimely`, `ExecutionRecord.IsUnderway`: a record in order whose times have
  passed, and one that has not ended besides.
* `ExecutionRecord.ReadAs`: a record has the times of another one, those outside of its steps cut.
* `Run.IsTimely`: a run whose record is underway and whose handler was called after the other steps.

## Main results

* `Run.Writes.isTimely`, `Run.IsTimely.of_writes`: what a run writes is in order, and the run stays
  timely.
* `ExecutionRecord.InOrder.of_readAs`: what is left of the order once times are cut.
-/

namespace RuleEngine

/-! ### Cut times -/

namespace Timestamp

/-- Whether times are cut in a way that keeps their order, and to no later times. -/
structure IsCut (cut : Timestamp → Timestamp) : Prop where
  notAfter : ∀ t, (cut t).notAfter t
  mono : ∀ {a b}, a.notAfter b → (cut a).notAfter (cut b)

/-- The time with nothing cut off. -/
def uncut (t : Timestamp) : Timestamp := t

theorem isCut_uncut : IsCut uncut :=
  ⟨notAfter_refl, id⟩

theorem isCut_truncMicros : IsCut truncMicros := by
  refine ⟨fun t => ?_, fun {a b} h => ?_⟩
  · rw [notAfter_iff, before_iff]
    simp only [truncMicros]
    omega
  · rw [notAfter_iff, before_iff] at h ⊢
    simp only [truncMicros]
    omega

/-- Some seconds later it is later. -/
theorem notAfter_of_add?_seconds {now t : Timestamp} {n : Nat} (hn : 0 < n)
    (h : now.add? (Duration.seconds n) = some t) : now.notAfter t := by
  rw [add?_seconds now hn, of?_eq_some_iff] at h
  rw [notAfter_iff, before_iff]
  omega

end Timestamp

/-- A delay does not lead back. -/
theorem Rule.notAfter_of_executionDelay {r : Rule} {d : Duration} {now t : Timestamp}
    (hd : r.executionDelay = .lasting d) (h : now.add? d = some t) : now.notAfter t := by
  cases hs : r.delaySeconds with
  | none =>
    rw [executionDelay_of_isNone hs] at hd
    cases hd
  | some n =>
    rcases Nat.eq_zero_or_pos n with rfl | hn
    · rw [executionDelay_of_zero hs] at hd
      cases hd
    · rw [executionDelay_of_pos hs hn] at hd
      split_ifs at hd
      cases hd
      exact Timestamp.notAfter_of_add?_seconds hn h

/-! ### Times in order -/

namespace ExecutionRecord

/-- The start of a record, and the start and the end of each of its steps. -/
def instants (r : ExecutionRecord) : List Timestamp :=
  r.startedAt :: r.steps.flatMap fun s => [s.startedAt, s.finishedAt]

/-- The end of the last step of a record, or its start if it has no steps. -/
def lastInstant (r : ExecutionRecord) : Timestamp :=
  (r.steps.getLast?.map ActionStep.finishedAt).getD r.startedAt

/-- Whether the times of a record follow each other. It started before its first step did, each step
started before it ended, and ended before the next one started; the last step, its end being cut,
ended before the record did; and the record is delayed to a time after its start. -/
structure InOrder (cut : Timestamp → Timestamp) (r : ExecutionRecord) : Prop where
  instants : r.instants.IsChain fun a b => a.notAfter b
  finishedAt : ∀ t, r.finishedAt = some t → (cut r.lastInstant).notAfter t
  delayedUntil : ∀ t, r.delayedUntil = some t → r.startedAt.notAfter t

/-- Whether a record is in order and its times have passed at an instant. -/
structure IsTimely (now : Timestamp) (r : ExecutionRecord) : Prop where
  inOrder : r.InOrder .uncut
  passed : r.lastInstant.notAfter now

/-- Whether a record is in order, its times have passed at an instant, and it has not ended. -/
structure IsUnderway (now : Timestamp) (r : ExecutionRecord) : Prop extends r.IsTimely now where
  unfinished : r.finishedAt = none

variable {r : ExecutionRecord} {now now' : Timestamp}

theorem IsTimely.mono (h : r.IsTimely now) (hn : now.notAfter now') : r.IsTimely now' :=
  ⟨h.inOrder, Timestamp.notAfter_trans h.passed hn⟩

theorem IsUnderway.mono (h : r.IsUnderway now) (hn : now.notAfter now') : r.IsUnderway now' :=
  ⟨h.toIsTimely.mono hn, h.unfinished⟩

theorem getLast?_instants (r : ExecutionRecord) : r.instants.getLast? = some r.lastInstant := by
  rcases List.eq_nil_or_concat r.steps with hs | ⟨steps, s, hs⟩
  · simp [instants, lastInstant, hs]
  · simp [instants, lastInstant, hs, List.getLast?_cons]

/-- In order, the last time is not before the first one. -/
theorem InOrder.startedAt_notAfter {cut : Timestamp → Timestamp} (h : r.InOrder cut) :
    r.startedAt.notAfter r.lastInstant := by
  have hpairwise : r.instants.Pairwise fun a b => a.notAfter b :=
    have : IsTrans Timestamp fun a b => a.notAfter b := ⟨fun _ _ _ => Timestamp.notAfter_trans⟩
    List.isChain_iff_pairwise.mp h.instants
  rcases List.mem_cons.mp (List.mem_of_getLast? r.getLast?_instants) with hl | hl
  · rw [hl]
    exact Timestamp.notAfter_refl _
  · exact List.rel_of_pairwise_cons hpairwise hl

/-! ### Times that are added -/

theorem isUnderway_pending {id : ExecutionId} {rule : Rule} {context : TriggerContext}
    (h : now.notAfter now') : (pending id rule context now).IsUnderway now' := by
  refine ⟨⟨⟨List.isChain_singleton _, ?_, ?_⟩, h⟩, rfl⟩ <;> exact fun t ht => nomatch ht

/-- A record that moves to another status stays in order, and if it ends it ends now. -/
theorem IsUnderway.moved (h : r.IsUnderway now) (target : ExecutionStatus) :
    (r.moved target now).IsTimely now := by
  refine ⟨⟨h.inOrder.instants, fun t ht => ?_, fun t ht => ?_⟩, h.passed⟩
  · have ht : (if target.isTerminal then some now else r.finishedAt) = some t := ht
    split at ht
    · cases ht
      exact h.passed
    · exact h.inOrder.finishedAt t ht
  · have ht : (if target.isTerminal then none else r.delayedUntil) = some t := ht
    split at ht
    · cases ht
    · exact h.inOrder.delayedUntil t ht

/-- A record that moves to a status that is not final is still underway. -/
theorem IsUnderway.moved_of_open (h : r.IsUnderway now) {target : ExecutionStatus}
    (ht : target.isTerminal = false) : (r.moved target now).IsUnderway now := by
  refine ⟨h.moved target, ?_⟩
  change (if target.isTerminal then some now else r.finishedAt) = none
  rw [ht]
  exact h.unfinished

/-- A record underway may be delayed to a time that has not passed. -/
theorem IsUnderway.delayed (h : r.IsUnderway now) {runAt : Timestamp} (hr : now.notAfter runAt) :
    { r with delayedUntil := some runAt }.IsUnderway now := by
  refine ⟨⟨⟨h.inOrder.instants, h.inOrder.finishedAt, fun t ht => ?_⟩, h.passed⟩, h.unfinished⟩
  cases ht
  exact Timestamp.notAfter_trans h.inOrder.startedAt_notAfter (Timestamp.notAfter_trans h.passed hr)

theorem IsUnderway.undelayed (h : r.IsUnderway now) :
    { r with delayedUntil := none }.IsUnderway now :=
  ⟨⟨⟨h.inOrder.instants, h.inOrder.finishedAt, fun _ ht => nomatch ht⟩, h.passed⟩, h.unfinished⟩

/-- What a record says of its conditions and of its error has no times. -/
theorem IsUnderway.of_untimed (h : r.IsUnderway now) (conditions : List ConditionResult)
    (error : Option String) : { r with conditions, error }.IsUnderway now :=
  ⟨⟨⟨h.inOrder.instants, h.inOrder.finishedAt, h.inOrder.delayedUntil⟩, h.passed⟩, h.unfinished⟩

/-- A step that started when the times of a record had passed stands behind them when it ends. -/
theorem IsUnderway.step (h : r.IsUnderway now) {s : ActionStep}
    (hs : r.lastInstant.notAfter s.startedAt) (hf : s.startedAt.notAfter s.finishedAt)
    (hn : s.finishedAt.notAfter now) : { r with steps := r.steps ++ [s] }.IsUnderway now := by
  have hlast : { r with steps := r.steps ++ [s] }.lastInstant = s.finishedAt := by
    simp [lastInstant]
  have hinstants : { r with steps := r.steps ++ [s] }.instants =
      r.instants ++ [s.startedAt, s.finishedAt] := by
    simp [instants]
  refine ⟨⟨⟨?_, fun t ht => ?_, h.inOrder.delayedUntil⟩, hlast ▸ hn⟩, h.unfinished⟩
  · rw [hinstants]
    refine List.isChain_append.mpr ⟨h.inOrder.instants, List.isChain_pair.mpr hf, ?_⟩
    rw [getLast?_instants]
    rintro _ ⟨⟩ _ ⟨⟩
    exact hs
  · exact absurd (h.unfinished.symm.trans ht) nofun

/-- A record in order that is abandoned stays in order. -/
theorem IsTimely.abandon (h : r.IsTimely now) : (MemoryStore.abandon now r).IsTimely now := by
  by_cases ht : r.isTerminal
  · rw [abandon_of_isTerminal ht]
    exact h
  · rw [abandon_of_not_isTerminal ht]
    refine ⟨⟨h.inOrder.instants, fun t ht => ?_, fun t ht => nomatch ht⟩, h.passed⟩
    cases ht
    exact h.passed

/-! ### Times that are read back -/

/-- Whether a record has the times of another one, those outside of its steps being cut. -/
structure ReadAs (cut : Timestamp → Timestamp) (r v : ExecutionRecord) : Prop where
  startedAt : v.startedAt = cut r.startedAt
  steps : v.steps = r.steps
  delayedUntil : v.delayedUntil = r.delayedUntil.map cut
  finishedAt : v.finishedAt = r.finishedAt.map cut

theorem readAs_uncut (r : ExecutionRecord) : r.ReadAs .uncut r :=
  ⟨rfl, rfl, Option.map_id_apply.symm, Option.map_id_apply.symm⟩

/-- A record in order stays in order when the times outside of its steps are cut, but for the end of
its last step, of which only the cut time is not after the end of the record. -/
theorem InOrder.of_readAs {cut : Timestamp → Timestamp} {v : ExecutionRecord}
    (h : r.InOrder .uncut) (hcut : Timestamp.IsCut cut) (hv : r.ReadAs cut v) : v.InOrder cut := by
  refine ⟨?_, fun t ht => ?_, fun t ht => ?_⟩
  · obtain ⟨hfirst, hsteps⟩ := List.isChain_cons.mp h.instants
    rw [ExecutionRecord.instants, hv.startedAt, hv.steps]
    exact List.isChain_cons.mpr ⟨fun s hs =>
      Timestamp.notAfter_trans (hcut.notAfter _) (hfirst s hs), hsteps⟩
  · rw [hv.finishedAt] at ht
    obtain ⟨finished, hf, rfl⟩ := Option.map_eq_some_iff.mp ht
    have hlast : v.lastInstant.notAfter r.lastInstant := by
      rw [lastInstant, lastInstant, hv.steps, hv.startedAt]
      cases r.steps.getLast? with
      | none => exact hcut.notAfter _
      | some s => exact Timestamp.notAfter_refl _
    exact hcut.mono (Timestamp.notAfter_trans hlast (h.finishedAt finished hf))
  · rw [hv.delayedUntil] at ht
    obtain ⟨delayed, hd, rfl⟩ := Option.map_eq_some_iff.mp ht
    rw [hv.startedAt]
    exact hcut.mono (h.delayedUntil delayed hd)

end ExecutionRecord

/-! ### Runs -/

/-- A run does not wait for a handler before it has called one. -/
theorem RunStage.before_ne_awaiting {actions rest : List Action} {a : Action} {t : Timestamp} :
    before actions ≠ .awaiting a t rest := by
  cases actions <;> nofun

namespace Run

/-- Whether the record of a run is underway at an instant, and a handler that has not answered was
called when the times of the record had passed. -/
structure IsTimely (now : Timestamp) (r : Run) : Prop where
  record : r.record.IsUnderway now
  awaiting : ∀ a t rest, r.stage = .awaiting a t rest →
    r.record.lastInstant.notAfter t ∧ t.notAfter now

variable {r : Run} {now now' : Timestamp} {v : ExecutionRecord} {p : RunProgress}

theorem IsTimely.mono (h : r.IsTimely now) (hn : now.notAfter now') : r.IsTimely now' :=
  ⟨h.record.mono hn, fun a t rest hs =>
    (h.awaiting a t rest hs).imp_right fun ht => Timestamp.notAfter_trans ht hn⟩

theorem isTimely_ofJob {j : Job} (h : Run.ofJob j = .ok r) (hj : j.record.IsUnderway now) :
    r.IsTimely now := by
  rcases ofJob_eq_ok_iff.mp h with ⟨-, rfl⟩ | ⟨-, rfl⟩ <;>
    exact ⟨hj, fun _ _ _ hs => by cases hs⟩

theorem IsTimely.judged (h : r.IsTimely now) (e : Evaluation) : (r.judged e).IsTimely now := by
  refine ⟨h.record.of_untimed e.trace r.record.error, fun a t rest hs => ?_⟩
  have hs : (if e.passed then RunStage.accepting else .declining) = .awaiting a t rest := hs
  split at hs <;> cases hs

/-- A handler is called now, when the times of the record have passed. -/
theorem IsTimely.called (h : r.IsTimely now) (a : Action) (rest : List Action) :
    (r.called a rest now).IsTimely now := by
  refine ⟨h.record, fun _ _ _ hs => ?_⟩
  cases hs
  exact ⟨h.record.passed, Timestamp.notAfter_refl now⟩

/-- The step of an action stands behind the others when its handler answers. -/
theorem IsTimely.answered (h : r.IsTimely now) {a : Action} {t : Timestamp} {rest : List Action}
    (hs : r.stage = .awaiting a t rest) (o : ActionOutcome) :
    (r.answered a t rest o now).IsTimely now :=
  have ⟨hlast, ht⟩ := h.awaiting a t rest hs
  ⟨h.record.step hlast ht (Timestamp.notAfter_refl now), fun _ _ _ hs => by cases hs⟩

/-- Every version that a run of a record underway asks to be written is in order. -/
theorem Writes.isTimely (h : r.Writes now v p) (hr : r.record.IsUnderway now) :
    v.IsTimely now := by
  cases h with
  | opening | declining | accepting => exact hr.moved _
  | parking d runAt hs hd ht =>
    exact (hr.delayed (Rule.notAfter_of_executionDelay hd ht)).moved _
  | starting => exact hr.undelayed.moved _
  | noting => exact hr.toIsTimely
  | closing failure => exact (hr.of_untimed _ _).moved _

/-- A version after which the job is carried on is of a record that is still underway. -/
theorem Writes.isUnderway (h : r.Writes now v p) (hr : r.record.IsUnderway now)
    (hp : (∃ r', p = .going r') ∨ ∃ job runAt, p = .ended (.deferred job runAt)) :
    v.IsUnderway now := by
  cases h with
  | opening | accepting => exact hr.moved_of_open rfl
  | parking d runAt hs hd ht =>
    exact (hr.delayed (Rule.notAfter_of_executionDelay hd ht)).moved_of_open rfl
  | starting => exact hr.undelayed.moved_of_open rfl
  | noting => exact hr
  | declining | closing =>
    rcases hp with ⟨_, hp⟩ | ⟨_, _, hp⟩ <;> cases hp

/-- A run that goes on with an accepted version stays timely. -/
theorem IsTimely.of_writes {r' : Run} (hr : r.IsTimely now) (h : r.Writes now v (.going r')) :
    r'.IsTimely now := by
  have hv : v.IsUnderway now := h.isUnderway hr.record (.inl ⟨r', rfl⟩)
  refine ⟨h.going_eq.2.2 ▸ hv, fun a t rest hs => ?_⟩
  cases h with
  | opening | accepting => cases hs
  | starting => exact absurd hs RunStage.before_ne_awaiting
  | noting failure actions =>
    have hs : (if failure.isSome then RunStage.closing failure else .before actions) =
      .awaiting a t rest := hs
    split at hs
    · cases hs
    · exact absurd hs RunStage.before_ne_awaiting

end Run

end RuleEngine
