import RuleEngine.Proofs.Live.Consistency
import RuleEngine.Proofs.Live.Custody
import RuleEngine.Proofs.Store.Times

/-!
# The times in the life of an engine

The producers, the workers and the log of an engine read one clock. If the clock never goes back,
everything that has been written has passed, and so the records that the log keeps, and those that
the engine carries, are in order at every moment: what a change makes now stands behind what is
there. A record of a change starts when the dispatcher heard of the change, so the causes for which
rules are being fired have passed as well.

Records are read from the log in memory in order. Those that are read from a database are, up to the
microsecond to which the database cuts their ends: the end of the last step is not cut, and may come
after that of its record.

## Main definitions

* `LiveEngine.IsTimely`: what an engine keeps and carries is in order, and has passed.
* `LiveEngine.ClockAdvances`: the clock of an engine never goes back.
* `ReadsInOrder`: the records that are read from a log are in order.

## Main results

* `LiveEngine.IsTimely.of_change`: every change makes records that are in order.
* `LiveEngine.readsInOrder_of_life`: the records of a life are read in order, up to a cut.
-/

namespace RuleEngine

/-! ### What workers do -/

/-- Whether the record of a job that is carried is underway at an instant. -/
def Holder.IsTimely (now : Timestamp) : Holder → Prop
  | .waiting j => j.record.IsUnderway now
  | .working w => w.run.IsTimely now

theorem Holder.IsTimely.mono {h : Holder} {now now' : Timestamp} (ht : h.IsTimely now)
    (hn : now.notAfter now') : h.IsTimely now' := by
  cases h with
  | waiting j => exact ExecutionRecord.IsUnderway.mono ht hn
  | working w => exact Run.IsTimely.mono ht hn

namespace Worker

variable {σ : Type} [ExecutionLog σ] {e : Engine σ} {w : Worker} {s : σ}
  {calls : List Invocation} {next : Multiset Holder}

/-- What a worker carries on is of the record of its run, and still underway. -/
theorem Move.isTimely_next (hm : w.Move e s calls next) (h : w.run.IsTimely e.clock) :
    ∀ x ∈ next, x.IsTimely e.clock ∧ x.job.record.SameOrigin w.run.record := by
  have hrefl := ExecutionRecord.SameOrigin.refl w.run.record
  cases hm with
  | judged hs =>
    simp only [Multiset.mem_singleton, forall_eq]
    exact ⟨h.judged _, ⟨rfl, rfl, rfl, rfl, rfl, rfl, rfl⟩⟩
  | called a rest hs =>
    simp only [Multiset.mem_singleton, forall_eq]
    exact ⟨h.called a rest, hrefl⟩
  | invoked a t rest calls o due hs ho hc =>
    simp only [Multiset.mem_singleton, forall_eq]
    exact ⟨h, hrefl⟩
  | answered a t rest o hs ho =>
    simp only [Multiset.mem_singleton, forall_eq]
    exact ⟨h.answered hs o, ⟨rfl, rfl, rfl, rfl, rfl, rfl, rfl⟩⟩
  | @wrote v p s hv ho =>
    intro x hx
    cases p with
    | going r =>
      obtain rfl := Multiset.mem_singleton.mp hx
      obtain ⟨-, -, rfl⟩ := hv.going_eq
      exact ⟨h.of_writes hv, hv.sameOrigin⟩
    | ended ending =>
      cases ending with
      | deferred job runAt =>
        obtain rfl := Multiset.mem_singleton.mp hx
        obtain ⟨rfl, -⟩ := hv.deferred_eq
        exact ⟨hv.isUnderway h.record (.inr ⟨_, runAt, rfl⟩), hv.sameOrigin⟩
      | finished _ | refused _ | outOfTime => exact absurd hx (Multiset.notMem_zero x)
  | refused | unsteady | outOfTime => exact fun x hx => absurd hx (Multiset.notMem_zero x)

end Worker

/-! ### Causes -/

namespace Producer

/-- A producer goes on firing for the cause for which it fires. -/
private theorem causes_after_step {σ : Type} [RuleStore σ] [ExecutionLog σ] (f : Firing)
    (fresh : ExecutionId) (now : Timestamp) (s : σ) (q : JobQueue) :
    (after (f.step fresh now s q).1).causes ⊆ [f.cause] := by
  cases hp : (f.step fresh now s q).1 with
  | going f' =>
    rw [after, causes, Firing.cause_of_step hp]
    exact List.Subset.refl _
  | ended r =>
    cases r with
    | ok n => exact List.nil_subset _
    | error error => cases error <;> exact List.nil_subset _

/-- A producer that starts a firing fires for its cause. -/
private theorem causes_starting (listed : Except EngineError (List Rule)) (cause : FiringCause)
    (p : Rule → Bool) :
    (starting do
      let rules ← listed
      return ⟨cause, rules.filter p, .choosing, 0⟩).causes ⊆ [cause] := by
  cases listed with
  | error error => cases error <;> exact List.nil_subset _
  | ok rules => exact List.Subset.refl _

end Producer

namespace LiveEngine

variable {σ : Type} [RuleStore σ] [ExecutionLog σ] {e e' : LiveEngine σ} {context : TriggerContext}

omit [RuleStore σ] in
private theorem causes_work (e : LiveEngine σ) (i : Nat) (w : Worker) :
    (e.work i w).causes = e.causes := by
  obtain ⟨engine, hw, -⟩ := e.workStep_engine w
  obtain ⟨workers, sleepers, he⟩ := e.work_eq i w
  rw [he, hw]
  rfl

omit [ExecutionLog σ] in
private theorem change_mem_causes_listen (hm : .change context ∈ e.listen.causes) :
    .change context ∈ e.causes ∨ context.firedAt = e.clock := by
  unfold listen at hm
  dsimp only at hm
  split at hm
  · rcases List.mem_append.mp hm with hm | hm
    · cases List.mem_singleton.mp (Producer.causes_starting _ _ _ hm)
      exact .inr rfl
    · exact .inl (List.mem_append_right _ hm)
  · exact .inl hm
  · exact .inl hm
  · exact .inl (List.mem_append_right _ hm)

omit [ExecutionLog σ] in
private theorem change_mem_causes_look (hm : .change context ∈ e.look.causes) :
    .change context ∈ e.causes := by
  rcases List.mem_append.mp hm with hm | hm
  · exact List.mem_append_left _ hm
  · cases List.mem_singleton.mp (Producer.causes_starting _ _ _ hm)

private theorem causes_dispatchStep {f : Firing} (h : e.dispatcher = .busy f) :
    (e.dispatchStep f).causes ⊆ e.causes := by
  have hf : [f.cause] = e.dispatcher.causes := by rw [h, Producer.causes]
  intro cause hm
  rcases List.mem_append.mp hm with hm | hm
  · exact List.mem_append_left _ (hf ▸ Producer.causes_after_step f _ _ _ _ hm)
  · exact List.mem_append_right _ hm

private theorem causes_scheduleStep {f : Firing} (h : e.scheduler = .busy f) :
    (e.scheduleStep f).causes ⊆ e.causes := by
  have hf : [f.cause] = e.scheduler.causes := by rw [h, Producer.causes]
  intro cause hm
  rcases List.mem_append.mp hm with hm | hm
  · exact List.mem_append_left _ hm
  · exact List.mem_append_right _ (hf ▸ Producer.causes_after_step f _ _ _ _ hm)

omit [RuleStore σ] [ExecutionLog σ] in
private theorem causes_retire (e : LiveEngine σ) : e.retire.causes ⊆ e.causes := by
  unfold retire
  split
  · exact List.subset_append_right _ _
  · exact List.append_subset.mpr ⟨List.subset_append_left _ _, List.nil_subset _⟩

/-- An engine fires rules for changes that it heard of before, or hears of now. -/
theorem change_mem_causes_make {move : LiveMove}
    (hm : .change context ∈ (e.make move).causes) :
    .change context ∈ e.causes ∨ context.firedAt = e.clock := by
  cases move with
  | surroundings registry lookup => exact .inl hm
  | event event =>
    change _ ∈ (e.perform event).causes at hm
    unfold perform at hm
    split at hm
    · cases event with
      | listen => exact change_mem_causes_listen hm
      | look => exact .inl (change_mem_causes_look hm)
      | dispatch =>
        simp only [carryOut] at hm
        split at hm
        · next f hd => exact .inl (causes_dispatchStep hd hm)
        · exact .inl hm
        · exact .inl hm
      | schedule =>
        simp only [carryOut] at hm
        split at hm
        · next f hd => exact .inl (causes_scheduleStep hd hm)
        · exact .inl hm
        · exact .inl hm
      | retire => exact .inl (e.causes_retire hm)
      | receive =>
        simp only [carryOut, receive] at hm
        split at hm <;> exact .inl hm
      | employ =>
        simp only [carryOut, employ] at hm
        (repeat' split at hm) <;> exact .inl hm
      | work i =>
        simp only [carryOut] at hm
        split at hm
        · exact .inl (causes_work e i _ ▸ hm)
        · exact .inl hm
      | wake i =>
        simp only [carryOut, wake] at hm
        (repeat' split at hm) <;> exact .inl hm
      | ingest =>
        simp only [carryOut, ingest] at hm
        split at hm <;> exact .inl hm
      | leave | publish | closeFeed | closeQueue | setClock | pass | stop | abandon =>
        exact .inl hm
      | restart => exact absurd hm List.not_mem_nil
    · exact .inl hm

/-! ### Engines in time -/

omit [RuleStore σ] [ExecutionLog σ] in
/-- Whether an engine carries no job and fires no rules. -/
structure IsIdle (e : LiveEngine σ) : Prop where
  holders : e.holders = 0
  causes : e.causes = []

/-- Whether the clock of an engine never goes back in the course of some moves. -/
def ClockAdvances (e : LiveEngine σ) : List LiveMove → Prop
  | [] => True
  | move :: rest => e.clock.notAfter (e.make move).clock ∧ (e.make move).ClockAdvances rest

instance decidableClockAdvances :
    (e : LiveEngine σ) → (moves : List LiveMove) → Decidable (e.ClockAdvances moves)
  | _, [] => .isTrue trivial
  | e, move :: rest =>
    have := decidableClockAdvances (e.make move) rest
    inferInstanceAs (Decidable (_ ∧ _))

variable [TimedLog σ] {now now' : Timestamp} {event : LiveEvent}

/-- Whether the log of an engine and the jobs that it carries are of records in order whose times
have passed at an instant, and so have the changes for which it fires rules. -/
structure IsTimely (now : Timestamp) (e : LiveEngine σ) : Prop where
  log : TimedLog.All (ExecutionRecord.IsTimely now) e.store
  holders : ∀ h ∈ e.holders, h.IsTimely now ∧ TimedLog.HasStart e.store h.job.record
  causes : ∀ context, .change context ∈ e.causes → context.firedAt.notAfter now

theorem IsTimely.mono (h : e.IsTimely now) (hn : now.notAfter now') : e.IsTimely now' where
  log := TimedLog.all_mono h.log fun _ hr => hr.mono hn
  holders x hx := (h.holders x hx).imp_left fun ht => ht.mono hn
  causes context hm := Timestamp.notAfter_trans (h.causes context hm) hn

/-- A log with at most one more minute claimed keeps what it has. -/
private theorem Undisturbed.log (hu : Undisturbed e e') {P : ExecutionRecord → Prop}
    (h : TimedLog.All P e.store) :
    TimedLog.All P e'.store ∧ ∀ v, TimedLog.HasStart e.store v → TimedLog.HasStart e'.store v := by
  rcases hu.store with hs | ⟨id, tick, b, ho⟩
  · rw [hs]
    exact ⟨h, fun _ hv => hv⟩
  · exact TimedLog.claim ho h

/-- The log after a move of a worker has records in order. -/
private theorem IsTimely.log_of_move (h : e.IsTimely e.clock) {w : Worker} {s : σ}
    {calls : List Invocation} {next : Multiset Holder} (hm : w.Move e.toEngine s calls next)
    (hw : .working w ∈ e.holders) :
    TimedLog.All (ExecutionRecord.IsTimely e.clock) s ∧
      ∀ v, TimedLog.HasStart e.store v → TimedLog.HasStart s v := by
  obtain ⟨ht, hs⟩ := h.holders _ hw
  cases hm with
  | wrote hv ho =>
    have ho' := hv.sameOrigin
    exact TimedLog.update ho h.log (TimedLog.hasStart_congr ho'.id ho'.startedAt hs)
      (hv.isTimely (Run.IsTimely.record ht))
  | _ => exact ⟨h.log, fun _ hv => hv⟩

/-- Every change of an engine makes records that are in order. -/
theorem IsTimely.of_change (h : e.IsTimely e.clock) (hc : Change e event e')
    (hcauses : ∀ context, .change context ∈ e'.causes → context.firedAt.notAfter e.clock) :
    e'.IsTimely e.clock := by
  have habandon {n : Nat} (ho : ExecutionLog.abandonOpen e.store e.clock = .ok (n, e'.store)) :=
    TimedLog.abandon ho h.log fun r hr => hr.abandon
  cases hc with
  | quiet hu hh | listed _ _ hu hh =>
    obtain ⟨hlog, hstart⟩ := hu.log h.log
    exact ⟨hlog, hh ▸ fun x hx => (h.holders x hx).imp_right (hstart _), hcauses⟩
  | employed job run others hr hu hb ha =>
    obtain ⟨hlog, hstart⟩ := hu.log h.log
    obtain ⟨ht, hs⟩ := h.holders (.waiting job) (by simp [hb])
    refine ⟨hlog, fun x hx => ?_, hcauses⟩
    rw [ha] at hx
    rcases Multiset.mem_add.mp hx with hx | hx
    · obtain rfl := Multiset.mem_singleton.mp hx
      have hjob : run.record = job.record := congrArg Job.record (Run.job_of_ofJob hr)
      exact ⟨Run.isTimely_ofJob hr ht, hstart _ (TimedLog.hasStart_congr (congrArg _ hjob)
        (congrArg _ hjob) hs)⟩
    · exact (h.holders x (by simp [hb, hx])).imp_right (hstart _)
  | lost job hu hh =>
    obtain ⟨hlog, hstart⟩ := hu.log h.log
    exact ⟨hlog, fun x hx => (h.holders x (by simp [hh, hx])).imp_right (hstart _), hcauses⟩
  | fired rule context now hm hsub ho hh hi hn ht =>
    have hnow : now.notAfter e.clock := by
      rcases ht with rfl | ⟨hmem, rfl⟩
      · exact Timestamp.notAfter_refl _
      · exact h.causes context hmem
    have hpending : (ExecutionRecord.pending e.nextId rule context now).IsUnderway e.clock :=
      ExecutionRecord.isUnderway_pending hnow
    obtain ⟨hlog, hnew, hstart⟩ := TimedLog.append ho h.log hpending.toIsTimely
    refine ⟨hlog, fun x hx => ?_, hcauses⟩
    rw [hh] at hx
    rcases Multiset.mem_add.mp hx with hx | hx
    · obtain rfl := Multiset.mem_singleton.mp hx
      exact ⟨hpending, hnew⟩
    · exact (h.holders x hx).imp_right (hstart _)
  | worked w calls next others hm hw hb ha =>
    have hmem : .working w ∈ e.holders := by simp [hb]
    obtain ⟨ht, hs⟩ := h.holders _ hmem
    obtain ⟨hlog, hstart⟩ := h.log_of_move hm hmem
    refine ⟨hlog, fun x hx => ?_, hcauses⟩
    rw [ha] at hx
    rcases Multiset.mem_add.mp hx with hx | hx
    · obtain ⟨hx, ho⟩ := hm.isTimely_next ht x hx
      exact ⟨hx, hstart _ (TimedLog.hasStart_congr ho.id ho.startedAt hs)⟩
    · exact (h.holders x (by simp [hb, hx])).imp_right (hstart _)
  | abandoned n ho hh =>
    obtain ⟨hlog, hstart⟩ := habandon ho
    exact ⟨hlog, hh ▸ fun x hx => (h.holders x hx).imp_right (hstart _), hcauses⟩
  | restarted ho hh =>
    refine ⟨?_, by simp [hh], hcauses⟩
    rcases ho with ho | ⟨n, ho⟩
    · exact ho ▸ h.log
    · exact (habandon ho).1

/-- An engine whose clock never goes back stays timely. -/
theorem IsTimely.life {moves : List LiveMove} (h : e.IsTimely e.clock)
    (ha : e.ClockAdvances moves) : (e.life moves).IsTimely (e.life moves).clock := by
  induction moves generalizing e with
  | nil => exact h
  | cons move rest ih =>
    obtain ⟨hclock, hrest⟩ := ha
    obtain ⟨event, hc, -⟩ := e.change_make move
    have hmake : (e.make move).IsTimely e.clock := h.of_change hc fun context hm => by
      rcases change_mem_causes_make hm with hm | hm
      · exact h.causes context hm
      · exact hm ▸ Timestamp.notAfter_refl _
    exact ih (hmake.mono hclock) hrest

/-- What is read from the log of an engine that started with an empty one is in order, up to how the
log cuts times. -/
private theorem IsIdle.readsInOrder_life (h : e.IsIdle)
    (hlog : TimedLog.All (fun _ => False) e.store) {moves : List LiveMove}
    (ha : e.ClockAdvances moves) : ReadsInOrder (TimedLog.cut σ) (e.life moves).store := by
  have hstart : e.IsTimely e.clock :=
    ⟨TimedLog.all_mono hlog fun _ => False.elim, by simp [h.holders], by simp [h.causes]⟩
  exact TimedLog.readsInOrder (TimedLog.all_mono (hstart.life ha).log fun _ hr => hr.inOrder)

end LiveEngine

/-- The times of every record that is read in the life of an engine are in order, if its clock never
goes back: its start, the start and the end of each of its steps one after the other, and its end;
and it is delayed to a time after its start. From a database the end of the last step is only known
to come before the end of the record once it is cut to the microsecond, too. -/
theorem LiveEngine.readsInOrder_of_life (moves : List LiveMove) :
    (∀ e : LiveEngine MemoryStore, e.IsIdle → e.store.records = [] → e.ClockAdvances moves →
      ReadsInOrder .uncut (e.life moves).store) ∧
    ∀ e : LiveEngine Database, e.IsIdle → e.store.executions = [] → e.ClockAdvances moves →
      ReadsInOrder .truncMicros (e.life moves).store := by
  refine ⟨fun e h he ha => h.readsInOrder_life (fun r hr => ?_) ha,
    fun e h he ha => h.readsInOrder_life (fun row hm => ?_) ha⟩
  · rw [he] at hr
    cases hr
  · rw [he] at hm
    cases hm

/-! ### Nanoseconds -/

namespace Sample

/-- An engine with the sample rule whose log is in a database. -/
def recorder : LiveEngine Database where
  store := { rules := [.ofRule rule] }
  clock := .epoch
  registry := engine.registry
  allowed := 1000
  slots := 1
  cadence := 60000
  feed := .fresh 16

/-- The execution of the sample rule, with 100 nanoseconds between its moves. -/
def swiftExecution : List LiveMove :=
  execution.zipIdx.flatMap fun (move, n) =>
    [.event (.setClock ((Timestamp.of? 0 (100 * n)).getD .epoch)), move]

end Sample

/-- The times of the execution of the sample rule are in order, and it is completed. -/
theorem LiveEngine.readsInOrder_swiftExecution :
    (ReadsInOrder .uncut (Sample.engine.life Sample.swiftExecution).store ∧
      (Sample.engine.life Sample.swiftExecution).store.records.map (·.status) = [.completed]) ∧
    ReadsInOrder .truncMicros (Sample.recorder.life Sample.swiftExecution).store ∧
      (Sample.recorder.life Sample.swiftExecution).store.executions.map (·.status) =
        ["completed"] :=
  ⟨⟨(readsInOrder_of_life Sample.swiftExecution).1 Sample.engine ⟨rfl, rfl⟩ rfl
      (by decide +kernel), by decide +kernel⟩,
    (readsInOrder_of_life Sample.swiftExecution).2 Sample.recorder ⟨rfl, rfl⟩ rfl
      (by decide +kernel), by decide +kernel⟩

/-- The record that is read from a database ends, to the microsecond, before its last step does. -/
theorem LiveEngine.not_readsInOrder_swiftExecution :
    (Sample.recorder.IsIdle ∧ Sample.recorder.store.executions = [] ∧
      Sample.recorder.ClockAdvances Sample.swiftExecution) ∧
    ¬ReadsInOrder .uncut (Sample.recorder.life Sample.swiftExecution).store := by
  refine ⟨⟨⟨rfl, rfl⟩, rfl, by decide +kernel⟩, fun h => ?_⟩
  have hearly : (ExecutionLog.recordById (Sample.recorder.life Sample.swiftExecution).store
      (.numbered 0)).toOption.join.any
        (fun v => v.finishedAt.any fun t => !v.lastInstant.notAfter t) = true := by
    decide +kernel
  rcases hread : ExecutionLog.recordById (Sample.recorder.life Sample.swiftExecution).store
    (.numbered 0) with error | _ | v
  · rw [hread] at hearly
    cases hearly
  · rw [hread] at hearly
    cases hearly
  · rw [hread] at hearly
    change v.finishedAt.any _ = true at hearly
    obtain ⟨t, ht, hlast⟩ := (Option.any_eq_true _ _).mp hearly
    have horder : v.lastInstant.notAfter t = true := (h.found _ v hread).finishedAt t ht
    rw [horder] at hlast
    cases hlast

end RuleEngine
