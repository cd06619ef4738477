import RuleEngine.Proofs.Live.AtMostOnce
import RuleEngine.Proofs.Run.Delay
import RuleEngine.Proofs.Store.RecordLedger

/-!
# Custody of jobs

While an engine is at work no record is forgotten and none is worked on twice. A record that has not
ended is carried in one place: in the hand of a producer, in the queue, with the pool, in a slot, or
with a sleeper; and what a place carries is in the log. The record is appended before its job is
submitted, and a parked version is written before its job goes to sleep. So a job that waits has the
record that the log keeps, and an engine that carries nothing has ended all its records.

## Main definitions

* `ExecutionRecord.AwaitsRun`: a record that is pending, or comes back from its delay.
* `Holder.IsKept`: a job that is carried goes with what the log keeps of its record.
* `LiveEngine.IsReady`: an engine that can start to work.
* `LiveEngine.Custody`: every record that has not ended is carried, and every job is kept.

## Main results

* `Worker.Move.handsOn`: a move of a worker carries its job on, or its record has ended.
* `LiveEngine.Custody.of_change`: every change of an engine at work keeps the custody.
* `LiveEngine.custody_of_life`: no job is lost or duplicated in the life of an engine at work.
-/

namespace RuleEngine

open RecordLedger

/-! ### Statuses of jobs -/

/-- A record has not ended while its run is in a stage. -/
theorem RunStage.isTerminal_status (stage : RunStage) : stage.status.isTerminal = false := by
  cases stage <;> rfl

/-- Whether a record waits for a run: it is pending, or comes back from its delay. -/
def ExecutionRecord.AwaitsRun (r : ExecutionRecord) : Prop :=
  r.status = .pending ∨ r.status = .conditionsMet ∧ r.delayedUntil.isSome = true

theorem ExecutionRecord.AwaitsRun.isTerminal_eq_false {r : ExecutionRecord} (h : r.AwaitsRun) :
    r.status.isTerminal = false := by
  rcases h with h | ⟨h, -⟩ <;> rw [h] <;> rfl

namespace Run

variable {r : Run} {now : Timestamp} {v : ExecutionRecord} {p : RunProgress}

theorem IsSteady.isTerminal_eq_false (h : r.IsSteady) : r.record.status.isTerminal = false :=
  h ▸ r.stage.isTerminal_status

/-- Every version of a record has its origin. -/
theorem Writes.sameOrigin (h : r.Writes now v p) : v.SameOrigin r.record := by
  cases h <;> exact ⟨rfl, rfl, rfl, rfl, rfl, rfl, rfl⟩

/-- A version after which the run has ended is a final one, or the run is parked with it and has a
time to come back at. -/
theorem Writes.of_ended {ending : RunEnding} (h : r.Writes now v (.ended ending)) :
    v.status.isTerminal = true ∨
      ∃ j runAt, ending = .deferred j runAt ∧ j.record = v ∧ v.AwaitsRun := by
  cases h with
  | declining => exact .inl rfl
  | closing failure => cases failure <;> exact .inl rfl
  | parking d runAt => exact .inr ⟨_, runAt, rfl, rfl, .inr ⟨rfl, rfl⟩⟩

end Run

/-! ### Jobs and what is kept of them -/

section

variable {σ : Type} [RuleStore σ] [ExecutionLog σ] [RecordLedger σ]

/-- Whether a job that waits has the record that is kept in a log, and one that a worker is at has a
later state of it, with the status that is kept. -/
def Holder.IsKept (s : σ) : Holder → Prop
  | .waiting j => kept? s j.record.id = some (keep j.record) ∧ j.record.AwaitsRun
  | .working w => ∃ v, kept? s w.run.record.id = some (keep v) ∧ w.run.record.SameOrigin v ∧
    v.status = w.run.record.status

namespace Holder

variable {s s' : σ} {h : Holder}

theorem IsKept.congr (hk : h.IsKept s) (hs : kept? s' h.id = kept? s h.id) : h.IsKept s' := by
  cases h with
  | waiting j => exact ⟨hs.trans hk.1, hk.2⟩
  | working w =>
    obtain ⟨v, hv, hk⟩ := hk
    exact ⟨v, hs.trans hv, hk⟩

theorem IsKept.kept_ne_none (hk : h.IsKept s) : kept? s h.id ≠ none := by
  cases h with
  | waiting j => exact fun hn => Option.some_ne_none _ (hk.1.symm.trans hn)
  | working w =>
    obtain ⟨v, hv, -⟩ := hk
    exact fun hn => Option.some_ne_none _ (hv.symm.trans hn)

/-- The record of a job that is carried is in the log and has not ended. -/
theorem IsKept.exists_kept (hk : h.IsKept s) (hs : h.Sound) :
    ∃ k, kept? s h.id = some k ∧ RecordLedger.isTerminal k = false := by
  cases h with
  | waiting j => exact ⟨_, hk.1, by rw [isTerminal_keep]; exact hk.2.isTerminal_eq_false⟩
  | working w =>
    obtain ⟨v, hv, -, hstatus⟩ := hk
    refine ⟨_, hv, ?_⟩
    rw [isTerminal_keep, ExecutionRecord.isTerminal, hstatus]
    exact hs.1.steady.isTerminal_eq_false

end Holder

/-- What a move of a worker does to the log: the record of its run has ended, or is kept as that of
the job that is carried on, and no other record is concerned. -/
structure Worker.HandsOn (w : Worker) (s s' : σ) (next : Multiset Holder) : Prop where
  sound : Answers s'
  kept_ne : ∀ id, id ≠ w.run.record.id → kept? s' id = kept? s id
  next : (∃ x, next = {x} ∧ x.id = w.run.record.id ∧ x.IsKept s') ∨
    next = 0 ∧ ∀ k, kept? s' w.run.record.id = some k → RecordLedger.isTerminal k = true

/-- A move that writes nothing hands the job on. -/
private theorem Worker.HandsOn.of_unwritten {w : Worker} {s : σ} (hs : Answers s) {x : Holder}
    (hid : x.id = w.run.record.id) (hx : x.IsKept s) : w.HandsOn s s {x} :=
  ⟨hs, fun _ _ => rfl, .inl ⟨x, rfl, hid, hx⟩⟩

/-- An accepted version hands the job on, or ends the record. -/
private theorem Worker.HandsOn.of_writes {w : Worker} {s s' : σ} {now : Timestamp}
    {v : ExecutionRecord} {p : RunProgress} (hv : w.run.Writes now v p) (hs : Answers s')
    (hnew : ∀ id, kept? s' id = if id = v.id then some (keep v) else kept? s id) :
    w.HandsOn s s' (p.carriedOn w) := by
  have hid := hv.id_eq
  have hkept : kept? s' v.id = some (keep v) := (hnew v.id).trans (if_pos rfl)
  refine ⟨hs, fun id hne => (hnew id).trans (if_neg (hid ▸ hne)), ?_⟩
  cases p with
  | going r =>
    obtain ⟨-, -, hr⟩ := hv.going_eq
    refine .inl ⟨_, rfl, (congrArg ExecutionRecord.id hr).trans hid, v, ?_, hr ▸ .refl _,
      by rw [hr]⟩
    rw [hr]
    exact hkept
  | ended ending =>
    rcases hv.of_ended with hend | ⟨j, runAt, rfl, hj, hawaits⟩
    · have hnone : (RunProgress.ended ending).carriedOn w = 0 := by
        cases hv with
        | declining | closing => rfl
        | parking => cases hend
      refine .inr ⟨hnone, fun k hk => ?_⟩
      rw [← hid, hkept] at hk
      obtain rfl := Option.some.inj hk
      rw [isTerminal_keep]
      exact hend
    · refine .inl ⟨_, rfl, (congrArg ExecutionRecord.id hj).trans hid, ?_, hj ▸ hawaits⟩
      rw [hj]
      exact hkept

/-- A worker whose record is kept and whose delay leads to an instant hands its job on. -/
theorem Worker.Move.handsOn {e : Engine σ} {w : Worker} {s : σ} {calls : List Invocation}
    {next : Multiset Holder} (hm : w.Move e s calls next) (hw : (Holder.working w).Sound)
    (hk : (Holder.working w).IsKept e.store) (hs : Answers e.store)
    (hd : w.run.stage = .accepting → ¬w.run.rule.Overruns e.clock) :
    w.HandsOn e.store s next := by
  obtain ⟨kept, hkept, ho, hstatus⟩ := hk
  have hopen : kept.status.isTerminal = false := hstatus ▸ hw.1.steady.isTerminal_eq_false
  have hupdate {v : ExecutionRecord} {p : RunProgress} (hv : w.run.Writes e.clock v p) :=
    exists_update (v := v) hs (by rw [hv.id_eq]; exact hkept) (hv.sameOrigin.trans ho) hopen
  cases hm with
  | judged hj =>
    exact .of_unwritten hs rfl
      ⟨kept, hkept, ⟨ho.1, ho.2, ho.3, ho.4, ho.5, ho.6, ho.7⟩, hstatus⟩
  | called a rest hc => exact .of_unwritten hs rfl ⟨kept, hkept, ho, hstatus⟩
  | invoked a t rest calls o due hi ha hc => exact .of_unwritten hs rfl ⟨kept, hkept, ho, hstatus⟩
  | answered a t rest o ha hb =>
    exact .of_unwritten hs rfl
      ⟨kept, hkept, ⟨ho.1, ho.2, ho.3, ho.4, ho.5, ho.6, ho.7⟩, hstatus⟩
  | wrote hv hu =>
    obtain ⟨s', hu', hs', hnew⟩ := hupdate hv
    cases hu.symm.trans hu'
    exact .of_writes hv hs' hnew
  | refused hv hu =>
    obtain ⟨s', hu', -⟩ := hupdate hv
    cases hu.symm.trans hu'
  | unsteady hn => exact absurd hw.1.steady hn
  | outOfTime ha hn => exact absurd (Run.hasRunAt_iff.mpr (hd ha)) hn

end

/-! ### Engines at work -/

/-- A producer that has nothing to do holds no job. -/
theorem Producer.hand_of_isIdle {p : Producer} (h : p.isIdle = true) : p.hand = 0 := by
  rw [eq_idle_of_isIdle h]
  rfl

/-- Whether a move lets an engine go on: its queue is not closed, it is not told to stop, its records
are not abandoned, and it does not crash. -/
def LiveMove.IsAtWork : LiveMove → Prop
  | .event .closeQueue | .event .stop | .event .abandon | .event .restart => False
  | .event _ | .surroundings .. => True

namespace LiveEngine

variable {σ : Type} [RuleStore σ] [ExecutionLog σ] {e e' : LiveEngine σ} {event : LiveEvent}
  {move : LiveMove}

/-- Whether the queue of an engine takes jobs, and the engine has not been told to stop. -/
def IsUp (e : LiveEngine σ) : Prop := e.queue.isOpen = true ∧ e.isStopping = false

omit [RuleStore σ] [ExecutionLog σ] in
private theorem IsUp.submit (h : e.IsUp) (j : Job) :
    (match e.queue.submit j with
      | .ok queue => queue
      | .error _ => e.queue).isOpen = true := by
  rw [JobQueue.submit, if_pos h.1]
  exact h.1

private theorem isOpen_step {q : JobQueue} (h : q.isOpen = true) (f : Firing)
    (fresh : ExecutionId) (now : Timestamp) (s : σ) : (f.step fresh now s q).2.2.isOpen = true := by
  have ht := f.turn_step fresh now s q
  generalize (f.step fresh now s q).1 = p at ht
  generalize (f.step fresh now s q).2.1 = s' at ht
  generalize (f.step fresh now s q).2.2 = q' at ht ⊢
  cases ht <;> exact h

omit [RuleStore σ] in
private theorem IsUp.work (h : e.IsUp) (i : Nat) (w : Worker) : (e.work i w).IsUp := by
  obtain ⟨engine, hw, hq⟩ := e.workStep_engine w
  obtain ⟨workers, sleepers, he⟩ := e.work_eq i w
  rw [he, hw]
  exact ⟨hq ▸ h.1, h.2⟩

/-- An engine at work stays up. The pool does not leave, since the queue is open. -/
theorem IsUp.of_make (h : e.IsUp) (hm : move.IsAtWork) : (e.make move).IsUp := by
  obtain ⟨ho, hs⟩ := h
  cases move with
  | surroundings registry lookup => exact ⟨ho, hs⟩
  | event event =>
    change (e.perform event).IsUp
    unfold perform
    by_cases hp : e.isPossible event = true
    · rw [if_pos hp]
      cases event with
      | closeQueue | stop | abandon | restart => exact hm.elim
      | leave => simp [isPossible, ho, hs] at hp
      | ingest =>
        simp only [carryOut, ingest]
        split <;> exact ⟨ho, hs⟩
      | listen =>
        simp only [carryOut, listen]
        split <;> exact ⟨ho, hs⟩
      | dispatch =>
        simp only [carryOut]
        split
        · next f _ => exact ⟨isOpen_step ho f e.nextId e.clock e.store, hs⟩
        · exact ⟨ho, hs⟩
        · exact ⟨ho, hs⟩
      | schedule =>
        simp only [carryOut]
        split
        · next f _ => exact ⟨isOpen_step ho f e.nextId e.clock e.store, hs⟩
        · exact ⟨ho, hs⟩
        · exact ⟨ho, hs⟩
      | retire =>
        simp only [carryOut, retire]
        split <;> exact ⟨ho, hs⟩
      | receive =>
        simp only [carryOut, receive, JobQueue.next?]
        cases e.queue.jobs <;> exact ⟨ho, hs⟩
      | employ =>
        simp only [carryOut, employ]
        split
        · split <;> exact ⟨ho, hs⟩
        · exact ⟨ho, hs⟩
      | work i =>
        simp only [carryOut]
        split
        · next w _ => exact IsUp.work ⟨ho, hs⟩ i w
        · exact ⟨ho, hs⟩
      | wake i =>
        simp only [carryOut, wake]
        split
        · next s _ =>
          split
          · exact ⟨IsUp.submit ⟨ho, hs⟩ s.job, hs⟩
          · exact ⟨ho, hs⟩
        · exact ⟨ho, hs⟩
      | look | publish n | closeFeed | setClock t | pass ms => exact ⟨ho, hs⟩
    · rw [if_neg hp]
      exact ⟨ho, hs⟩

/-! ### Custody -/

variable [RecordLedger σ] {n : Nat}

/-- Whether every record of the log that has not ended is carried, and what is carried is kept in
the log. Nothing is in the log yet under the identifiers that are still to be handed out, up to a
number. -/
structure Custody (n : Nat) (e : LiveEngine σ) : Prop where
  sound : Answers e.store
  holders : ∀ h ∈ e.holders, h.IsKept e.store
  covered : ∀ id k, kept? e.store id = some k → RecordLedger.isTerminal k = false →
    ∃ h ∈ e.holders, h.id = id
  free : ∀ i, e.issued ≤ i → i < n → kept? e.store (.numbered i) = none

/-- The log answers and keeps what it kept, if at most a minute was claimed. -/
private theorem Undisturbed.kept_eq (hu : Undisturbed e e') (hs : Answers e.store) :
    Answers e'.store ∧ kept? e'.store = kept? e.store := by
  rcases hu.store with h | ⟨id, tick, b, h⟩
  · exact ⟨h ▸ hs, congrArg kept? h⟩
  · exact kept_claim hs h

/-- Jobs that are moved stay in custody. -/
private theorem Custody.of_undisturbed (h : e.Custody n) (hu : Undisturbed e e')
    (hh : e'.holders = e.holders) : e'.Custody n := by
  obtain ⟨hs, hk⟩ := hu.kept_eq h.sound
  refine ⟨hs, fun x hx => (h.holders x (hh ▸ hx)).congr (congrFun hk _), fun id k hi ht => ?_,
    fun i hi hn => ?_⟩
  · rw [hh]
    exact h.covered id k (hk ▸ hi) ht
  · rw [hk]
    exact h.free i (hu.issued_le.trans hi) hn

/-- A job that gets a slot stays in custody. -/
private theorem Custody.of_employed (h : e.Custody n) (hu : Undisturbed e e') {job : Job}
    {run : Run} {others : Multiset Holder} (hr : Run.ofJob job = .ok run)
    (hb : e.holders = {.waiting job} + others) (ha : e'.holders = {.working { run }} + others) :
    e'.Custody n := by
  obtain ⟨hs, hk⟩ := hu.kept_eq h.sound
  have hrecord : run.record = job.record := congrArg Job.record (Run.job_of_ofJob hr)
  refine ⟨hs, fun x hx => ?_, fun id k hi ht => ?_, fun i hi hn => ?_⟩
  · rw [ha] at hx
    rcases Multiset.mem_add.mp hx with hx | hx
    · obtain rfl := Multiset.mem_singleton.mp hx
      have hjob := h.holders (.waiting job) (by simp [hb])
      refine ⟨job.record, ?_, hrecord ▸ .refl _, by rw [hrecord]⟩
      rw [hrecord, hk]
      exact hjob.1
    · exact (h.holders x (by simp [hb, hx])).congr (congrFun hk _)
  · rw [hk] at hi
    obtain ⟨x, hx, hid⟩ := h.covered id k hi ht
    rw [hb] at hx
    rcases Multiset.mem_add.mp hx with hx | hx
    · obtain rfl := Multiset.mem_singleton.mp hx
      exact ⟨.working { run }, by simp [ha], (congrArg ExecutionRecord.id hrecord).trans hid⟩
    · exact ⟨x, by simp [ha, hx], hid⟩
  · rw [hk]
    exact h.free i (hu.issued_le.trans hi) hn

/-- A record that is appended is in the custody of the producer that has fired its rule. -/
private theorem Custody.of_fired (h : e.Custody n) {rule : Rule} {context : TriggerContext}
    {now : Timestamp} (hn : e.issued < n)
    (hd : ∀ i j, i < j → j < n → Identifier.numbered i ≠ .numbered j)
    (ho : ExecutionLog.appendRecord e.store (.pending e.nextId rule context now) = .ok e'.store)
    (hh : e'.holders =
      {.waiting ⟨rule, context, .pending e.nextId rule context now⟩} + e.holders)
    (hi : e'.issued = e.issued + 1) : e'.Custody n := by
  obtain ⟨hs, hk⟩ := kept_append h.sound ho
  have hfree : kept? e.store e.nextId = none := h.free e.issued le_rfl hn
  have hold {id : ExecutionId} (hne : id ≠ e.nextId) : kept? e'.store id = kept? e.store id :=
    (hk id).trans (if_neg hne)
  refine ⟨hs, fun x hx => ?_, fun id k hkept ht => ?_, fun i hle hlt => ?_⟩
  · rw [hh] at hx
    rcases Multiset.mem_add.mp hx with hx | hx
    · obtain rfl := Multiset.mem_singleton.mp hx
      exact ⟨(hk _).trans (if_pos rfl), .inl rfl⟩
    · have hx := h.holders x hx
      exact hx.congr (hold fun hid => hx.kept_ne_none (hid ▸ hfree))
  · by_cases hid : id = e.nextId
    · exact ⟨.waiting ⟨rule, context, .pending e.nextId rule context now⟩, by simp [hh], hid.symm⟩
    · obtain ⟨x, hx, hxid⟩ := h.covered id k (hold hid ▸ hkept) ht
      exact ⟨x, by simp [hh, hx], hxid⟩
  · rw [hold (hd e.issued i (by omega) hlt).symm]
    exact h.free i (by omega) hlt

/-- The job of a worker that makes a move stays in custody until its record has ended. -/
private theorem Custody.of_worked (h : e.Custody n) (hl : e.Linked) {w : Worker}
    {next others : Multiset Holder} (hm : w.HandsOn e.store e'.store next)
    (hb : e.holders = {.working w} + others) (ha : e'.holders = next + others)
    (hi : e'.issued = e.issued) : e'.Custody n := by
  have hnodup := hl.nodup_ids
  rw [hb, Multiset.map_add, Multiset.map_singleton, Multiset.singleton_add,
    Multiset.nodup_cons] at hnodup
  have hother (x : Holder) (hx : x ∈ others) : x.id ≠ w.run.record.id := fun hid =>
    hnodup.1 (Multiset.mem_map.mpr ⟨x, hx, hid⟩)
  have hworker : (Holder.working w).IsKept e.store := h.holders _ (by simp [hb])
  refine ⟨hm.sound, fun x hx => ?_, fun id k hk ht => ?_, fun i hle hlt => ?_⟩
  · rw [ha] at hx
    rcases Multiset.mem_add.mp hx with hx | hx
    · rcases hm.next with ⟨y, rfl, -, hy⟩ | ⟨rfl, -⟩
      · exact Multiset.mem_singleton.mp hx ▸ hy
      · exact absurd hx (Multiset.notMem_zero x)
    · exact (h.holders x (by simp [hb, hx])).congr (hm.kept_ne _ (hother x hx))
  · by_cases hid : id = w.run.record.id
    · rcases hm.next with ⟨y, rfl, hy, -⟩ | ⟨-, hend⟩
      · exact ⟨y, by simp [ha], hy.trans hid.symm⟩
      · exact absurd (hend k (hid ▸ hk)) (by simp [ht])
    · rw [hm.kept_ne id hid] at hk
      obtain ⟨x, hx, rfl⟩ := h.covered id k hk ht
      rw [hb] at hx
      rcases Multiset.mem_add.mp hx with hx | hx
      · exact absurd (congrArg Holder.id (Multiset.mem_singleton.mp hx)) hid
      · exact ⟨x, by simp [ha, hx], rfl⟩
  · have hfree := h.free i (hi ▸ hle) hlt
    have hne : Identifier.numbered i ≠ w.run.record.id := fun hid =>
      hworker.kept_ne_none ((congrArg (kept? e.store) hid).symm.trans hfree)
    rw [hm.kept_ne _ hne]
    exact hfree

/-- Every change of an engine at work keeps the custody. -/
theorem Custody.of_change (h : e.Custody n) (hl : e.Linked) (hs : e.IsSound fun _ => True)
    (hup : e.IsUp) (hw : ∀ w ∈ e.workers, w.run.stage = .accepting → ¬w.run.rule.Overruns e.clock)
    (hd : ∀ i j, i < j → j < n → Identifier.numbered i ≠ .numbered j) (hn : e'.issued ≤ n)
    (hc : Change e event e') (ha : event ≠ .abandon) (hr : event ≠ .restart) : e'.Custody n := by
  cases hc with
  | quiet hu hh | listed _ _ hu hh => exact h.of_undisturbed hu hh
  | employed job run others hr hu hb hh => exact h.of_employed hu hr hb hh
  | lost job hu hh hc why =>
    -- The queue is open, and the job that was taken out of it can be run.
    rcases why with hq | ⟨error, hr⟩
    · exact absurd hup.1 (by simp [hq])
    · obtain ⟨r, hok, -⟩ := (hs.holders (.waiting job) (by simp [hh])).1
      cases hok.symm.trans hr
  | fired rule context now hm hc ho hh hi hissued =>
    exact h.of_fired (by omega) hd ho hh hissued
  | worked w calls next others hm hmem hb hh hc hi hissued =>
    have hkept := h.holders (.working w) (by simp [hb])
    have hsound := (hs.holders (.working w) (by simp [hb])).1
    exact h.of_worked hl (hm.handsOn hsound hkept h.sound (hw w hmem)) hb hh hissued
  | abandoned => exact absurd rfl ha
  | restarted => exact absurd rfl hr

/-! ### Lives at work -/

/-- Whether an engine can start to work: it carries nothing, its queue is open, its log answers and
has records that have ended only, and the identifiers that it will hand out are not in the log. -/
structure IsReady (n : Nat) (e : LiveEngine σ) : Prop where
  fresh : e.IsFresh
  invocations : e.invocations = []
  up : e.IsUp
  answers : Answers e.store
  ended : ∀ id k, kept? e.store id = some k → RecordLedger.isTerminal k = true
  free : ∀ i, e.issued ≤ i → i < n → kept? e.store (.numbered i) = none

theorem IsReady.custody (h : e.IsReady n) : e.Custody n := by
  refine ⟨h.answers, ?_, fun id k hk ht => ?_, h.free⟩
  · simp [h.fresh.1]
  · exact absurd (h.ended id k hk) (by simp [ht])

/-- Whether the delay of a rule leads to an instant whenever a run is about to take it, after some
of the moves. -/
def MeetsDelays (e : LiveEngine σ) (moves : List LiveMove) : Prop :=
  ∀ before, before <+: moves → ∀ w ∈ (e.life before).workers, w.run.stage = .accepting →
    ¬w.run.rule.Overruns (e.life before).clock

/-- Throughout a life at work the records are in custody. -/
theorem IsReady.custody_life (h : e.IsReady n)
    (hd : ∀ i j, i < j → j < n → Identifier.numbered i ≠ .numbered j) {moves : List LiveMove}
    (hn : (e.life moves).issued ≤ n) (hm : ∀ move ∈ moves, move.IsAtWork)
    (hw : e.MeetsDelays moves) : (e.life moves).Custody n ∧ (e.life moves).IsUp := by
  induction moves using List.reverseRecOn with
  | nil => exact ⟨h.custody, h.up⟩
  | append_singleton before move ih =>
    rw [life_append] at hn ⊢
    have hmove := hm move (by simp)
    have hbefore (m : LiveMove) (hmem : m ∈ before) : m.IsAtWork := hm m (by simp [hmem])
    have hle : (e.life before).issued ≤ n := (issued_le_life _ [move]).trans hn
    obtain ⟨hc, hup⟩ := ih hle hbefore fun l hl => hw l (hl.trans (List.prefix_append _ _))
    obtain ⟨hs, hl⟩ :
        (e.life before).IsSound (fun _ => True) ∧ (e.life before).Linked :=
      linked_of_life h.fresh h.invocations (fun ha => hbefore _ ha) fun i j hij hj =>
        hd i j hij (hj.trans_le hle)
    refine ⟨?_, hup.of_make hmove⟩
    have hdelays := hw before (List.prefix_append _ _)
    cases move with
    | event event =>
      refine hc.of_change hl hs hup hdelays hd hn ((e.life before).change_perform event) ?_ ?_
      · rintro rfl
        exact hmove
      · rintro rfl
        exact hmove
    | surroundings registry lookup => exact ⟨hc.sound, hc.holders, hc.covered, hc.free⟩

/-- No job is lost or duplicated in the life of an engine at work. A record of the log that has not
ended is carried exactly once. What is carried is a record that is in the log and has not ended; if
it waits, it is the one that the log keeps and answers with, and is pending or comes back from its
delay. If no producer is about to submit a job and the queue, the pool, the slots and the sleepers
have none, every record has ended. -/
theorem custody_of_life (e : LiveEngine σ) (moves : List LiveMove)
    (hr : e.IsReady (e.life moves).issued) (hm : ∀ move ∈ moves, move.IsAtWork)
    (hd : (e.life moves).HasDistinctIds) (hw : e.MeetsDelays moves) :
    let now := e.life moves
    (∀ id k, kept? now.store id = some k → RecordLedger.isTerminal k = false →
      (now.holders.map Holder.id).count id = 1) ∧
    (∀ h ∈ now.holders, (now.holders.map Holder.id).count h.id = 1 ∧
      ∃ k, kept? now.store h.id = some k ∧ RecordLedger.isTerminal k = false) ∧
    (∀ j ∈ now.waitingJobs, j.record.AwaitsRun ∧
      ∃ k, kept? now.store j.record.id = some k ∧ k = keep j.record ∧
        ExecutionLog.recordById now.store j.record.id = (read k).map some) ∧
    (now.dispatcher.hand = 0 → now.scheduler.hand = 0 → now.queue.jobs = [] → now.held = none →
      now.workers = [] → now.sleepers = [] →
      ∀ id k, kept? now.store id = some k → RecordLedger.isTerminal k = true) := by
  intro now
  obtain ⟨hc, -⟩ := hr.custody_life hd le_rfl hm hw
  obtain ⟨hs, hl⟩ := linked_of_life hr.fresh hr.invocations (fun ha => hm _ ha) hd
  have hcount {id : ExecutionId} (hid : ∃ h ∈ now.holders, h.id = id) :
      (now.holders.map Holder.id).count id = 1 :=
    Multiset.count_eq_one_of_mem hl.nodup_ids (Multiset.mem_map.mpr hid)
  refine ⟨fun id k hk ht => hcount (hc.covered id k hk ht), fun h hh => ⟨hcount ⟨h, hh, rfl⟩, ?_⟩,
    fun j hj => ?_, fun h1 h2 h3 h4 h5 h6 id k hk => ?_⟩
  · exact (hc.holders h hh).exists_kept (hs.holders h hh).1
  · have hmem : Holder.waiting j ∈ now.holders :=
      Multiset.mem_add.mpr (.inl (Multiset.mem_map_of_mem _ hj))
    obtain ⟨hk, ha⟩ := hc.holders _ hmem
    refine ⟨ha, _, hk, rfl, ?_⟩
    rw [recordById_eq hc.sound, hk, Option.mapM_some]
    rfl
  · by_contra ht
    obtain ⟨h, hh, -⟩ := hc.covered id k hk (Bool.eq_false_iff.mpr ht)
    have hnone : now.holders = 0 := by simp [holders, waitingJobs, h1, h2, h3, h4, h5, h6]
    exact absurd (hnone ▸ hh) (Multiset.notMem_zero h)

end LiveEngine

namespace Sample

/-- The rule is fired, its execution is carried through, and the dispatcher has nothing to do. -/
def wholeExecution : List LiveMove := execution ++ [.event .dispatch]

end Sample

/-- While the greeting of the sample rule is on its way its record is carried once, and it has ended
when nothing is carried any more. -/
theorem LiveEngine.custody_execution :
    ((Sample.engine.life Sample.firing).holders.map Holder.id).count (.numbered 0) = 1 ∧
      ∀ id k, kept? (Sample.engine.life Sample.wholeExecution).store id = some k →
        RecordLedger.isTerminal k = true := by
  have hwork : ∀ move ∈ Sample.wholeExecution, move.IsAtWork := by
    simp [Sample.wholeExecution, Sample.execution, Sample.firing, LiveMove.IsAtWork]
  have hdelay : ∀ n < 17, ∀ w ∈ (Sample.engine.life (Sample.wholeExecution.take n)).workers,
      w.run.rule.delaySeconds = none := by decide +kernel
  have hmeets : Sample.engine.MeetsDelays Sample.wholeExecution := by
    rintro before hb w hw - ⟨n, hn, -⟩
    rw [List.prefix_iff_eq_take.mp hb] at hw
    have hlt : before.length < 17 := Nat.lt_succ_of_le hb.length_le
    cases (hdelay before.length hlt w hw).symm.trans hn
  have hissued : (Sample.engine.life Sample.wholeExecution).issued = 3 ∧
      (Sample.engine.life Sample.firing).issued = 2 := by decide +kernel
  have hready (n : Nat) : Sample.engine.IsReady n :=
    ⟨⟨rfl, rfl⟩, rfl, ⟨rfl, rfl⟩, trivial, by rintro id k ⟨⟩, fun _ _ _ => rfl⟩
  have hdistinct : ∀ j < 3, ∀ i < j, Identifier.numbered i ≠ .numbered j := by decide +kernel
  have hfiring : Sample.firing <+: Sample.wholeExecution := List.prefix_append _ _
  obtain ⟨hcount, -⟩ := custody_of_life Sample.engine Sample.firing (hready _)
    (fun move hm => hwork move (hfiring.subset hm)) (fun i j hij hj => hdistinct j (by omega) i hij)
    fun before hb => hmeets before (hb.trans hfiring)
  obtain ⟨-, -, -, hidle⟩ := custody_of_life Sample.engine Sample.wholeExecution (hready _) hwork
    (fun i j hij hj => hdistinct j (by omega) i hij) hmeets
  have hpending : ((Sample.engine.life Sample.firing).store.findRecord (.numbered 0)).map
      (·.status) = some .pending := by decide +kernel
  obtain ⟨r, hr, hs⟩ := Option.map_eq_some_iff.mp hpending
  refine ⟨hcount _ r hr (congrArg ExecutionStatus.isTerminal hs), hidle
    (Producer.hand_of_isIdle ?_) (Producer.hand_of_isIdle ?_) (List.isEmpty_iff.mp ?_)
    (Option.isNone_iff_eq_none.mp ?_) (List.isEmpty_iff.mp ?_) (List.isEmpty_iff.mp ?_)⟩
  all_goals decide +kernel

end RuleEngine
