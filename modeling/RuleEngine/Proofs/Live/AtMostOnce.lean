import RuleEngine.Proofs.Live.Consistency

/-!
# At-most-once calls of handlers

However the parts of an engine take turns, and wherever a crash cuts them short, the handler of the
action at a position is called at most once on behalf of a record, and only while the log has the
record as running its actions. The reason is that every job is carried in one place: its record has
the status that the log keeps, and the calls that were made for it are of positions that it has
passed.

## Main definitions

* `LiveEngine.marks`: the jobs that an engine carries, each with the number of positions for which
  a handler may have been called.
* `LiveEngine.Linked`: every job carried is tied to one record of the log and to its calls.

## Main results

* `LiveEngine.Linked.of_change`: every change but the abandonment of records at work keeps the ties.
* `LiveEngine.at_most_once_of_life`: at most one call for every record and position, and only for a
  record whose status is `runningActions`.
-/

namespace RuleEngine

/-- The record and the position that a call was made for. -/
def Invocation.key (c : Invocation) : ExecutionId × Nat := (c.execution, c.position)

/-- For how many positions a handler may have been called on behalf of a job that is carried. -/
def Holder.reached : Holder → Nat
  | .waiting j => j.record.steps.length
  | .working w => w.run.record.steps.length + w.outcome.isSome.toNat

/-- The job that is carried, and for how many positions a handler may have been called. -/
def Holder.mark (h : Holder) : Job × Nat := (h.job, h.reached)

/-- Every version of a record has the steps that the run has. -/
theorem Run.Writes.steps_eq {r : Run} {now : Timestamp} {v : ExecutionRecord} {p : RunProgress}
    (h : r.Writes now v p) : v.steps = r.record.steps := by
  cases h <;> rfl

namespace Worker

variable {σ : Type} [RuleStore σ] [ExecutionLog σ] {e : Engine σ} {w : Worker} {s : σ}
  {calls : List Invocation} {next : Multiset Holder}

/-- A worker that has an outcome waits for one. -/
theorem outcome_eq_none (h : (Holder.working w).Sound)
    (hs : ∀ a t rest, w.run.stage ≠ .awaiting a t rest) : w.outcome = none := by
  cases ho : w.outcome with
  | none => rfl
  | some o =>
    obtain ⟨a, t, rest, hw⟩ := h.2 (by rw [ho]; rfl)
    exact absurd hw (hs a t rest)

omit [RuleStore σ] in
/-- A move calls no handler, or it calls that of the action at the position that the run has
reached, leaves the store alone and passes the position. -/
theorem Move.calls_eq (hm : w.Move e s calls next) :
    calls = [] ∨ ∃ a t rest o due, w.run.stage = .awaiting a t rest ∧ w.outcome = none ∧
      calls = [⟨w.run.record.id, w.run.record.steps.length, a.actionType, a.parameters⟩] ∧
      s = e.store ∧ next = {.working ⟨w.run, some o, due⟩} := by
  cases hm with
  | invoked a t rest calls o due hs ho hc =>
    exact hc.imp_right fun hc => ⟨a, t, rest, o, due, hs, ho, hc, rfl, rfl⟩
  | _ => exact .inl rfl

/-- What the mark of a job becomes in a move: it is gone, or it is that of the same record, with
the status that the log keeps, and no position is taken back. -/
theorem Move.mark_next [StatusLog σ] (hm : w.Move e s calls next)
    (h : (Holder.working w).Sound)
    (hst : StatusLog.status? e.store w.run.record.id = some w.run.record.status) :
    next = 0 ∨ ∃ x, next = {x} ∧ x.id = w.run.record.id ∧
      StatusLog.status? s x.id = some x.job.record.status ∧
      (Holder.working w).reached + calls.length ≤ x.reached := by
  cases hm with
  | judged hs =>
    exact .inr ⟨_, rfl, rfl, hst, le_rfl⟩
  | called a rest hs =>
    have ho := outcome_eq_none h (by simp [hs])
    exact .inr ⟨_, rfl, rfl, hst, by simp [Holder.reached, ho, Run.called]⟩
  | invoked a t rest calls o due hs ho hc =>
    refine .inr ⟨_, rfl, rfl, hst, ?_⟩
    rcases hc with rfl | rfl <;> simp [Holder.reached, ho]
  | answered a t rest o hs ho =>
    exact .inr ⟨_, rfl, rfl, hst, by simp [Holder.reached, ho, Run.answered]⟩
  | @wrote v p s hw ho =>
    have hstatus : StatusLog.status? s v.id = some v.status := by
      rw [StatusLog.status_update ho, if_pos rfl]
    cases p with
    | going r =>
      obtain ⟨hr, hc, hv⟩ := hw.going_eq
      refine .inr ⟨_, rfl, ?_, ?_, ?_⟩
      · exact (congrArg ExecutionRecord.id hv).trans hw.id_eq
      · simpa only [Holder.id, Holder.job, Run.job, hv] using hstatus
      · simp [Holder.reached, hv, hw.steps_eq]
    | ended ending =>
      cases ending with
      | deferred job runAt =>
        obtain ⟨hj, -⟩ := hw.deferred_eq
        have ho := outcome_eq_none h (by cases hw with | parking d runAt hs => simp [hs])
        refine .inr ⟨_, rfl, ?_, ?_, ?_⟩
        · simpa only [Holder.id, Holder.job, hj] using hw.id_eq
        · simpa only [Holder.id, Holder.job, hj] using hstatus
        · simp [Holder.reached, hj, ho, hw.steps_eq]
      | finished _ | refused _ | outOfTime => exact .inl rfl
  | refused hw ho => exact .inl rfl
  | unsteady hs => exact .inl rfl
  | outOfTime hs hd => exact .inl rfl

/-- A move changes the status of the record of its run only. -/
theorem Move.status_of_ne [StatusLog σ] (hm : w.Move e s calls next) {id : ExecutionId}
    (hid : id ≠ w.run.record.id) : StatusLog.status? s id = StatusLog.status? e.store id := by
  cases hm with
  | wrote hw ho =>
    rw [StatusLog.status_update ho, if_neg]
    rwa [hw.id_eq]
  | _ => rfl

end Worker

namespace LiveEngine

variable {σ : Type} [RuleStore σ] [ExecutionLog σ] [StatusLog σ] {e e' : LiveEngine σ}
  {event : LiveEvent}

/-- The marks of the jobs that an engine carries. -/
def marks (e : LiveEngine σ) : Multiset (Job × Nat) := e.holders.map Holder.mark

/-- Whether the identifiers handed out are distinct. -/
def HasDistinctIds (e : LiveEngine σ) : Prop :=
  ∀ i j, i < j → j < e.issued → Identifier.numbered i ≠ .numbered j

/-- Whether every job that is carried is tied to a record of its own, with the status that the log
keeps, and the calls that were made for it are of positions that it has passed. -/
structure Linked (e : LiveEngine σ) : Prop where
  nodup : (e.marks.map (·.1.record.id)).Nodup
  issued : ∀ m ∈ e.marks, ∃ i < e.issued, m.1.record.id = .numbered i
  status : ∀ m ∈ e.marks, StatusLog.status? e.store m.1.record.id = some m.1.record.status
  calls_nodup : (e.invocations.map Invocation.key).Nodup
  calls_issued : ∀ c ∈ e.invocations, ∃ i < e.issued, c.execution = .numbered i
  calls_before : ∀ m ∈ e.marks, ∀ c ∈ e.invocations,
    c.execution = m.1.record.id → c.position < m.2

/-- The jobs that are carried have distinct records. -/
theorem Linked.nodup_ids (h : e.Linked) : (e.holders.map Holder.id).Nodup := by
  have hm : e.marks.map (·.1.record.id) = e.holders.map Holder.id := by
    rw [marks, Multiset.map_map]
    rfl
  exact hm ▸ h.nodup

theorem IsFresh.linked (h : e.IsFresh) (hi : e.invocations = []) : e.Linked := by
  constructor <;> simp [marks, h.1, hi]

/-- To claim a minute at most leaves the statuses as they are. -/
theorem Undisturbed.status_eq (hu : Undisturbed e e') (id : ExecutionId) :
    StatusLog.status? e'.store id = StatusLog.status? e.store id := by
  rcases hu.store with hs | ⟨rule, tick, b, hs⟩
  · rw [hs]
  · exact StatusLog.status_claim hs id

/-- Nothing comes untied when marks are lost. -/
private theorem Linked.of_undisturbed (h : e.Linked) (hu : Undisturbed e e')
    (hm : e'.marks ≤ e.marks) : e'.Linked where
  nodup := Multiset.nodup_of_le (Multiset.map_le_map hm) h.nodup
  issued m hmem := by
    obtain ⟨i, hi, hid⟩ := h.issued m (Multiset.mem_of_le hm hmem)
    exact ⟨i, hi.trans_le hu.issued_le, hid⟩
  status m hmem := by
    rw [hu.status_eq]
    exact h.status m (Multiset.mem_of_le hm hmem)
  calls_nodup := by
    rw [hu.invocations]
    exact h.calls_nodup
  calls_issued c hc := by
    rw [hu.invocations] at hc
    obtain ⟨i, hi, hid⟩ := h.calls_issued c hc
    exact ⟨i, hi.trans_le hu.issued_le, hid⟩
  calls_before m hmem c hc := by
    rw [hu.invocations] at hc
    exact h.calls_before m (Multiset.mem_of_le hm hmem) c hc

/-- A record that has just been appended is tied to its job. -/
private theorem Linked.of_fired (h : e.Linked) (hd : e'.HasDistinctIds) {rule : Rule}
    {context : TriggerContext} {now : Timestamp}
    (ho : ExecutionLog.appendRecord e.store (.pending e.nextId rule context now) = .ok e'.store)
    (hh : e'.holders =
      {.waiting ⟨rule, context, .pending e.nextId rule context now⟩} + e.holders)
    (hi : e'.invocations = e.invocations) (hn : e'.issued = e.issued + 1) : e'.Linked := by
  have hfresh : ∀ i < e.issued, Identifier.numbered i ≠ e.nextId := fun i hi =>
    hd i e.issued hi (by omega)
  have hid : (ExecutionRecord.pending e.nextId rule context now).id = e.nextId := rfl
  have hmarks : e'.marks =
      (⟨rule, context, .pending e.nextId rule context now⟩, 0) ::ₘ e.marks := by
    rw [marks, hh, Multiset.singleton_add, Multiset.map_cons]
    rfl
  have hold : ∀ m ∈ e.marks, m.1.record.id ≠ e.nextId := by
    intro m hm
    obtain ⟨i, hi, hid⟩ := h.issued m hm
    exact hid ▸ hfresh i hi
  have hcalls : ∀ c ∈ e'.invocations, c.execution ≠ e.nextId := by
    intro c hc
    rw [hi] at hc
    obtain ⟨i, hi, hid⟩ := h.calls_issued c hc
    exact hid ▸ hfresh i hi
  constructor
  · rw [hmarks, Multiset.map_cons, Multiset.nodup_cons]
    refine ⟨fun hm => ?_, h.nodup⟩
    obtain ⟨m, hm, he⟩ := Multiset.mem_map.mp hm
    exact hold m hm he
  · intro m hm
    rw [hmarks] at hm
    rcases Multiset.mem_cons.mp hm with rfl | hm
    · exact ⟨e.issued, by omega, rfl⟩
    · obtain ⟨i, hi, hid⟩ := h.issued m hm
      exact ⟨i, by omega, hid⟩
  · intro m hm
    rw [hmarks] at hm
    rw [StatusLog.status_append ho]
    rcases Multiset.mem_cons.mp hm with rfl | hm
    · rw [if_pos rfl]
    · rw [hid, if_neg (hold m hm)]
      exact h.status m hm
  · rw [hi]
    exact h.calls_nodup
  · intro c hc
    rw [hi] at hc
    obtain ⟨i, hi, hid⟩ := h.calls_issued c hc
    exact ⟨i, by omega, hid⟩
  · intro m hm c hc he
    rw [hmarks] at hm
    rcases Multiset.mem_cons.mp hm with rfl | hm
    · exact absurd he (hcalls c hc)
    · rw [hi] at hc
      exact h.calls_before m hm c hc he

/-- After a move of a worker its job is gone, or it has one mark with the same record, behind the
calls that were made. -/
private theorem Linked.exists_marks (h : e.Linked) {w : Worker} {calls : List Invocation}
    {next others : Multiset Holder} (hm : w.Move e.toEngine e'.store calls next)
    (hw : (Holder.working w).Sound) (hb : e.holders = {.working w} + others)
    (ha : e'.holders = next + others) :
    ∃ rest, e.marks = (Holder.working w).mark ::ₘ rest ∧
      (e'.marks = rest ∨ ∃ m, e'.marks = m ::ₘ rest ∧ m.1.record.id = w.run.record.id ∧
        StatusLog.status? e'.store m.1.record.id = some m.1.record.status ∧
        (Holder.working w).mark.2 + calls.length ≤ m.2) := by
  have hmarks : e.marks = (Holder.working w).mark ::ₘ others.map Holder.mark := by
    rw [marks, hb, Multiset.singleton_add, Multiset.map_cons]
  have hmem : (Holder.working w).mark ∈ e.marks := hmarks ▸ Multiset.mem_cons_self _ _
  refine ⟨others.map Holder.mark, hmarks, ?_⟩
  rcases hm.mark_next hw (h.status _ hmem) with h0 | ⟨x, hx, hid, hst, hle⟩
  · refine .inl ?_
    rw [marks, ha, h0, zero_add]
  · refine .inr ⟨x.mark, ?_, hid, hst, hle⟩
    rw [marks, ha, hx, Multiset.singleton_add, Multiset.map_cons]

omit [RuleStore σ] [StatusLog σ] in
/-- A worker makes no call, or one for the record of its run, at the position that was reached. -/
private theorem calls_of_move {w : Worker} {calls : List Invocation} {next : Multiset Holder}
    (hm : w.Move e.toEngine e'.store calls next) :
    calls = [] ∨ ∃ c, calls = [c] ∧ c.execution = w.run.record.id ∧
      c.position = (Holder.working w).mark.2 := by
  refine hm.calls_eq.imp_right ?_
  rintro ⟨a, t, rest, o, due, hs, ho, hc, -, -⟩
  exact ⟨_, hc, rfl, by simp [Holder.mark, Holder.reached, ho]⟩

/-- A call at a later position than those for its record is another one than these. -/
private theorem nodup_key_append {calls : List Invocation} {c : Invocation}
    (h : (calls.map Invocation.key).Nodup)
    (hc : ∀ c' ∈ calls, c'.execution = c.execution → c'.position < c.position) :
    ((calls ++ [c]).map Invocation.key).Nodup := by
  rw [List.map_append, List.map_singleton]
  refine List.nodup_append.mpr ⟨h, List.nodup_singleton _, ?_⟩
  intro k hk k' hk' he
  obtain ⟨c', hc', rfl⟩ := List.mem_map.mp hk
  rw [List.mem_singleton] at hk'
  obtain ⟨hexecution, hposition⟩ := Prod.mk.inj (he.trans hk')
  have := hc c' hc' hexecution
  omega

/-- A worker keeps its job tied, and no other job is concerned. -/
private theorem Linked.of_worked (h : e.Linked) {w : Worker} {calls : List Invocation}
    {next others : Multiset Holder} (hm : w.Move e.toEngine e'.store calls next)
    (hw : (Holder.working w).Sound) (hb : e.holders = {.working w} + others)
    (ha : e'.holders = next + others) (hi : e'.invocations = e.invocations ++ calls)
    (hn : e'.issued = e.issued) : e'.Linked := by
  obtain ⟨rest, hmarks, hmarks'⟩ := h.exists_marks hm hw hb ha
  have hmem : (Holder.working w).mark ∈ e.marks := hmarks ▸ Multiset.mem_cons_self _ _
  have hrest : ∀ m ∈ rest, m ∈ e.marks := fun m hm => hmarks ▸ Multiset.mem_cons_of_mem hm
  have hnodup := h.nodup
  rw [hmarks, Multiset.map_cons, Multiset.nodup_cons] at hnodup
  have hother : ∀ m ∈ rest, m.1.record.id ≠ w.run.record.id := fun m hm he =>
    hnodup.1 (Multiset.mem_map.mpr ⟨m, hm, he⟩)
  have hcases : ∀ m ∈ e'.marks, m ∈ rest ∨ (m.1.record.id = w.run.record.id ∧
      StatusLog.status? e'.store m.1.record.id = some m.1.record.status ∧
      (Holder.working w).mark.2 + calls.length ≤ m.2) := by
    intro m hm'
    rcases hmarks' with h0 | ⟨x, hx, hspec⟩
    · exact .inl (h0 ▸ hm')
    · rw [hx] at hm'
      rcases Multiset.mem_cons.mp hm' with rfl | hm'
      · exact .inr hspec
      · exact .inl hm'
  have hcalls := calls_of_move hm
  constructor
  · rcases hmarks' with h0 | ⟨m, hx, hid, -⟩
    · rw [h0]
      exact hnodup.2
    · rw [hx, Multiset.map_cons, Multiset.nodup_cons, hid]
      exact hnodup
  · intro m hm'
    rw [hn]
    rcases hcases m hm' with hr | ⟨hid, -⟩
    · exact h.issued m (hrest m hr)
    · rw [hid]
      exact h.issued _ hmem
  · intro m hm'
    rcases hcases m hm' with hr | ⟨-, hst, -⟩
    · rw [hm.status_of_ne (hother m hr)]
      exact h.status m (hrest m hr)
    · exact hst
  · rw [hi]
    rcases hcalls with rfl | ⟨c, rfl, hex, hpos⟩
    · rw [List.append_nil]
      exact h.calls_nodup
    · refine nodup_key_append h.calls_nodup fun c' hc' he => ?_
      rw [hpos]
      exact h.calls_before _ hmem c' hc' (he.trans hex)
  · intro c hc
    rw [hi] at hc
    rw [hn]
    rcases List.mem_append.mp hc with hc | hc
    · exact h.calls_issued c hc
    · rcases hcalls with rfl | ⟨c', rfl, hex, -⟩
      · cases hc
      · rw [List.mem_singleton.mp hc, hex]
        exact h.issued _ hmem
  · intro m hm' c hc hex
    rw [hi] at hc
    rcases List.mem_append.mp hc with hc | hc
    · rcases hcases m hm' with hr | ⟨hid, -, hle⟩
      · exact h.calls_before m (hrest m hr) c hc hex
      · have := h.calls_before _ hmem c hc (hex.trans hid)
        omega
    · rcases hcalls with rfl | ⟨c', rfl, hex', hpos⟩
      · cases hc
      · rw [List.mem_singleton.mp hc] at hex ⊢
        rcases hcases m hm' with hr | ⟨-, -, hle⟩
        · exact absurd (hex.symm.trans hex') (hother m hr)
        · rw [List.length_singleton] at hle
          omega

/-- Every change but the abandonment of records at work keeps the jobs tied. -/
theorem Linked.of_change (h : e.Linked) (hs : e.IsSound fun _ => True)
    (hd : e'.HasDistinctIds) (hc : Change e event e') (ha : event ≠ .abandon) : e'.Linked := by
  cases hc with
  | quiet hu hh hc | listed _ _ hu hh hc =>
    exact h.of_undisturbed hu (le_of_eq (by rw [marks, marks, hh]))
  | employed job run others hr hu hb he hc =>
    refine h.of_undisturbed hu (le_of_eq ?_)
    have hj := Run.job_of_ofJob hr
    have hsteps : run.record.steps = job.record.steps := by rw [← hj]; rfl
    simp [marks, hb, he, Holder.mark, Holder.job, Holder.reached, hj, hsteps]
  | lost job hu hh hc why =>
    refine h.of_undisturbed hu ?_
    rw [marks, marks, hh, Multiset.map_add]
    exact Multiset.le_add_left _ _
  | fired rule context now hm hc ho hh hi hn => exact h.of_fired hd ho hh hi hn
  | worked w calls next others hm hw hb he hc hi hn =>
    exact h.of_worked hm (hs.holders (.working w) (by simp [hb])).1 hb he hi hn
  | abandoned => exact absurd rfl ha
  | restarted ho hh hc hi hn =>
    constructor
    · simp [marks, hh]
    · simp [marks, hh]
    · simp [marks, hh]
    · rw [hi]
      exact h.calls_nodup
    · rw [hi, hn]
      exact h.calls_issued
    · simp [marks, hh]

omit [StatusLog σ] in
/-- Identifiers are handed out one after the other. -/
theorem issued_le_of_change (hc : Change e event e') : e.issued ≤ e'.issued := by
  cases hc with
  | quiet hu | listed _ _ hu | employed _ _ _ _ hu | lost _ hu => exact hu.issued_le
  | fired _ _ _ _ _ _ _ _ hn => omega
  | worked _ _ _ _ _ _ _ _ _ _ hn | abandoned _ _ _ _ _ hn | restarted _ _ _ _ hn =>
    exact hn.ge

/-! ### Calls of handlers -/

/-- Whether no handler is called from one engine to the next, or one handler is: that of the action
at a position in the order of its rule, on behalf of the record of a worker that has come to this
position, which the store has as running its actions then. -/
def CallsAtMostOne (e e' : LiveEngine σ) : Prop :=
  e'.invocations = e.invocations ∨
    ∃ w ∈ e.workers, ∃ position a, w.run.rule.orderedActions[position]? = some a ∧
      e'.invocations =
        e.invocations ++ [⟨w.run.record.id, position, a.actionType, a.parameters⟩] ∧
      StatusLog.status? e.store w.run.record.id = some .runningActions ∧ e'.store = e.store

/-- Every change of an engine whose jobs are tied calls one handler at most. -/
theorem Linked.callsAtMostOne (h : e.Linked) (hs : e.IsSound fun _ => True)
    (hc : Change e event e') : e.CallsAtMostOne e' := by
  cases hc with
  | quiet hu | listed _ _ hu | employed _ _ _ _ hu | lost _ hu => exact .inl hu.invocations
  | fired _ _ _ _ _ _ _ hi | abandoned _ _ _ _ hi | restarted _ _ _ hi => exact .inl hi
  | worked w calls next others hm hw hb he hc hi hn =>
    rcases hm.calls_eq with rfl | ⟨a, t, rest, o, due, hstage, ho, rfl, hstore, -⟩
    · exact .inl (by rw [hi, List.append_nil])
    · have hmem : Holder.working w ∈ e.holders := by simp [hb]
      have hsound := (hs.holders _ hmem).1.1
      have hst := h.status _ (Multiset.mem_map_of_mem Holder.mark hmem)
      have hrun : w.run.record.status = .runningActions := hsound.steady.trans (by rw [hstage]; rfl)
      have hstands := hsound.stands
      simp only [Run.Stands, hstage] at hstands
      refine .inr ⟨w, hw, w.run.record.steps.length, a, ?_, hi, hst.trans (congrArg some hrun),
        hstore⟩
      rw [← hstands.2.2, List.getElem?_append_right (by simp)]
      simp

omit [StatusLog σ] in
theorem issued_le_life (e : LiveEngine σ) (moves : List LiveMove) :
    e.issued ≤ (e.life moves).issued := by
  refine life_induction (P := fun now => e.issued ≤ now.issued) le_rfl fun now move _ ih => ?_
  obtain ⟨event, hc, -⟩ := now.change_make move
  exact ih.trans (issued_le_of_change hc)

omit [StatusLog σ] in
/-- No more identifiers were handed out before than are in the end. -/
theorem issued_le_before {before moves : List LiveMove} (h : before <+: moves) :
    (e.life before).issued ≤ (e.life moves).issued := by
  obtain ⟨after, rfl⟩ := h
  rw [life_append]
  exact issued_le_life _ after

omit [RuleStore σ] [ExecutionLog σ] [StatusLog σ] in
theorem HasDistinctIds.mono (h : e'.HasDistinctIds) (hle : e.issued ≤ e'.issued) :
    e.HasDistinctIds :=
  fun i j hij hj => h i j hij (hj.trans_le hle)

/-- Sound jobs that are tied stay so in a life in which no records at work are abandoned. -/
theorem Linked.life (h : e.Linked) (hs : e.IsSound fun _ => True) {moves : List LiveMove}
    (ha : LiveMove.event .abandon ∉ moves) (hd : (e.life moves).HasDistinctIds) :
    (e.life moves).IsSound (fun _ => True) ∧ (e.life moves).Linked := by
  have hlife : (e.life moves).IsSound (fun _ => True) ∧
      ((e.life moves).HasDistinctIds → (e.life moves).Linked) := by
    refine life_induction (P := fun now => now.IsSound (fun _ => True) ∧
      (now.HasDistinctIds → now.Linked)) ⟨hs, fun _ => h⟩ fun now move hm ih => ?_
    obtain ⟨event, hc, hne⟩ := now.change_make move
    refine ⟨ih.1.of_change hc fun _ _ _ _ _ _ => trivial, fun hd' => ?_⟩
    have hl := ih.2 (hd'.mono (issued_le_of_change hc))
    exact hl.of_change ih.1 hd' hc fun he => ha (hne he ▸ hm)
  exact ⟨hlife.1, hlife.2 hd⟩

/-- Throughout a life in which no records at work are abandoned, the jobs are tied. -/
theorem linked_of_life (hf : e.IsFresh) (hi : e.invocations = []) {moves : List LiveMove}
    (ha : LiveMove.event .abandon ∉ moves) (hd : (e.life moves).HasDistinctIds) :
    (e.life moves).IsSound (fun _ => True) ∧ (e.life moves).Linked :=
  (hf.linked hi).life (hf.isSound _) ha hd

/-- In every life of an engine in which records are abandoned at a restart only, the handler of the
action at a position is called at most once on behalf of a record, and a handler is only called
while the store has its record as running its actions. -/
theorem at_most_once_of_life (e : LiveEngine σ) (hf : e.IsFresh) (hi : e.invocations = [])
    (moves : List LiveMove) (ha : LiveMove.event .abandon ∉ moves)
    (hd : (e.life moves).HasDistinctIds) :
    ((e.life moves).invocations.map Invocation.key).Nodup ∧
      ∀ before move after, moves = before ++ move :: after →
        (e.life before).CallsAtMostOne ((e.life before).make move) := by
  refine ⟨(linked_of_life hf hi ha hd).2.calls_nodup, ?_⟩
  rintro before move after rfl
  have hbefore : LiveMove.event .abandon ∉ before := fun hm => ha (List.mem_append_left _ hm)
  obtain ⟨hs, hl⟩ := linked_of_life hf hi hbefore
    (hd.mono (issued_le_before (List.prefix_append _ _)))
  obtain ⟨event, hc, -⟩ := (e.life before).change_make move
  exact hl.callsAtMostOne hs hc

end LiveEngine

/-- The greeting of the sample rule is logged once. -/
theorem LiveEngine.at_most_once_execution :
    (Sample.engine.life Sample.execution).invocations.map Invocation.key = [(.numbered 0, 0)] ∧
      ((Sample.engine.life Sample.execution).invocations.map Invocation.key).Nodup := by
  have hn : (Sample.engine.life Sample.execution).issued = 2 := by decide +kernel
  refine ⟨by decide +kernel, (at_most_once_of_life Sample.engine ⟨rfl, rfl⟩ rfl Sample.execution
    (by simp [Sample.execution, Sample.firing]) ?_).1⟩
  intro i j hij hj
  obtain ⟨rfl, rfl⟩ : i = 0 ∧ j = 1 := by omega
  decide

end RuleEngine
