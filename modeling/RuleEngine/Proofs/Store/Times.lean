import RuleEngine.Proofs.Data.Depth
import RuleEngine.Proofs.Execution.Times
import RuleEngine.Proofs.Store.EndedRecords
import RuleEngine.Proofs.Store.RecordQuery

/-!
# The times in a log

The log in memory keeps the times of its records as they are. A database keeps the times outside of
the steps as texts, cut to the microsecond, and those of the steps inside structured data, exactly;
and it never writes the start of a record again. So if the records that are written to a log all
have a property of their times, and each of them has the start that its record had at first, then
every record that is read from the log has, cut, the times of a record with the property.

## Main definitions

* `TimedLog`: a log whose entries have the times of records.

## Main results

* `ExecutionRow.readAs_of_read`: the times that are read from a row.
-/

namespace RuleEngine

/-- A log whose entries have the times of records. -/
class TimedLog (σ : Type) [RuleStore σ] [ExecutionLog σ] where
  /-- How the log cuts the times outside of steps. -/
  cut : Timestamp → Timestamp
  /-- Times are cut in a way that keeps their order. -/
  isCut : Timestamp.IsCut cut
  /-- Whether every entry has the times of a record with a property. -/
  All : (ExecutionRecord → Prop) → σ → Prop
  /-- Whether there is an entry for a record, and it has its start. -/
  HasStart : σ → ExecutionRecord → Prop
  /-- The start of an entry does not depend on other parts of the record. -/
  hasStart_congr {s : σ} {r v : ExecutionRecord} (hid : v.id = r.id)
    (ht : v.startedAt = r.startedAt) (h : HasStart s r) : HasStart s v
  /-- A property that follows from another one takes its place. -/
  all_mono {P Q : ExecutionRecord → Prop} {s : σ} (h : All P s) (hpq : ∀ r, P r → Q r) : All Q s
  /-- To append a record with the property keeps the entries as they should be. -/
  append {P : ExecutionRecord → Prop} {s s' : σ} {r : ExecutionRecord}
    (ho : ExecutionLog.appendRecord s r = .ok s') (h : All P s) (hr : P r) :
    All P s' ∧ HasStart s' r ∧ ∀ v, HasStart s v → HasStart s' v
  /-- To write a version with the property does, if its start is that of its entry. -/
  update {P : ExecutionRecord → Prop} {s s' : σ} {r : ExecutionRecord}
    (ho : ExecutionLog.updateRecord s r = .ok s') (h : All P s) (hs : HasStart s r) (hr : P r) :
    All P s' ∧ ∀ v, HasStart s v → HasStart s' v
  /-- To abandon records does, if they keep the property when they are abandoned. -/
  abandon {P : ExecutionRecord → Prop} {s s' : σ} {now : Timestamp} {n : Nat}
    (ho : ExecutionLog.abandonOpen s now = .ok (n, s')) (h : All P s)
    (hp : ∀ r, P r → P (MemoryStore.abandon now r)) :
    All P s' ∧ ∀ v, HasStart s v → HasStart s' v
  /-- To claim a minute does. -/
  claim {P : ExecutionRecord → Prop} {s s' : σ} {rule : RuleId} {tick : Timestamp} {b : Bool}
    (ho : RuleStore.claimTick s rule tick = .ok (b, s')) (h : All P s) :
    All P s' ∧ ∀ v, HasStart s v → HasStart s' v
  /-- A record that is found has the cut times of a record with the property. -/
  readAs_of_recordById {P : ExecutionRecord → Prop} {s : σ} {id : ExecutionId}
    {v : ExecutionRecord} (h : All P s) (ho : ExecutionLog.recordById s id = .ok (some v)) :
    ∃ r, P r ∧ r.ReadAs cut v
  /-- So have the records that are listed. -/
  readAs_of_queryRecords {P : ExecutionRecord → Prop} {s : σ} {q : ExecutionQuery}
    {found : List ExecutionRecord} {v : ExecutionRecord} (h : All P s)
    (ho : ExecutionLog.queryRecords s q = .ok found) (hv : v ∈ found) :
    ∃ r, P r ∧ r.ReadAs cut v

/-- Whether the records that are read from a log are in order, the end of their last steps cut. -/
structure ReadsInOrder {σ : Type} [ExecutionLog σ] (cut : Timestamp → Timestamp) (s : σ) : Prop where
  found : ∀ id v, ExecutionLog.recordById s id = .ok (some v) → v.InOrder cut
  listed : ∀ q found, ExecutionLog.queryRecords s q = .ok found → ∀ v ∈ found, v.InOrder cut

/-- Records are read in order up to how the log cuts times, if they were written in order. -/
theorem TimedLog.readsInOrder {σ : Type} [RuleStore σ] [ExecutionLog σ] [TimedLog σ] {s : σ}
    (h : All (fun r => r.InOrder .uncut) s) : ReadsInOrder (cut σ) s where
  found _ _ ho :=
    have ⟨_, hr, hv⟩ := readAs_of_recordById h ho
    hr.of_readAs isCut hv
  listed _ _ ho _ hm :=
    have ⟨_, hr, hv⟩ := readAs_of_queryRecords h ho hm
    hr.of_readAs isCut hv

/-! ### In memory -/

namespace MemoryStore

variable {P : ExecutionRecord → Prop} {s : MemoryStore} {r : ExecutionRecord}

private theorem forall_mem_putRecord (h : ∀ v ∈ s.records, P v) (hr : P r) :
    ∀ v ∈ (s.putRecord r).records, P v := fun v hv => by
  rcases mem_put hv with rfl | hv
  · exact hr
  · exact h v hv

instance : TimedLog MemoryStore where
  cut := .uncut
  isCut := Timestamp.isCut_uncut
  All P s := ∀ r ∈ s.records, P r
  HasStart _ _ := True
  hasStart_congr _ _ _ := trivial
  all_mono h hpq r hr := hpq r (h r hr)
  append ho h hr := by
    cases ho
    exact ⟨forall_mem_putRecord h hr, trivial, fun _ _ => trivial⟩
  update ho h _ hr := by
    rw [update_eq_ok ho]
    exact ⟨forall_mem_putRecord h hr, fun _ _ => trivial⟩
  abandon ho h hp := by
    cases ho
    exact ⟨List.forall_mem_map.mpr fun r hr => hp r (h r hr), fun _ _ => trivial⟩
  claim {P s s' rule tick b} ho h := by
    have hs : s' = (s.claim rule tick).2 := (congrArg Prod.snd (Except.ok.inj ho)).symm
    refine ⟨?_, fun _ _ => trivial⟩
    rw [hs]
    unfold MemoryStore.claim
    split
    · exact h
    · split <;> exact h
  readAs_of_recordById {P s id v} h ho := by
    have hv : s.findRecord id = some v := Except.ok.inj ho
    exact ⟨v, h v (List.mem_of_find?_eq_some hv), v.readAs_uncut⟩
  readAs_of_queryRecords {P s q found v} h ho hv := by
    obtain rfl : s.query q = found := Except.ok.inj ho
    have hm := List.mem_mergeSort.mp ((q.cut_prefix _).subset hv)
    exact ⟨v, h v (List.mem_of_mem_filter hm), v.readAs_uncut⟩

end MemoryStore

/-! ### In a database -/

namespace Column

/-- An instant that is read from its column is cut to the microsecond. -/
theorem eq_truncMicros_of_instant {t t' : Timestamp} (h : instant (ofInstant t) = .ok t') :
    t' = t.truncMicros := by
  rw [instant, ofInstant, Timestamp.read?_textMicros] at h
  split at h
  · next hread =>
    cases h
    exact (Option.some.inj hread).symm
  · cases h

theorem eq_truncMicros_of_optionalInstant {t t' : Option Timestamp}
    (h : optionalInstant (t.map ofInstant) = .ok t') : t' = t.map .truncMicros := by
  cases t with
  | none => exact (Except.ok.inj h).symm
  | some t =>
    change (instant (ofInstant t)).map some = .ok t' at h
    cases hi : instant (ofInstant t) with
    | error e =>
      rw [hi] at h
      cases h
    | ok read =>
      rw [hi] at h
      rw [Option.map_some, ← eq_truncMicros_of_instant hi]
      exact (Except.ok.inj h).symm

end Column

namespace ExecutionRow

/-- Whether a row has the times of a record. -/
structure HasTimes (row : ExecutionRow) (r : ExecutionRecord) : Prop where
  status : row.status = r.status.name
  steps : row.steps = Column.ofJson (.arr (r.steps.map ActionStep.toJson))
  delayedUntil : row.delayedUntil = r.delayedUntil.map Column.ofInstant
  startedAt : row.startedAt = Column.ofInstant r.startedAt
  finishedAt : row.finishedAt = r.finishedAt.map Column.ofInstant

variable {row : ExecutionRow} {r v : ExecutionRecord}

theorem hasTimes_ofRecord (r : ExecutionRecord) : (ofRecord r).HasTimes r :=
  ⟨rfl, rfl, rfl, rfl, rfl⟩

/-- A row gets the times of a version, if it has its start already. -/
theorem hasTimes_revise (h : row.startedAt = Column.ofInstant r.startedAt) :
    (row.revise r).HasTimes r :=
  ⟨rfl, rfl, rfl, h, rfl⟩

/-- A row is abandoned as its record is. -/
theorem HasTimes.abandon (h : row.HasTimes r) (now : Timestamp) :
    (row.abandon now).HasTimes (MemoryStore.abandon now r) := by
  have hopen : row.isOpen = !r.isTerminal := by
    rw [isOpen, h.status, ExecutionStatus.contains_closedTags]
    rfl
  by_cases ht : r.isTerminal
  · rw [ExecutionRecord.abandon_of_isTerminal ht, ExecutionRow.abandon, hopen, ht]
    exact h
  · rw [ExecutionRecord.abandon_of_not_isTerminal ht, ExecutionRow.abandon, hopen,
      eq_false_of_ne_true ht]
    exact ⟨rfl, h.steps, rfl, h.startedAt, rfl⟩

/-- To abandon a row changes neither its identifier nor its start. -/
theorem id_startedAt_abandon (now : Timestamp) (row : ExecutionRow) :
    (row.abandon now).id = row.id ∧ (row.abandon now).startedAt = row.startedAt := by
  unfold abandon
  split <;> exact ⟨rfl, rfl⟩

/-- The times of a record are read from their columns. -/
private theorem columns_of_read (h : row.read = .ok v) :
    Column.structured (Json.list? ActionStep.ofJson?) row.steps = .ok v.steps ∧
      Column.optionalInstant row.delayedUntil = .ok v.delayedUntil ∧
      Column.instant row.startedAt = .ok v.startedAt ∧
      Column.optionalInstant row.finishedAt = .ok v.finishedAt := by
  unfold read at h
  simp only [bind, Except.bind] at h
  repeat' split at h
  all_goals cases h
  exact ⟨by assumption, by assumption, by assumption, by assumption⟩

/-- The steps that are read from their column are those that were written: orders beyond 32 bits are
not read. -/
private theorem eq_of_structured_steps {steps steps' : List ActionStep}
    (h : Column.structured (Json.list? ActionStep.ofJson?)
      (Column.ofJson (.arr (steps.map ActionStep.toJson))) = .ok steps') : steps' = steps := by
  have hdepth := Column.depth_le_of_structured h
  have hread : (steps.map fun s => Json.reread 1 s.toJson).mapM ActionStep.ofJson? =
      some steps' := by
    have hread := (Column.structured_ofJson_eq_ok_iff_reread.mp h).2
    rwa [Json.reread, if_pos (by decide), Json.rereadItems_eq_map, List.map_map] at hread
  refine Json.eq_of_mapM_map (fun s hs s' hs' => ?_) hread
  have hlt := Json.depth_lt_of_mem_arr (List.mem_map_of_mem (f := ActionStep.toJson) hs)
  by_cases horder : Json.IsMachineInt s.order
  · rw [Json.reread_of_depth_le _ (ActionStep.isWritable_toJson horder) (by omega)] at hs'
    exact ActionStep.eq_of_ofJson?_toJson hs'
  · rw [ActionStep.ofJson?_reread_eq_none horder] at hs'
    cases hs'

/-- A row is read with the times of its record, cut to the microsecond outside of the steps. -/
theorem readAs_of_read (h : row.HasTimes r) (hr : row.read = .ok v) :
    r.ReadAs .truncMicros v := by
  obtain ⟨hsteps, hdelayed, hstarted, hfinished⟩ := columns_of_read hr
  rw [h.steps] at hsteps
  rw [h.delayedUntil] at hdelayed
  rw [h.startedAt] at hstarted
  rw [h.finishedAt] at hfinished
  exact ⟨Column.eq_truncMicros_of_instant hstarted,
    eq_of_structured_steps hsteps,
    Column.eq_truncMicros_of_optionalInstant hdelayed,
    Column.eq_truncMicros_of_optionalInstant hfinished⟩

/-- What is read with other rows is read from one of them. -/
private theorem exists_of_mem_mapM_read {rows : List ExecutionRow} {found : List ExecutionRecord}
    (h : rows.mapM read = .ok found) (hv : v ∈ found) : ∃ row ∈ rows, row.read = .ok v := by
  induction rows generalizing found with
  | nil =>
    cases h
    cases hv
  | cons row rest ih =>
    rw [List.mapM_cons] at h
    cases hrow : row.read with
    | error e => simp [hrow, bind, Except.bind] at h
    | ok first =>
      cases hrest : rest.mapM read with
      | error e => simp [hrow, hrest, bind, Except.bind] at h
      | ok others =>
        rw [hrow, hrest] at h
        cases h
        rcases List.mem_cons.mp hv with rfl | hv
        · exact ⟨row, List.mem_cons_self, hrow⟩
        · obtain ⟨row', hm, hread⟩ := ih hrest hv
          exact ⟨row', List.mem_cons_of_mem row hm, hread⟩

end ExecutionRow

namespace Database

/-- Whether there is a row for a record, and every row for it has its start. -/
structure HasStart (d : Database) (r : ExecutionRecord) : Prop where
  exists_row : ∃ row ∈ d.executions, row.id = r.id
  startedAt : ∀ row ∈ d.executions, row.id = r.id → row.startedAt = Column.ofInstant r.startedAt

/-- Rows keep their starts when they are changed elsewhere only. -/
private theorem HasStart.map {d : Database} {r : ExecutionRecord} (h : d.HasStart r)
    {f : ExecutionRow → ExecutionRow}
    (hf : ∀ row, (f row).id = row.id ∧ (f row).startedAt = row.startedAt) :
    { d with executions := d.executions.map f }.HasStart r := by
  refine ⟨?_, fun row' hm hid => ?_⟩
  · obtain ⟨row, hm, hid⟩ := h.exists_row
    exact ⟨f row, List.mem_map_of_mem hm, (hf row).1.trans hid⟩
  · obtain ⟨row, hrow, rfl⟩ := List.mem_map.mp hm
    exact (hf row).2.trans (h.startedAt row hrow ((hf row).1.symm.trans hid))

instance : TimedLog Database where
  cut := .truncMicros
  isCut := Timestamp.isCut_truncMicros
  All P d := ∀ row ∈ d.executions, ∃ r, P r ∧ row.HasTimes r
  HasStart := HasStart
  hasStart_congr hid ht h := ⟨hid ▸ h.exists_row, hid ▸ ht ▸ h.startedAt⟩
  all_mono h hpq row hm :=
    have ⟨r, hr, ht⟩ := h row hm
    ⟨r, hpq r hr, ht⟩
  append {P d d' r} ho h hr := by
    obtain ⟨hfree, rfl⟩ := insertRecord_eq_ok_iff.mp (answer_eq_ok ho)
    have hnew : ExecutionRow.ofRecord r ∈ d.executions ++ [ExecutionRow.ofRecord r] :=
      List.mem_append_right _ (List.mem_singleton_self _)
    refine ⟨fun row hm => ?_, ⟨⟨_, hnew, rfl⟩, fun row hm hid => ?_⟩, fun v hv => ⟨?_, ?_⟩⟩
    · rcases List.mem_append.mp hm with hm | hm
      · exact h row hm
      · obtain rfl := List.mem_singleton.mp hm
        exact ⟨r, hr, ExecutionRow.hasTimes_ofRecord r⟩
    · rcases List.mem_append.mp hm with hm | hm
      · exact absurd hid (hfree row hm)
      · obtain rfl := List.mem_singleton.mp hm
        rfl
    · obtain ⟨row, hm, hid⟩ := hv.exists_row
      exact ⟨row, List.mem_append_left _ hm, hid⟩
    · intro row hm hid
      rcases List.mem_append.mp hm with hm | hm
      · exact hv.startedAt row hm hid
      · obtain rfl := List.mem_singleton.mp hm
        obtain ⟨row, hm, hrow⟩ := hv.exists_row
        exact absurd (hrow.trans hid.symm) (hfree row hm)
  update {P d d' r} ho h hs hr := by
    obtain ⟨_, -, -, rfl⟩ := reviseRecord_eq_ok_iff.mp (answer_eq_ok ho)
    refine ⟨fun row' hm => ?_, fun v hv => hv.map fun row => by split <;> exact ⟨rfl, rfl⟩⟩
    obtain ⟨row, hrow, rfl⟩ := List.mem_map.mp hm
    split
    · next hid => exact ⟨r, hr, ExecutionRow.hasTimes_revise (hs.startedAt row hrow hid)⟩
    · exact h row hrow
  abandon {P d d' now n} ho h hp := by
    obtain ⟨-, rfl⟩ := Prod.mk.inj (Except.ok.inj (answer_eq_ok ho))
    refine ⟨fun row' hm => ?_, fun v hv => hv.map (ExecutionRow.id_startedAt_abandon now)⟩
    obtain ⟨row, hrow, rfl⟩ := List.mem_map.mp hm
    obtain ⟨r, hr, ht⟩ := h row hrow
    exact ⟨_, hp r hr, ht.abandon now⟩
  claim ho h := by
    obtain ⟨-, rfl⟩ := Prod.mk.inj (Except.ok.inj (answer_eq_ok ho))
    exact ⟨h, fun _ hv => ⟨hv.exists_row, hv.startedAt⟩⟩
  readAs_of_recordById {P d id v} h ho := by
    obtain ⟨-, row, hrow, hread⟩ := recordById_eq_ok_iff.mp ho
    obtain ⟨r, hr, ht⟩ := h row (List.mem_of_find?_eq_some hrow)
    exact ⟨r, hr, ExecutionRow.readAs_of_read ht hread⟩
  readAs_of_queryRecords {P d q found v} h ho hv := by
    obtain ⟨row, hm, hread⟩ := ExecutionRow.exists_of_mem_mapM_read (answer_eq_ok ho) hv
    have hm := List.mem_mergeSort.mp ((q.cut_prefix _).subset hm)
    obtain ⟨r, hr, ht⟩ := h row (List.mem_of_mem_filter hm)
    exact ⟨r, hr, ExecutionRow.readAs_of_read ht hread⟩

end Database

end RuleEngine
