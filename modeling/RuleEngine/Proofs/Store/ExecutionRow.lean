import RuleEngine.Proofs.Data.Execution
import RuleEngine.Proofs.Store.RuleRow

/-!
# Execution records in a database

A record is read back from its row with its three times cut to the microsecond and all else as it
was, if its structured columns are not nested too deep and its years have four digits. A new version
of a record touches some columns only, and what it leaves alone is what stays the same in the course
of an execution; so the row becomes that of the new version. The row of an abandoned record is that
of a record abandoned in memory.

## Main definitions

* `ExecutionRecord.IsStorable`: the records whose columns can be read back.
* `ExecutionRecord.kept`: the record that is read back.
* `ExecutionRecord.SameOrigin`: the versions of one record.

## Main results

* `ExecutionRow.read_ofRecord`: what is read back from the row of a record.
* `ExecutionRow.revise_ofRecord`, `ExecutionRow.abandon_ofRecord`: the rows of later versions.
-/

namespace RuleEngine

/-! ### Records that can be kept -/

namespace ExecutionRecord

/-- Whether a record can be read back from its columns: its years have four digits, the orders of
its steps fit 32 bits, and its lists are not nested too deep. -/
structure IsStorable (r : ExecutionRecord) : Prop where
  tick : ∀ t, r.trigger = .schedule t → t.HasFourDigitYear
  conditions : (Json.arr (r.conditions.map ConditionResult.toJson)).depth ≤ Json.depthLimit
  steps : (Json.arr (r.steps.map ActionStep.toJson)).depth ≤ Json.depthLimit
  stepOrder : ∀ s ∈ r.steps, s.order < wordBound
  stepTimes : ∀ s ∈ r.steps, s.startedAt.HasFourDigitYear ∧ s.finishedAt.HasFourDigitYear
  delayedUntil : ∀ t, r.delayedUntil = some t → t.HasFourDigitYear
  startedAt : r.startedAt.HasFourDigitYear
  finishedAt : ∀ t, r.finishedAt = some t → t.HasFourDigitYear

/-- The record as it is read back. -/
def kept (r : ExecutionRecord) : ExecutionRecord :=
  { r with
    delayedUntil := r.delayedUntil.map Timestamp.truncMicros
    startedAt := r.startedAt.truncMicros
    finishedAt := r.finishedAt.map Timestamp.truncMicros }

/-- Whether two records agree in what stays the same in the course of an execution. -/
structure SameOrigin (r r' : ExecutionRecord) : Prop where
  id : r.id = r'.id
  tenant : r.tenant = r'.tenant
  ruleId : r.ruleId = r'.ruleId
  ruleName : r.ruleName = r'.ruleName
  triggerKind : r.triggerKind = r'.triggerKind
  trigger : r.trigger = r'.trigger
  startedAt : r.startedAt = r'.startedAt

variable {r r' r'' : ExecutionRecord}

theorem SameOrigin.refl (r : ExecutionRecord) : r.SameOrigin r :=
  ⟨rfl, rfl, rfl, rfl, rfl, rfl, rfl⟩

theorem SameOrigin.symm (h : r.SameOrigin r') : r'.SameOrigin r :=
  ⟨h.id.symm, h.tenant.symm, h.ruleId.symm, h.ruleName.symm, h.triggerKind.symm, h.trigger.symm,
    h.startedAt.symm⟩

theorem SameOrigin.trans (h : r.SameOrigin r') (h' : r'.SameOrigin r'') : r.SameOrigin r'' :=
  ⟨h.id.trans h'.id, h.tenant.trans h'.tenant, h.ruleId.trans h'.ruleId,
    h.ruleName.trans h'.ruleName, h.triggerKind.trans h'.triggerKind, h.trigger.trans h'.trigger,
    h.startedAt.trans h'.startedAt⟩

/-! ### Abandoned records -/

variable {now : Timestamp}

/-- A record that has ended is not abandoned. -/
theorem abandon_of_isTerminal (h : r.isTerminal) : MemoryStore.abandon now r = r := by
  have hs : r.status.allows .abandoned = false := by
    rw [isTerminal] at h
    rw [ExecutionStatus.allows, h]
    rfl
  rw [MemoryStore.abandon, transition_eq, hs]
  rfl

/-- A record that has not ended is abandoned. -/
theorem transition_abandoned (h : ¬ r.isTerminal) : r.transition .abandoned now =
    .ok { r with status := .abandoned, finishedAt := some now, delayedUntil := none } := by
  have hs : r.status.allows .abandoned = true := by
    rw [Bool.not_eq_true, isTerminal] at h
    rw [ExecutionStatus.allows, h]
    rfl
  rw [transition_eq, hs]
  rfl

theorem abandon_of_not_isTerminal (h : ¬ r.isTerminal) : MemoryStore.abandon now r =
    { r with status := .abandoned, finishedAt := some now, delayedUntil := none } := by
  rw [MemoryStore.abandon, transition_abandoned h]

theorem isTerminal_abandon : (MemoryStore.abandon now r).isTerminal := by
  by_cases h : r.isTerminal
  · rw [abandon_of_isTerminal h]
    exact h
  · rw [abandon_of_not_isTerminal h]
    rfl

theorem sameOrigin_abandon : (MemoryStore.abandon now r).SameOrigin r := by
  by_cases h : r.isTerminal
  · rw [abandon_of_isTerminal h]
    exact .refl r
  · rw [abandon_of_not_isTerminal h]
    exact ⟨rfl, rfl, rfl, rfl, rfl, rfl, rfl⟩

theorem IsStorable.abandon (h : r.IsStorable) (hn : now.HasFourDigitYear) :
    (MemoryStore.abandon now r).IsStorable := by
  by_cases ht : r.isTerminal
  · rw [abandon_of_isTerminal ht]
    exact h
  · rw [abandon_of_not_isTerminal ht]
    refine ⟨h.tick, h.conditions, h.steps, h.stepOrder, h.stepTimes, ?_, h.startedAt, ?_⟩
    · intro t ht
      cases ht
    · intro t ht
      cases ht
      exact hn

end ExecutionRecord

/-! ### Rows -/

theorem TriggerSnapshot.depth_toJson (t : TriggerSnapshot) :
    t.toJson.depth ≤ Json.depthLimit := by
  cases t <;> simp [toJson, Timestamp.toJson, Json.depth, Json.membersDepth, Json.depthLimit]

namespace ExecutionRow

variable {r r' : ExecutionRecord} {now : Timestamp}

/-- A record that can be kept is read back from its row. -/
theorem read_ofRecord (h : r.IsStorable) : (ofRecord r).read = .ok r.kept := by
  have ht := (Column.structured_ofJson_eq_ok_iff r.trigger.isWritable_toJson).mpr
    ⟨r.trigger.depth_toJson, r.trigger.ofJson?_toJson⟩
  have hc := Column.structured_list h.conditions (fun c _ => c.isWritable_toJson)
    fun c _ => c.ofJson?_toJson
  have hs := Column.structured_list h.steps
    (fun s hm => ActionStep.isWritable_toJson (Json.isMachineInt_of_lt (h.stepOrder s hm)))
    fun s hm => ActionStep.ofJson?_toJson (h.stepOrder s hm)
  have hk := Column.tag_eq_ok_iff.mpr r.triggerKind.lookup_name
  have hn := Column.tag_eq_ok_iff.mpr r.status.lookup_name
  have hd := Column.optionalInstant_map h.delayedUntil
  have hi := Column.instant_ofInstant h.startedAt
  have hf := Column.optionalInstant_map h.finishedAt
  unfold read
  simp only [ofRecord, ht, hc, hs, hk, hn, hd, hi, hf]
  rfl

/-- The row of a record becomes that of a new version. -/
theorem revise_ofRecord (h : r'.SameOrigin r) : (ofRecord r).revise r' = ofRecord r' := by
  obtain ⟨hid, htenant, hruleId, hruleName, hkind, htrigger, hstart⟩ := h
  rw [ofRecord, ofRecord, revise, hid, htenant, hruleId, hruleName, hkind, htrigger, hstart]

/-- The row of a record is abandoned as the record is. -/
theorem abandon_ofRecord :
    (ofRecord r).abandon now = ofRecord (MemoryStore.abandon now r) := by
  rw [abandon, isOpen_ofRecord]
  by_cases h : r.isTerminal
  · rw [ExecutionRecord.abandon_of_isTerminal h, h]
    rfl
  · rw [ExecutionRecord.abandon_of_not_isTerminal h, eq_false_of_ne_true h]
    rfl

end ExecutionRow

end RuleEngine
