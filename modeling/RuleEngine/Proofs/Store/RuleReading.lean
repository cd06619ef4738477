import Mathlib.Data.List.Forall2
import RuleEngine.Proofs.Data.Writable
import RuleEngine.Proofs.Store.Tables

/-!
# Reading the rows of rules

A row is read column by column, and what is read is the rule that the columns say. A column of data
is read as it was written, up to a depth. A row with a column that cannot be read is refused as a
fault of the storage.

## Main definitions

* `FailsAsStorage`: an answer that is refused as a fault of the storage only.
* `RuleRow.Reads`: a rule is what the columns of a row say.
* `Database.activeRows`: the rows of the active rules of a kind.

## Main results

* `Column.structured_ofJson_eq_ok_iff`: what is read from the column of data.
* `RuleRow.read_eq_ok_iff`: the rule of a row is the one that its columns say.
* `RuleRow.exists_mapM_read`, `RuleRow.mapM_read_of_unreadable`: rows are read together if each of
  them can be read, and else the storage is at fault.
-/

namespace RuleEngine

/-! ### Faults of the storage -/

/-- Whether nothing but a fault of the storage can be in the way of an answer. -/
def FailsAsStorage {α : Type} (answer : Except EngineError α) : Prop :=
  ∀ e, answer = .error e → e = .storage

namespace FailsAsStorage

variable {α β : Type}

theorem pure (a : α) : FailsAsStorage (Pure.pure a) := by
  rintro e ⟨⟩

theorem bind {x : Except EngineError α} {f : α → Except EngineError β} (hx : FailsAsStorage x)
    (hf : ∀ a, FailsAsStorage (f a)) : FailsAsStorage (x >>= f) := by
  intro e he
  cases x with
  | error e' =>
    obtain rfl : e' = e := Except.error.inj he
    exact hx e' rfl
  | ok a => exact hf a e he

end FailsAsStorage

namespace Column

variable {α : Type} {f : Json → Option α} {j : Json} {a : α}

theorem failsAsStorage_structured (f : Json → Option α) (text : Data) :
    FailsAsStorage (structured f text) := by
  intro e h
  unfold structured at h
  split at h
  · cases h
  · exact (Except.error.inj h).symm

/-- What is read from the column of data is what the data denotes that its text is read as, if that
has a value in all its parts. -/
theorem structured_ofJson_eq_ok_iff_reread : structured f (ofJson j) = .ok a ↔
    (j.reread 0).isReadable ∧ f (j.reread 0) = some a := by
  unfold structured ofJson
  rw [Json.parse?_write, Option.filter_some]
  cases hr : (j.reread 0).isReadable with
  | false => simp
  | true => cases hf : f (j.reread 0) <;> simp [hf]

/-- Data that is nested too deep is not read from its column. -/
theorem depth_le_of_structured (h : structured f (ofJson j) = .ok a) :
    j.depth ≤ Json.depthLimit := by
  have := Json.depth_le_of_isReadable_reread (Nat.zero_le _) j
    (structured_ofJson_eq_ok_iff_reread.mp h).1
  omega

/-- Other data that a text can hold is read from its column as it was written. -/
theorem structured_ofJson_eq_ok_iff (hj : j.IsWritable) :
    structured f (ofJson j) = .ok a ↔ j.depth ≤ Json.depthLimit ∧ f j = some a := by
  refine ⟨fun h => ?_, fun ⟨hd, hf⟩ => ?_⟩
  · have hd := depth_le_of_structured h
    rw [structured_ofJson_eq_ok_iff_reread, Json.reread_of_depth_le j hj (by omega)] at h
    exact ⟨hd, h.2⟩
  · rw [structured_ofJson_eq_ok_iff_reread, Json.reread_of_depth_le j hj (by omega)]
    exact ⟨Json.IsWritable.isReadable j hj, hf⟩

theorem structured_ofJson_of_depth (hd : ¬ j.depth ≤ Json.depthLimit) :
    structured f (ofJson j) = .error .storage := by
  cases h : structured f (ofJson j) with
  | ok a => exact absurd (depth_le_of_structured h) hd
  | error e => rw [failsAsStorage_structured f (ofJson j) e h]

theorem failsAsStorage_tag {α : Type} (names : List (String × α)) (text : String) :
    FailsAsStorage (tag names text) := by
  intro e h
  unfold tag at h
  split at h
  · cases h
  · exact (Except.error.inj h).symm

theorem failsAsStorage_instant (text : String) : FailsAsStorage (instant text) := by
  intro e h
  unfold instant at h
  split at h
  · cases h
  · exact (Except.error.inj h).symm

theorem failsAsStorage_optionalInstant (column : Option String) :
    FailsAsStorage (optionalInstant column) := by
  cases column with
  | none => rintro e ⟨⟩
  | some text =>
    intro e h
    cases hi : instant text with
    | ok t => simp [optionalInstant, hi, Except.map] at h
    | error e' =>
      obtain rfl : e' = e := by simpa [optionalInstant, hi, Except.map] using h
      exact failsAsStorage_instant text e' hi

end Column

namespace RuleRow

/-- Whether a rule is what the columns of a row say. -/
structure Reads (row : RuleRow) (r : Rule) : Prop where
  id : r.id = row.id
  tenant : r.tenant = row.tenant
  name : r.name = row.name
  active : r.active = row.active
  delaySeconds : r.delaySeconds = row.delaySeconds
  trigger : Column.structured Trigger.ofJson? row.trigger = .ok r.trigger
  combination : Column.tag Combination.names row.combination = .ok r.combination
  conditions : Column.structured (Json.list? Condition.ofJson?) row.conditions = .ok r.conditions
  actions : Column.structured (Json.list? Action.ofJson?) row.actions = .ok r.actions
  lastTick : Column.optionalInstant row.lastTick = .ok r.lastTick
  createdAt : Column.instant row.createdAt = .ok r.createdAt
  updatedAt : Column.instant row.updatedAt = .ok r.updatedAt

variable {row : RuleRow} {r : Rule}

/-- The rule of a row is the one that its columns say. -/
theorem read_eq_ok_iff : row.read = .ok r ↔ row.Reads r := by
  constructor
  · intro h
    unfold read at h
    simp only [bind, Except.bind] at h
    repeat' split at h
    all_goals cases h
    exact ⟨rfl, rfl, rfl, rfl, rfl, ‹_›, ‹_›, ‹_›, ‹_›, ‹_›, ‹_›, ‹_›⟩
  · rintro ⟨hi, ht, hn, ha, hd, htrigger, hc, hconditions, hactions, hl, hcreated, hupdated⟩
    obtain ⟨id, tenant, name, trigger, combination, active, delay, conditions, actions, lastTick,
      createdAt, updatedAt⟩ := r
    simp only at hi ht hn ha hd
    subst hi ht hn ha hd
    unfold read
    simp only [htrigger, hc, hconditions, hactions, hl, hcreated, hupdated]
    rfl

/-- A row that cannot be read is a fault of the storage. -/
theorem failsAsStorage_read (row : RuleRow) : FailsAsStorage row.read :=
  (Column.failsAsStorage_structured _ _).bind fun _ =>
    (Column.failsAsStorage_tag _ _).bind fun _ =>
      (Column.failsAsStorage_structured _ _).bind fun _ =>
        (Column.failsAsStorage_structured _ _).bind fun _ =>
          (Column.failsAsStorage_optionalInstant _).bind fun _ =>
            (Column.failsAsStorage_instant _).bind fun _ =>
              (Column.failsAsStorage_instant _).bind fun _ => .pure _

/-- Rows are read one by one, each into its rule. -/
theorem mapM_read_eq_ok_iff {rows : List RuleRow} {rules : List Rule} :
    rows.mapM read = .ok rules ↔ List.Forall₂ Reads rows rules := by
  induction rows generalizing rules with
  | nil =>
    rw [List.forall₂_nil_left_iff]
    exact ⟨fun h => (Except.ok.inj h).symm, fun h => h ▸ rfl⟩
  | cons row rest ih =>
    rw [List.mapM_cons, List.forall₂_cons_left_iff]
    constructor
    · intro h
      cases hr : row.read with
      | error e => simp [hr, bind, Except.bind] at h
      | ok r =>
        cases hl : rest.mapM read with
        | error e => simp [hr, hl, bind, Except.bind] at h
        | ok l =>
          refine ⟨r, l, read_eq_ok_iff.mp hr, ih.mp hl, ?_⟩
          simpa [hr, hl, bind, Except.bind, pure, Except.pure, eq_comm] using h
    · rintro ⟨r, l, hr, hl, rfl⟩
      rw [read_eq_ok_iff.mpr hr, ih.mpr hl]
      rfl

/-- The rules that are read together are those of the rows, in the same order. -/
theorem mem_of_mapM_read {rows : List RuleRow} {rules : List Rule}
    (h : rows.mapM read = .ok rules) :
    rules.map Rule.id = rows.map RuleRow.id ∧
      ∀ r, r ∈ rules ↔ ∃ row ∈ rows, row.read = .ok r := by
  replace h := mapM_read_eq_ok_iff.mp h
  induction h with
  | nil => exact ⟨rfl, by simp⟩
  | @cons row first _ _ hfirst _ ih =>
    obtain ⟨hids, hmem⟩ := ih
    refine ⟨?_, fun r => ?_⟩
    · rw [List.map_cons, List.map_cons, hfirst.id, hids]
    · simp only [List.mem_cons, hmem, exists_eq_or_imp, read_eq_ok_iff.mpr hfirst, Except.ok.injEq]
      rw [eq_comm]

/-- Rows that can be read one by one are read together. -/
theorem exists_mapM_read {rows : List RuleRow} (h : ∀ row ∈ rows, ∃ r, row.read = .ok r) :
    ∃ rules, rows.mapM read = .ok rules := by
  induction rows with
  | nil => exact ⟨[], rfl⟩
  | cons row rest ih =>
    obtain ⟨⟨r, hr⟩, hrest⟩ := List.forall_mem_cons.mp h
    obtain ⟨rules, hrules⟩ := ih hrest
    refine ⟨r :: rules, ?_⟩
    rw [List.mapM_cons, hr, hrules]
    rfl

/-- One row that cannot be read is a fault of the storage for all of them. -/
theorem mapM_read_of_unreadable {rows : List RuleRow} (hm : row ∈ rows)
    (hr : ∀ r, row.read ≠ .ok r) : rows.mapM read = .error .storage := by
  induction rows with
  | nil => cases hm
  | cons first rest ih =>
    rw [List.mapM_cons]
    cases hf : first.read with
    | error e =>
      obtain rfl := failsAsStorage_read first e hf
      rfl
    | ok r =>
      have hne : row ≠ first := fun he => hr r (he ▸ hf)
      have hrest := ih ((List.mem_cons.mp hm).resolve_left hne)
      simp [hrest, bind, Except.bind]

end RuleRow

/-! ### Active rules -/

namespace Database

variable {d : Database}

/-- The rows of the active rules of a kind, of one tenant or of all. -/
def activeRows (d : Database) (tenant : Option TenantId) (kind : TriggerKind) : List RuleRow :=
  d.rules.filter fun row => row.active && row.triggerKind == kind.name &&
    ExecutionQuery.demand tenant (· == row.tenant)

theorem mem_activeRows {tenant : Option TenantId} {kind : TriggerKind} {row : RuleRow} :
    row ∈ d.activeRows tenant kind ↔ row ∈ d.rules ∧ row.active = true ∧ row.triggerKind = kind.name ∧
      ∀ t, tenant = some t → row.tenant = t := by
  rw [activeRows, List.mem_filter]
  cases tenant with
  | none => simp [ExecutionQuery.demand]
  | some t =>
    simp only [ExecutionQuery.demand, Bool.and_eq_true, beq_iff_eq, Option.some.injEq,
      forall_eq', and_assoc]
    rw [eq_comm (a := t)]

end Database

end RuleEngine
