import Mathlib.Data.List.Nodup
import RuleEngine.Store.Database

/-!
# The tables of a database

The rows of a table are told apart by their identifiers. Each call that writes a row is described
once here: what it asks of the rows that are there, what the table is afterwards, and what is then
found under an identifier. Nothing else depends on how a call goes about it. Kinds and statuses are
told apart by their names, and the statuses in which rows are not written to are the final ones.

## Main definitions

* `RuleRow.replaced`: a row after a rule has replaced the one under its identifier.
* `Database.row?`, `Database.executionRow?`: the row of a rule and the row of a record.

## Main results

* `find?_key_eq_some_iff`: items with distinct keys are found by their keys.
* `ExecutionStatus.contains_closedTags`: the names that the statements list are those of the final
  statuses.
* `Database.insertRule_eq_ok_iff`, `Database.replaceRule_eq_ok_iff`,
  `Database.insertRecord_eq_ok_iff`, `Database.reviseRecord_eq_ok_iff`: the calls that are answered.
* `Database.executionRow?_insertRecord`, `Database.executionRow?_reviseRecord`: the rows of records
  after a call.
-/

namespace RuleEngine

/-! ### Names -/

theorem Column.tag_eq_ok_iff {α : Type} {names : List (String × α)} {text : String} {a : α} :
    tag names text = .ok a ↔ names.lookup text = some a := by
  unfold tag
  cases names.lookup text <;> simp

theorem Combination.lookup_name (c : Combination) : names.lookup c.name = some c := by
  cases c <;> rfl

theorem TriggerKind.lookup_name (k : TriggerKind) : names.lookup k.name = some k := by
  cases k <;> rfl

theorem ExecutionStatus.lookup_name (s : ExecutionStatus) : names.lookup s.name = some s := by
  cases s <;> rfl

theorem TriggerKind.name_inj {a b : TriggerKind} : a.name = b.name ↔ a = b := by
  refine ⟨fun h => Option.some.inj ?_, congrArg name⟩
  rw [← lookup_name a, h, lookup_name]

theorem ExecutionStatus.name_inj {a b : ExecutionStatus} : a.name = b.name ↔ a = b := by
  refine ⟨fun h => Option.some.inj ?_, congrArg name⟩
  rw [← lookup_name a, h, lookup_name]

/-- The statuses in which rows are not written to are the final ones. -/
theorem ExecutionStatus.contains_closedTags (s : ExecutionStatus) :
    ExecutionRow.closedTags.contains s.name = s.isTerminal := by
  cases s <;> rfl

/-- A name is read as the status that has it only. -/
theorem ExecutionStatus.lookup_eq_some_iff {text : String} {s : ExecutionStatus} :
    names.lookup text = some s ↔ text = s.name := by
  constructor
  · intro h
    obtain ⟨before, after, hnames, -⟩ := List.lookup_eq_some_iff.mp h
    have hm : (text, s) ∈ names := hnames ▸ by simp
    have hall : ∀ n ∈ names, n.1 = n.2.name := by decide
    exact hall _ hm
  · rintro rfl
    exact s.lookup_name

theorem ExecutionRow.isOpen_ofRecord (r : ExecutionRecord) :
    (ofRecord r).isOpen = !r.isTerminal :=
  congrArg _ (ExecutionStatus.contains_closedTags r.status)

theorem ExecutionRow.isOpen_revise (row : ExecutionRow) (r : ExecutionRecord) :
    (row.revise r).isOpen = !r.isTerminal :=
  congrArg _ (ExecutionStatus.contains_closedTags r.status)

/-! ### Items with keys -/

section

variable {α κ : Type} [DecidableEq κ] {key : α → κ} {l : List α}

/-- Items with distinct keys are found by their keys. -/
theorem find?_key_eq_some_iff (h : (l.map key).Nodup) {k : κ} {a : α} :
    l.find? (fun b => key b = k) = some a ↔ a ∈ l ∧ key a = k := by
  constructor
  · intro hf
    exact ⟨List.mem_of_find?_eq_some hf, by simpa using List.find?_some hf⟩
  · rintro ⟨hm, rfl⟩
    cases hf : l.find? fun b => key b = key a with
    | none => exact (List.find?_eq_none.mp hf a hm (by simp)).elim
    | some b =>
      have hb : key b = key a := by simpa using List.find?_some hf
      rw [List.inj_on_of_nodup_map h (List.mem_of_find?_eq_some hf) hm hb]

omit [DecidableEq κ] in
/-- Items that are changed in place have the keys that they had, if each keeps its own. -/
theorem map_key_map {f : α → α} (hf : ∀ a, key (f a) = key a) (l : List α) :
    (l.map f).map key = l.map key := by
  rw [List.map_map]
  exact List.map_congr_left fun a _ => hf a

/-- Items that are changed in place are found where they were, if each keeps its key. -/
theorem find?_key_map {f : α → α} (hf : ∀ a, key (f a) = key a) (l : List α) (k : κ) :
    (l.map f).find? (fun b => key b = k) = (l.find? fun b => key b = k).map f := by
  have hcomp : (fun b => decide (key b = k)) ∘ f = fun b => decide (key b = k) :=
    funext fun b => by rw [Function.comp, hf]
  rw [List.find?_map, hcomp]

end

namespace RuleRow

variable {r : Rule} {row : RuleRow}

/-- A row after a rule has replaced the one under its identifier. -/
def replaced (r : Rule) (row : RuleRow) : RuleRow := if row.id = r.id then .ofRule r else row

theorem replaced_of_eq (h : row.id = r.id) : replaced r row = .ofRule r := if_pos h

theorem replaced_of_ne (h : row.id ≠ r.id) : replaced r row = row := if_neg h

theorem id_replaced (r : Rule) (row : RuleRow) : (replaced r row).id = row.id := by
  by_cases h : row.id = r.id
  · rw [replaced_of_eq h]
    exact h.symm
  · rw [replaced_of_ne h]

end RuleRow

namespace Database

variable {d d' : Database}

theorem answer_eq_ok {α : Type} {a : Except EngineError α} {x : α} (h : d.answer a = .ok x) :
    a = .ok x := by
  unfold answer at h
  split at h
  · exact h
  · cases h

theorem isOpen_of_answer {α : Type} {a : Except EngineError α} {x : α}
    (h : d.answer a = .ok x) : d.isOpen := by
  unfold answer at h
  split at h
  · assumption
  · cases h

private theorem ite_error_eq_ok_iff {α : Type} {c : Prop} [Decidable c] {e : EngineError}
    {a : Except EngineError α} {x : α} : (if c then .error e else a) = .ok x ↔ ¬c ∧ a = .ok x := by
  by_cases hc : c <;> simp [hc]

/-! ### Rows of rules -/

/-- The row of a rule. -/
def row? (d : Database) (id : RuleId) : Option RuleRow := d.rules.find? fun row => row.id == id

theorem id_of_row? {id : RuleId} {row : RuleRow} (h : d.row? id = some row) : row.id = id := by
  simpa using List.find?_some h

/-- To change rows in place, identifiers aside, changes the row that is found. -/
theorem row?_map {f : RuleRow → RuleRow} (hid : ∀ row, (f row).id = row.id) (id : RuleId) :
    { d with rules := d.rules.map f }.row? id = (d.row? id).map f :=
  find?_key_map hid d.rules id

/-- A rule is inserted unless its identifier is in use, or its name is for its tenant. -/
theorem insertRule_eq (d : Database) (r : Rule) : d.insertRule r =
    if ∃ row ∈ d.rules, row.id = r.id ∨ row.tenant = r.tenant ∧ row.name = r.name then
      .error (.conflict .rule r.name)
    else .ok { d with rules := d.rules ++ [.ofRule r] } :=
  if_congr (by simp) rfl rfl

theorem insertRule_eq_ok_iff {r : Rule} : d.insertRule r = .ok d' ↔
    (∀ row ∈ d.rules, row.id ≠ r.id ∧ ¬(row.tenant = r.tenant ∧ row.name = r.name)) ∧
      { d with rules := d.rules ++ [.ofRule r] } = d' := by
  rw [insertRule_eq, ite_error_eq_ok_iff, Except.ok.injEq]
  simp only [not_exists, not_and, not_or]

/-- A rule replaces the one under its identifier unless another rule of its tenant has its name. -/
theorem replaceRule_eq (d : Database) (r : Rule) : d.replaceRule r =
    if ∀ row ∈ d.rules, row.id ≠ r.id then .error (.notFound .rule r.id)
    else if ∃ row ∈ d.rules, row.id ≠ r.id ∧ row.tenant = r.tenant ∧ row.name = r.name then
      .error (.conflict .rule r.name)
    else .ok { d with rules := d.rules.map (RuleRow.replaced r) } :=
  if_congr (by simp) rfl (if_congr (by simp [and_assoc]) rfl rfl)

theorem replaceRule_eq_ok_iff {r : Rule} : d.replaceRule r = .ok d' ↔
    (∃ row ∈ d.rules, row.id = r.id) ∧
      (∀ row ∈ d.rules, row.id ≠ r.id → ¬(row.tenant = r.tenant ∧ row.name = r.name)) ∧
      { d with rules := d.rules.map (RuleRow.replaced r) } = d' := by
  rw [replaceRule_eq, ite_error_eq_ok_iff, ite_error_eq_ok_iff, Except.ok.injEq]
  simp only [ne_eq, not_forall, not_not, exists_prop, not_exists, not_and]

/-- A row with a free identifier is found under it when it is added. -/
theorem row?_append {r : Rule} (hn : ∀ row ∈ d.rules, row.id ≠ r.id) :
    row? { d with rules := d.rules ++ [.ofRule r] } r.id = some (.ofRule r) := by
  have hnone : d.rules.find? (fun row => row.id == r.id) = none := by
    rw [List.find?_eq_none]
    intro row hm
    simpa using hn row hm
  rw [row?, List.find?_append, hnone, Option.none_or, List.find?_singleton,
    if_pos (by simp [RuleRow.ofRule])]

/-- A row that is inserted is found under its identifier. -/
theorem row?_insertRule {r : Rule} (h : d.insertRule r = .ok d') :
    d'.row? r.id = some (.ofRule r) := by
  obtain ⟨hfree, rfl⟩ := insertRule_eq_ok_iff.mp h
  exact row?_append fun row hm => (hfree row hm).1

/-- The row of a rule that replaces another one is found under its identifier. -/
theorem row?_replaceRule {r : Rule} (h : d.replaceRule r = .ok d') :
    d'.row? r.id = some (.ofRule r) := by
  obtain ⟨⟨row, hm, hid⟩, -, rfl⟩ := replaceRule_eq_ok_iff.mp h
  rw [row?_map (RuleRow.id_replaced r)]
  cases hrow : d.row? r.id with
  | none =>
    have := List.find?_eq_none.mp hrow row hm
    simp [hid] at this
  | some row => rw [Option.map_some, RuleRow.replaced_of_eq (id_of_row? hrow)]

/-! ### Rows of records -/

/-- The row of a record. -/
def executionRow? (d : Database) (id : ExecutionId) : Option ExecutionRow :=
  d.executions.find? fun row => row.id == id

theorem id_of_executionRow? {id : ExecutionId} {row : ExecutionRow}
    (h : d.executionRow? id = some row) : row.id = id := by
  simpa using List.find?_some h

/-- To change rows in place, identifiers aside, changes the row that is found. -/
theorem executionRow?_map {f : ExecutionRow → ExecutionRow} (hid : ∀ row, (f row).id = row.id)
    (id : ExecutionId) :
    { d with executions := d.executions.map f }.executionRow? id = (d.executionRow? id).map f :=
  find?_key_map hid d.executions id

/-- A record is inserted unless its identifier is in use. -/
theorem insertRecord_eq (d : Database) (r : ExecutionRecord) : d.insertRecord r =
    if ∃ row ∈ d.executions, row.id = r.id then .error .storage
    else .ok { d with executions := d.executions ++ [.ofRecord r] } :=
  if_congr (by simp) rfl rfl

theorem insertRecord_eq_ok_iff {r : ExecutionRecord} : d.insertRecord r = .ok d' ↔
    (∀ row ∈ d.executions, row.id ≠ r.id) ∧
      { d with executions := d.executions ++ [.ofRecord r] } = d' := by
  rw [insertRecord_eq, ite_error_eq_ok_iff, Except.ok.injEq]
  simp only [not_exists, not_and, ne_eq]

/-- A row that is inserted is found under its identifier. -/
theorem executionRow?_insertRecord {r : ExecutionRecord} (h : d.insertRecord r = .ok d')
    (id : ExecutionId) :
    d'.executionRow? id = if id = r.id then some (.ofRecord r) else d.executionRow? id := by
  obtain ⟨hfree, rfl⟩ := insertRecord_eq_ok_iff.mp h
  have hrow : (ExecutionRow.ofRecord r).id = r.id := rfl
  rw [executionRow?, List.find?_append, List.find?_singleton, hrow]
  by_cases hid : id = r.id
  · subst hid
    have hnone : d.executions.find? (fun row => row.id == r.id) = none := by
      simpa [List.find?_eq_none] using hfree
    simp [hnone]
  · simp [hid, Ne.symm hid, executionRow?]

/-- A new version is written into the row of a record that has not ended. -/
theorem reviseRecord_eq_ok_iff {r : ExecutionRecord} : d.reviseRecord r = .ok d' ↔
    ∃ stored, d.executionRow? r.id = some stored ∧ stored.isOpen = true ∧
      { d with executions := d.executions.map fun row =>
        if row.id = r.id then row.revise r else row } = d' := by
  rw [reviseRecord, ← executionRow?]
  cases d.executionRow? r.id with
  | none => simp
  | some stored =>
    dsimp only
    cases hopen : stored.isOpen with
    | true => simp [hopen]
    | false =>
      cases htag : Column.tag ExecutionStatus.names stored.status <;>
        simp [hopen, bind, Except.bind, throw, throwThe, MonadExceptOf.throw]

/-- A row that is revised is found under its identifier. -/
theorem executionRow?_reviseRecord {r : ExecutionRecord} (h : d.reviseRecord r = .ok d') :
    ∃ stored, d.executionRow? r.id = some stored ∧ ∀ id,
      d'.executionRow? id = if id = r.id then some (stored.revise r) else d.executionRow? id := by
  obtain ⟨stored, hs, -, rfl⟩ := reviseRecord_eq_ok_iff.mp h
  refine ⟨stored, hs, fun id => ?_⟩
  rw [executionRow?_map fun row => by split <;> rfl]
  by_cases hid : id = r.id
  · rw [if_pos hid, hid, hs, Option.map_some, if_pos (id_of_executionRow? hs)]
  · rw [if_neg hid]
    cases hrow : d.executionRow? id with
    | none => rfl
    | some row =>
      have hne : row.id ≠ r.id := fun hr => hid ((id_of_executionRow? hrow).symm.trans hr)
      rw [Option.map_some, if_neg hne]

end Database

end RuleEngine
