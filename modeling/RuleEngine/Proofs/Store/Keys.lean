import Mathlib.Data.List.Nodup
import RuleEngine.Proofs.Live.Change
import RuleEngine.Proofs.Store.RuleRow
import RuleEngine.Store.Database

/-!
# The keys of a database

A database tells its rules apart by their identifiers, and the rules of a tenant by their names; it
tells its records apart by their identifiers. Every call that is answered keeps this, whichever rule
or record it writes, so that it holds in every database that calls have made of an empty one.

## Main definitions

* `Database.IsKeyed`: rows with distinct keys, in an open database.
* `Database.Reachable`: what calls can make of an empty database.

## Main results

* `Database.Reachable.isKeyed`: the rows of a database that can be reached have distinct keys.
-/

namespace RuleEngine

namespace Database

variable {d d' : Database}

/-- Whether an open database has distinct identifiers, and distinct names for each tenant. -/
structure IsKeyed (d : Database) : Prop where
  isOpen : d.isOpen = true
  ids : (d.rules.map RuleRow.id).Nodup
  names : (d.rules.map fun row => (row.tenant, row.name)).Nodup
  records : (d.executions.map ExecutionRow.id).Nodup

namespace IsKeyed

theorem answer_eq {α : Type} (h : d.IsKeyed) (a : Except EngineError α) : d.answer a = a :=
  if_pos h.isOpen

/-- A row is found under its identifier. -/
theorem row?_eq_some_iff (h : d.IsKeyed) {id : RuleId} {row : RuleRow} :
    d.row? id = some row ↔ row ∈ d.rules ∧ row.id = id :=
  find?_key_eq_some_iff h.ids

/-- The row of a record is found under its identifier. -/
theorem executionRow?_eq_some_iff (h : d.IsKeyed) {id : ExecutionId} {row : ExecutionRow} :
    d.executionRow? id = some row ↔ row ∈ d.executions ∧ row.id = id :=
  find?_key_eq_some_iff h.records

/-- Two rows with one identifier are one row. -/
theorem eq_of_id_eq (h : d.IsKeyed) {a b : RuleRow} (ha : a ∈ d.rules) (hb : b ∈ d.rules)
    (hid : a.id = b.id) : a = b :=
  List.inj_on_of_nodup_map h.ids ha hb hid

/-- Two rows of a tenant with one name are one row. -/
theorem eq_of_name_eq (h : d.IsKeyed) {a b : RuleRow} (ha : a ∈ d.rules) (hb : b ∈ d.rules)
    (ht : a.tenant = b.tenant) (hn : a.name = b.name) : a = b :=
  List.inj_on_of_nodup_map h.names ha hb (Prod.ext ht hn)

/-- To change rows in place, with their identifiers, tenants and names, keeps the keys. -/
private theorem map_rules (h : d.IsKeyed) {f : RuleRow → RuleRow} (hid : ∀ row, (f row).id = row.id)
    (hname : ((d.rules.map f).map fun row => (row.tenant, row.name)).Nodup) :
    { d with rules := d.rules.map f }.IsKeyed := by
  refine ⟨h.isOpen, ?_, hname, h.records⟩
  rw [map_key_map hid]
  exact h.ids

theorem insertRule (h : d.IsKeyed) {r : Rule} (hw : d.insertRule r = .ok d') : d'.IsKeyed := by
  obtain ⟨hfree, rfl⟩ := insertRule_eq_ok_iff.mp hw
  refine ⟨h.isOpen, ?_, ?_, h.records⟩
  · rw [List.map_append, List.map_singleton, ← List.concat_eq_append]
    refine h.ids.concat fun hm => ?_
    obtain ⟨row, hm, hid⟩ := List.mem_map.mp hm
    exact (hfree row hm).1 hid
  · rw [List.map_append, List.map_singleton, ← List.concat_eq_append]
    refine h.names.concat fun hm => ?_
    obtain ⟨row, hm, hname⟩ := List.mem_map.mp hm
    exact (hfree row hm).2 (Prod.mk.inj hname)

theorem replaceRule (h : d.IsKeyed) {r : Rule} (hw : d.replaceRule r = .ok d') : d'.IsKeyed := by
  obtain ⟨-, hfree, rfl⟩ := replaceRule_eq_ok_iff.mp hw
  refine h.map_rules (RuleRow.id_replaced r) ?_
  rw [List.map_map]
  refine (List.Nodup.of_map _ h.ids).map_on fun a ha b hb hab => ?_
  simp only [Function.comp] at hab
  by_cases hia : a.id = r.id <;> by_cases hib : b.id = r.id
  · exact h.eq_of_id_eq ha hb (hia.trans hib.symm)
  · rw [RuleRow.replaced_of_eq hia, RuleRow.replaced_of_ne hib] at hab
    exact absurd (Prod.mk.inj hab.symm) (hfree b hb hib)
  · rw [RuleRow.replaced_of_ne hia, RuleRow.replaced_of_eq hib] at hab
    exact absurd (Prod.mk.inj hab) (hfree a ha hia)
  · rw [RuleRow.replaced_of_ne hia, RuleRow.replaced_of_ne hib] at hab
    exact h.eq_of_name_eq ha hb (Prod.mk.inj hab).1 (Prod.mk.inj hab).2

theorem filter_rules (h : d.IsKeyed) (p : RuleRow → Bool) :
    { d with rules := d.rules.filter p }.IsKeyed :=
  ⟨h.isOpen, (List.filter_sublist.map _).nodup h.ids, (List.filter_sublist.map _).nodup h.names,
    h.records⟩

theorem claim (h : d.IsKeyed) (id : RuleId) (tick : Timestamp) : (d.claim id tick).2.IsKeyed := by
  refine h.map_rules (fun row => by split <;> rfl) ?_
  rw [map_key_map]
  · exact h.names
  · intro row
    split <;> rfl

theorem insertRecord (h : d.IsKeyed) {r : ExecutionRecord} (hw : d.insertRecord r = .ok d') :
    d'.IsKeyed := by
  obtain ⟨hfree, rfl⟩ := insertRecord_eq_ok_iff.mp hw
  refine ⟨h.isOpen, h.ids, h.names, ?_⟩
  rw [List.map_append, List.map_singleton, ← List.concat_eq_append]
  refine h.records.concat fun hm => ?_
  obtain ⟨row, hm, hid⟩ := List.mem_map.mp hm
  exact hfree row hm hid

/-- To change records in place, with their identifiers, keeps the keys. -/
theorem map_executions (h : d.IsKeyed) {f : ExecutionRow → ExecutionRow}
    (hid : ∀ row, (f row).id = row.id) :
    { d with executions := d.executions.map f }.IsKeyed := by
  refine ⟨h.isOpen, h.ids, h.names, ?_⟩
  rw [map_key_map hid]
  exact h.records

theorem reviseRecord (h : d.IsKeyed) {r : ExecutionRecord} (hw : d.reviseRecord r = .ok d') :
    d'.IsKeyed := by
  obtain ⟨-, -, -, rfl⟩ := reviseRecord_eq_ok_iff.mp hw
  exact h.map_executions fun row => by split <;> rfl

theorem abandon (h : d.IsKeyed) (now : Timestamp) :
    { d with executions := d.executions.map (ExecutionRow.abandon now) }.IsKeyed := by
  refine h.map_executions fun row => ?_
  unfold ExecutionRow.abandon
  split <;> rfl

end IsKeyed

/-! ### Reachable databases -/

/-- What calls that are answered can make of an empty database. -/
inductive Reachable : Database → Prop
  | empty : Reachable {}
  | createRule {d d' : Database} (h : Reachable d) (r : Rule)
      (hw : RuleStore.createRule d r = .ok d') : Reachable d'
  | updateRule {d d' : Database} (h : Reachable d) (r : Rule)
      (hw : RuleStore.updateRule d r = .ok d') : Reachable d'
  | deleteRule {d d' : Database} (h : Reachable d) (id : RuleId)
      (hw : RuleStore.deleteRule d id = .ok d') : Reachable d'
  | claimTick {d d' : Database} (h : Reachable d) (id : RuleId) (tick : Timestamp) (b : Bool)
      (hw : RuleStore.claimTick d id tick = .ok (b, d')) : Reachable d'
  | appendRecord {d d' : Database} (h : Reachable d) (r : ExecutionRecord)
      (hw : ExecutionLog.appendRecord d r = .ok d') : Reachable d'
  | updateRecord {d d' : Database} (h : Reachable d) (r : ExecutionRecord)
      (hw : ExecutionLog.updateRecord d r = .ok d') : Reachable d'
  | abandonOpen {d d' : Database} (h : Reachable d) (now : Timestamp) (n : Nat)
      (hw : ExecutionLog.abandonOpen d now = .ok (n, d')) : Reachable d'

/-- The rows of a database that can be reached have distinct keys. -/
theorem Reachable.isKeyed (h : d.Reachable) : d.IsKeyed := by
  induction h with
  | empty => exact ⟨rfl, List.nodup_nil, List.nodup_nil, List.nodup_nil⟩
  | createRule _ r hw ih => exact ih.insertRule (answer_eq_ok hw)
  | updateRule _ r hw ih => exact ih.replaceRule (answer_eq_ok hw)
  | deleteRule _ id hw ih =>
    cases answer_eq_ok hw
    exact ih.filter_rules _
  | claimTick _ id tick b hw ih =>
    cases answer_eq_ok hw
    exact ih.claim id tick
  | appendRecord _ r hw ih => exact ih.insertRecord (answer_eq_ok hw)
  | updateRecord _ r hw ih => exact ih.reviseRecord (answer_eq_ok hw)
  | abandonOpen _ now n hw ih =>
    cases answer_eq_ok hw
    exact ih.abandon now

/-- A step of a firing leads to a database that can be reached. -/
theorem Reachable.stepFiring (h : d.Reachable) (f : Firing) (fresh : ExecutionId)
    (now : Timestamp) (q : JobQueue) : (f.step fresh now d q).2.1.Reachable := by
  have ht := f.turn_step fresh now d q
  generalize (f.step fresh now d q).1 = p at ht
  generalize (f.step fresh now d q).2.1 = s at ht
  generalize (f.step fresh now d q).2.2 = q' at ht
  cases ht with
  | submitted | dropped => exact h
  | appended rule context now _ _ ho => exact h.appendRecord _ ho
  | passed _ ho =>
    rcases ho with rfl | ⟨id, tick, b, ho⟩
    · exact h
    · exact h.claimTick id tick b ho

end Database

end RuleEngine
