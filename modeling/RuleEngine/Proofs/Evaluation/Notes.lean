import Mathlib.Data.List.Chain
import RuleEngine.Proofs.Run.Consistency

/-!
# Notes on conditions

An entry of a trace may carry a note that says why its condition could not be tested. Some notes
blame the data: a field that was not found, values that are no numbers. The others blame the
definition of the condition, and a rule with such a condition should not have been saved. Of a rule
that is accepted, evaluated on a change that fires it, one note of the second kind is left: a
condition on changes whose field is a path of several steps is accepted, and is refused whenever it
is evaluated. The numbers in values are finite.

## Main definitions

* `IsDefinitionNote`: the notes that blame the definition of a condition.

## Main results

* `Condition.validate_eq_ok_iff`, `Rule.validate_conditions`: the conditions that are accepted.
* `Rule.isDefinitionNote_iff_of_validate`: which notes a rule that is accepted leaves.
-/

namespace RuleEngine

/-! ### The conditions that are accepted -/

/-- A condition is accepted if its path is in order, its literal has the shape that the operator
needs, and the operators on changes are left to rules on updates. -/
theorem Condition.validate_eq_ok_iff {c : Condition} {trigger : Trigger} :
    c.validate trigger = .ok () ↔ c.hasEmptyPath = false ∧
      (c.operator.requiresList = true → c.value.asList.isSome = true) ∧
      c.hasNestedList = false ∧
      (c.operator.isChange = true → trigger.eventKind = some .updated) := by
  unfold validate
  cases c.hasEmptyPath <;> cases c.operator.requiresList <;> cases c.value.asList <;>
    cases c.hasNestedList <;> cases c.operator.isChange <;> simp

theorem validateConditions_eq_ok {trigger : Trigger} {conditions : List Condition}
    (h : Rule.validateConditions trigger conditions = .ok ()) :
    ∀ c ∈ conditions, c.validate trigger = .ok () := by
  induction conditions with
  | nil => simp
  | cons c rest ih =>
    rw [Rule.validateConditions] at h
    cases hc : c.validate trigger with
    | error fault =>
      rw [hc] at h
      cases h
    | ok =>
      rw [hc] at h
      exact List.forall_mem_cons.mpr ⟨hc, ih h⟩

/-- Every condition of a rule that is accepted is accepted. -/
theorem Rule.validate_conditions {r : Rule} (h : r.validate = .ok ()) :
    ∀ c ∈ r.conditions, c.validate r.trigger = .ok () := by
  unfold validate at h
  split at h
  · cases h
  · split at h
    · cases h
    · refine validateConditions_eq_ok ?_
      cases hc : validateConditions r.trigger r.conditions with
      | error fault =>
        rw [hc] at h
        cases h
      | ok => rfl

/-! ### Notes -/

/-- The remarks of the notes that blame the definition of a condition. -/
def definitionRemarks : List String :=
  ["requires a list literal", "only applies to updated events",
    "change operators only read direct fields"]

/-- Whether a note blames the definition of a condition: one of the remarks is in it. -/
def IsDefinitionNote (note : String) : Prop :=
  ∃ remark ∈ definitionRemarks, remark.toList <:+: note.toList

/-- The note on two values of which one at least is no number. -/
def mismatchNote (op : Operator) (actual literal : Value) : String :=
  "type mismatch: " ++ op.name ++ " needs numbers, got " ++ actual.kind ++ " and " ++ literal.kind

/-- The note on a path of several steps under an operator on changes. -/
def directFieldsNote : String := "change operators only read direct fields"

/-- Whether one character may come right after another in the other notes. Every definition remark
has an "r" right after an "i", or an "l" right after an "n". -/
private def Follows (a b : Char) : Prop := ¬(a = 'i' ∧ b = 'r') ∧ ¬(a = 'n' ∧ b = 'l')

private theorem not_isDefinitionNote {note : String} (h : note.toList.IsChain Follows) :
    ¬IsDefinitionNote note := by
  rintro ⟨remark, hm, hin⟩
  have hr : remark.toList.IsChain Follows := h.infix hin
  simp only [definitionRemarks, List.mem_cons, List.not_mem_nil, or_false] at hm
  rcases hm with rfl | rfl | rfl <;> simp [Follows] at hr

/-- A blank parts what is before it from what is after it. -/
private theorem isChain_append {as bs : List Char} (ha : as.IsChain Follows)
    (hb : bs.IsChain Follows) (h : as.getLast? = some ' ' ∨ bs.head? = some ' ') :
    (as ++ bs).IsChain Follows := by
  refine List.isChain_append.mpr ⟨ha, hb, fun x hx y hy => ?_⟩
  rcases h with h | h
  · obtain rfl : ' ' = x := Option.some.inj (h.symm.trans hx)
    simp [Follows]
  · obtain rfl : ' ' = y := Option.some.inj (h.symm.trans hy)
    simp [Follows]

private theorem isChain_mismatchNote (op : Operator) (actual literal : Value) :
    (mismatchNote op actual literal).toList.IsChain Follows := by
  have hop : op.name.toList.IsChain Follows := by
    cases op <;> simp [Operator.name, Follows]
  have hkind (v : Value) : v.kind.toList.IsChain Follows := by
    cases v <;> simp [Value.kind, Follows]
  have hstart : "type mismatch: ".toList.IsChain Follows := by simp [Follows]
  have hneeds : " needs numbers, got ".toList.IsChain Follows := by simp [Follows]
  have hand : " and ".toList.IsChain Follows := by simp [Follows]
  have hkinds : (actual.kind.toList ++ (" and ".toList ++ literal.kind.toList)).IsChain Follows :=
    isChain_append (hkind actual) (isChain_append hand (hkind literal) (.inl (by simp)))
      (.inr (by simp))
  have hname : (op.name.toList ++ (" needs numbers, got ".toList ++ (actual.kind.toList ++
      (" and ".toList ++ literal.kind.toList)))).IsChain Follows :=
    isChain_append hop (isChain_append hneeds hkinds (.inl (by simp))) (.inr (by simp))
  have htext : (mismatchNote op actual literal).toList = "type mismatch: ".toList ++
      (op.name.toList ++ (" needs numbers, got ".toList ++
        (actual.kind.toList ++ (" and ".toList ++ literal.kind.toList)))) := by
    unfold mismatchNote
    generalize op.name = o, actual.kind = k, literal.kind = l
    generalize "type mismatch: " = a, " needs numbers, got " = b, " and " = c
    simp only [String.toList_append, List.append_assoc]
  exact htext ▸ isChain_append hstart hname (.inl (by simp))

/-! ### The notes of the evaluation -/

/-- The notes of an operator on a value and a literal of the shape that it needs: the comparison
could be made, or wanted numbers. -/
theorem Operator.note_apply {op : Operator} {actual literal : Value}
    (hl : op.requiresList = true → literal.asList.isSome = true) :
    (op.apply actual literal).note = none ∨
      (op.apply actual literal).note = some (mismatchNote op actual literal) := by
  have hnumbers (test : Number → Number → Bool) :
      (compareNumbers op test actual literal).note = none ∨
        (compareNumbers op test actual literal).note = some (mismatchNote op actual literal) := by
    unfold compareNumbers
    split
    · exact .inl rfl
    · exact .inr rfl
  have hmember (expected : Bool) (hop : op.requiresList = true) :
      (membership op expected actual literal).note = none := by
    obtain ⟨items, hitems⟩ := Option.isSome_iff_exists.mp (hl hop)
    simp only [membership, hitems, Verdict.of]
  cases op
  case greater | greaterOrEqual | less | lessOrEqual => exact hnumbers _
  case isIn | notIn => exact .inl (hmember _ rfl)
  all_goals exact .inl rfl

/-- An ordinary condition whose literal has the shape that its operator needs leaves no note that
blames its definition, whatever its path leads to. -/
theorem Condition.not_isDefinitionNote_judge {c : Condition} {found : Option Value} {note : String}
    (hl : c.operator.requiresList = true → c.value.asList.isSome = true)
    (h : (c.judge found).note = some note) : ¬IsDefinitionNote note := by
  cases found with
  | none =>
    obtain rfl : "field not found" = note := Option.some.inj h
    exact not_isDefinitionNote (by simp [Follows])
  | some actual =>
    have hnote : (c.operator.apply actual c.value).note = some note := h
    have hcases : (c.operator.apply actual c.value).note = none ∨
        (c.operator.apply actual c.value).note = some (mismatchNote c.operator actual c.value) :=
      Operator.note_apply hl
    rcases hcases with hn | hn
    · cases hn.symm.trans hnote
    · obtain rfl := Option.some.inj (hn.symm.trans hnote)
      exact not_isDefinitionNote (isChain_mismatchNote _ _ _)

/-- On an update with both sides, a condition on changes leaves the note on paths of several steps
if its field is one, and no note otherwise. -/
theorem Condition.note_evaluateChange {c : Condition} {context : TriggerContext}
    {n : ChangeNotification} (hc : context.change = some n) (hk : n.eventKind = .updated)
    (hboth : n.before.isSome = true ∧ n.after.isSome = true) :
    (c.evaluateChange context).note =
      if '.' ∈ c.field.toList then some directFieldsNote else none := by
  obtain ⟨tenant, type, kind, id, before, after⟩ := n
  obtain ⟨before, rfl⟩ := Option.isSome_iff_exists.mp hboth.1
  obtain ⟨after, rfl⟩ := Option.isSome_iff_exists.mp hboth.2
  subst hk
  unfold evaluateChange
  rw [hc]
  by_cases hd : '.' ∈ c.field.toList
  · simp [hd, directFieldsNote]
  · simp [hd, judgeChange, untested]

theorem isDefinitionNote_directFieldsNote : IsDefinitionNote directFieldsNote :=
  ⟨directFieldsNote, by simp [definitionRemarks, directFieldsNote], List.infix_rfl⟩

/-- A condition that is accepted, evaluated on a change that fires its rule, is blamed for its
definition if and only if it is a condition on changes of a path of several steps. -/
theorem Condition.isDefinitionNote_evaluate {c : Condition} {trigger : Trigger}
    {context : TriggerContext} {n : ChangeNotification} (hv : c.validate trigger = .ok ())
    (hc : context.change = some n) (hm : trigger.matchesChange n = true)
    (hboth : n.eventKind = .updated → n.before.isSome = true ∧ n.after.isSome = true)
    (lookup : Lookup) {note : String} :
    (c.evaluate lookup context).1.note = some note ∧ IsDefinitionNote note ↔
      note = directFieldsNote ∧ c.operator.isChange = true ∧ '.' ∈ c.field.toList := by
  obtain ⟨-, hl, -, ho⟩ := validate_eq_ok_iff.mp hv
  unfold evaluate
  cases hop : c.operator.isChange with
  | false =>
    simp only [Bool.false_eq_true, if_false, false_and, and_false, iff_false, not_and]
    exact fun h => not_isDefinitionNote_judge hl h
  | true =>
    have hk : n.eventKind = .updated := by
      have hu := ho hop
      cases trigger with
      | schedule => cases hm
      | event type kind =>
        simp only [Trigger.matchesChange, Bool.and_eq_true, beq_iff_eq] at hm
        exact hm.2.symm.trans (Option.some.inj hu)
    rw [if_pos rfl, note_evaluateChange hc hk (hboth hk)]
    split
    next hd =>
      simp only [Option.some.injEq, hd, and_self, and_true]
      exact ⟨fun h => h.1.symm, fun h => ⟨h.symm, h ▸ isDefinitionNote_directFieldsNote⟩⟩
    next hd => simp [hd]

/-- Of a rule that is accepted, evaluated with any lookup on a change that fires it, an entry of the
trace blames the definition of its condition if and only if that is a condition on changes of a
path of several steps; the note is then the one on such paths. -/
theorem Rule.isDefinitionNote_iff_of_validate {r : Rule} {context : TriggerContext}
    {n : ChangeNotification} (hr : r.validate = .ok ()) (hc : context.change = some n)
    (hm : r.trigger.matchesChange n = true)
    (hboth : n.eventKind = .updated → n.before.isSome = true ∧ n.after.isSome = true)
    (lookup : Lookup) :
    ∀ entry ∈ (r.evaluate lookup context).trace, ∀ note : String,
      entry.note = some note ∧ IsDefinitionNote note ↔
        note = directFieldsNote ∧ entry.operator.isChange = true ∧ '.' ∈ entry.field.toList := by
  intro entry he note
  simp only [evaluate, List.map_map, List.mem_map, Function.comp_apply] at he
  obtain ⟨c, hcm, rfl⟩ := he
  have hcond := c.condition_evaluate lookup context
  have hop : (c.evaluate lookup context).1.operator = c.operator := congrArg (·.operator) hcond
  have hfield : (c.evaluate lookup context).1.field = c.field := congrArg (·.field) hcond
  rw [hop, hfield]
  exact Condition.isDefinitionNote_evaluate (validate_conditions hr c hcm) hc hm hboth lookup

namespace Sample

/-- The rule with a condition on changes of a field of the customer, for orders that are updated. -/
def promotion : Rule :=
  { rule with
    trigger := .event "order" .updated
    conditions := [⟨"customer.tier", .changedTo, .string "gold"⟩] }

/-- An order that was updated. -/
def updatedOrder : ChangeNotification :=
  ⟨"acme", "order", .updated, "17", some .empty, some .empty⟩

end Sample

/-- A rule is accepted although its evaluation blames the definition of its condition. -/
theorem Rule.isDefinitionNote_iff_of_validate_promotion :
    Sample.promotion.validate = .ok () ∧
    ∃ entry ∈ (Sample.promotion.evaluate .detached
      (.ofChange Sample.updatedOrder .epoch)).trace, entry.note = some directFieldsNote := by
  have hv : Sample.promotion.validate = .ok () := by decide
  refine ⟨hv, _, .head _, ?_⟩
  refine ((isDefinitionNote_iff_of_validate hv rfl (by decide) (fun _ => ⟨rfl, rfl⟩) .detached _
    (.head _) directFieldsNote).mpr ⟨rfl, rfl, ?_⟩).1
  decide

end RuleEngine
