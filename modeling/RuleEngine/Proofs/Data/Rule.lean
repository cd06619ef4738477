import RuleEngine.Proofs.Data.Value
import RuleEngine.Proofs.Text.Blank
import RuleEngine.Rule.Json

/-!
# Rules are kept by their data

The data of the parts of a rule denotes the parts: that of a trigger, whose cron expression was read
from a text, that of a condition, and that of an action, whose order fits 32 bits.

## Main definitions

* `CronExpression.IsRead`: the expressions that texts denote.

## Main results

* `CronExpression.parse_source`: the text that an expression keeps is read as the expression.
* `Trigger.ofJson?_toJson`, `Condition.ofJson?_toJson`, `Action.ofJson?_toJson`: the data of a part
  denotes the part.
-/

namespace RuleEngine

/-! ### Triggers -/

namespace CronExpression

open Cron

private theorem source_of_ofFields {source : String} {m h d mo w : List Char} {c : CronExpression}
    (hc : ofFields source m h d mo w = .ok c) : c.source = source := by
  unfold ofFields at hc
  simp only [bind, Except.bind] at hc
  repeat' split at hc
  all_goals cases hc
  rfl

/-- An expression keeps its text without the white space around it. -/
theorem source_of_parse {text : String} {c : CronExpression} (h : parse text = .ok c) :
    c.source = String.ofList (Text.trim text.toList) := by
  unfold parse at h
  simp only [bind, Except.bind] at h
  split at h
  · split at h
    · split at h
      · exact source_of_ofFields h
      · cases h
    · cases h
  · split at h
    · exact source_of_ofFields h
    · cases h

/-- The text that an expression keeps is read as the expression. -/
theorem parse_source {text : String} {c : CronExpression} (h : parse text = .ok c) :
    parse c.source = .ok c := by
  rw [source_of_parse h]
  unfold parse at h ⊢
  rw [String.toList_ofList, Text.trim_trim]
  exact h

/-- Whether some text denotes an expression. -/
def IsRead (c : CronExpression) : Prop := ∃ text, parse text = .ok c

theorem ofJson?_toJson {c : CronExpression} (h : c.IsRead) : ofJson? c.toJson = some c := by
  obtain ⟨text, h⟩ := h
  rw [ofJson?, toJson, Json.text?, Option.bind_some, parse_source h]
  rfl

theorem isRead_of_ofJson? {j : Json} {c : CronExpression} (h : ofJson? j = some c) :
    c.IsRead := by
  obtain ⟨text, -, h⟩ := Option.bind_eq_some_iff.mp h
  refine ⟨text, ?_⟩
  cases hp : parse text with
  | error fault =>
    rw [hp] at h
    cases h
  | ok c' =>
    rw [hp] at h
    cases h
    rfl

end CronExpression

theorem EventKind.ofJson?_name (access : Json.Access) (k : EventKind) :
    ofJson? access (.str k.name) = some k := by
  cases k <;> rfl

namespace Trigger

/-- The data of a trigger denotes the trigger. -/
theorem ofJson?_toJson {t : Trigger} (h : ∀ c, t = .schedule c → c.IsRead) :
    ofJson? t.toJson = some t := by
  cases t with
  | event subjectType eventKind =>
    have hk := EventKind.ofJson?_name .held eventKind
    simp [toJson, ofJson?, Json.tagged?, Json.isReadable, Json.membersReadable, Json.record?,
      Json.distinctMembers, Json.required, Json.text?, hk]
  | schedule c =>
    have hc := CronExpression.ofJson?_toJson (h c rfl)
    have hr : c.toJson.isReadable := rfl
    simp [toJson, ofJson?, Json.tagged?, Json.isReadable, Json.membersReadable, Json.record?,
      Json.distinctMembers, Json.required, hc, hr]

/-- A schedule that data denotes has an expression that was read from a text. -/
theorem isRead_of_ofJson? {j : Json} {c : CronExpression}
    (h : ofJson? j = some (.schedule c)) : c.IsRead := by
  unfold ofJson? at h
  obtain ⟨tagged, -, h⟩ := Option.bind_eq_some_iff.mp h
  split at h
  · obtain ⟨_, -, h⟩ := Option.bind_eq_some_iff.mp h
    split at h
    · obtain ⟨_, -, h⟩ := Option.bind_eq_some_iff.mp h
      obtain ⟨_, -, h⟩ := Option.bind_eq_some_iff.mp h
      cases h
    · cases h
  · obtain ⟨_, -, h⟩ := Option.bind_eq_some_iff.mp h
    split at h
    · next cron =>
      obtain ⟨c', hc, h⟩ := Option.bind_eq_some_iff.mp h
      cases h
      cases cron with
      | none => cases hc
      | some j => exact CronExpression.isRead_of_ofJson? hc
    · cases h
  · cases h

end Trigger

/-! ### Conditions and actions -/

theorem Operator.ofJson?_name (op : Operator) : ofJson? (.str op.name) = some op := by
  cases op <;> rfl

/-- The data of a condition denotes the condition. -/
theorem Condition.ofJson?_toJson (c : Condition) : ofJson? c.toJson = some c := by
  have ho := Operator.ofJson?_name c.operator
  have hv := Value.ofJson?_toJson .direct c.value
  simp [toJson, ofJson?, Json.record?, Json.distinctMembers, Json.required, Json.defaulted,
    Json.text?, ho, hv]

/-- The data of an action denotes the action. -/
theorem Action.ofJson?_toJson {a : Action} (h : a.order < wordBound) :
    ofJson? a.toJson = some a := by
  have ho : Json.natBelow? wordBound (.int a.order) = some a.order := if_pos h
  have hp := Fields.ofJson?_toJson .direct a.parameters
  simp [toJson, ofJson?, Json.record?, Json.distinctMembers, Json.required, Json.defaulted,
    Json.text?, ho, hp]

/-- The order of an action that data denotes fits 32 bits. -/
theorem Action.order_lt_of_ofJson? {j : Json} {a : Action} (h : ofJson? j = some a) :
    a.order < wordBound := by
  unfold ofJson? at h
  obtain ⟨_, -, h⟩ := Option.bind_eq_some_iff.mp h
  split at h
  · next order _ _ =>
    obtain ⟨n, hn, h⟩ := Option.bind_eq_some_iff.mp h
    obtain ⟨_, -, h⟩ := Option.bind_eq_some_iff.mp h
    obtain ⟨_, -, h⟩ := Option.bind_eq_some_iff.mp h
    cases h
    cases order with
    | none => cases hn
    | some j =>
      change Json.natBelow? wordBound j = some n at hn
      unfold Json.natBelow? at hn
      split at hn
      · split at hn
        · next hlt =>
          cases hn
          exact hlt
        · cases hn
      · cases hn
  · cases h

end RuleEngine
