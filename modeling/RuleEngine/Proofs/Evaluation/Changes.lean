import RuleEngine.Proofs.Data.Equality
import RuleEngine.Proofs.Evaluation.Independence

/-!
# Conditions on changes

The two operators on changes look at both sides of an update. They pass if the field is one of the
subject's own, its values differ, and the value after the update, or the one before it, equals the
literal. A field that a side does not have is null there, whether the side says so or not. Nobody is
asked for anything. So the two operators are exchanged if the sides are, they never both pass for
one literal, and for every field that was changed there is exactly one value, up to equality, that
each of them passes for.

## Main definitions

* `Fields.valueOf`: the value of a field on a side.
* `TriggerContext.ShowsUpdate`: the values of a field before and after an update.
* `TriggerContext.swapped`: the context with the sides of its change exchanged.
* `TriggerContext.withNulls`: the context with explicit nulls on the sides of its change.

## Main results

* `Condition.passes_iff_showsUpdate`: when a condition on changes passes.
* `TriggerContext.showsUpdate_swapped`: the values of a field on sides that are exchanged.
* `Condition.evaluate_withNulls`: explicit nulls make no difference.
* `Condition.passes_changes`: the conditions on changes of every field.
-/

namespace RuleEngine

/-! ### Sides of a change -/

namespace Fields

/-- The value of a field on a side of a change, which is null if the side does not have the field.
-/
def valueOf (d : Fields) (field : String) : Value := (d.get? field).getD .null

/-- The fields with an explicit null for a name that they do not have. -/
def withNull (d : Fields) (name : String) : Fields :=
  if d.contains name then d else d.insert name .null

/-- The fields with explicit nulls for those of several names that they do not have. -/
def withNulls (names : List String) (d : Fields) : Fields := names.foldl withNull d

theorem valueOf_withNull (d : Fields) (name field : String) :
    (d.withNull name).valueOf field = d.valueOf field := by
  unfold withNull
  split
  · rfl
  · next hn =>
    rw [valueOf, valueOf, Dictionary.get?_insert]
    split
    · next hf =>
      have hnone : d.get? name = none := by simpa [Dictionary.contains] using hn
      rw [hf, hnone]
      rfl
    · rfl

/-- Explicit nulls do not change the value of any field. -/
theorem valueOf_withNulls (names : List String) (d : Fields) (field : String) :
    (d.withNulls names).valueOf field = d.valueOf field := by
  induction names generalizing d with
  | nil => rfl
  | cons name names ih => exact (ih (d.withNull name)).trans (d.valueOf_withNull name field)

end Fields

namespace ChangeNotification

/-- The change with its sides exchanged. -/
def swapped (n : ChangeNotification) : ChangeNotification :=
  { n with before := n.after, after := n.before }

/-- The change with explicit nulls for names that the sides do not have. -/
def withNulls (names names' : List String) (n : ChangeNotification) : ChangeNotification :=
  { n with
    before := n.before.map (Fields.withNulls names)
    after := n.after.map (Fields.withNulls names') }

end ChangeNotification

namespace TriggerContext

/-- The context with a function applied to its change, if it has one. -/
def mapChange (f : ChangeNotification → ChangeNotification) (c : TriggerContext) : TriggerContext :=
  match c.source with
  | .change n => { c with source := .change (f n) }
  | .schedule _ => c

/-- The context with the sides of its change exchanged. -/
def swapped (c : TriggerContext) : TriggerContext := c.mapChange .swapped

/-- The context with explicit nulls for names that the sides of its change do not have. -/
def withNulls (names names' : List String) (c : TriggerContext) : TriggerContext :=
  c.mapChange (.withNulls names names')

theorem change_mapChange (f : ChangeNotification → ChangeNotification) (c : TriggerContext) :
    (c.mapChange f).change = c.change.map f := by
  unfold mapChange
  cases hc : c.source <;> simp [change, hc]

/-- Whether a context is an update with both sides, and a field of the subject's own has a value
before it and a value after it. -/
inductive ShowsUpdate (c : TriggerContext) (field : String) : Value → Value → Prop
  | intro {n : ChangeNotification} {before after : Fields} (hc : c.change = some n)
      (hk : n.eventKind = .updated) (hb : n.before = some before) (ha : n.after = some after)
      (hf : '.' ∉ field.toList) : ShowsUpdate c field (before.valueOf field) (after.valueOf field)

variable {c : TriggerContext} {field : String} {u v u' v' : Value}

/-- A field has one value on each side. -/
theorem ShowsUpdate.unique (h : c.ShowsUpdate field u v) (h' : c.ShowsUpdate field u' v') :
    u' = u ∧ v' = v := by
  obtain ⟨hc, -, hb, ha, -⟩ := h
  obtain ⟨hc', -, hb', ha', -⟩ := h'
  cases hc.symm.trans hc'
  cases hb.symm.trans hb'
  cases ha.symm.trans ha'
  exact ⟨rfl, rfl⟩

theorem ShowsUpdate.swapped (h : c.ShowsUpdate field u v) : c.swapped.ShowsUpdate field v u := by
  cases h with
  | @intro n before after hc hk hb ha hf =>
    have hn : c.swapped.change = some n.swapped := by
      rw [TriggerContext.swapped, change_mapChange, hc, Option.map_some]
    exact .intro hn hk ha hb hf

theorem swapped_swapped (c : TriggerContext) : c.swapped.swapped = c := by
  obtain ⟨tenant, firedAt, source⟩ := c
  cases source <;> rfl

/-- If the sides are exchanged, so are the values before and after. -/
theorem showsUpdate_swapped : c.swapped.ShowsUpdate field v u ↔ c.ShowsUpdate field u v :=
  ⟨fun h => c.swapped_swapped ▸ h.swapped, fun h => h.swapped⟩

end TriggerContext

namespace Condition

open TriggerContext

variable {c : Condition} {lookup : Lookup} {context : TriggerContext} {field : String}
  {literal : Value}

/-! ### When they pass -/

/-- A condition on changes asks for nothing. -/
theorem evaluate_eq_evaluateChange (hc : c.operator.isChange = true) :
    c.evaluate lookup context = (c.evaluateChange context, []) := by
  rw [evaluate, if_pos hc]

/-- On an update with both sides, the values of a field of the subject's own are compared. -/
theorem evaluateChange_eq_judgeChange {n : ChangeNotification} {before after : Fields}
    (hc : context.change = some n) (hk : n.eventKind = .updated) (hb : n.before = some before)
    (ha : n.after = some after) (hf : '.' ∉ c.field.toList) :
    c.evaluateChange context = c.judgeChange before after := by
  obtain ⟨tenant, type, kind, id, b, a⟩ := n
  subst hk hb ha
  simp [evaluateChange, hc, hf]

/-- A condition on changes passes on updates with both sides only, and for fields of the subject's
own. -/
theorem exists_of_passed_evaluateChange (h : (c.evaluateChange context).passed = true) :
    ∃ n before after, context.change = some n ∧ n.eventKind = .updated ∧ n.before = some before ∧
      n.after = some after ∧ '.' ∉ c.field.toList := by
  unfold evaluateChange at h
  split at h
  · next tenant type id b a hc =>
    split at h
    · next before after =>
      split at h
      · cases h
      · next hf => exact ⟨_, before, after, hc, rfl, rfl, rfl, by simpa using hf⟩
    · cases h
  · cases h

/-- A condition on changes passes if the values of its field differ, and the value on the side of
its operator equals the literal. -/
theorem passes_iff_showsUpdate (hc : c.operator.isChange = true) :
    c.Passes lookup context ↔ ∃ u v, context.ShowsUpdate c.field u v ∧ u.equal v = false ∧
      (if c.operator = .changedFrom then u else v).equal c.value = true := by
  have hjudge (before after : Fields) : (c.judgeChange before after).passed = true ↔
      (before.valueOf c.field).equal (after.valueOf c.field) = false ∧
        (if c.operator = .changedFrom then before.valueOf c.field
          else after.valueOf c.field).equal c.value = true := by
    simp [judgeChange, Fields.valueOf]
  rw [Passes, evaluate_eq_evaluateChange hc]
  constructor
  · intro h
    obtain ⟨n, before, after, hn, hk, hb, ha, hf⟩ := exists_of_passed_evaluateChange h
    rw [evaluateChange_eq_judgeChange hn hk hb ha hf] at h
    exact ⟨_, _, .intro hn hk hb ha hf, (hjudge before after).mp h⟩
  · rintro ⟨_, _, ⟨hn, hk, hb, ha, hf⟩, h⟩
    rw [evaluateChange_eq_judgeChange hn hk hb ha hf]
    exact (hjudge _ _).mpr h

theorem passes_changedTo_iff : Passes ⟨field, .changedTo, literal⟩ lookup context ↔
    ∃ u v, context.ShowsUpdate field u v ∧ u.equal v = false ∧ v.equal literal = true :=
  passes_iff_showsUpdate rfl

theorem passes_changedFrom_iff : Passes ⟨field, .changedFrom, literal⟩ lookup context ↔
    ∃ u v, context.ShowsUpdate field u v ∧ u.equal v = false ∧ u.equal literal = true :=
  passes_iff_showsUpdate rfl

/-! ### What follows -/

/-- Explicit nulls make no difference to a condition on changes. -/
theorem evaluate_withNulls (hc : c.operator.isChange = true) (names names' : List String) :
    c.evaluate lookup (context.withNulls names names') = c.evaluate lookup context := by
  have hjudge (before after : Fields) :
      c.judgeChange (before.withNulls names) (after.withNulls names') =
        c.judgeChange before after := by
    have hbefore := before.valueOf_withNulls names c.field
    have hafter := after.valueOf_withNulls names' c.field
    rw [Fields.valueOf, Fields.valueOf] at hbefore hafter
    rw [judgeChange, judgeChange, hbefore, hafter]
  rw [evaluate_eq_evaluateChange hc, evaluate_eq_evaluateChange hc]
  congr 1
  unfold evaluateChange
  rw [withNulls, change_mapChange]
  cases context.change with
  | none => rfl
  | some n =>
    obtain ⟨tenant, type, kind, id, before, after⟩ := n
    cases kind <;> cases before <;> cases after <;>
      simp [ChangeNotification.withNulls, hjudge]

/-- If the sides are exchanged, so are the operators. -/
theorem passes_swapped (lookup : Lookup) (context : TriggerContext) (field : String)
    (literal : Value) : Passes ⟨field, .changedTo, literal⟩ lookup context.swapped ↔
      Passes ⟨field, .changedFrom, literal⟩ lookup context := by
  rw [passes_changedTo_iff, passes_changedFrom_iff]
  constructor
  · rintro ⟨v, u, h, hne, hl⟩
    exact ⟨u, v, showsUpdate_swapped.mp h, by rwa [Value.equal_comm], hl⟩
  · rintro ⟨u, v, h, hne, hl⟩
    exact ⟨v, u, showsUpdate_swapped.mpr h, by rwa [Value.equal_comm], hl⟩

/-- The two operators do not both pass for one literal, which would be equal to values that
differ. -/
theorem not_passes_both : ¬(Passes ⟨field, .changedTo, literal⟩ lookup context ∧
    Passes ⟨field, .changedFrom, literal⟩ lookup context) := by
  rw [passes_changedTo_iff, passes_changedFrom_iff]
  rintro ⟨⟨u, v, h, hne, hv⟩, u', v', h', -, hu⟩
  obtain ⟨rfl, rfl⟩ := h.unique h'
  have hequal : u'.equal v' = true := Value.equal_trans hu (v'.equal_comm literal ▸ hv)
  exact Bool.false_ne_true (hne.symm.trans hequal)

/-- For a field whose values differ, each operator passes for the values that are equal to the one
on its side. -/
theorem passes_iff_equal {u v : Value} (h : context.ShowsUpdate field u v)
    (hne : u.equal v = false) (literal : Value) :
    (Passes ⟨field, .changedTo, literal⟩ lookup context ↔ v.equal literal = true) ∧
      (Passes ⟨field, .changedFrom, literal⟩ lookup context ↔ u.equal literal = true) := by
  rw [passes_changedTo_iff, passes_changedFrom_iff]
  refine ⟨⟨?_, fun hl => ⟨u, v, h, hne, hl⟩⟩, ⟨?_, fun hl => ⟨u, v, h, hne, hl⟩⟩⟩
  · rintro ⟨u', v', h', -, hl⟩
    exact (h.unique h').2 ▸ hl
  · rintro ⟨u', v', h', -, hl⟩
    exact (h.unique h').1 ▸ hl

/-- The conditions on changes of every field, in every context and with every lookup. They pass if
and only if the context is an update with both sides, the field is one of the subject's own, its
values differ, and the value after the update, or the one before it, equals the literal. They ask
for nothing. If the sides are exchanged, so are the operators. The two do not both pass for one
literal. Explicit nulls for fields that a side does not have make no difference. If the values of a
field differ, each operator passes for one value, and for those that are equal to it only. -/
theorem passes_changes (lookup : Lookup) (context : TriggerContext) (field : String) :
    (∀ literal, (Passes ⟨field, .changedTo, literal⟩ lookup context ↔
        ∃ u v, context.ShowsUpdate field u v ∧ u.equal v = false ∧ v.equal literal = true) ∧
      (Passes ⟨field, .changedFrom, literal⟩ lookup context ↔
        ∃ u v, context.ShowsUpdate field u v ∧ u.equal v = false ∧ u.equal literal = true)) ∧
    (∀ op literal, op.isChange = true → (evaluate lookup context ⟨field, op, literal⟩).2 = []) ∧
    (∀ literal, (Passes ⟨field, .changedTo, literal⟩ lookup context.swapped ↔
        Passes ⟨field, .changedFrom, literal⟩ lookup context) ∧
      (Passes ⟨field, .changedFrom, literal⟩ lookup context.swapped ↔
        Passes ⟨field, .changedTo, literal⟩ lookup context)) ∧
    (∀ literal, ¬(Passes ⟨field, .changedTo, literal⟩ lookup context ∧
      Passes ⟨field, .changedFrom, literal⟩ lookup context)) ∧
    (∀ op literal names names', op.isChange = true →
      evaluate lookup (context.withNulls names names') ⟨field, op, literal⟩ =
        evaluate lookup context ⟨field, op, literal⟩) ∧
    ∀ u v, context.ShowsUpdate field u v → u.equal v = false → ∀ op, op.isChange = true →
      ∃ value, Passes ⟨field, op, value⟩ lookup context ∧
        ∀ literal, Passes ⟨field, op, literal⟩ lookup context ↔ literal.equal value = true := by
  refine ⟨fun literal => ⟨passes_changedTo_iff, passes_changedFrom_iff⟩, fun op literal hop => ?_,
    fun literal => ⟨passes_swapped .., ?_⟩, fun literal => not_passes_both,
    fun op literal names names' hop => evaluate_withNulls hop names names', ?_⟩
  · rw [evaluate_eq_evaluateChange hop]
  · rw [← passes_swapped, swapped_swapped]
  · intro u v h hne op hop
    have hequal (literal : Value) :
        (Passes ⟨field, .changedTo, literal⟩ lookup context ↔ v.equal literal = true) ∧
          (Passes ⟨field, .changedFrom, literal⟩ lookup context ↔ u.equal literal = true) :=
      passes_iff_equal h hne literal
    cases op with
    | changedTo =>
      refine ⟨v, (hequal v).1.mpr v.equal_refl, fun literal => ?_⟩
      rw [(hequal literal).1, v.equal_comm]
    | changedFrom =>
      refine ⟨u, (hequal u).2.mpr u.equal_refl, fun literal => ?_⟩
      rw [(hequal literal).2, u.equal_comm]
    | _ => cases hop

end Condition

namespace Sample

/-- The report of an order that was shipped with a coupon, of which it had none before. -/
def shippedOrder : ChangeNotification :=
  ⟨"acme", "order", .updated, "17", some (Dictionary.empty.insert "status" (.string "packed")),
    some ((Dictionary.empty.insert "status" (.string "shipped")).insert "coupon"
      (.string "SPRING"))⟩

/-- The coupon of the order is null before the change. -/
theorem showsUpdate_coupon :
    (TriggerContext.ofChange shippedOrder .epoch).ShowsUpdate "coupon" .null (.string "SPRING") :=
  .intro (n := shippedOrder) rfl rfl rfl rfl (by decide)

end Sample

/-- The coupon of the order changed from null, and the coupon that it changed to is the only one
that the condition on it passes for. -/
theorem Condition.passes_changes_coupon :
    Passes ⟨"coupon", .changedFrom, .null⟩ .detached (.ofChange Sample.shippedOrder .epoch) ∧
    ∀ literal, Passes ⟨"coupon", .changedTo, literal⟩ .detached
      (.ofChange Sample.shippedOrder .epoch) ↔ literal.equal (.string "SPRING") = true := by
  obtain ⟨hpasses, -, -, -, -, hunique⟩ :=
    passes_changes .detached (.ofChange Sample.shippedOrder .epoch) "coupon"
  have hne : Value.equal .null (.string "SPRING") = false := rfl
  refine ⟨(hpasses .null).2.mpr ⟨_, _, Sample.showsUpdate_coupon, hne, rfl⟩, fun literal => ?_⟩
  obtain ⟨value, hvalue, honly⟩ := hunique _ _ Sample.showsUpdate_coupon hne .changedTo rfl
  obtain ⟨u, v, h, -, hv⟩ := (hpasses value).1.mp hvalue
  obtain ⟨rfl, rfl⟩ := h.unique Sample.showsUpdate_coupon
  rw [honly, literal.equal_comm, ← Value.equal_congr hv, Value.equal_comm]

end RuleEngine
