import Mathlib.Logic.Basic
import RuleEngine.Proofs.Evaluation.Independence

/-!
# Complementary operators

Three operators have a complement: the test for null, equality, and membership in a list. Two
conditions on one field with complementary operators see the same value. If they can be decided,
exactly one of them passes, and otherwise none does. The tests for null can always be decided, since
a field that is not found is null. The others need a value, and membership needs a literal that is a
list. So a condition with the complement is its negation where both can be decided, and only there.
The numbers in values are finite.

## Main definitions

* `Operator.Complementary`: operators that are complements of each other.
* `Operator.Decides`: whether an operator can be decided on what a path leads to.

## Main results

* `Operator.passed_complementary`: the complement passes where the operator does not.
* `Condition.xor_passes`, `Condition.not_passes`: which of two complementary conditions pass.
* `Condition.complementary_pairs`: the complementary conditions on every field.
-/

namespace RuleEngine

namespace Operator

/-- The operators that are complements of each other. -/
inductive Complementary : Operator → Operator → Prop
  | null : Complementary .isNull .isNotNull
  | equality : Complementary .equal .notEqual
  | membership : Complementary .isIn .notIn

/-- Whether an operator with a complement can be decided, given the literal and what the path leads
to. -/
def Decides (op : Operator) (literal : Value) (found : Option Value) : Prop :=
  op = .isNull ∨ found.isSome = true ∧ (op.requiresList = true → literal.asList.isSome = true)

variable {op op' : Operator} {actual literal : Value}

/-- Neither of two complements looks at the sides of a change. -/
theorem Complementary.isChange (h : Complementary op op') :
    op.isChange = false ∧ op'.isChange = false := by
  cases h <;> exact ⟨rfl, rfl⟩

/-- Where an operator can be decided, its complement passes if and only if it does not. -/
theorem passed_complementary (h : Complementary op op')
    (hl : op.requiresList = true → literal.asList.isSome = true) :
    (op'.apply actual literal).passed = !(op.apply actual literal).passed := by
  cases h with
  | null | equality => rfl
  | membership =>
    obtain ⟨items, hitems⟩ := Option.isSome_iff_exists.mp (hl rfl)
    simp only [apply, membership, hitems, Verdict.of]
    cases Value.memberOf items actual <;> rfl

/-- Without a list, neither of two complements that need one passes. -/
theorem not_passed_of_not_list (h : Complementary op op') (hr : op.requiresList = true)
    (hl : literal.asList = none) :
    (op.apply actual literal).passed = false ∧ (op'.apply actual literal).passed = false := by
  cases h with
  | null | equality => cases hr
  | membership => simp [apply, membership, hl, Verdict.rejected]

end Operator

namespace Condition

open Operator Resolution

variable {lookup : Lookup} {context : TriggerContext} {field : String} {literal literal' : Value}
  {found : Option Value} {calls : List LookupCall} {op op' : Operator}

/-- An ordinary condition judges what its path resolves to. -/
theorem evaluate_eq_judge {c : Condition} (hc : c.operator.isChange = false)
    (h : Resolves lookup context c.field found calls) :
    c.evaluate lookup context = (c.judge found, calls) := by
  simp [evaluate, hc, h.eq_resolve]

/-- The value in the trace of an ordinary condition is the one that its path leads to. -/
theorem resolved_judge (c : Condition) (found : Option Value) :
    (c.judge found).resolved = found := by
  cases found <;> rfl

/-- Of two complementary conditions that can be decided exactly one passes. -/
theorem xor_passes (h : Complementary op op') (hr : Resolves lookup context field found calls)
    (hd : op.Decides literal found) :
    Xor (Passes ⟨field, op, literal⟩ lookup context)
      (Passes ⟨field, op', literal⟩ lookup context) := by
  rw [Passes, Passes, evaluate_eq_judge h.isChange.1 hr, evaluate_eq_judge h.isChange.2 hr]
  cases found with
  | none =>
    obtain rfl : op = .isNull := hd.resolve_right fun hn => nomatch hn.1
    cases h
    exact .inl ⟨rfl, fun hn => nomatch hn⟩
  | some actual =>
    have hl : op.requiresList = true → literal.asList.isSome = true := by
      rcases hd with rfl | ⟨-, hl⟩
      · exact fun hn => nomatch hn
      · exact hl
    have hnot : (op'.apply actual literal).passed = !(op.apply actual literal).passed :=
      passed_complementary h hl
    simp only [judge, hnot, Bool.not_eq_true', xor_iff_iff_not, Bool.not_eq_false]

/-- Of two complementary conditions that cannot be decided none passes. -/
theorem not_passes (h : Complementary op op') (hr : Resolves lookup context field found calls)
    (hd : ¬op.Decides literal found) :
    ¬Passes ⟨field, op, literal⟩ lookup context ∧ ¬Passes ⟨field, op', literal⟩ lookup context := by
  obtain ⟨hne, hnot⟩ := not_or.mp hd
  cases found with
  | none =>
    have hne' : op' ≠ .isNull := by cases h <;> decide
    exact ⟨mt (passed_of_unresolved h.isChange.1 hr).mp hne,
      mt (passed_of_unresolved h.isChange.2 hr).mp hne'⟩
  | some actual =>
    obtain ⟨hlist, hl⟩ := Classical.not_imp.mp fun himp => hnot ⟨rfl, himp⟩
    rw [Passes, Passes, evaluate_eq_judge h.isChange.1 hr, evaluate_eq_judge h.isChange.2 hr]
    have hfailed : (op.apply actual literal).passed = false ∧
        (op'.apply actual literal).passed = false :=
      not_passed_of_not_list h hlist (by simpa using hl)
    simpa [judge] using hfailed

/-- The tests for null have no use for their literal. -/
theorem passes_isNotNull_iff (literal literal' : Value) :
    Passes ⟨field, .isNotNull, literal⟩ lookup context ↔
      Passes ⟨field, .isNotNull, literal'⟩ lookup context := by
  obtain ⟨found, calls, hr⟩ : ∃ found calls, Resolves lookup context field found calls :=
    ⟨_, _, resolves_resolve lookup context field⟩
  rw [Passes, Passes, evaluate_eq_judge rfl hr, evaluate_eq_judge rfl hr]
  cases found <;> rfl

/-- The complementary conditions on every field, in every context and with every lookup. All
ordinary conditions on the field see the same value, which is the one that the path resolves to. Of
the two tests for null exactly one passes. Of equality and its complement exactly one passes if
there is a value, and of membership and its complement exactly one passes if there is a value and
the literal is a list; otherwise none of the two passes. -/
theorem complementary_pairs (lookup : Lookup) (context : TriggerContext) (field : String)
    (literal : Value) :
    ∃ found calls, Resolves lookup context field found calls ∧
      (∀ c : Condition, c.field = field → c.operator.isChange = false →
        (c.evaluate lookup context).1.resolved = found ∧ (c.evaluate lookup context).2 = calls) ∧
      (∀ literal', Xor (Passes ⟨field, .isNull, literal⟩ lookup context)
        (Passes ⟨field, .isNotNull, literal'⟩ lookup context)) ∧
      (match found with
        | some _ => Xor (Passes ⟨field, .equal, literal⟩ lookup context)
          (Passes ⟨field, .notEqual, literal⟩ lookup context)
        | none => ¬Passes ⟨field, .equal, literal⟩ lookup context ∧
          ¬Passes ⟨field, .notEqual, literal⟩ lookup context) ∧
      (match found, literal.asList with
        | some _, some _ => Xor (Passes ⟨field, .isIn, literal⟩ lookup context)
          (Passes ⟨field, .notIn, literal⟩ lookup context)
        | _, _ => ¬Passes ⟨field, .isIn, literal⟩ lookup context ∧
          ¬Passes ⟨field, .notIn, literal⟩ lookup context) := by
  have hr := resolves_resolve lookup context field
  refine ⟨_, _, hr, ?_, fun literal' => ?_, ?_, ?_⟩
  · rintro c rfl hc
    rw [evaluate_eq_judge hc hr]
    exact ⟨c.resolved_judge _, rfl⟩
  · rw [passes_isNotNull_iff literal' literal]
    exact xor_passes .null hr (.inl rfl)
  · generalize (resolve lookup context field).value = found at hr ⊢
    cases found with
    | none => exact not_passes .equality hr (by simp [Decides])
    | some actual => exact xor_passes .equality hr (.inr ⟨rfl, fun hn => nomatch hn⟩)
  · generalize (resolve lookup context field).value = found at hr ⊢
    cases found with
    | none => exact not_passes .membership hr (by simp [Decides])
    | some actual =>
      cases hl : literal.asList with
      | none => exact not_passes .membership hr (by simp [Decides, requiresList, hl])
      | some items => exact xor_passes .membership hr (.inr ⟨rfl, fun _ => by rw [hl]; rfl⟩)

/-- An order without a coupon passes neither the comparison of its coupon nor the complement. -/
theorem complementary_pairs_coupon :
    ¬Passes ⟨"coupon", .equal, .string "SPRING"⟩ .detached (.ofChange Sample.order .epoch) ∧
    ¬Passes ⟨"coupon", .notEqual, .string "SPRING"⟩ .detached (.ofChange Sample.order .epoch) ∧
    (evaluate .detached (.ofChange Sample.order .epoch)
      ⟨"coupon", .notEqual, .string "SPRING"⟩).1.resolved = none := by
  obtain ⟨found, calls, hr, hsame, -, hequality, -⟩ :=
    complementary_pairs .detached (.ofChange Sample.order .epoch) "coupon" (.string "SPRING")
  obtain rfl : found = none :=
    congrArg Resolution.value (hr.eq_resolve.symm.trans Sample.resolves_coupon.eq_resolve)
  exact ⟨hequality.1, hequality.2, (hsame _ rfl rfl).1⟩

end Condition

end RuleEngine
