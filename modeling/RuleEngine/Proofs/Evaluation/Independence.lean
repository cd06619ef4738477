import Mathlib.Data.List.FinRange
import Mathlib.Data.List.Forall2
import RuleEngine.Proofs.Evaluation.Resolution
import RuleEngine.Proofs.Run.Consistency

/-!
# Conditions on their own

The conditions of a rule are evaluated one by one. What one of them yields, and what it asks the
owner of the business records, is what it would yield and ask in a rule without the others, whatever
these have come to. So all conditions are in the trace, even if the first ones have decided already,
and another order of the conditions is another order of the trace and nothing else. The numbers in
values are finite.

## Main definitions

* `Condition.Passes`: whether a condition passes.
* `Rule.only`: a rule with one of its conditions.
* `Rule.reordered`: a rule with its conditions in another order.

## Main results

* `Rule.forall₂_evaluate`: each entry of a trace is that of its condition alone.
* `Rule.evaluate_reordered`: the trace of a reordered rule.
* `Condition.passed_of_unresolved`: which conditions pass without a value.
* `Rule.evaluate_on_their_own`: the evaluation of every rule.
-/

namespace RuleEngine

/-- The order of the results makes no difference to their combination. -/
theorem Combination.combine_perm {results results' : List Bool} (h : results.Perm results')
    (c : Combination) : c.combine results = c.combine results' := by
  rw [Bool.eq_iff_iff, combine_eq_true_iff, combine_eq_true_iff]
  cases c <;> simp [h.mem_iff]

/-- Whether a condition passes in a context, given a lookup. -/
def Condition.Passes (c : Condition) (lookup : Lookup) (context : TriggerContext) : Prop :=
  (c.evaluate lookup context).1.passed = true

/-- A field that is not found passes the test for null and no other test. -/
theorem Condition.passed_of_unresolved {lookup : Lookup} {context : TriggerContext} {c : Condition}
    {calls : List LookupCall} (hc : c.operator.isChange = false)
    (h : Resolution.Resolves lookup context c.field none calls) :
    (c.evaluate lookup context).1.passed = true ↔ c.operator = .isNull := by
  simp [evaluate, hc, h.eq_resolve, judge]

/-- Fourteen operators are not operators on changes. -/
example : (Operator.all.filter fun op => !op.isChange).length = 14 := by decide

namespace Rule

/-- The rule with one condition only. -/
def only (r : Rule) (c : Condition) : Rule := { r with conditions := [c] }

/-- The rule with its conditions in another order. -/
def reordered (r : Rule) (σ : Equiv.Perm (Fin r.conditions.length)) : Rule :=
  { r with conditions := List.ofFn fun i => r.conditions[σ i] }

variable {lookup : Lookup} {context : TriggerContext} (r : Rule)

theorem trace_evaluate : (r.evaluate lookup context).trace =
    r.conditions.map fun c => (c.evaluate lookup context).1 := by
  simp [evaluate]

theorem calls_evaluate : (r.evaluate lookup context).calls =
    r.conditions.flatMap fun c => (c.evaluate lookup context).2 := by
  simp [evaluate, List.flatMap_map]

theorem passed_evaluate : (r.evaluate lookup context).passed =
    r.combination.combine ((r.evaluate lookup context).trace.map (·.passed)) := rfl

theorem trace_only (c : Condition) :
    ((r.only c).evaluate lookup context).trace = [(c.evaluate lookup context).1] :=
  (r.only c).trace_evaluate

theorem calls_only (c : Condition) :
    ((r.only c).evaluate lookup context).calls = (c.evaluate lookup context).2 := by
  rw [calls_evaluate, only, List.flatMap_singleton]

/-- Each entry of the trace is about its condition, and is that of the condition alone. -/
theorem forall₂_evaluate : List.Forall₂
    (fun c entry => ((r.only c).evaluate lookup context).trace = [entry] ∧ entry.condition = c)
    r.conditions (r.evaluate lookup context).trace := by
  rw [trace_evaluate, List.forall₂_map_right_iff]
  exact List.forall₂_same.mpr fun c _ => ⟨r.trace_only c, c.condition_evaluate lookup context⟩

/-- What is asked is what is asked for the conditions alone, one after the other. -/
theorem calls_evaluate_only : (r.evaluate lookup context).calls =
    r.conditions.flatMap fun c => ((r.only c).evaluate lookup context).calls := by
  rw [calls_evaluate]
  exact congrArg List.flatten (List.map_congr_left fun c _ => (r.calls_only c).symm)

theorem perm_reordered (σ : Equiv.Perm (Fin r.conditions.length)) :
    (r.reordered σ).conditions.Perm r.conditions := by
  have h := σ.ofFn_comp_perm fun i : Fin r.conditions.length => r.conditions[i.val]
  rw [List.ofFn_getElem] at h
  exact h

/-- A rule with its conditions in another order passes as the rule does, with its trace in the same
other order. -/
theorem evaluate_reordered (σ : Equiv.Perm (Fin r.conditions.length)) :
    ((r.reordered σ).evaluate lookup context).passed = (r.evaluate lookup context).passed ∧
    ((r.reordered σ).evaluate lookup context).trace.length =
      (r.evaluate lookup context).trace.length ∧
    ∀ i : Fin r.conditions.length,
      ((r.reordered σ).evaluate lookup context).trace[i.val]? =
        (r.evaluate lookup context).trace[(σ i).val]? := by
  have hperm := r.perm_reordered σ
  simp only [passed_evaluate, trace_evaluate, List.length_map, List.map_map]
  refine ⟨Combination.combine_perm (hperm.map _) _, hperm.length_eq, fun i => ?_⟩
  simp [reordered]

end Rule

/-- The evaluation of every rule, in every context and with every lookup. Each condition leaves one
entry of the trace in its place, which is the one that it leaves alone, and what is asked is what is
asked for each condition alone, one after the other. The rule passes if all entries do, or if one
does, as its combination has it. Another order of the conditions is the same order of the trace, and
passes alike. A condition whose path leads to no value passes if and only if it tests for null,
unless it is one on changes. -/
theorem Rule.evaluate_on_their_own (r : Rule) (lookup : Lookup) (context : TriggerContext) :
    List.Forall₂
      (fun c entry => ((r.only c).evaluate lookup context).trace = [entry] ∧ entry.condition = c)
      r.conditions (r.evaluate lookup context).trace ∧
    (r.evaluate lookup context).calls =
      r.conditions.flatMap (fun c => ((r.only c).evaluate lookup context).calls) ∧
    ((r.evaluate lookup context).passed = true ↔
      match r.combination with
      | .all => ∀ entry ∈ (r.evaluate lookup context).trace, entry.passed = true
      | .any => ∃ entry ∈ (r.evaluate lookup context).trace, entry.passed = true) ∧
    (∀ σ : Equiv.Perm (Fin r.conditions.length),
      ((r.reordered σ).evaluate lookup context).passed = (r.evaluate lookup context).passed ∧
      ((r.reordered σ).evaluate lookup context).trace.length =
        (r.evaluate lookup context).trace.length ∧
      ∀ i : Fin r.conditions.length,
        ((r.reordered σ).evaluate lookup context).trace[i.val]? =
          (r.evaluate lookup context).trace[(σ i).val]?) ∧
    ∀ c ∈ r.conditions, c.operator.isChange = false →
      ∀ calls, Resolution.Resolves lookup context c.field none calls →
        ∀ entry, ((r.only c).evaluate lookup context).trace = [entry] →
          (entry.passed = true ↔ c.operator = .isNull) := by
  refine ⟨r.forall₂_evaluate, r.calls_evaluate_only, ?_, r.evaluate_reordered, ?_⟩
  · rw [passed_evaluate, Combination.combine_eq_true_iff]
    cases r.combination <;> simp
  · intro c _ hc calls hresolves entry hentry
    obtain rfl : (c.evaluate lookup context).1 = entry :=
      List.singleton_inj.mp ((r.trace_only c).symm.trans hentry)
    exact Condition.passed_of_unresolved hc hresolves

namespace Sample

/-- A rule with a test for null and a comparison, in which one has to hold. -/
def couponRule : Rule :=
  { rule with
    combination := .any
    conditions := [⟨"coupon", .isNull, .null⟩, ⟨"coupon", .equal, .string "SPRING"⟩] }

/-- An order without fields has no coupon, and nobody else knows of one. -/
theorem resolves_coupon : Resolution.Resolves .detached (.ofChange order .epoch) "coupon" none
    [⟨"acme", ⟨"order", "17"⟩, "coupon"⟩] := by
  have hs : pathSegments "coupon" = ["coupon"] := by decide
  refine .walked (n := order) (fun name h => ?_) rfl (fun _ _ fields h => ?_) ?_
  · have hhead := congrArg (fun path => path.toList.head?) h
    simp at hhead
  · rcases h with h | ⟨-, h⟩ <;> cases h
  · rw [hs]
    exact .missing (.inl rfl)

end Sample

/-- Of two conditions on a coupon that is not found, the test for null passes and the comparison
does not, each as it would alone. -/
theorem Rule.evaluate_on_their_own_coupon :
    (∀ entry, ((Sample.couponRule.only ⟨"coupon", .isNull, .null⟩).evaluate .detached
      (.ofChange Sample.order .epoch)).trace = [entry] → entry.passed = true) ∧
    (∀ entry, ((Sample.couponRule.only ⟨"coupon", .equal, .string "SPRING"⟩).evaluate .detached
      (.ofChange Sample.order .epoch)).trace = [entry] → entry.passed ≠ true) := by
  have h := (Sample.couponRule.evaluate_on_their_own .detached
    (.ofChange Sample.order .epoch)).2.2.2.2
  constructor
  · intro entry hentry
    exact (h _ (.head _) rfl _ Sample.resolves_coupon entry hentry).mpr rfl
  · intro entry hentry hpassed
    cases (h _ (.tail _ (.head _)) rfl _ Sample.resolves_coupon entry hentry).mp hpassed

end RuleEngine
