import RuleEngine.Proofs.Data.Equality
import RuleEngine.Proofs.Text.Lowering

/-!
# Search with and without regard to case

A search that ignores case is to find whatever a search that regards it finds. Among the items of a
list it does: equal values have the same text, and so the same lower-case text. In a text it does
not always, since both texts are lowered as a whole before one is looked for in the other. A capital
sigma at the end of a word becomes the final form of the small sigma, and a word may end where the
literal ends and go on in the text that is searched. This is the only way in which something is
missed, and the literals with which nothing is ever missed are those without a loose sigma.

## Main results

* `Operator.passed_contains_list`, `Operator.passed_contains_scalar` and their counterparts without
  regard to case: what the two searches look for.
* `Operator.finds_ignoring_case`: what a search that ignores case finds.
-/

namespace RuleEngine

namespace Operator

variable {actual literal : Value} {items : List Value}

/-! ### What is looked for -/

/-- In a list, an item is looked for that is equal to the literal. -/
theorem passed_contains_list : (contains.apply (.list items) literal).passed = true ↔
    ∃ item ∈ items, item.equal literal = true := by
  rw [apply, Verdict.of, Value.memberOf, List.any_eq_true]

/-- In a list, an item is looked for that has the text of the literal in lower case. -/
theorem passed_containsIgnoringCase_list :
    (containsIgnoringCase.apply (.list items) literal).passed = true ↔
      ∃ item ∈ items, Text.lower item.text = Text.lower literal.text := by
  simp only [apply, Verdict.of, List.any_eq_true, beq_iff_eq]

/-- In any other value, the text of the literal is looked for. -/
theorem passed_contains_scalar (h : actual.isScalar = true) :
    (contains.apply actual literal).passed = true ↔ literal.render <:+: actual.render := by
  rw [← Text.occursIn_iff]
  cases actual with
  | list items => cases h
  | _ => simp only [apply, Verdict.of]

/-- In any other value, the lower-case text of the literal is looked for in the lower-case text of
the value. -/
theorem passed_containsIgnoringCase_scalar (h : actual.isScalar = true) :
    (containsIgnoringCase.apply actual literal).passed = true ↔
      Text.lowerAfter [] literal.render <:+: Text.lowerAfter [] actual.render := by
  have htext (v : Value) : (Text.lower v.text).toList = Text.lowerAfter [] v.render := by
    rw [Text.lower, Value.text, String.toList_ofList, String.toList_ofList]
  rw [← Text.occursIn_iff, ← htext literal, ← htext actual]
  cases actual with
  | list items => cases h
  | _ => simp only [apply, Verdict.of]

/-! ### What is found -/

/-- An item that is found with regard to case is found without it. -/
theorem containsIgnoringCase_list (h : (contains.apply (.list items) literal).passed = true) :
    (containsIgnoringCase.apply (.list items) literal).passed = true := by
  obtain ⟨item, hitem, hequal⟩ := passed_contains_list.mp h
  exact passed_containsIgnoringCase_list.mpr
    ⟨item, hitem, congrArg Text.lower (Value.text_of_equal hequal)⟩

/-- A text that is found with regard to case is found without it if it occurs somewhere with none of
its sigmas turned. -/
theorem containsIgnoringCase_scalar {before after : List Char} (h : actual.isScalar = true)
    (hactual : actual.render = before ++ literal.render ++ after)
    (hturns : ¬Text.TurnsSigma before after literal.render) :
    (containsIgnoringCase.apply actual literal).passed = true := by
  rw [passed_containsIgnoringCase_scalar h, hactual]
  exact Text.lowerAfter_infix hturns

/-- A literal with a loose sigma occurs in some text in which it is not found without regard to
case. -/
theorem exists_missed (h : Text.HasLooseSigma literal.render) :
    ∃ actual, (contains.apply actual literal).passed = true ∧
      (containsIgnoringCase.apply actual literal).passed = false := by
  obtain ⟨before, after, hmissed⟩ := h.exists_surroundings
  have hrender : (Value.string (String.ofList (before ++ literal.render ++ after))).render =
      before ++ literal.render ++ after := by
    rw [Value.render, String.toList_ofList]
  refine ⟨.string (String.ofList (before ++ literal.render ++ after)), ?_, ?_⟩
  · rw [passed_contains_scalar rfl, hrender]
    exact List.infix_append _ _ _
  · rw [Bool.eq_false_iff, ne_eq, passed_containsIgnoringCase_scalar rfl, hrender]
    exact hmissed

/-- What a search that ignores case finds of what one that regards case finds. Among the items of a
list it finds all of it. In any other value it finds the literal unless every occurrence turns a
capital sigma of the literal, which ends a word there and not in the literal, or the other way
round. It finds the literal in all values in which it occurs if and only if the literal has no loose
sigma. -/
theorem finds_ignoring_case (literal : Value) :
    (∀ items, (contains.apply (.list items) literal).passed = true →
      (containsIgnoringCase.apply (.list items) literal).passed = true) ∧
    (∀ actual, actual.isScalar = true → (contains.apply actual literal).passed = true →
      (containsIgnoringCase.apply actual literal).passed = true ∨
        ∀ before after, actual.render = before ++ literal.render ++ after →
          Text.TurnsSigma before after literal.render) ∧
    ((∀ actual, (contains.apply actual literal).passed = true →
      (containsIgnoringCase.apply actual literal).passed = true) ↔
        ¬Text.HasLooseSigma literal.render) := by
  have hscalar (actual : Value) (h : actual.isScalar = true) :
      (containsIgnoringCase.apply actual literal).passed = true ∨
        ∀ before after, actual.render = before ++ literal.render ++ after →
          Text.TurnsSigma before after literal.render := by
    by_contra hn
    obtain ⟨hmissed, hturns⟩ := not_or.mp hn
    push Not at hturns
    obtain ⟨before, after, hactual, hkept⟩ := hturns
    exact hmissed (containsIgnoringCase_scalar h hactual hkept)
  refine ⟨fun items => containsIgnoringCase_list, fun actual h _ => hscalar actual h, ?_, ?_⟩
  · intro hall hloose
    obtain ⟨actual, hfound, hmissed⟩ := exists_missed hloose
    exact Bool.false_ne_true (hmissed.symm.trans (hall actual hfound))
  · intro hfixed actual hfound
    by_cases h : actual.isScalar = true
    · refine (hscalar actual h).resolve_right fun hturns => ?_
      obtain ⟨before, after, hactual⟩ := (passed_contains_scalar h).mp hfound
      exact hfixed (hturns before after hactual.symm).hasLooseSigma
    · cases actual with
      | list items => exact containsIgnoringCase_list hfound
      | _ => exact absurd rfl h

/-- The first four letters of a word are found in it, and are not found if case is ignored: their
last one is a sigma, which ends a word there and does not in the longer one. -/
theorem finds_ignoring_case_offer :
    let word := Value.string "ΠΡΟΣΦΟΡΑ"
    let literal := Value.string "ΠΡΟΣ"
    (contains.apply word literal).passed = true ∧
    (containsIgnoringCase.apply word literal).passed = false ∧
    Text.TurnsSigma [] ['Φ', 'Ο', 'Ρ', 'Α'] literal.render ∧
    Text.HasLooseSigma literal.render := by
  intro word literal
  have hfound : (contains.apply word literal).passed = true := by decide +kernel
  have hmissed : (containsIgnoringCase.apply word literal).passed = false := by decide +kernel
  have hne : (containsIgnoringCase.apply word literal).passed ≠ true := by simp [hmissed]
  obtain ⟨-, hscalar, hall⟩ := finds_ignoring_case literal
  refine ⟨hfound, hmissed, ?_, ?_⟩
  · exact (hscalar word rfl hfound).resolve_left hne [] _ (by decide +kernel)
  · exact not_not.mp fun hfixed => hne (hall.mpr hfixed word hfound)

end Operator

end RuleEngine
