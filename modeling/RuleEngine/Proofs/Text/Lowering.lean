import Mathlib.Data.List.Infix
import Mathlib.Data.List.TakeWhile
import RuleEngine.Operator

/-!
# Lower case of pieces

A text is lowered character by character, with one exception: a capital sigma becomes the final form
of the small sigma at the end of a word, which depends on what stands around it. So a piece of a
text keeps its lower-case form in the text if and only if none of its capital sigmas is turned, that
is, ends a word in the text and not in the piece alone, or the other way round. Whether there are
surroundings that turn a sigma can be told from the piece: the sigma has to be loose in it.

## Main definitions

* `Text.lowerCharBetween`, `Text.lowerBetween`: the lower-case form of a character, and of a piece,
  between what stands around it.
* `Text.TurnsSigma`: surroundings that turn a capital sigma of a piece.
* `Text.HasLooseSigma`: pieces with a capital sigma that surroundings can turn.

## Main results

* `Text.occursIn_iff`: which texts occur in a text.
* `Text.lowerBetween_eq_lower_iff`: when a piece keeps its lower-case form.
* `Text.HasLooseSigma.exists_surroundings`: a loose sigma is turned so that the lower-case form of
  the piece does not occur any more.
-/

namespace RuleEngine

namespace Text

/-- A text occurs in another one if it is an infix of it. -/
theorem occursIn_iff {needle cs : List Char} : occursIn needle cs = true ↔ needle <:+: cs := by
  induction cs with
  | nil => rw [occursIn, List.isEmpty_iff, List.infix_nil]
  | cons c cs ih =>
    rw [occursIn, Bool.or_eq_true, ih, List.isPrefixOf_iff_prefix, List.infix_cons_iff]

/-! ### Lower case piece by piece -/

variable {before before' after after' piece l r : List Char}

/-- The lower-case form of a character between what stands before it, nearest character first, and
what stands after it. -/
def lowerCharBetween (before after : List Char) (c : Char) : List Char :=
  if c = 'Σ' then if sigmaIsFinal before after then ['ς'] else ['σ'] else lowerChar c

theorem lowerCharBetween_of_ne {c : Char} (hc : c ≠ 'Σ') (before after : List Char) :
    lowerCharBetween before after c = lowerChar c :=
  if_neg hc

/-- A character has the same lower-case form in two places if and only if it is a capital sigma that
is final in both or in none, or another character. -/
theorem lowerCharBetween_eq_iff {c : Char} :
    lowerCharBetween before after c = lowerCharBetween before' after' c ↔
      (c = 'Σ' → sigmaIsFinal before after = sigmaIsFinal before' after') := by
  unfold lowerCharBetween
  split
  · next hc => cases sigmaIsFinal before after <;> cases sigmaIsFinal before' after' <;> simp [hc]
  · next hc => simp [hc]

/-- Both forms of the small sigma are one character. -/
theorem length_lowerCharBetween (before before' after after' : List Char) (c : Char) :
    (lowerCharBetween before after c).length = (lowerCharBetween before' after' c).length := by
  unfold lowerCharBetween
  split
  · split <;> split <;> rfl
  · rfl

/-- The lower-case form of a piece of a text between what stands before it, nearest character first,
and what stands after it. -/
def lowerBetween (before after : List Char) : List Char → List Char
  | [] => []
  | c :: cs => lowerCharBetween before (cs ++ after) c ++ lowerBetween (c :: before) after cs

theorem lowerAfter_eq (before piece : List Char) :
    lowerAfter before piece = lowerBetween before [] piece := by
  induction piece generalizing before with
  | nil => rfl
  | cons c cs ih => rw [lowerAfter, lowerBetween, lowerCharBetween, ih, List.append_nil]

theorem lowerBetween_append (before after l r : List Char) :
    lowerBetween before after (l ++ r) =
      lowerBetween before (r ++ after) l ++ lowerBetween (l.reverse ++ before) after r := by
  induction l generalizing before with
  | nil => rfl
  | cons c cs ih =>
    rw [List.cons_append, lowerBetween, ih, lowerBetween, List.reverse_cons, List.append_assoc,
      List.append_assoc, List.append_assoc, List.singleton_append]

/-- The lower-case form of a text holds that of each piece, between what stands around it. -/
theorem lowerAfter_nil_append (before piece after : List Char) :
    lowerAfter [] (before ++ piece ++ after) =
      lowerBetween [] (piece ++ after) before ++ lowerBetween before.reverse after piece ++
        lowerBetween (piece.reverse ++ before.reverse) [] after := by
  rw [lowerAfter_eq, lowerBetween_append, lowerBetween_append]
  simp only [List.append_nil, List.reverse_append]

/-- What stands around a piece makes no difference to the length of its lower-case form. -/
theorem length_lowerBetween (before before' after after' piece : List Char) :
    (lowerBetween before after piece).length = (lowerBetween before' after' piece).length := by
  induction piece generalizing before before' with
  | nil => rfl
  | cons c cs ih =>
    rw [lowerBetween, lowerBetween, List.length_append, List.length_append, ih (c :: before),
      length_lowerCharBetween]

/-- A piece has the same lower-case form in two places if and only if the same capital sigmas of it
are final there. -/
theorem lowerBetween_eq_iff :
    lowerBetween before after piece = lowerBetween before' after' piece ↔
      ∀ l r, piece = l ++ 'Σ' :: r → sigmaIsFinal (l.reverse ++ before) (r ++ after) =
        sigmaIsFinal (l.reverse ++ before') (r ++ after') := by
  induction piece generalizing before before' with
  | nil => simp [lowerBetween]
  | cons c cs ih =>
    have hlater : (∀ l r, cs = l ++ 'Σ' :: r →
        sigmaIsFinal (l.reverse ++ c :: before) (r ++ after) =
          sigmaIsFinal (l.reverse ++ c :: before') (r ++ after')) ↔
        ∀ l r, c :: cs = (c :: l) ++ 'Σ' :: r →
          sigmaIsFinal ((c :: l).reverse ++ before) (r ++ after) =
            sigmaIsFinal ((c :: l).reverse ++ before') (r ++ after') := by
      simp
    have hlength := length_lowerBetween (c :: before) (c :: before') after after' cs
    rw [lowerBetween, lowerBetween]
    constructor
    · intro h
      obtain ⟨hc, hcs⟩ := List.append_inj' h hlength
      intro l r heq
      cases l with
      | nil =>
        cases heq
        exact lowerCharBetween_eq_iff.mp hc rfl
      | cons d l =>
        obtain ⟨rfl, -⟩ := List.cons.inj heq
        exact hlater.mp (ih.mp hcs) l r heq
    · intro h
      have hfirst : c = 'Σ' → sigmaIsFinal before (cs ++ after) =
          sigmaIsFinal before' (cs ++ after') := fun hc => h [] cs (by rw [hc]; rfl)
      rw [lowerCharBetween_eq_iff.mpr hfirst, ih.mpr (hlater.mpr fun l r => h (c :: l) r)]

/-! ### Sigmas that are turned -/

/-- Whether surroundings turn a capital sigma of a piece: it ends a word of the text and none of the
piece alone, or the other way round. -/
def TurnsSigma (before after piece : List Char) : Prop :=
  ∃ l r, piece = l ++ 'Σ' :: r ∧
    sigmaIsFinal (before ++ l).reverse (r ++ after) ≠ sigmaIsFinal l.reverse r

/-- A piece keeps its lower-case form in a text if and only if its surroundings turn no sigma. -/
theorem lowerBetween_eq_lower_iff :
    lowerBetween before.reverse after piece = lowerAfter [] piece ↔
      ¬TurnsSigma before after piece := by
  rw [lowerAfter_eq, lowerBetween_eq_iff]
  simp [TurnsSigma]

/-- If no sigma of a piece is turned, its lower-case form occurs in that of the text. -/
theorem lowerAfter_infix (h : ¬TurnsSigma before after piece) :
    lowerAfter [] piece <:+: lowerAfter [] (before ++ piece ++ after) := by
  rw [lowerAfter_nil_append, lowerBetween_eq_lower_iff.mpr h]
  exact List.infix_append _ _ _

/-! ### Loose sigmas -/

theorem meetsCased_eq_false_of_ignorable (h : ∀ c ∈ l, isCaseIgnorable c = true) :
    meetsCased l = false := by
  rw [meetsCased, List.dropWhile_eq_nil_iff.mpr h]

/-- Ignorable characters hide nothing that comes after them. -/
theorem meetsCased_append_of_ignorable (h : ∀ c ∈ l, isCaseIgnorable c = true) (r : List Char) :
    meetsCased (l ++ r) = meetsCased r := by
  rw [meetsCased, List.dropWhile_append, List.dropWhile_eq_nil_iff.mpr h]
  rfl

/-- The first character that is not ignorable hides everything that comes after it. -/
theorem meetsCased_append_of_not_ignorable (h : ¬∀ c ∈ l, isCaseIgnorable c = true)
    (r : List Char) : meetsCased (l ++ r) = meetsCased l := by
  have hne : l.dropWhile isCaseIgnorable ≠ [] := fun hn => h (List.dropWhile_eq_nil_iff.mp hn)
  obtain ⟨c, cs, hc⟩ := List.exists_cons_of_ne_nil hne
  rw [meetsCased, meetsCased, List.dropWhile_append, hc]
  rfl

/-- Whether a piece has a capital sigma of which its surroundings decide whether it ends a word:
nothing but ignorable characters stand on one side of it in the piece, and the other side would let
it end a word. -/
def HasLooseSigma (piece : List Char) : Prop :=
  ∃ l r, piece = l ++ 'Σ' :: r ∧
    ((∀ c ∈ l, isCaseIgnorable c = true) ∧ meetsCased r = false ∨
      meetsCased l.reverse = true ∧ ∀ c ∈ r, isCaseIgnorable c = true)

/-- Only a loose sigma is turned. -/
theorem TurnsSigma.hasLooseSigma (h : TurnsSigma before after piece) : HasLooseSigma piece := by
  obtain ⟨l, r, hpiece, hturned⟩ := h
  refine ⟨l, r, hpiece, ?_⟩
  rw [List.reverse_append, sigmaIsFinal, sigmaIsFinal] at hturned
  have hl : (∀ c ∈ l.reverse, isCaseIgnorable c = true) ↔ ∀ c ∈ l, isCaseIgnorable c = true := by
    simp only [List.mem_reverse]
  by_cases hl' : ∀ c ∈ l, isCaseIgnorable c = true
  · refine .inl ⟨hl', ?_⟩
    by_cases hr : ∀ c ∈ r, isCaseIgnorable c = true
    · exact meetsCased_eq_false_of_ignorable hr
    · rw [meetsCased_append_of_ignorable (hl.mpr hl'), meetsCased_append_of_not_ignorable hr,
        meetsCased_eq_false_of_ignorable (hl.mpr hl')] at hturned
      cases hm : meetsCased r with
      | false => rfl
      | true => simp [hm] at hturned
  · rw [meetsCased_append_of_not_ignorable (mt hl.mp hl')] at hturned
    by_cases hr : ∀ c ∈ r, isCaseIgnorable c = true
    · refine .inr ⟨?_, hr⟩
      cases hm : meetsCased l.reverse with
      | true => rfl
      | false => simp [hm] at hturned
    · rw [meetsCased_append_of_not_ignorable hr] at hturned
      exact absurd rfl hturned

/-- A letter before a piece turns a sigma that has nothing but ignorable characters before it. -/
theorem turnsSigma_of_letter_before {c : Char} (hc : isCased c = true)
    (hs : isCaseIgnorable c = false) (hpiece : piece = l ++ 'Σ' :: r)
    (hl : ∀ c ∈ l, isCaseIgnorable c = true) (hr : meetsCased r = false) :
    TurnsSigma [c] [] piece := by
  have hmeets : meetsCased [c] = true := by simp [meetsCased, hs, hc]
  have hl : ∀ c ∈ l.reverse, isCaseIgnorable c = true := by simpa using hl
  refine ⟨l, r, hpiece, ?_⟩
  rw [List.reverse_append, List.reverse_singleton, List.append_nil, sigmaIsFinal, sigmaIsFinal,
    meetsCased_append_of_ignorable hl, hmeets, hr, meetsCased_eq_false_of_ignorable hl]
  decide

/-- A letter after a piece turns a sigma that has nothing but ignorable characters after it. -/
theorem turnsSigma_of_letter_after {c : Char} (hc : isCased c = true)
    (hs : isCaseIgnorable c = false) (hpiece : piece = l ++ 'Σ' :: r)
    (hl : meetsCased l.reverse = true) (hr : ∀ c ∈ r, isCaseIgnorable c = true) :
    TurnsSigma [] [c] piece := by
  have hmeets : meetsCased [c] = true := by simp [meetsCased, hs, hc]
  refine ⟨l, r, hpiece, ?_⟩
  rw [List.nil_append, sigmaIsFinal, sigmaIsFinal, meetsCased_append_of_ignorable hr, hmeets, hl,
    meetsCased_eq_false_of_ignorable hr]
  decide

/-- There is a letter whose lower-case form is a character other than a given one. -/
theorem exists_letter (avoided : Option Char) : ∃ c d : Char, isCased c = true ∧
    isCaseIgnorable c = false ∧ c ≠ 'Σ' ∧ lowerChar c = [d] ∧ avoided ≠ some d := by
  have ha : isCased 'A' = true ∧ isCaseIgnorable 'A' = false ∧ lowerChar 'A' = ['a'] := by
    decide +kernel
  have hb : isCased 'B' = true ∧ isCaseIgnorable 'B' = false ∧ lowerChar 'B' = ['b'] := by
    decide +kernel
  by_cases h : avoided = some 'a'
  · exact ⟨'B', 'b', hb.1, hb.2.1, by decide, hb.2.2, by rw [h]; decide⟩
  · exact ⟨'A', 'a', ha.1, ha.2.1, by decide, ha.2.2, h⟩

private theorem not_infix_cons {p q : List Char} {d : Char} (hl : p.length = q.length)
    (hne : q ≠ p) (hd : p.head? ≠ some d) : ¬p <:+: d :: q := by
  rw [List.infix_cons_iff]
  rintro (hstart | hwithin)
  · cases p with
    | nil => exact hne (List.length_eq_zero_iff.mp hl.symm)
    | cons c p => exact hd (congrArg some (List.cons_prefix_cons.mp hstart).1)
  · exact hne (hwithin.eq_of_length hl).symm

private theorem not_infix_concat {p q : List Char} {d : Char} (hl : p.length = q.length)
    (hne : q ≠ p) (hd : p.getLast? ≠ some d) : ¬p <:+: q ++ [d] := by
  rw [← List.reverse_infix, List.reverse_append, List.reverse_singleton, List.singleton_append]
  refine not_infix_cons (by simpa using hl) (fun h => hne (List.reverse_inj.mp h)) ?_
  rwa [List.head?_reverse]

/-- A loose sigma is turned by some surroundings, so that the lower-case form of the piece does not
occur in that of the text. One letter is enough, before the piece if nothing but ignorable
characters stand before the sigma, and after it otherwise. -/
theorem HasLooseSigma.exists_surroundings (h : HasLooseSigma piece) :
    ∃ before after, ¬lowerAfter [] piece <:+: lowerAfter [] (before ++ piece ++ after) := by
  have hlength (before after : List Char) :
      (lowerAfter [] piece).length = (lowerBetween before after piece).length := by
    rw [lowerAfter_eq, length_lowerBetween]
  have hchanged {before after : List Char} (ht : TurnsSigma before after piece) :
      lowerBetween before.reverse after piece ≠ lowerAfter [] piece :=
    mt lowerBetween_eq_lower_iff.mp (not_not_intro ht)
  have hletter {c d : Char} (hc : c ≠ 'Σ') (hd : lowerChar c = [d]) (before after : List Char) :
      lowerBetween before after [c] = [d] := by
    rw [lowerBetween, lowerCharBetween_of_ne hc, hd, lowerBetween, List.append_nil]
  obtain ⟨l, r, hpiece, ⟨hl, hr⟩ | ⟨hl, hr⟩⟩ := h
  · obtain ⟨c, d, hcased, hsolid, hc, hd, havoided⟩ := exists_letter (lowerAfter [] piece).head?
    have hturned := turnsSigma_of_letter_before hcased hsolid hpiece hl hr
    refine ⟨[c], [], ?_⟩
    rw [lowerAfter_nil_append, hletter hc hd, List.singleton_append, lowerBetween, List.append_nil]
    exact not_infix_cons (hlength _ _) (hchanged hturned) havoided
  · obtain ⟨c, d, hcased, hsolid, hc, hd, havoided⟩ := exists_letter (lowerAfter [] piece).getLast?
    have hturned := turnsSigma_of_letter_after hcased hsolid hpiece hl hr
    refine ⟨[], [c], ?_⟩
    rw [lowerAfter_nil_append, hletter hc hd, lowerBetween, List.nil_append]
    exact not_infix_concat (hlength _ _) (hchanged hturned) havoided

end Text

end RuleEngine
