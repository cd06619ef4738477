import Mathlib.Data.List.Perm.Basic
import RuleEngine.Proofs.Cron.Selection

/-!
# Lists in another order

The entries of a field may be written in any order: the list is read, and the values of the field
are the same. The order is not without effect, for the two day fields select a day by either of them
only if neither starts with an asterisk, and which entry comes first decides whether a field does.
An expression with its lists in another order selects the same instants if this reading of the day
fields stays as it was, or if at every time that is selected the two fields agree about the day
anyway, and in no other case.

## Main definitions

* `Cron.IsReordering`: fields that have the same entries in another order.
* `Cron.TakesEitherDay`: whether a day of either day field is selected.

## Main results

* `Cron.IsField.reordered`: a field in another order is read as its entries in that order.
* `CronExpression.parse_reordered`: an expression with its lists in another order is read, and when
  it selects the same instants.
-/

namespace RuleEngine

namespace Cron

variable {t t' : Field → List Char}

/-- Whether fields consist of the same entries, in any order within each. -/
def IsReordering (t t' : Field → List Char) : Prop :=
  ∀ f, (Text.pieces (· == ',') (t f)).Perm (Text.pieces (· == ',') (t' f))

/-- Whether neither day field starts with an asterisk, so that a day of either is selected. -/
def TakesEitherDay (t : Field → List Char) : Prop :=
  (t .dayOfMonth).head? ≠ some '*' ∧ (t .dayOfWeek).head? ≠ some '*'

instance : DecidablePred TakesEitherDay := fun t =>
  inferInstanceAs (Decidable ((t .dayOfMonth).head? ≠ some '*' ∧ (t .dayOfWeek).head? ≠ some '*'))

/-- Whether the minute, the hour and the month of an instant are values of their fields. -/
def IsTimely (t : Field → List Char) (s : Timestamp) : Prop :=
  s.minute ∈ valueSet .minute (t .minute) ∧ s.hour ∈ valueSet .hour (t .hour) ∧
    s.date.month ∈ valueSet .month (t .month)

/-- Whether the two day fields agree about the day of an instant. -/
def DaysAgree (t : Field → List Char) (s : Timestamp) : Prop :=
  s.date.day ∈ valueSet .dayOfMonth (t .dayOfMonth) ↔ s.weekday ∈ weekdaySet (t .dayOfWeek)

/-! ### Fields in another order -/

variable {f : Field} {cs cs' : List Char} {stepped : Bool} {a b : Nat} {e : Entry} {es : List Entry}

/-- A field is made of the entries between its commas. -/
theorem isField_iff_forall₂ :
    IsField f cs es ↔ List.Forall₂ (IsEntry f) (Text.pieces (· == ',') cs) es := by
  rw [← readField_eq_ok_iff, readField]
  generalize Text.pieces (· == ',') cs = entries
  induction entries generalizing es with
  | nil =>
    rw [List.mapM_nil, List.forall₂_nil_left_iff]
    exact ⟨fun h => (Except.ok.inj h).symm, fun h => congrArg _ h.symm⟩
  | cons entry entries ih =>
    simp only [List.mapM_cons, bind_eq_ok_iff, readEntry_eq_ok_iff, ih,
      List.forall₂_cons_left_iff]
    constructor
    · rintro ⟨e, he, es, hes, h⟩
      exact ⟨e, es, he, hes, (Except.ok.inj h).symm⟩
    · rintro ⟨e, es, he, hes, rfl⟩
      exact ⟨e, he, es, hes, rfl⟩

/-- A field in another order is read as its entries in that order. -/
theorem IsField.reordered (h : IsField f cs es)
    (hp : (Text.pieces (· == ',') cs).Perm (Text.pieces (· == ',') cs')) :
    ∃ es', IsField f cs' es' ∧ es'.Perm es := by
  obtain ⟨es', hes', hperm⟩ := List.perm_comp_forall₂ hp.symm (isField_iff_forall₂.mp h)
  exact ⟨es', isField_iff_forall₂.mpr hes', hperm⟩

/-- The values of a field are the same in any order. -/
theorem IsField.valueSet_reordered (h : IsField f cs es)
    (hp : (Text.pieces (· == ',') cs).Perm (Text.pieces (· == ',') cs')) :
    valueSet f cs' = valueSet f cs := by
  obtain ⟨es', h', hperm⟩ := h.reordered hp
  ext v
  simp only [h.mem_valueSet_iff, h'.mem_valueSet_iff, hperm.mem_iff]

/-! ### The first character of an expression -/

theorem Spans.at_not_mem (h : Spans f stepped cs a b) : '@' ∉ cs := by
  have hvalue {cs : List Char} {v : Nat} (h : IsValue f cs v) : '@' ∉ cs :=
    h.not_mem_of (by decide) (by decide) (by decide)
  cases h with
  | all => decide
  | one h => exact hvalue h
  | onward h => exact hvalue h
  | between ha hb _ =>
    exact List.not_mem_append (hvalue ha)
      (List.not_mem_cons_of_ne_of_not_mem (by decide) (hvalue hb))

theorem IsEntry.at_not_mem (h : IsEntry f cs e) : '@' ∉ cs := by
  cases h with
  | plain h => exact h.at_not_mem
  | stepped h hs _ =>
    refine List.not_mem_append h.at_not_mem
      (List.not_mem_cons_of_ne_of_not_mem (by decide) fun hm => ?_)
    exact (hs.isDigit hm).elim (by decide) (by decide)

/-- No field is taken for a macro. -/
theorem IsField.at_not_mem (h : IsField f cs es) : '@' ∉ cs := by
  induction h with
  | single h => exact h.at_not_mem
  | cons h _ ih =>
    exact List.not_mem_append h.at_not_mem (List.not_mem_cons_of_ne_of_not_mem (by decide) ih)

theorem IsField.spells {es : List Entry} {cs : List Char} (hm : IsField .minute (t .minute) es)
    (h : Text.Spaced cs (wordsOf t)) : Spells cs t :=
  .inr ⟨h, fun hhead => hm.at_not_mem (List.mem_of_mem_head? hhead)⟩

/-! ### The reading of the day fields -/

/-- An instant is selected at its time, by either day field or by both. -/
theorem isSelected_iff (t : Field → List Char) (s : Timestamp) : IsSelected t s ↔ IsTimely t s ∧
    if TakesEitherDay t then
      s.date.day ∈ valueSet .dayOfMonth (t .dayOfMonth) ∨ s.weekday ∈ weekdaySet (t .dayOfWeek)
    else
      s.date.day ∈ valueSet .dayOfMonth (t .dayOfMonth) ∧
        s.weekday ∈ weekdaySet (t .dayOfWeek) := by
  simp only [IsSelected, IsTimely, and_assoc]
  rfl

/-- Fields with the same values select the same instants if they read the days alike, or if the
days agree whenever it is time. -/
theorem isSelected_iff_of_valueSet_eq (h : ∀ f, valueSet f (t' f) = valueSet f (t f)) :
    (∀ s, IsSelected t' s ↔ IsSelected t s) ↔
      (TakesEitherDay t' ↔ TakesEitherDay t) ∨ ∀ s, IsTimely t s → DaysAgree t s := by
  have hweekdays : weekdaySet (t' .dayOfWeek) = weekdaySet (t .dayOfWeek) := by
    rw [weekdaySet, h, ← weekdaySet]
  have htimely (s : Timestamp) : IsTimely t' s ↔ IsTimely t s := by
    simp only [IsTimely, h]
  simp only [isSelected_iff, h, hweekdays, htimely, DaysAgree]
  by_cases hsame : TakesEitherDay t' ↔ TakesEitherDay t
  · refine iff_of_true (fun s => ?_) (.inl hsame)
    simp only [hsame]
  · -- one of the two takes a day of either field, the other a day of both
    rw [or_iff_right hsame]
    refine forall_congr' fun s => ?_
    by_cases ht : TakesEitherDay t
    · have ht' : ¬ TakesEitherDay t' := fun ht' => hsame (iff_of_true ht' ht)
      rw [if_pos ht, if_neg ht']
      tauto
    · have ht' : TakesEitherDay t' := by_contra fun ht' => hsame (iff_of_false ht' ht)
      rw [if_neg ht, if_pos ht']
      tauto

end Cron

namespace CronExpression

open Cron

variable {text text' : String} {c : CronExpression} {t t' : Field → List Char}

/-- An expression with the lists of its fields in another order is read, and its fields have the
same values. It selects the same instants just if the order has not changed whether a day of either
day field is selected, or if both day fields agree about the day whenever it is time. -/
theorem parse_reordered (h : parse text = .ok c) (ht : Spells text.toList t)
    (ht' : Text.Spaced text'.toList (wordsOf t')) (hr : IsReordering t t') :
    ∃ c', parse text' = .ok c' ∧ (∀ f, valueSet f (t' f) = valueSet f (t f)) ∧
      ((∀ s, c'.selects s = c.selects s) ↔
        (TakesEitherDay t' ↔ TakesEitherDay t) ∨ ∀ s, IsTimely t s → DaysAgree t s) := by
  rw [parse_of_spells ht] at h
  obtain ⟨es, hes, rfl⟩ := ofFields_eq_ok_iff.mp h
  obtain ⟨es', hes'⟩ := Classical.axiomOfChoice fun f => (hes f).reordered (hr f)
  have hfields (f : Field) : IsField f (t' f) (es' f) := (hes' f).1
  have hvalues (f : Field) : valueSet f (t' f) = valueSet f (t f) :=
    (hes f).valueSet_reordered (hr f)
  refine ⟨ofEntries (String.ofList (Text.trim text'.toList)) t' es', ?_, hvalues, ?_⟩
  · rw [parse_of_spells ((hfields .minute).spells ht')]
    exact ofFields_eq_ok_iff.mpr ⟨es', hfields, rfl⟩
  · rw [← isSelected_iff_of_valueSet_eq hvalues]
    simp only [Bool.eq_iff_iff, selects_ofEntries_iff hfields, selects_ofEntries_iff hes]

/-- Two lists in another order, neither of which has an asterisk in it. -/
theorem parse_reordered_halves : ∃ c c', parse "0,30 12 1,15 * MON-FRI" = .ok c ∧
    parse "30,0 12 15,1 * MON-FRI" = .ok c' ∧ ∀ s, c'.selects s = c.selects s := by
  obtain ⟨c', hparse, -, hsame⟩ := @parse_reordered
    "0,30 12 1,15 * MON-FRI" "30,0 12 15,1 * MON-FRI"
    ⟨"0,30 12 1,15 * MON-FRI", [0, 30], [12], [1, 15], [1, 2, 3, 4, 5, 6, 7, 8, 9, 10, 11, 12],
      [1, 2, 3, 4, 5], true, true⟩
    (fiveFields "0,30" "12" "1,15" "*" "MON-FRI") (fiveFields "30,0" "12" "15,1" "*" "MON-FRI")
    (by decide +kernel) (.inr ⟨Text.spaced_iff.mpr (by decide), by decide⟩)
    (Text.spaced_iff.mpr (by decide)) (fun f => by cases f <;> decide)
  exact ⟨_, c', by decide +kernel, hparse, hsame.mpr (.inl (by decide))⟩

/-- Noon of 8 January 2024, a Monday. -/
def mondayNoon : Timestamp := (Timestamp.of? 1704715200 0).getD .epoch

/-- An asterisk that comes second no longer asks for both days: Monday the 8th is selected by the
day of the week alone, although `*/2,15` with the same entries does not select it. -/
theorem not_selects_reordered : ¬ ∀ (text text' : String) (c : CronExpression)
    (t t' : Field → List Char), parse text = .ok c → Spells text.toList t →
      Text.Spaced text'.toList (wordsOf t') → IsReordering t t' →
        ∃ c', parse text' = .ok c' ∧ ∀ s, c'.selects s = c.selects s := by
  intro h
  obtain ⟨c, hc, hnot⟩ : ∃ c, parse "0 12 */2,15 * 1" = .ok c ∧ c.selects mondayNoon = false :=
    ⟨⟨"0 12 */2,15 * 1", [0], [12], [1, 3, 5, 7, 9, 11, 13, 15, 17, 19, 21, 23, 25, 27, 29, 31],
      [1, 2, 3, 4, 5, 6, 7, 8, 9, 10, 11, 12], [1], false, true⟩, by decide +kernel,
      by decide +kernel⟩
  obtain ⟨c₁, hc₁, hselects⟩ :
      ∃ c, parse "0 12 15,*/2 * 1" = .ok c ∧ c.selects mondayNoon = true :=
    ⟨⟨"0 12 15,*/2 * 1", [0], [12], [1, 3, 5, 7, 9, 11, 13, 15, 17, 19, 21, 23, 25, 27, 29, 31],
      [1, 2, 3, 4, 5, 6, 7, 8, 9, 10, 11, 12], [1], true, true⟩, by decide +kernel,
      by decide +kernel⟩
  obtain ⟨c', hc', hsame⟩ := h "0 12 */2,15 * 1" "0 12 15,*/2 * 1" c
    (fiveFields "0" "12" "*/2,15" "*" "1") (fiveFields "0" "12" "15,*/2" "*" "1") hc
    (.inr ⟨Text.spaced_iff.mpr (by decide), by decide⟩) (Text.spaced_iff.mpr (by decide))
    (fun f => by cases f <;> decide)
  obtain rfl : c' = c₁ := Except.ok.inj (hc'.symm.trans hc₁)
  exact absurd ((hsame mondayNoon).symm.trans hselects) (by rw [hnot]; decide)

end CronExpression

end RuleEngine
