import Mathlib.Data.Set.Basic
import RuleEngine.Proofs.Cron.Grammar
import RuleEngine.Proofs.Time.Floor

/-!
# The meaning of cron expressions

The values of a field are those of its entries together, and the values of an entry go in steps from
the first value of its range up to the last. The days of the week are stepped through from 0 to 7,
and only then 7 counts as Sunday. An expression selects an instant if the minute, the hour and the
month of it are values of their fields and its day is a value of the two day fields, of either of
them if neither starts with an asterisk, and of both otherwise.

## Main definitions

* `Cron.Entry.values`, `Cron.valueSet`, `Cron.weekdaySet`: the values of entries and fields.
* `Cron.IsSelected`: the instants that five fields select.

## Main results

* `Cron.mem_valuesOf_iff`, `Cron.mem_weekdaysOf_iff`: the values that an expression keeps are those
  of its fields.
* `CronExpression.selects_of_parse`: an expression selects what the fields of its text select.
-/

namespace RuleEngine

namespace Cron

/-! ### The values of fields -/

/-- The values of an entry: from the first, in steps, up to the last. -/
def Entry.values (e : Entry) : Set Nat :=
  {v | ∃ k, v = e.first + k * e.step ∧ v ≤ e.last}

/-- The values of the text of a field: those of its entries. -/
def valueSet (f : Field) (cs : List Char) : Set Nat :=
  {v | ∃ es, IsField f cs es ∧ ∃ e ∈ es, v ∈ e.values}

/-- The days of the week of a text, of which 7 counts as 0. -/
def weekdaySet (cs : List Char) : Set Nat :=
  {d | ∃ v ∈ valueSet .dayOfWeek cs, d = if v = 7 then 0 else v}

/-- Whether five fields select an instant. -/
def IsSelected (t : Field → List Char) (s : Timestamp) : Prop :=
  s.minute ∈ valueSet .minute (t .minute) ∧ s.hour ∈ valueSet .hour (t .hour) ∧
    s.date.month ∈ valueSet .month (t .month) ∧
    if (t .dayOfMonth).head? ≠ some '*' ∧ (t .dayOfWeek).head? ≠ some '*' then
      s.date.day ∈ valueSet .dayOfMonth (t .dayOfMonth) ∨ s.weekday ∈ weekdaySet (t .dayOfWeek)
    else
      s.date.day ∈ valueSet .dayOfMonth (t .dayOfMonth) ∧ s.weekday ∈ weekdaySet (t .dayOfWeek)

variable {f : Field} {cs : List Char} {e : Entry} {es : List Entry} {v : Nat}

theorem Entry.covers_iff : e.covers v ↔ v ∈ e.values := by
  simp only [Entry.covers, Bool.and_eq_true, decide_eq_true_eq, beq_iff_eq]
  constructor
  · rintro ⟨⟨hfirst, hlast⟩, hstep⟩
    obtain ⟨k, hk⟩ := Nat.dvd_of_mod_eq_zero hstep
    refine ⟨k, ?_, hlast⟩
    rw [Nat.mul_comm, ← hk]
    omega
  · rintro ⟨k, rfl, hlast⟩
    refine ⟨⟨Nat.le_add_right _ _, hlast⟩, ?_⟩
    rw [Nat.add_sub_cancel_left, Nat.mul_mod_left]

theorem IsField.mem_valueSet_iff (h : IsField f cs es) :
    v ∈ valueSet f cs ↔ ∃ e ∈ es, v ∈ e.values := by
  constructor
  · rintro ⟨es', h', hv⟩
    have heq := (readField_eq_ok_iff.mpr h).symm.trans (readField_eq_ok_iff.mpr h')
    cases heq
    exact hv
  · exact fun hv => ⟨es, h, hv⟩

theorem IsField.isEntry (h : IsField f cs es) (he : e ∈ es) : ∃ cs, IsEntry f cs e := by
  induction h with
  | single h =>
    rw [List.mem_singleton.mp he]
    exact ⟨_, h⟩
  | cons h _ ih =>
    rcases List.mem_cons.mp he with rfl | he
    · exact ⟨_, h⟩
    · exact ih he

theorem IsField.le_greatest (h : IsField f cs es) (hv : v ∈ valueSet f cs) : v ≤ f.greatest := by
  obtain ⟨e, he, -, -, hlast⟩ := h.mem_valueSet_iff.mp hv
  obtain ⟨_, hentry⟩ := h.isEntry he
  exact hlast.trans hentry.bounds.2.2.2

/-- The values that are kept for a field are those of its text. -/
theorem mem_valuesOf_iff (h : IsField f cs es) : v ∈ valuesOf f es ↔ v ∈ valueSet f cs := by
  have hany : es.any (·.covers v) ↔ v ∈ valueSet f cs := by
    rw [h.mem_valueSet_iff, List.any_eq_true]
    simp only [Entry.covers_iff]
  rw [valuesOf, List.mem_filter, List.mem_range, hany]
  constructor
  · exact And.right
  · exact fun hv => ⟨Nat.lt_succ_of_le (h.le_greatest hv), hv⟩

/-- The days of the week that are kept are those of the text of their field. -/
theorem mem_weekdaysOf_iff (h : IsField .dayOfWeek cs es) :
    v ∈ weekdaysOf es ↔ v ∈ weekdaySet cs := by
  have hsunday : v ∈ weekdaysOf es ↔
      v < 7 ∧ (v ∈ valueSet .dayOfWeek cs ∨ v = 0 ∧ 7 ∈ valueSet .dayOfWeek cs) := by
    simp only [← mem_valuesOf_iff h, weekdaysOf, List.mem_filter, List.mem_range, Bool.or_eq_true,
      Bool.and_eq_true, beq_iff_eq, List.contains_iff_mem]
  rw [hsunday]
  constructor
  · rintro ⟨hlt, hv | ⟨rfl, hv⟩⟩
    · exact ⟨v, hv, (if_neg hlt.ne).symm⟩
    · exact ⟨7, hv, rfl⟩
  · rintro ⟨w, hw, rfl⟩
    have hle : w ≤ 7 := h.le_greatest hw
    split
    · next hseven => exact ⟨by decide, .inr ⟨rfl, hseven ▸ hw⟩⟩
    · next hseven => exact ⟨by omega, .inl hw⟩

end Cron

namespace CronExpression

open Cron

/-! ### What an expression selects -/

variable {text : String} {c : CronExpression} {t : Field → List Char} {es : Field → List Entry}
variable {s s' : Timestamp}

/-- An expression that is made of entries selects what the texts of the entries do. -/
theorem selects_ofEntries_iff {source : String} (h : ∀ f, IsField f (t f) (es f)) :
    (ofEntries source t es).selects s ↔ IsSelected t s := by
  rw [IsSelected, ← mem_valuesOf_iff (h .minute), ← mem_valuesOf_iff (h .hour),
    ← mem_valuesOf_iff (h .month), ← mem_valuesOf_iff (h .dayOfMonth),
    ← mem_weekdaysOf_iff (h .dayOfWeek)]
  simp only [selects, ofEntries, Bool.and_eq_true, List.contains_iff_mem, bne_iff_ne, and_assoc]
  -- the day counts by either of its fields, or by both
  split <;> simp

/-- Only the minute of an instant matters. -/
theorem selects_congr (h : s.second / 60 = s'.second / 60) : c.selects s = c.selects s' := by
  obtain ⟨hdate, hhour, hminute⟩ := Timestamp.sameMinute_iff.mpr h
  have hweekday : s.weekday = s'.weekday := by
    rw [Timestamp.weekday, Timestamp.weekday, ← s.dayNumber_date, ← s'.dayNumber_date, hdate]
  simp only [selects, hminute, hhour, hdate, hweekday]

/-- An expression that is read comes to five fields, by itself or as a macro. It selects the
instants that the fields select, and nothing below the minute matters. -/
theorem selects_of_parse (h : parse text = .ok c) :
    (∃ t, Spells text.toList t) ∧
      (∀ t, Spells text.toList t → ∀ s : Timestamp, c.selects s ↔ IsSelected t s) ∧
      ∀ s s' : Timestamp, s.second / 60 = s'.second / 60 → c.selects s = c.selects s' := by
  refine ⟨exists_spells_of_parse h, fun t ht s => ?_, fun _ _ => selects_congr⟩
  rw [parse_of_spells ht] at h
  obtain ⟨es, hes, rfl⟩ := ofFields_eq_ok_iff.mp h
  exact selects_ofEntries_iff hes

/-- A list with steps, names and both days restricted. -/
theorem selects_of_parse_worktime : ∃ c, parse "*/15 9-17/4 1,15 jan-Jun MON-FRI" = .ok c ∧
    (∃ t, Spells "*/15 9-17/4 1,15 jan-Jun MON-FRI".toList t) ∧
      (∀ t, Spells "*/15 9-17/4 1,15 jan-Jun MON-FRI".toList t →
        ∀ s : Timestamp, c.selects s ↔ IsSelected t s) ∧
      ∀ s s' : Timestamp, s.second / 60 = s'.second / 60 → c.selects s = c.selects s' :=
  ⟨⟨"*/15 9-17/4 1,15 jan-Jun MON-FRI", [0, 15, 30, 45], [9, 13, 17], [1, 15], [1, 2, 3, 4, 5, 6],
    [1, 2, 3, 4, 5], true, true⟩, by decide +kernel, selects_of_parse (by decide +kernel)⟩

end CronExpression

end RuleEngine
