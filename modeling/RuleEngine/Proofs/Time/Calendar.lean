import RuleEngine.Time.Calendar

/-!
# Days and dates

Every day has a date of the calendar, and a date names one day: the date of a day number is valid,
its day number is the number it was made of, and later days have later dates. The date of a day is
found with years that start in March, so the facts are proved for such years first.

## Main definitions

* `Date.ofShifted`: the date by a year and a month that are counted from March.
* `Date.Precedes`: the order of dates part by part.

## Main results

* `Date.exists_shifted`: the date of a day, with what makes it a date of the calendar.
* `Date.dayNumber_ofDayNumber`, `Date.isValid_ofDayNumber`: the date of a day is a date, and the
  date of that day.
* `Date.precedes_ofDayNumber`: later days have later dates.
-/

namespace RuleEngine.Date

/-! ### The days of an era -/

/-- A day of an era by centuries, periods of four years, years and days. -/
private theorem exists_parts {z : Nat} (h : z < 146097) :
    ∃ c q i t, z = 36524 * c + 1461 * q + 365 * i + t ∧ c ≤ 3 ∧ q ≤ 24 ∧ i ≤ 3 ∧ t ≤ 365 ∧
      (t = 365 → i = 3 ∧ (q = 24 → c = 3)) := by
  have hc : ∃ c r, z = 36524 * c + r ∧ c ≤ 3 ∧ r ≤ 36524 ∧ (r = 36524 → c = 3) :=
    ⟨min (z / 36524) 3, z - 36524 * min (z / 36524) 3, by omega⟩
  obtain ⟨c, r, rfl, hc, hr, hrc⟩ := hc
  have hi : ∃ i t, r % 1461 = 365 * i + t ∧ i ≤ 3 ∧ t ≤ 365 ∧ (t = 365 → i = 3) :=
    ⟨min (r % 1461 / 365) 3, r % 1461 - 365 * min (r % 1461 / 365) 3, by omega⟩
  obtain ⟨i, t, hs, hi, ht, hti⟩ := hi
  exact ⟨c, r / 1461, i, t, by omega, hc, by omega, hi, ht, fun h => ⟨hti h, by omega⟩⟩

private theorem daysBeforeYear_parts {c q i : Nat} (hq : q ≤ 24) (hi : i ≤ 3) :
    daysBeforeYear (100 * c + 4 * q + i) = 36524 * c + 1461 * q + 365 * i := by
  have h₄ : (100 * c + 4 * q + i) / 4 = 25 * c + q := by omega
  have h₁₀₀ : (100 * c + 4 * q + i) / 100 = c := by omega
  rw [daysBeforeYear, h₄, h₁₀₀]
  omega

/-- The quotient that makes the year of the era is that of the parts. -/
private theorem yearOfEra_parts {c q i t : Nat} (hc : c ≤ 3) (hq : q ≤ 24) (hi : i ≤ 3)
    (ht : t ≤ 365) (htl : t = 365 → i = 3 ∧ (q = 24 → c = 3)) {z : Nat}
    (hz : z = 36524 * c + 1461 * q + 365 * i + t) :
    (z - z / 1460 + z / 36524 - z / 146096) / 365 = 100 * c + 4 * q + i := by
  -- the correction by a day for every 1460 days comes late in the year before a leap day
  have h₁₄₆₀ : z / 1460 = 25 * c + q + (24 * c + q + 365 * i + t) / 1460 := by omega
  have hl : z / 36524 = c + z / 146096 := by
    obtain rfl | rfl | rfl | rfl : c = 0 ∨ c = 1 ∨ c = 2 ∨ c = 3 := by omega
    all_goals omega
  omega

private theorem isLeap_of {y : Int} (h₄ : y % 4 = 0) (h : y % 100 ≠ 0 ∨ y % 400 = 0) :
    isLeap y := by
  simpa [isLeap, h₄] using h

/-! ### Years counted from March -/

/-- The days before a year counted from March, over all eras. -/
def yearStart (y : Int) : Int := (y / 400) * 146097 + daysBeforeYear (y % 400).toNat

theorem yearStart_add {era : Int} {y : Nat} (h : y < 400) :
    yearStart (era * 400 + y) = era * 146097 + daysBeforeYear y := by
  have hd : (era * 400 + y) / 400 = era := by omega
  have hm : ((era * 400 + y) % 400).toNat = y := by omega
  rw [yearStart, hd, hm]

theorem yearStart_eq (y : Int) : yearStart y = 365 * y + y / 4 - y / 100 + y / 400 := by
  unfold yearStart daysBeforeYear
  omega

/-- The date by a year and a month that are counted from March, and the days of the month before
it. -/
def ofShifted (y : Int) (m k : Nat) : Date :=
  if m < 10 then ⟨y, m + 3, k + 1⟩ else ⟨y + 1, m - 9, k + 1⟩

theorem dayNumber_ofShifted {y : Int} {m k : Nat} (hm : m ≤ 11) :
    (ofShifted y m k).dayNumber = yearStart y + daysBeforeMonth m + k - 719468 := by
  unfold ofShifted dayNumber
  split
  · have h₃ : ¬ m + 3 ≤ 2 := by omega
    simp [h₃, yearStart]
    omega
  · have h₂ : m - 9 ≤ 2 := by omega
    have hm : m - 9 + 9 = m := by omega
    simp [h₂, yearStart, hm]
    omega

theorem isValid_ofShifted {y : Int} {m k : Nat} (hm : m ≤ 11)
    (hk : daysBeforeMonth m + k < daysBeforeMonth (m + 1))
    (hy : m = 11 → k ≤ 27 ∨ k = 28 ∧ isLeap (y + 1)) : (ofShifted y m k).isValid := by
  obtain rfl | rfl | rfl | rfl | rfl | rfl | rfl | rfl | rfl | rfl | rfl | rfl : m = 0 ∨ m = 1 ∨
    m = 2 ∨ m = 3 ∨ m = 4 ∨ m = 5 ∨ m = 6 ∨ m = 7 ∨ m = 8 ∨ m = 9 ∨ m = 10 ∨ m = 11 := by omega
  all_goals simp [ofShifted, isValid, daysIn, daysBeforeMonth] at hk hy ⊢
  all_goals first | omega | skip
  rcases hy with h | ⟨rfl, h⟩
  · split <;> omega
  · simp [h]

/-- The date of a day by a year and a month counted from March, and what makes it a date of the
calendar. -/
theorem exists_shifted (n : Int) :
    ∃ y m k, ofDayNumber n = ofShifted y m k ∧ m ≤ 11 ∧
      n + 719468 = yearStart y + daysBeforeMonth m + k ∧
      daysBeforeMonth m + k < daysBeforeMonth (m + 1) ∧
      (m = 11 → k ≤ 27 ∨ k = 28 ∧ isLeap (y + 1)) := by
  obtain ⟨z, hz, hn⟩ : ∃ z : Nat, z < 146097 ∧ (n + 719468) % 146097 = z :=
    ⟨((n + 719468) % 146097).toNat, by omega, by omega⟩
  obtain ⟨c, q, i, t, hp, hc, hq, hi, ht, htl⟩ := exists_parts hz
  have hy := yearOfEra_parts hc hq hi ht htl hp
  have hb := daysBeforeYear_parts (c := c) hq hi
  have hm : (5 * t + 2) / 153 ≤ 11 := by omega
  have hk : daysBeforeMonth ((5 * t + 2) / 153) ≤ t ∧
      t < daysBeforeMonth ((5 * t + 2) / 153 + 1) := by
    unfold daysBeforeMonth
    omega
  refine ⟨(n + 719468) / 146097 * 400 + (100 * c + 4 * q + i : Nat), (5 * t + 2) / 153,
    t - daysBeforeMonth ((5 * t + 2) / 153), ?_, hm, ?_, ?_, ?_⟩
  · have hd : z - daysBeforeYear (100 * c + 4 * q + i) = t := by omega
    simp only [ofDayNumber, hn, Int.toNat_natCast, hy, hd, ofShifted]
    split
    · rw [if_neg (by omega)]
    · rw [if_pos (by omega)]
  · rw [yearStart_add (by omega), hb]
    omega
  · omega
  · intro hm
    rw [hm]
    have h₁₁ : daysBeforeMonth 11 = 337 := rfl
    by_cases hl : t = 365
    · obtain ⟨rfl, hqc⟩ := htl hl
      refine .inr ⟨by omega, ?_⟩
      exact isLeap_of (by omega) (by omega)
    · exact .inl (by omega)

/-- The date of a day has the number of the day. -/
@[simp] theorem dayNumber_ofDayNumber (n : Int) : (ofDayNumber n).dayNumber = n := by
  obtain ⟨y, m, k, hd, hm, hn, -, -⟩ := exists_shifted n
  rw [hd, dayNumber_ofShifted hm]
  omega

/-- The date of a day is a date of the calendar. -/
theorem isValid_ofDayNumber (n : Int) : (ofDayNumber n).isValid := by
  obtain ⟨y, m, k, hd, hm, -, hk, hy⟩ := exists_shifted n
  rw [hd]
  exact isValid_ofShifted hm hk hy

/-! ### The order of dates -/

theorem yearStart_mono {y y' : Int} (h : y ≤ y') : yearStart y ≤ yearStart y' := by
  rw [yearStart_eq, yearStart_eq]
  omega

/-- A day of a year is before the next year. -/
theorem lt_yearStart {y : Int} {m k : Nat} (hm : m ≤ 11)
    (hk : daysBeforeMonth m + k < daysBeforeMonth (m + 1))
    (hy : m = 11 → k ≤ 27 ∨ k = 28 ∧ isLeap (y + 1)) :
    yearStart y + daysBeforeMonth m + k < yearStart (y + 1) := by
  have h₁₁ : daysBeforeMonth 11 = 337 := rfl
  have hs : yearStart y + 365 ≤ yearStart (y + 1) := by
    rw [yearStart_eq, yearStart_eq]
    omega
  by_cases h : m = 11
  · subst h
    rcases hy rfl with h | ⟨rfl, hl⟩
    · omega
    · simp only [isLeap, Bool.and_eq_true, beq_iff_eq, Bool.or_eq_true, bne_iff_ne] at hl
      rw [yearStart_eq, yearStart_eq]
      omega
  · have : daysBeforeMonth (m + 1) ≤ daysBeforeMonth 11 := by
      unfold daysBeforeMonth
      omega
    omega

/-- Whether one date is before another, part by part. -/
def Precedes (a b : Date) : Prop :=
  a.year < b.year ∨ a.year = b.year ∧ (a.month < b.month ∨ a.month = b.month ∧ a.day < b.day)

theorem precedes_ofShifted {y y' : Int} {m m' k k' : Nat} (hm : m ≤ 11) (hm' : m' ≤ 11)
    (h : y < y' ∨ y = y' ∧ (m < m' ∨ m = m' ∧ k < k')) :
    (ofShifted y m k).Precedes (ofShifted y' m' k') := by
  unfold ofShifted Precedes
  split <;> split <;> simp only <;> omega

/-- Later days have later dates. -/
theorem precedes_ofDayNumber {n n' : Int} (h : n < n') :
    (ofDayNumber n).Precedes (ofDayNumber n') := by
  obtain ⟨y, m, k, hd, hm, hn, hk, hy⟩ := exists_shifted n
  obtain ⟨y', m', k', hd', hm', hn', hk', hy'⟩ := exists_shifted n'
  rw [hd, hd']
  refine precedes_ofShifted hm hm' ?_
  have hlt := lt_yearStart hm hk hy
  have hlt' := lt_yearStart hm' hk' hy'
  obtain hyy | rfl | hyy := Int.lt_trichotomy y y'
  · exact .inl hyy
  · refine .inr ⟨rfl, ?_⟩
    obtain hmm | rfl | hmm := Nat.lt_trichotomy m m'
    · exact .inl hmm
    · exact .inr ⟨rfl, by omega⟩
    · have : daysBeforeMonth (m' + 1) ≤ daysBeforeMonth m := by
        unfold daysBeforeMonth
        omega
      omega
  · have := yearStart_mono (show y' + 1 ≤ y from hyy)
    omega

theorem year_le_of_le {n n' : Int} (h : n ≤ n') :
    (ofDayNumber n).year ≤ (ofDayNumber n').year := by
  obtain rfl | h := Int.le_iff_eq_or_lt.mp h
  · exact Int.le_refl _
  · have := precedes_ofDayNumber h
    unfold Precedes at this
    omega

theorem month_day_le (n : Int) : (ofDayNumber n).month ≤ 12 ∧ (ofDayNumber n).day ≤ 31 := by
  obtain ⟨y, m, k, hd, hm, -, hk, -⟩ := exists_shifted n
  rw [hd, ofShifted]
  unfold daysBeforeMonth at hk
  split <;> simp only <;> omega

end RuleEngine.Date
