import RuleEngine.Proofs.Time.Minute

/-!
# Cutting to the minute

An instant is cut to the minute through its count of nanoseconds, which 64 bits have to hold. A
clock reading becomes the start of its minute: the instant of the same date, hour and minute with
zero seconds and nanoseconds. An instant that cannot be counted is kept as it is, so that the order
is kept as well, but for the one minute in which the count begins. A leap second is counted into the
minute that follows it, and only the part of the second is cut off. Every instant stays in its
minute, and to cut it once more changes nothing.

To be in the same minute is told by the parts of the calendar. Since a date names one day, it is
the same as to be in the same sixty seconds, the leap second included that may close them.

## Main definitions

* `Timestamp.SameMinute`: whether two instants have the same date, hour and minute.
* `Timestamp.IsStartOf`: whether an instant is the start of the minute of another.
* `Timestamp.CutsTo`: what an instant is cut to.

## Main results

* `Timestamp.sameMinute_iff`: the minute by the calendar and by the seconds.
* `Timestamp.cutsTo_floorMinute`: cutting does one of three things.
* `Timestamp.floorMinute_startsMinute`: clock readings are cut to the start of their minute, and
  what cutting keeps of all instants.
-/

namespace RuleEngine

namespace Timestamp

variable {a b m t : Timestamp}

/-! ### The minute by the calendar -/

/-- Whether two instants have the same date, hour and minute. -/
def SameMinute (a b : Timestamp) : Prop :=
  a.date = b.date ∧ a.hour = b.hour ∧ a.minute = b.minute

instance (a b : Timestamp) : Decidable (a.SameMinute b) :=
  inferInstanceAs (Decidable (_ ∧ _))

theorem dayNumber_date (t : Timestamp) : t.date.dayNumber = t.dayNumber :=
  Date.dayNumber_ofDayNumber _

/-- The parts of the calendar tell the minutes from the start of 1970. -/
theorem second_div_sixty (t : Timestamp) :
    t.second / 60 = t.date.dayNumber * 1440 + t.hour * 60 + t.minute := by
  rw [dayNumber_date]
  unfold dayNumber hour minute secondOfDay
  omega

/-- Two instants are in the same minute if they are in the same sixty seconds. -/
theorem sameMinute_iff : a.SameMinute b ↔ a.second / 60 = b.second / 60 := by
  constructor
  · rintro ⟨hdate, hhour, hminute⟩
    rw [second_div_sixty, second_div_sixty, hdate, hhour, hminute]
  · intro h
    have hday : a.dayNumber = b.dayNumber := by
      unfold dayNumber
      omega
    have hminutes : a.secondOfDay / 60 = b.secondOfDay / 60 := by
      unfold secondOfDay
      omega
    refine ⟨congrArg Date.ofDayNumber hday, ?_, congrArg (· % 60) hminutes⟩
    unfold hour
    omega

/-- Whether an instant is the start of the minute of another. -/
structure IsStartOf (m t : Timestamp) : Prop where
  sameMinute : m.SameMinute t
  second : m.secondOfMinute = 0
  nano : m.nano = 0

theorem isStartOf_iff : m.IsStartOf t ↔ m.second = t.second / 60 * 60 ∧ m.nano = 0 := by
  have hsecond : m.secondOfMinute = 0 ↔ m.second % 60 = 0 := by
    unfold secondOfMinute secondOfDay
    omega
  constructor
  · rintro ⟨hsame, hzero, hnano⟩
    rw [sameMinute_iff] at hsame
    rw [hsecond] at hzero
    exact ⟨by omega, hnano⟩
  · rintro ⟨h, hnano⟩
    exact ⟨sameMinute_iff.mpr (by omega), hsecond.mpr (by omega), hnano⟩

/-! ### What an instant is cut to -/

/-- A step back within a leap second only moves the nanoseconds. -/
theorem add?_neg_of_leap {x : Nat} (hn : 1000000000 ≤ t.nano) (hx : x ≤ t.nano - 1000000000) :
    t.add? (-x) = of? t.second (t.nano - x) := by
  have hlt := t.nano_lt
  have hseconds : (-(x : Int)).tdiv 1000000000 = 0 := by
    rw [Int.neg_tdiv, Int.tdiv_eq_zero_of_lt (by omega) (by omega), Int.neg_zero]
  have hnanos : (-(x : Int)).tmod 1000000000 = -x := by
    rw [Int.neg_tmod, Int.tmod_eq_of_lt (by omega) (by omega)]
  have hforward : ¬(0 < -(x : Int) ∧ 2000000000 ≤ (t.nano : Int) + -x) := by omega
  have hback : ((t.nano : Int) + -x).toNat = t.nano - x := by omega
  simp only [add?, hseconds, hnanos, if_neg (Nat.not_lt.mpr hn), Int.lt_irrefl, hforward, or_self,
    if_false, hback]

/-- What an instant is cut to. -/
inductive CutsTo (t m : Timestamp) : Prop where
  /-- An instant that cannot be counted is kept. -/
  | uncounted (h : ¬t.IsCounted) (kept : m = t)
  /-- A clock reading is cut to the last whole minute. -/
  | reading (h : t.IsReading) (second : m.second = t.second / 60 * 60) (nano : m.nano = 0)
  /-- Within a leap second only the part of the second is cut off. -/
  | leapSecond (h : t.IsCounted) (leap : 1000000000 ≤ t.nano) (second : m.second = t.second)
    (nano : m.nano = 1000000000)

/-- A leap second is counted into the minute behind it, so that what is left over there is the part
of the second. -/
theorem floorMinute_of_leap (hc : t.IsCounted) (hn : 1000000000 ≤ t.nano) :
    t.floorMinute.second = t.second ∧ t.floorMinute.nano = 1000000000 := by
  have hlt := t.nano_lt
  have hlast := t.leap_closes_minute hn
  have hleft : (t.second * 1000000000 + t.nano) % 60000000000 = (t.nano - 1000000000 : Nat) := by
    omega
  have hstart : t.nano - (t.nano - 1000000000) = 1000000000 := by omega
  have hof : of? t.second 1000000000 =
      some ⟨t.second, 1000000000, t.first_le, t.le_last, by decide, fun _ => hlast⟩ :=
    dif_pos ⟨t.first_le, t.le_last, by decide, fun _ => hlast⟩
  have hfloor : t.floorMinute =
      ⟨t.second, 1000000000, t.first_le, t.le_last, by decide, fun _ => hlast⟩ := by
    rw [floorMinute, hc.nanosecondCount?_eq]
    simp only [hleft, add?_neg_of_leap hn le_rfl, hstart, hof, Option.getD_some]
  rw [hfloor]
  exact ⟨rfl, rfl⟩

/-- Cutting to the minute does one of three things. -/
theorem cutsTo_floorMinute (t : Timestamp) : t.CutsTo t.floorMinute := by
  by_cases hc : t.IsCounted
  · by_cases hn : t.nano < 1000000000
    · have hr : t.IsReading := ⟨hc, hn⟩
      exact .reading hr hr.floorMinute_eq.1 hr.floorMinute_eq.2
    · have hleap := floorMinute_of_leap hc (Nat.le_of_not_lt hn)
      exact .leapSecond hc (Nat.le_of_not_lt hn) hleap.1 hleap.2
  · refine .uncounted hc ?_
    have hnone : t.nanosecondCount? = none := Option.not_isSome_iff_eq_none.mp hc
    rw [floorMinute, hnone]

/-! ### What cutting keeps -/

theorem floorMinute_of_uncounted (h : ¬t.IsCounted) : t.floorMinute = t := by
  cases t.cutsTo_floorMinute with
  | uncounted _ hkept => exact hkept
  | reading hr _ _ => exact absurd hr.1 h
  | leapSecond hc _ _ _ => exact absurd hc h

/-- An instant stays in its minute. -/
theorem floorMinute_sameMinute (t : Timestamp) : t.floorMinute.SameMinute t := by
  rw [sameMinute_iff]
  cases t.cutsTo_floorMinute with
  | uncounted _ hkept => rw [hkept]
  | reading _ hs _ => omega
  | leapSecond _ _ hs _ => rw [hs]

theorem floorMinute_notAfter_self (t : Timestamp) : t.floorMinute.notAfter t := by
  rw [notAfter_iff, before_iff]
  cases t.cutsTo_floorMinute with
  | uncounted _ hkept =>
    rw [hkept]
    omega
  | reading _ hs hn => omega
  | leapSecond _ _ hs hn => omega

/-- To cut an instant once more changes nothing. -/
theorem floorMinute_floorMinute (t : Timestamp) : t.floorMinute.floorMinute = t.floorMinute := by
  by_cases hc : t.IsCounted
  · cases t.floorMinute.cutsTo_floorMinute with
    | uncounted _ hkept => exact hkept
    | reading h hs hn =>
      have hlt := h.2
      cases t.cutsTo_floorMinute with
      | uncounted hu _ => exact absurd hc hu
      | reading _ hs' hn' => exact eq_of_parts (by omega) (by omega)
      | leapSecond _ _ _ hn' => omega
    | leapSecond _ hleap hs hn =>
      cases t.cutsTo_floorMinute with
      | uncounted hu _ => exact absurd hc hu
      | reading _ _ hn' => omega
      | leapSecond _ _ _ hn' => exact eq_of_parts hs (hn.trans hn'.symm)
  · rw [floorMinute_of_uncounted hc, floorMinute_of_uncounted hc]

private theorem floorMinute_mono_of_counted (ha : a.IsCounted) (hb : b.IsCounted)
    (h : a.notAfter b) : a.floorMinute.notAfter b.floorMinute := by
  rw [notAfter_iff, before_iff] at h ⊢
  have hla := a.leap_closes_minute
  have hlb := b.leap_closes_minute
  cases a.cutsTo_floorMinute with
  | uncounted hu _ => exact absurd ha hu
  | reading _ hs hn =>
    cases b.cutsTo_floorMinute with
    | uncounted hu _ => exact absurd hb hu
    | reading _ hs' hn' => omega
    | leapSecond _ _ hs' hn' => omega
  | leapSecond _ _ hs hn =>
    cases b.cutsTo_floorMinute with
    | uncounted hu _ => exact absurd hb hu
    | reading hr hs' hn' =>
      have hlt := hr.2
      omega
    | leapSecond _ _ hs' hn' => omega

/-- Later instants are cut to later ones or to the same, but for an instant that cannot be counted
and one that can in the same minute. -/
theorem floorMinute_mono (h : a.notAfter b)
    (hc : ¬a.IsCounted → b.IsCounted → ¬a.SameMinute b) :
    a.floorMinute.notAfter b.floorMinute := by
  by_cases hb : b.IsCounted
  · by_cases ha : a.IsCounted
    · exact floorMinute_mono_of_counted ha hb h
    · -- the minute of `a` is over when that of `b` starts
      have hminute := hc ha hb
      have hsame := b.floorMinute_sameMinute
      rw [floorMinute_of_uncounted ha]
      rw [sameMinute_iff] at hminute hsame
      rw [notAfter_iff, before_iff] at h ⊢
      omega
  · rw [floorMinute_of_uncounted hb]
    exact notAfter_trans a.floorMinute_notAfter_self h

/-- A clock reading is cut to the one start of its minute. -/
theorem IsReading.eq_floorMinute_iff (h : t.IsReading) : m = t.floorMinute ↔ m.IsStartOf t := by
  rw [isStartOf_iff]
  obtain ⟨hs, hn⟩ := h.floorMinute_eq
  constructor
  · rintro rfl
    exact ⟨hs, hn⟩
  · rintro ⟨hs', hn'⟩
    exact eq_of_parts (hs'.trans hs.symm) (hn'.trans hn.symm)

/-- Clock readings are cut to the same instant if and only if they are in the same minute. -/
theorem IsReading.floorMinute_eq_floorMinute_iff (ha : a.IsReading) (hb : b.IsReading) :
    a.floorMinute = b.floorMinute ↔ a.SameMinute b := by
  obtain ⟨has, han⟩ := ha.floorMinute_eq
  obtain ⟨hbs, hbn⟩ := hb.floorMinute_eq
  rw [sameMinute_iff]
  constructor
  · intro h
    have : a.floorMinute.second = b.floorMinute.second := congrArg second h
    omega
  · intro h
    exact eq_of_parts (by omega) (han.trans hbn.symm)

/-- A clock reading is cut to the instant of its minute with zero seconds and nanoseconds, and an
instant that cannot be counted is kept. Every instant is cut to one of its minute that is not after
it, and this one is kept. The order is kept but for an instant that cannot be counted and one that
can in the same minute, and clock readings are cut to the same instant if and only if they are in
the same minute. -/
theorem floorMinute_startsMinute (a b : Timestamp) :
    (a.IsReading → ∀ m, m = a.floorMinute ↔ m.IsStartOf a) ∧
      (¬a.IsCounted → a.floorMinute = a) ∧
      a.floorMinute.SameMinute a ∧ a.floorMinute.notAfter a ∧
      a.floorMinute.floorMinute = a.floorMinute ∧
      (a.notAfter b → (¬a.IsCounted → b.IsCounted → ¬a.SameMinute b) →
        a.floorMinute.notAfter b.floorMinute) ∧
      (a.IsReading → b.IsReading → (a.floorMinute = b.floorMinute ↔ a.SameMinute b)) :=
  ⟨fun h _ => h.eq_floorMinute_iff, floorMinute_of_uncounted, a.floorMinute_sameMinute,
    a.floorMinute_notAfter_self, a.floorMinute_floorMinute, floorMinute_mono,
    IsReading.floorMinute_eq_floorMinute_iff⟩

namespace Sample

/-- Half past the last minute before 1970, and half a second. -/
def halfPast : Timestamp := (of? (-30) 500000000).getD .epoch

/-- The last nanosecond before 1970. -/
def lastMoment : Timestamp := (of? (-1) 999999999).getD .epoch

/-- The first instant that 64 bits can count, in the year 1677. -/
def firstCounted : Timestamp := (of? (-9223372037) 145224192).getD .epoch

/-- The last instant before those that 64 bits can count. -/
def lastUncounted : Timestamp := (of? (-9223372037) 145224191).getD .epoch

/-- Half past the leap second that ended the year 2016. -/
def leapSecond : Timestamp := (of? 1483228799 1500000000).getD .epoch

end Sample

/-- Two instants of the last minute before 1970, whose counts are below zero, are cut to the start
of it. -/
theorem floorMinute_startsMinute_halfPast :
    Sample.halfPast.IsReading ∧ Sample.lastMoment.IsReading ∧
      Sample.halfPast.notAfter Sample.lastMoment ∧ Sample.halfPast.SameMinute Sample.lastMoment ∧
      Sample.halfPast.floorMinute.IsStartOf Sample.halfPast ∧
      Sample.halfPast.floorMinute.notAfter Sample.lastMoment.floorMinute ∧
      Sample.halfPast.floorMinute = Sample.lastMoment.floorMinute ∧
      ¬Sample.lastUncounted.IsCounted ∧
      Sample.lastUncounted.floorMinute = Sample.lastUncounted := by
  have hreading : Sample.halfPast.IsReading := by decide
  have hreading' : Sample.lastMoment.IsReading := by decide
  have hsame : Sample.halfPast.SameMinute Sample.lastMoment := by decide
  have huncounted : ¬Sample.lastUncounted.IsCounted := by decide
  obtain ⟨hstart, -, -, -, -, hmono, heq⟩ :=
    floorMinute_startsMinute Sample.halfPast Sample.lastMoment
  obtain ⟨-, hkept, -⟩ := floorMinute_startsMinute Sample.lastUncounted Sample.lastMoment
  exact ⟨hreading, hreading', by decide, hsame, (hstart hreading _).mp rfl,
    hmono (by decide) fun hc => absurd hreading.1 hc, (heq hreading hreading').mpr hsame,
    huncounted, hkept huncounted⟩

/-- Of two instants of one minute, of which 64 bits can only count the later one, the earlier one
is not cut to the start of the minute, and to no instant that is as early as that of the other. An
instant within a leap second is not cut to the start of its minute either. -/
theorem not_isStartOf_floorMinute_lastUncounted :
    ¬Sample.lastUncounted.floorMinute.IsStartOf Sample.lastUncounted ∧
      Sample.lastUncounted.SameMinute Sample.firstCounted ∧
      Sample.lastUncounted.floorMinute ≠ Sample.firstCounted.floorMinute ∧
      Sample.lastUncounted.notAfter Sample.firstCounted ∧
      ¬Sample.lastUncounted.floorMinute.notAfter Sample.firstCounted.floorMinute ∧
      ¬Sample.leapSecond.floorMinute.IsStartOf Sample.leapSecond :=
  ⟨fun h => absurd h.second (by decide), by decide, by decide, by decide, by decide,
    fun h => absurd h.nano (by decide)⟩

end Timestamp

end RuleEngine
