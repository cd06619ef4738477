/-!
# The calendar

Dates of the proleptic Gregorian calendar and their numbers, counted in days from the first of
January 1970. The calendar repeats every 400 years, and years are counted from March here, so
that the leap day comes last.
-/

namespace RuleEngine

/-- A date by its parts; the year may be zero or negative. -/
structure Date where
  year : Int
  month : Nat
  day : Nat
deriving DecidableEq, Inhabited

namespace Date

/-- Whether a year has a leap day. -/
def isLeap (year : Int) : Bool :=
  year % 4 == 0 && (year % 100 != 0 || year % 400 == 0)

/-- The number of days of a month. -/
def daysIn (year : Int) (month : Nat) : Nat :=
  match month with
  | 1 | 3 | 5 | 7 | 8 | 10 | 12 => 31
  | 4 | 6 | 9 | 11 => 30
  | 2 => if isLeap year then 29 else 28
  | _ => 0

/-- Whether the parts name a date of the calendar. -/
def isValid (d : Date) : Bool :=
  1 ≤ d.day && d.day ≤ daysIn d.year d.month

/-- The days of a year that starts in March that come before a month, March being the month 0. -/
def daysBeforeMonth (m : Nat) : Nat :=
  (153 * m + 2) / 5

/-- The days from the start of an era of 400 years to a year of the era. -/
def daysBeforeYear (y : Nat) : Nat :=
  365 * y + y / 4 - y / 100

/-- The days from the first of January 1970 to a date. -/
def dayNumber (d : Date) : Int :=
  let y := if d.month ≤ 2 then d.year - 1 else d.year
  let m := if d.month ≤ 2 then d.month + 9 else d.month - 3
  (y / 400) * 146097 + (daysBeforeYear (y % 400).toNat + daysBeforeMonth m + (d.day - 1) : Nat)
    - 719468

/-- The date of a day number. -/
def ofDayNumber (n : Int) : Date :=
  let z := n + 719468
  let inEra : Nat := (z % 146097).toNat
  let yearOfEra : Nat :=
    (inEra - inEra / 1460 + inEra / 36524 - inEra / 146096) / 365
  let dayOfYear := inEra - daysBeforeYear yearOfEra
  let m := (5 * dayOfYear + 2) / 153
  let day := dayOfYear - daysBeforeMonth m + 1
  let month := if m < 10 then m + 3 else m - 9
  let y := (z / 146097) * 400 + yearOfEra
  ⟨if month ≤ 2 then y + 1 else y, month, day⟩

/-- The weekday of a day number, counted from Sunday as 0. The first of January 1970 was a
Thursday. -/
def weekday (n : Int) : Nat :=
  ((n + 4) % 7).toNat

end Date

end RuleEngine
