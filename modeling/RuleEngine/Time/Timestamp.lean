import RuleEngine.Time.Calendar

/-!
# Timestamps

Instants of universal time with nanoseconds. A leap second is the last second of a minute with a
count of nanoseconds beyond one second. The instants span the years −262143 to 262142.
-/

namespace RuleEngine

/-- The second in which the first representable day starts. -/
def firstSecond : Int := -8334601228800

/-- The last second of the last representable day. -/
def lastSecond : Int := 8210266876799

/-- An instant: seconds from the start of 1970, and nanoseconds. From `10 ^ 9` on, the
nanoseconds belong to a leap second that follows the second they are counted from. -/
structure Timestamp where
  second : Int
  nano : Nat
  first_le : firstSecond ≤ second
  le_last : second ≤ lastSecond
  nano_lt : nano < 2000000000
  leap_closes_minute : 1000000000 ≤ nano → second % 60 = 59
deriving DecidableEq

/-- A length of time in nanoseconds. -/
abbrev Duration := Int

namespace Duration

/-- A length of time in seconds. -/
def seconds (n : Int) : Duration := n * 1000000000

/-- A length of time in milliseconds. -/
def millis (n : Int) : Duration := n * 1000000

/-- The most seconds that a length of time can have. -/
def maxSeconds : Int := 9223372036854775

end Duration

namespace Timestamp

/-- The instant with the given seconds and nanoseconds, if it is representable. -/
def of? (second : Int) (nano : Nat) : Option Timestamp :=
  if h : firstSecond ≤ second ∧ second ≤ lastSecond ∧ nano < 2000000000 ∧
      (1000000000 ≤ nano → second % 60 = 59) then
    some ⟨second, nano, h.1, h.2.1, h.2.2.1, h.2.2.2⟩
  else none

/-- The start of the year 1970. -/
def epoch : Timestamp := ⟨0, 0, by decide, by decide, by decide, by decide⟩

instance : Inhabited Timestamp := ⟨epoch⟩

/-- Whether one instant is before another. -/
def before (a b : Timestamp) : Bool :=
  a.second < b.second || (a.second == b.second && a.nano < b.nano)

/-- Whether one instant is not after another. -/
def notAfter (a b : Timestamp) : Bool :=
  !b.before a

/-- The day number of an instant. -/
def dayNumber (t : Timestamp) : Int := t.second / 86400

/-- The date of an instant. -/
def date (t : Timestamp) : Date := Date.ofDayNumber t.dayNumber

/-- The second of the day. -/
def secondOfDay (t : Timestamp) : Nat := (t.second % 86400).toNat

/-- The hour of the day. -/
def hour (t : Timestamp) : Nat := t.secondOfDay / 3600

/-- The minute of the hour. -/
def minute (t : Timestamp) : Nat := t.secondOfDay / 60 % 60

/-- The second of the minute, at most 59 also in a leap second. -/
def secondOfMinute (t : Timestamp) : Nat := t.secondOfDay % 60

/-- The weekday, counted from Sunday as 0. -/
def weekday (t : Timestamp) : Nat := Date.weekday t.dayNumber

/-- The instant a length of time later, if it is representable. Inside a leap second a step
shorter than a second that does not lead beyond it only moves the nanoseconds; every other step
leaves the leap second first. -/
def add? (t : Timestamp) (d : Duration) : Option Timestamp :=
  let seconds := d.tdiv 1000000000
  let nanos := d.tmod 1000000000
  let plain (second : Int) (nano : Int) : Option Timestamp :=
    let total := second * 1000000000 + nano + d
    of? (total / 1000000000) (total % 1000000000).toNat
  if t.nano < 1000000000 then plain t.second t.nano
  else if 0 < seconds ∨ (0 < nanos ∧ 2000000000 ≤ t.nano + nanos) then
    plain t.second (t.nano - 1000000000)
  else if seconds < 0 then plain (t.second + 1) (t.nano - 1000000000)
  else of? t.second (t.nano + nanos).toNat

/-- The length of time from `b` to `a`. If the earlier of the two times of day lies in a leap
second, that second is counted. -/
def since (a b : Timestamp) : Duration :=
  let plain : Int := (a.second - b.second) * 1000000000 + ((a.nano : Int) - b.nano)
  if b.secondOfDay < a.secondOfDay ∧ 1000000000 ≤ b.nano then plain + 1000000000
  else if a.secondOfDay < b.secondOfDay ∧ 1000000000 ≤ a.nano then plain - 1000000000
  else plain

/-- The nanoseconds from the start of 1970, if 64 bits hold them. -/
def nanosecondCount? (t : Timestamp) : Option Int :=
  let count := t.second * 1000000000 + t.nano
  if -9223372036854775808 ≤ count ∧ count ≤ 9223372036854775807 then some count else none

/-- The start of the minute. An instant whose nanosecond count does not fit 64 bits is kept as it
is. -/
def floorMinute (t : Timestamp) : Timestamp :=
  match t.nanosecondCount? with
  | none => t
  | some count => (t.add? (-(count % 60000000000))).getD t

/-- The instant with the nanoseconds cut to whole microseconds. -/
def truncMicros (t : Timestamp) : Timestamp :=
  { t with
    nano := t.nano / 1000 * 1000
    nano_lt := Nat.lt_of_le_of_lt (Nat.div_mul_le_self _ _) t.nano_lt
    leap_closes_minute := fun h =>
      t.leap_closes_minute (Nat.le_trans h (Nat.div_mul_le_self _ _)) }

end Timestamp

end RuleEngine
