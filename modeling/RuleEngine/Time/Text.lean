import RuleEngine.Text.Blank
import RuleEngine.Text.Numeral
import RuleEngine.Time.Timestamp

/-!
# Timestamps as text

The internet date and time format. Written texts are in universal time; read texts may have an
offset, fewer digits than usual, and white space between their parts.
-/

namespace RuleEngine.Timestamp

/-- How many digits of a second are written. -/
inductive Precision where
  | shortest
  | micros
deriving DecidableEq

/-- A year in four digits, with a sign and more digits if four do not hold it. -/
def writeYear (y : Int) : List Char :=
  if 0 ≤ y ∧ y ≤ 9999 then Text.padded 4 y.toNat
  else (if y < 0 then '-' else '+') :: Text.padded 4 y.natAbs

/-- The part of a second: the fewest of 0, 3, 6 and 9 digits that are exact, or six digits. -/
def writeFraction (p : Precision) (nano : Nat) : List Char :=
  match p with
  | .micros => '.' :: Text.padded 6 (nano / 1000)
  | .shortest =>
    if nano = 0 then []
    else if nano % 1000000 = 0 then '.' :: Text.padded 3 (nano / 1000000)
    else if nano % 1000 = 0 then '.' :: Text.padded 6 (nano / 1000)
    else '.' :: Text.padded 9 nano

/-- Date and time without a zone. A leap second is written as second 60. -/
def writeLocal (p : Precision) (t : Timestamp) : List Char :=
  let d := t.date
  let leap := 1000000000 ≤ t.nano
  let second := if leap then t.secondOfMinute + 1 else t.secondOfMinute
  let nano := if leap then t.nano - 1000000000 else t.nano
  writeYear d.year ++ '-' :: (Text.padded 2 d.month ++ '-' :: (Text.padded 2 d.day ++
    'T' :: (Text.padded 2 t.hour ++ ':' :: (Text.padded 2 t.minute ++ ':' ::
      (Text.padded 2 second ++ writeFraction p nano)))))

/-- The text of an instant as data: as few digits as are exact, and a Z. -/
def text (t : Timestamp) : String :=
  String.ofList (t.writeLocal .shortest ++ ['Z'])

/-- The text of an instant with a numeric zone. -/
def textWithOffset (t : Timestamp) : String :=
  String.ofList (t.writeLocal .shortest ++ "+00:00".toList)

/-- The text of an instant to the microsecond, of one length for all years of four digits. -/
def textMicros (t : Timestamp) : String :=
  String.ofList (t.writeLocal .micros ++ ['Z'])

/-- One to `most` digits after white space, and the text after them. -/
def readDigits (most : Nat) (cs : List Char) : Option (Nat × List Char) :=
  let cs := Text.trimStart cs
  let ds := (cs.take most).takeWhile Text.isDigit
  if ds.isEmpty then none else some (Text.digitsValue ds, cs.drop ds.length)

/-- The text after white space and one given character. -/
def readMark (c : Char) (cs : List Char) : Option (List Char) :=
  match Text.trimStart cs with
  | d :: rest => if d = c then some rest else none
  | [] => none

/-- A year after white space: four digits at most, or a sign and any number of digits. -/
def readYear (cs : List Char) : Option (Int × List Char) :=
  match Text.trimStart cs with
  | '-' :: rest => signed (-1) rest
  | '+' :: rest => signed 1 rest
  | cs => (readDigits 4 cs).map fun (y, rest) => ((y : Int), rest)
where
  /-- The digits right after the sign of a year. -/
  signed (sign : Int) (cs : List Char) : Option (Int × List Char) :=
    let ds := cs.takeWhile Text.isDigit
    if ds.isEmpty then none
    else some (sign * Text.digitsValue ds, cs.drop ds.length)

/-- The part of a second behind a point, in nanoseconds; digits after the ninth are passed
over. -/
def readNanos : List Char → Option (Nat × List Char)
  | '.' :: cs =>
    let ds := cs.takeWhile Text.isDigit
    if ds.isEmpty then none
    else
      let kept := ds.take 9
      some (Text.digitsValue kept * Nat.pow 10 (9 - kept.length), cs.drop ds.length)
  | cs => some (0, cs)

/-- An offset in seconds: Z or UTC in any case, or a sign, two digits of hours, and two digits of
minutes, between which colons and white space may stand. -/
def readOffset (cs : List Char) : Option (Int × List Char) :=
  match cs with
  | 'Z' :: rest | 'z' :: rest => some (0, rest)
  | '+' :: rest => hoursAndMinutes 1 rest
  | '-' :: rest | '−' :: rest => hoursAndMinutes (-1) rest
  | a :: b :: c :: rest =>
    if Text.asciiLower [a, b, c] = "utc".toList then some (0, rest) else none
  | _ => none
where
  /-- The hours and minutes behind the sign of an offset. -/
  hoursAndMinutes (sign : Int) : List Char → Option (Int × List Char)
    | a :: b :: rest =>
      match Text.digitValue? a, Text.digitValue? b,
          rest.dropWhile fun c => c == ':' || Text.isBlank c with
      | some a, some b, c :: d :: rest =>
        match Text.digitValue? c, Text.digitValue? d with
        | some c, some d =>
          if c < 6 then
            some (sign * (((a * 10 + b) * 3600 + (c * 10 + d) * 60 : Nat) : Int), rest)
          else none
        | _, _ => none
      | _, _, _ => none
    | _ => none

/-- The instant of a date and a time of day with an offset. Second 60 of any minute is a leap
second. -/
def ofParts? (d : Date) (hour minute second nano : Nat) (offset : Int) : Option Timestamp :=
  if d.isValid && hour < 24 && minute < 60 && second ≤ 60 && offset.natAbs < 86400 then
    let (second, nano) := if second = 60 then (59, nano + 1000000000) else (second, nano)
    let inDay : Int := (hour * 3600 + minute * 60 + second : Nat)
    match of? (d.dayNumber * 86400 + inDay) nano with
    | some t => of? (t.second - offset) t.nano
    | none => none
  else none

/-- Reads an instant. -/
def read? (s : String) : Option Timestamp := do
  let (year, cs) ← readYear s.toList
  let cs ← readMark '-' cs
  let (month, cs) ← readDigits 2 cs
  let cs ← readMark '-' cs
  let (day, cs) ← readDigits 2 cs
  let cs ← match cs with
    | 'T' :: cs | 't' :: cs | ' ' :: cs => some cs
    | _ => none
  let (hour, cs) ← readDigits 2 cs
  let cs ← readMark ':' cs
  let (minute, cs) ← readDigits 2 cs
  let cs ← readMark ':' cs
  let (second, cs) ← readDigits 2 cs
  let (nano, cs) ← readNanos cs
  let (offset, cs) ← readOffset (Text.trimStart cs)
  if (Text.trimStart cs).isEmpty then
    ofParts? ⟨year, month, day⟩ hour minute second nano offset
  else none

end RuleEngine.Timestamp
