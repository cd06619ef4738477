import RuleEngine.Number.Basic

/-!
# Rounding to the nearest number

The double nearest to a fraction or to a decimal; of two equally near ones the one with an even
significand.
-/

namespace RuleEngine.Number

/-- The quotient rounded to the nearest integer, a half to the even one. -/
def roundedQuotient (num den : Nat) : Nat :=
  let q := num / den
  let twice := 2 * (num % den)
  if twice < den then q
  else if den < twice then q + 1
  else q + q % 2

/-- Multiplies a fraction by `2 ^ (-q)`. -/
def scaled (num den : Nat) : Int → Nat × Nat
  | .ofNat q => (num, den <<< q)
  | .negSucc q => (num <<< (q + 1), den)

/-- The exponent of the last place that a significand of 53 bits has for a fraction: the quotient
at that exponent lies below `2 ^ 53`, and not below `2 ^ 52` unless the exponent is the least. -/
def lastPlace (num den : Nat) : Int :=
  let guess : Int := (num.log2 : Int) - den.log2 - 53
  let q := max guess (-1074)
  let (n, d) := scaled num den q
  if n / d < 2 * exponentUnit then q else q + 1

/-- The double nearest to `num / den` with a sign, or nothing if it is beyond the largest. -/
def ofRatio? (negative : Bool) (num den : Nat) : Option Number :=
  if num = 0 then some (zero negative)
  else
    let q := lastPlace num den
    let (n, d) := scaled num den q
    let m := roundedQuotient n d
    let magnitude :=
      if m < exponentUnit then m else m - exponentUnit + (q + 1075).toNat * exponentUnit
    if h : magnitude < 0x7FF0000000000000 then some ⟨negative, magnitude, h⟩ else none

/-- The double nearest to `digits * 10 ^ exponent`, or nothing if it is beyond the largest. A
decimal far outside the range of doubles is decided by its length alone. -/
def ofDecimal? (negative : Bool) (digits : Nat) (exponent : Int) : Option Number :=
  if digits = 0 then some (zero negative)
  else
    let length : Int := (Nat.toDigits 10 digits).length
    if length + exponent > 310 then none
    else if length + exponent < -330 then some (zero negative)
    else match exponent with
      | .ofNat e => ofRatio? negative (digits * Nat.pow 10 e) 1
      | .negSucc e => ofRatio? negative digits (Nat.pow 10 (e + 1))

/-- The double nearest to an integer. -/
def ofInt? (i : Int) : Option Number :=
  ofRatio? (i < 0) i.natAbs 1

end RuleEngine.Number
