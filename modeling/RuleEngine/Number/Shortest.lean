import RuleEngine.Number.Rounding

/-!
# Shortest decimals

The decimal with the fewest digits that reads back as a given double. Of the decimals with that
many digits it is the nearest one, and two equally near ones are told apart by a rule of the
format.
-/

namespace RuleEngine

/-- A decimal: the digits, without zeros at the end, stand for `0.d₁d₂… * 10 ^ point`. -/
structure Decimal where
  digits : List Char
  point : Int
deriving DecidableEq, Inhabited

/-- Which of two equally near decimals is taken. -/
inductive Tie where
  | up
  | toEven
deriving DecidableEq

namespace Number

/-- The number `e` with `10 ^ e ≤ x < 10 ^ (e + 1)`, for a number that is not zero. Every such
number is at least `10 ^ (-330)`, so the length of its multiple by `10 ^ 330` tells. -/
def leadingPlace (x : Number) : Int :=
  let (n, d) := x.ratio
  ((Nat.toDigits 10 (n * Nat.pow 10 330 / d)).length : Int) - 331

/-- The whole number of units `10 ^ place` below a fraction, and what is left over, as a fraction
of a unit. -/
def unitsBelow (num den : Nat) : Int → Nat × Nat × Nat
  | .ofNat p =>
    let unit := den * Nat.pow 10 p
    (num / unit, num % unit, unit)
  | .negSucc p =>
    let scaled := num * Nat.pow 10 (p + 1)
    (scaled / den, scaled % den, den)

/-- The nearer of the two multiples of `10 ^ place` around a number that read back as it. -/
def onGrid? (tie : Tie) (x : Number) (place : Int) : Option Nat :=
  let (n, d) := x.ratio
  let (below, left, unit) := unitsBelow n d place
  let readsBack (k : Nat) : Bool := ofDecimal? x.negative k place == some x
  let upperFirst :=
    unit < 2 * left || (unit == 2 * left && (tie == .up || below % 2 == 1))
  let (first, second) := if upperFirst then (below + 1, below) else (below, below + 1)
  if readsBack first then some first
  else if readsBack second then some second
  else none

/-- The first of the grids with `n`, `n + 1`, … digits that holds a decimal reading back as the
number, `fuel` many being tried; the decimal comes with its place. -/
def searchGrids (tie : Tie) (x : Number) (lead : Int) : Nat → Nat → Option (Nat × Int)
  | 0, _ => none
  | fuel + 1, n =>
    let place := lead + 1 - n
    match onGrid? tie x place with
    | some k => some (k, place)
    | none => searchGrids tie x lead fuel (n + 1)

/-- The decimal `k * 10 ^ place`, without zeros at the end. -/
def decimalOf (k : Nat) (place : Int) : Decimal :=
  let ds := Nat.toDigits 10 k
  let kept := (ds.reverse.dropWhile (· == '0')).reverse
  ⟨kept, (ds.length : Int) + place⟩

/-- The shortest decimal that reads back as a number. Seventeen digits suffice for every double;
zero has no digits. -/
def shortest (tie : Tie) (x : Number) : Decimal :=
  if x.magnitude = 0 then ⟨[], 0⟩
  else match searchGrids tie x x.leadingPlace 17 1 with
    | some (k, place) => decimalOf k place
    | none => ⟨[], 0⟩

end Number

end RuleEngine
