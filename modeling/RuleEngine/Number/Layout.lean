import RuleEngine.Number.Shortest
import RuleEngine.Text.Numeral

/-!
# Number layouts

Two ways to write a number, both with the fewest digits that read back. The plain layout never
uses an exponent and shows no point behind an integer. The data layout keeps a point in every
number and turns to an exponent outside a range.
-/

namespace RuleEngine

/-- The decisions of a number layout: the decimal exponents of the leading digit that are written
positionally (all of them, if there are no bounds), whether an integer keeps a point and a zero,
whether the zero keeps its sign, and which of two nearest decimals is taken. -/
structure NumberLayout where
  positional : Option (Int × Int)
  pointed : Bool
  signedZero : Bool
  tie : Tie

namespace NumberLayout

/-- Numbers as texts see them: positional throughout, integers without a point, one zero. -/
def plain : NumberLayout := ⟨none, false, false, .up⟩

/-- Numbers as data: always with a point or an exponent, and positional for leading digits from
the fifth place behind the point to the sixteenth before it. -/
def data : NumberLayout := ⟨some (-5, 15), true, true, .toEven⟩

/-- The digits around the point, with zeros filled in where they do not reach it. -/
def writePositional (l : NumberLayout) (d : Decimal) : List Char :=
  let ds := d.digits
  let whole :=
    if d.point ≤ 0 then ['0']
    else ds.take d.point.toNat ++ List.replicate (d.point.toNat - ds.length) '0'
  let fraction :=
    if d.point ≤ 0 then List.replicate (-d.point).toNat '0' ++ ds
    else ds.drop d.point.toNat
  if fraction.isEmpty then whole ++ (if l.pointed then ['.', '0'] else [])
  else whole ++ '.' :: fraction

/-- One digit before the point, the others behind it, and the exponent with its sign. -/
def writeScientific (d : Decimal) : List Char :=
  let exponent := d.point - 1
  let mark := if exponent < 0 then ['e', '-'] else ['e', '+']
  let mantissa := match d.digits with
    | [] => ['0']
    | [c] => [c]
    | c :: cs => c :: '.' :: cs
  mantissa ++ mark ++ Text.decimal exponent.natAbs

/-- The text of a number. -/
def write (l : NumberLayout) (x : Number) : List Char :=
  if x.magnitude = 0 then
    (if x.negative && l.signedZero then ['-'] else []) ++ l.writePositional ⟨[], 0⟩
  else
    let d := x.shortest l.tie
    let inside := match l.positional with
      | none => true
      | some (low, high) => low ≤ d.point - 1 && d.point - 1 ≤ high
    (if x.negative then ['-'] else []) ++
      (if inside then l.writePositional d else writeScientific d)

end NumberLayout

end RuleEngine
