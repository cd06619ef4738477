/-!
# Finite doubles

The numbers of the engine are the finite values of the 64-bit binary floating-point format: a
sign and a magnitude. The magnitude is kept as the number that its exponent and fraction bits
spell, so that larger numbers have larger magnitudes. The two zeros differ as data and are equal
as numbers. The infinities and what is not a number are left out, since no data that is read denotes
them: what is said of values is said of values whose numbers are finite.
-/

namespace RuleEngine

/-- A finite double. -/
structure Number where
  negative : Bool
  magnitude : Nat
  isFinite : magnitude < 0x7FF0000000000000
deriving DecidableEq

namespace Number

/-- The zero with the given sign. -/
def zero (negative : Bool) : Number :=
  ⟨negative, 0, by decide⟩

instance : Inhabited Number := ⟨zero false⟩

/-- The integer whose order is the order of the numbers: the magnitude with the sign. -/
def key (x : Number) : Int :=
  if x.negative then -(x.magnitude : Int) else x.magnitude

/-- Equality of numbers, for which the two zeros are the same. -/
def equal (x y : Number) : Bool :=
  x.key == y.key

/-- Whether one number is smaller than another. -/
def less (x y : Number) : Bool :=
  x.key < y.key

/-- Whether one number is at most another. -/
def lessOrEqual (x y : Number) : Bool :=
  x.key ≤ y.key

/-- The unit that the exponent bits of a magnitude count, `2 ^ 52`: there are 52 fraction bits. -/
def exponentUnit : Nat := 0x10000000000000

/-- The number `m` of the absolute value `m * 2 ^ q`. -/
def significand (x : Number) : Nat :=
  let fraction := x.magnitude % exponentUnit
  if x.magnitude / exponentUnit = 0 then fraction else exponentUnit + fraction

/-- The number `q` of the absolute value `m * 2 ^ q`. -/
def exponent (x : Number) : Int :=
  let e : Nat := x.magnitude / exponentUnit
  if e = 0 then -1074 else (e : Int) - 1075

/-- The absolute value as a numerator and a denominator. -/
def ratio (x : Number) : Nat × Nat :=
  match x.exponent with
  | .ofNat q => (x.significand <<< q, 1)
  | .negSucc q => (x.significand, 1 <<< (q + 1))

theorem equal_iff {x y : Number} : x.equal y = true ↔ x.key = y.key := by
  simp [equal]

theorem equal_refl (x : Number) : x.equal x = true := by
  simp [equal]

theorem equal_comm (x y : Number) : x.equal y = y.equal x := by
  simp only [equal, Bool.beq_comm]

/-- Equal numbers are the same datum or the two zeros. -/
theorem eq_or_zero_of_equal {x y : Number} (h : x.equal y = true) :
    x = y ∨ (x.magnitude = 0 ∧ y.magnitude = 0) := by
  rw [equal_iff] at h
  obtain ⟨sx, mx, hx⟩ := x
  obtain ⟨sy, my, hy⟩ := y
  cases sx <;> cases sy <;> simp [key] at h ⊢ <;> omega

end Number

end RuleEngine
