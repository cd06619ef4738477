import Mathlib.Algebra.Order.Field.Power
import Mathlib.Data.Rat.Cast.Order
import Mathlib.Tactic.FieldSimp
import Mathlib.Tactic.Linarith
import RuleEngine.Number.Rounding

/-!
# Rounding to doubles

The double that is nearest to a fraction depends on the value of the fraction only, not on how it is
written. A fraction that is nearer to a double than half the distance to its neighbours is rounded
to it; below a power of two the neighbour is only half as far. So a decimal may be written with more
zeros at its end, and one that is near to a double is read as it.

## Main definitions

* `Number.absolute`: the absolute value of a number.
* `Number.IsLastPlace`: the exponent of the last place that a significand has for a value.
* `Number.IsNear`: whether a value lies between the midpoints around a number.

## Main results

* `Number.ofRatio?_mul`: a fraction is rounded as it is when it is expanded.
* `Number.ofDecimal?_mul_pow`: so is a decimal with zeros at its end.
* `Number.ofRatio?_of_isNear`, `Number.ofDecimal?_of_isNear`: what is near to a number is rounded to
  it.
-/

namespace RuleEngine.Number

/-! ### The parts of a number -/

/-- The absolute value of a number. -/
def absolute (x : Number) : ℚ := x.significand * 2 ^ x.exponent

section

variable (x : Number)

theorem significand_lt : x.significand < 2 * exponentUnit := by
  have := Nat.mod_lt x.magnitude (show 0 < exponentUnit by decide)
  unfold significand
  dsimp only
  split <;> omega

theorem le_exponent : -1074 ≤ x.exponent := by
  unfold exponent
  generalize x.magnitude / exponentUnit = e
  dsimp only
  split <;> omega

theorem exponent_le : x.exponent ≤ 971 := by
  have hlt := x.isFinite
  have hle : x.magnitude / exponentUnit ≤ 2046 := by
    rw [← Nat.lt_succ_iff, Nat.div_lt_iff_lt_mul (by decide)]
    exact hlt
  unfold exponent
  generalize x.magnitude / exponentUnit = e at hle
  dsimp only
  split <;> omega

/-- A number whose last place is not the least one has all bits of the significand. -/
theorem exponent_eq_or_le : x.exponent = -1074 ∨ exponentUnit ≤ x.significand := by
  unfold exponent significand
  dsimp only
  split
  · exact .inl rfl
  · exact .inr (Nat.le_add_right _ _)

/-- The magnitude is spelt by the exponent and the significand without its first bit. -/
theorem magnitude_eq : x.magnitude = if x.significand < exponentUnit then x.significand
    else x.significand - exponentUnit + (x.exponent + 1075).toNat * exponentUnit := by
  have hmod := Nat.mod_lt x.magnitude (show 0 < exponentUnit by decide)
  have hsplit := Nat.mod_add_div' x.magnitude exponentUnit
  unfold significand exponent
  generalize x.magnitude / exponentUnit = e at hsplit ⊢
  dsimp only
  by_cases he : e = 0
  · rw [if_pos he, if_pos hmod]
    rw [he, Nat.zero_mul, Nat.add_zero] at hsplit
    exact hsplit.symm
  · have htoNat : ((e : Int) - 1075 + 1075).toNat = e := by omega
    rw [if_neg he, if_neg he, htoNat, if_neg (by omega), Nat.add_sub_cancel_left]
    exact hsplit.symm

theorem significand_pos (hx : x.magnitude ≠ 0) : 0 < x.significand := by
  refine Nat.pos_of_ne_zero fun hs => hx ?_
  rw [magnitude_eq, hs]
  rfl

end

/-! ### Fractions -/

theorem roundedQuotient_mul {n d c : Nat} (hc : 0 < c) :
    roundedQuotient (n * c) (d * c) = roundedQuotient n d := by
  have hlt {a b : Nat} : 2 * (a * c) < b * c ↔ 2 * a < b := by
    rw [← Nat.mul_assoc, Nat.mul_lt_mul_right hc]
  have hgt {a b : Nat} : b * c < 2 * (a * c) ↔ b < 2 * a := by
    rw [← Nat.mul_assoc, Nat.mul_lt_mul_right hc]
  simp only [roundedQuotient, Nat.mul_div_mul_right n d hc, Nat.mul_mod_mul_right, hlt, hgt]

/-- A fraction that is less than a half away from an integer is rounded to it. -/
theorem roundedQuotient_eq {n d k : Nat} (hd : 0 < d) (hlow : (k : ℚ) - 1 / 2 < n / d)
    (hhigh : (n : ℚ) / d < k + 1 / 2) : roundedQuotient n d = k := by
  have hd' : (0 : ℚ) < d := by exact_mod_cast hd
  rw [lt_div_iff₀ hd'] at hlow
  rw [div_lt_iff₀ hd'] at hhigh
  have hlow : 2 * (k * d) < 2 * n + d := by
    have : (2 * (k * d) : ℚ) < 2 * n + d := by linarith
    exact_mod_cast this
  have hhigh : 2 * n < 2 * (k * d) + d := by
    have : (2 * n : ℚ) < 2 * (k * d) + d := by linarith
    exact_mod_cast this
  have hmod := Nat.mod_lt n hd
  have hsplit := Nat.div_add_mod n d
  have hle : n / d ≤ k := by
    refine Nat.lt_succ_iff.mp ((Nat.div_lt_iff_lt_mul hd).mpr ?_)
    rw [Nat.succ_mul]
    omega
  have hge : k ≤ n / d + 1 := by
    refine Nat.lt_succ_iff.mp (Nat.lt_of_mul_lt_mul_right (a := d) ?_)
    rw [Nat.succ_mul, Nat.succ_mul, Nat.mul_comm (n / d)]
    omega
  unfold roundedQuotient
  dsimp only
  obtain rfl | hk := Nat.eq_or_lt_of_le hle
  · rw [Nat.mul_comm] at hhigh hlow
    rw [if_pos (by rw [Nat.mul_comm (n / d)] at hhigh; omega)]
  · obtain rfl : k = n / d + 1 := by omega
    have hsucc : (n / d + 1) * d = d * (n / d) + d := by rw [Nat.succ_mul, Nat.mul_comm]
    rw [hsucc] at hlow
    rw [if_neg (by omega), if_pos (by omega)]

theorem scaled_mul (num den c : Nat) (q : Int) :
    scaled (num * c) (den * c) q = ((scaled num den q).1 * c, (scaled num den q).2 * c) := by
  cases q with
  | ofNat q => simp only [scaled, Nat.shiftLeft_eq, Nat.mul_right_comm]
  | negSucc q => simp only [scaled, Nat.shiftLeft_eq, Nat.mul_right_comm]

theorem scaled_pos {num den : Nat} (hd : 0 < den) (q : Int) : 0 < (scaled num den q).2 := by
  cases q with
  | ofNat q => simpa [scaled, Nat.shiftLeft_eq] using hd
  | negSucc q => exact hd

/-- To scale a fraction is to divide its value by a power of two. -/
theorem scaled_eq (num den : Nat) (q : Int) :
    ((scaled num den q).1 : ℚ) / (scaled num den q).2 = num / den / 2 ^ q := by
  cases q with
  | ofNat q => simp [scaled, Nat.shiftLeft_eq, div_div]
  | negSucc q =>
    simp only [scaled, Nat.shiftLeft_eq, zpow_negSucc]
    push_cast
    field_simp

/-! ### The last place -/

/-- Whether an exponent is that of the last place that a significand of 53 bits has for a value: the
value has as many places before it, or fewer if the exponent is the least. -/
structure IsLastPlace (r : ℚ) (q : Int) : Prop where
  least : -1074 ≤ q
  below : r < 2 ^ 53 * 2 ^ q
  normal : q = -1074 ∨ 2 ^ 52 * 2 ^ q ≤ r

/-- A value has one last place. -/
theorem IsLastPlace.unique {r : ℚ} {q q' : Int} (h : IsLastPlace r q) (h' : IsLastPlace r q') :
    q = q' := by
  have key {q q' : Int} (h : IsLastPlace r q) (h' : IsLastPlace r q') : q ≤ q' := by
    obtain rfl | hn := h.normal
    · exact h'.least
    · have hlt : (2 : ℚ) ^ 52 * 2 ^ q < 2 ^ 53 * 2 ^ q' := hn.trans_lt h'.below
      have hlt : (2 : ℚ) ^ (q + 52) < 2 ^ (q' + 53) := by
        rw [zpow_add₀ two_ne_zero, zpow_add₀ two_ne_zero]
        norm_num at hlt ⊢
        linarith
      have := (zpow_lt_zpow_iff_right₀ (one_lt_two (α := ℚ))).mp hlt
      omega
  exact le_antisymm (key h h') (key h' h)

/-- The quotient of two numbers is between two powers of two that are told by their logarithms. -/
theorem between_log2 {num den : Nat} (hn : 0 < num) (hd : 0 < den) :
    (2 : ℚ) ^ ((num.log2 : Int) - den.log2 - 1) < num / den ∧
      (num : ℚ) / den < 2 ^ ((num.log2 : Int) - den.log2 + 1) := by
  have hn₁ : (2 : ℚ) ^ (num.log2 : Int) ≤ num := by
    exact_mod_cast Nat.log2_self_le hn.ne'
  have hn₂ : (num : ℚ) < 2 ^ ((num.log2 : Int) + 1) := by
    exact_mod_cast (Nat.lt_log2_self (n := num))
  have hd₁ : (2 : ℚ) ^ (den.log2 : Int) ≤ den := by
    exact_mod_cast Nat.log2_self_le hd.ne'
  have hd₂ : (den : ℚ) < 2 ^ ((den.log2 : Int) + 1) := by
    exact_mod_cast (Nat.lt_log2_self (n := den))
  have hd' : (0 : ℚ) < den := by exact_mod_cast hd
  have hpow (a : Int) : (0 : ℚ) < 2 ^ a := zpow_pos two_pos a
  constructor
  · rw [lt_div_iff₀ hd']
    calc (2 : ℚ) ^ ((num.log2 : Int) - den.log2 - 1) * den
        < 2 ^ ((num.log2 : Int) - den.log2 - 1) * 2 ^ ((den.log2 : Int) + 1) :=
          mul_lt_mul_of_pos_left hd₂ (hpow _)
      _ = 2 ^ (num.log2 : Int) := by
          rw [← zpow_add₀ two_ne_zero]
          congr 1
          omega
      _ ≤ num := hn₁
  · rw [div_lt_iff₀ hd']
    calc (num : ℚ) < 2 ^ ((num.log2 : Int) + 1) := hn₂
      _ = 2 ^ ((num.log2 : Int) - den.log2 + 1) * 2 ^ (den.log2 : Int) := by
          rw [← zpow_add₀ two_ne_zero]
          congr 1
          omega
      _ ≤ 2 ^ ((num.log2 : Int) - den.log2 + 1) * den :=
          mul_le_mul_of_nonneg_left hd₁ (hpow _).le

theorem isLastPlace_lastPlace {num den : Nat} (hn : 0 < num) (hd : 0 < den) :
    IsLastPlace (num / den) (lastPlace num den) := by
  obtain ⟨hlow, hhigh⟩ := between_log2 hn hd
  have hadd (a b : Int) : (2 : ℚ) ^ a * 2 ^ b = 2 ^ (a + b) := (zpow_add₀ two_ne_zero a b).symm
  have hmono {a b : Int} (h : a ≤ b) : (2 : ℚ) ^ a ≤ 2 ^ b := zpow_le_zpow_right₀ one_le_two h
  have h52 : (2 : ℚ) ^ 52 = 2 ^ (52 : Int) := by norm_cast
  have h53 : (2 : ℚ) ^ 53 = 2 ^ (53 : Int) := by norm_cast
  let guess : Int := (num.log2 : Int) - den.log2 - 53
  let q := max guess (-1074)
  have hq : -1074 ≤ q := le_max_right _ _
  have hguess : guess ≤ q := le_max_left _ _
  -- the condition of the definition compares the quotient at the guess with the significands
  have hcond : (scaled num den q).1 / (scaled num den q).2 < 2 * exponentUnit ↔
      (num : ℚ) / den < 2 ^ 53 * 2 ^ q := by
    rw [Nat.div_lt_iff_lt_mul (scaled_pos hd q), ← div_lt_iff₀ (zpow_pos two_pos q), ← scaled_eq,
      div_lt_iff₀ (by exact_mod_cast scaled_pos hd q)]
    have : ((2 * exponentUnit : Nat) : ℚ) = 2 ^ 53 := by norm_num [exponentUnit]
    rw [← this]
    norm_cast
  have hplace : lastPlace num den = if (num : ℚ) / den < 2 ^ 53 * 2 ^ q then q else q + 1 :=
    if_congr hcond rfl rfl
  rw [hplace]
  split
  · next hlt =>
    refine ⟨hq, hlt, ?_⟩
    rcases max_choice guess (-1074) with hmax | hmax
    · right
      rw [h52, hadd]
      exact (hmono (by omega)).trans hlow.le
    · exact .inl hmax
  · next hge =>
    refine ⟨by omega, ?_, .inr ?_⟩
    · rw [h53, hadd]
      exact hhigh.trans_le (hmono (by omega))
    · rw [h52, hadd]
      rw [h53, hadd, not_lt] at hge
      exact (hmono (by omega)).trans hge

/-! ### Nearest doubles -/

/-- A fraction that is expanded is rounded as it is. -/
theorem ofRatio?_mul {negative : Bool} {num den c : Nat} (hd : 0 < den) (hc : 0 < c) :
    ofRatio? negative (num * c) (den * c) = ofRatio? negative num den := by
  by_cases hn : num = 0
  · rw [hn, Nat.zero_mul, ofRatio?, ofRatio?, if_pos rfl, if_pos rfl]
  · have hpos := Nat.pos_of_ne_zero hn
    have hq : lastPlace (num * c) (den * c) = lastPlace num den := by
      have hlast := isLastPlace_lastPlace (Nat.mul_pos hpos hc) (Nat.mul_pos hd hc)
      have hvalue : ((num * c : Nat) : ℚ) / (den * c : Nat) = num / den := by
        push_cast
        exact mul_div_mul_right _ _ (by exact_mod_cast hc.ne')
      rw [hvalue] at hlast
      exact hlast.unique (isLastPlace_lastPlace hpos hd)
    simp only [ofRatio?, hn, (Nat.mul_pos hpos hc).ne', if_false, hq, scaled_mul,
      roundedQuotient_mul hc]

/-- Fractions of one value are rounded alike. -/
theorem ofRatio?_congr {negative : Bool} {num den num' den' : Nat} (hd : 0 < den) (hd' : 0 < den')
    (h : (num : ℚ) / den = num' / den') :
    ofRatio? negative num den = ofRatio? negative num' den' := by
  have h : num * den' = num' * den := by
    rw [div_eq_div_iff (by exact_mod_cast hd.ne') (by exact_mod_cast hd'.ne')] at h
    exact_mod_cast h
  rw [← ofRatio?_mul hd hd', h, Nat.mul_comm den, ofRatio?_mul hd' hd]

/-- Whether a value lies between the midpoints around a number. Below the least significand of an
exponent that is not the least one, the midpoint is half as far as elsewhere. -/
structure IsNear (x : Number) (r : ℚ) : Prop where
  above : r < (x.significand + 1 / 2) * 2 ^ x.exponent
  below : (x.significand - 1 / 2) * 2 ^ x.exponent < r
  belowBinade : x.significand = exponentUnit →
    (x.significand - 1 / 4) * 2 ^ x.exponent < r

/-- The number that is made of a last place and a significand. -/
private theorem ofRatio?_of_lastPlace {x : Number} {num den m : Nat} {q : Int} (hn : 0 < num)
    (hd : 0 < den) (hq : IsLastPlace (num / den) q)
    (hlow : (m : ℚ) - 1 / 2 < num / den / 2 ^ q) (hhigh : (num : ℚ) / den / 2 ^ q < m + 1 / 2)
    (hx : x.magnitude = if m < exponentUnit then m
      else m - exponentUnit + (q + 1075).toNat * exponentUnit) :
    ofRatio? x.negative num den = some x := by
  have hround : roundedQuotient (scaled num den q).1 (scaled num den q).2 = m :=
    roundedQuotient_eq (scaled_pos hd q) (by rwa [scaled_eq]) (by rwa [scaled_eq])
  obtain ⟨negative, magnitude, hfinite⟩ := x
  simp only [ofRatio?, hn.ne', if_false, (isLastPlace_lastPlace hn hd).unique hq, hround, ← hx,
    hfinite, dite_true]

/-- What is near to a number is rounded to it. -/
theorem ofRatio?_of_isNear {x : Number} {num den : Nat} (hn : 0 < num) (hd : 0 < den)
    (h : x.IsNear (num / den)) : ofRatio? x.negative num den = some x := by
  have hpow : (0 : ℚ) < 2 ^ x.exponent := zpow_pos two_pos _
  have hs : (x.significand : ℚ) + 1 ≤ 2 ^ 53 := by exact_mod_cast x.significand_lt
  have hbelow : (num : ℚ) / den < 2 ^ 53 * 2 ^ x.exponent :=
    h.above.trans_le (mul_le_mul_of_nonneg_right (by linarith) hpow.le)
  have hunit : ((exponentUnit : Nat) : ℚ) = 2 ^ 52 := by norm_num [exponentUnit]
  by_cases hnormal : x.exponent = -1074 ∨ (2 : ℚ) ^ 52 * 2 ^ x.exponent ≤ num / den
  · refine ofRatio?_of_lastPlace hn hd ⟨x.le_exponent, hbelow, hnormal⟩ ?_ ?_ x.magnitude_eq
    · rw [lt_div_iff₀ hpow]
      exact h.below
    · rw [div_lt_iff₀ hpow]
      exact h.above
  · -- the value is below the binade of the number, which is the power of two at its start
    obtain ⟨hleast, hlt⟩ := not_or.mp hnormal
    rw [not_le] at hlt
    have hle := x.exponent_eq_or_le.resolve_left hleast
    have hsignificand : x.significand = exponentUnit := by
      refine le_antisymm (Nat.lt_succ_iff.mp ?_) hle
      have hlt := (mul_lt_mul_iff_of_pos_right hpow).mp (h.below.trans hlt)
      have : (x.significand : ℚ) < (exponentUnit + 1 : Nat) := by
        push_cast
        rw [hunit]
        linarith
      exact_mod_cast this
    have hhalf : (2 : ℚ) ^ x.exponent = 2 ^ (x.exponent - 1) * 2 := by
      rw [← zpow_add_one₀ two_ne_zero, sub_add_cancel]
    have hpow' : (0 : ℚ) < 2 ^ (x.exponent - 1) := zpow_pos two_pos _
    have hquarter := h.belowBinade hsignificand
    rw [hsignificand, hunit, hhalf] at hquarter
    rw [hhalf] at hlt
    have hmin := x.le_exponent
    refine ofRatio?_of_lastPlace (m := 2 * exponentUnit) (q := x.exponent - 1) hn hd
      ⟨by omega, by linarith, .inr (by linarith)⟩ ?_ ?_ ?_
    · rw [lt_div_iff₀ hpow']
      push_cast
      rw [hunit]
      linarith
    · rw [div_lt_iff₀ hpow']
      push_cast
      rw [hunit]
      linarith
    · rw [magnitude_eq, hsignificand, if_neg (lt_irrefl _), if_neg (by decide)]
      have : (x.exponent + 1075).toNat = (x.exponent - 1 + 1075).toNat + 1 := by omega
      rw [this]
      simp only [exponentUnit]
      omega

/-! ### Decimals -/

/-- The count of digits tells between which powers of ten a number lies. -/
theorem between_pow_length {n : Nat} (hn : 0 < n) :
    (10 : ℚ) ^ (((Nat.toDigits 10 n).length : Int) - 1) ≤ n ∧
      (n : ℚ) < 10 ^ ((Nat.toDigits 10 n).length : Int) := by
  have hpos : 0 < (Nat.toDigits 10 n).length := Nat.length_toDigits_pos
  have hlt := (Nat.length_toDigits_le_iff (n := n) (by decide) hpos).mp le_rfl
  refine ⟨?_, by exact_mod_cast hlt⟩
  obtain ⟨l, hl⟩ := Nat.exists_eq_succ_of_ne_zero hpos.ne'
  have hle : 10 ^ l ≤ n := by
    rcases Nat.eq_zero_or_pos l with rfl | hl'
    · exact hn
    · refine Nat.le_of_not_lt fun h => ?_
      have := (Nat.length_toDigits_le_iff (n := n) (by decide) hl').mpr h
      omega
  rw [hl, Nat.cast_succ, add_sub_cancel_right]
  exact_mod_cast hle

/-- The length is the only one between whose powers of ten a number lies. -/
theorem length_eq_of_between {n : Nat} (hn : 0 < n) {l : Int} (hlow : (10 : ℚ) ^ (l - 1) ≤ n)
    (hhigh : (n : ℚ) < 10 ^ l) : ((Nat.toDigits 10 n).length : Int) = l := by
  obtain ⟨hlow', hhigh'⟩ := between_pow_length hn
  have hten : (1 : ℚ) < 10 := by norm_num
  have h₁ := (zpow_lt_zpow_iff_right₀ hten).mp (hlow.trans_lt hhigh')
  have h₂ := (zpow_lt_zpow_iff_right₀ hten).mp (hlow'.trans_lt hhigh)
  omega

/-- A decimal as a numerator and a denominator. -/
def decimalRatio (k : Nat) : Int → Nat × Nat
  | .ofNat e => (k * 10 ^ e, 1)
  | .negSucc e => (k, 10 ^ (e + 1))

section

variable {negative : Bool} {k : Nat} {e : Int}

theorem decimalRatio_pos (k : Nat) (e : Int) : 0 < (decimalRatio k e).2 := by
  cases e with
  | ofNat e => exact Nat.one_pos
  | negSucc e => exact Nat.pow_pos (by decide)

theorem decimalRatio_value (k : Nat) (e : Int) :
    ((decimalRatio k e).1 : ℚ) / (decimalRatio k e).2 = k * 10 ^ e := by
  cases e with
  | ofNat e => simp [decimalRatio]
  | negSucc e => simp [decimalRatio, zpow_negSucc, div_eq_mul_inv]

/-- The range in which a decimal is looked at more closely than by its length. -/
theorem ofDecimal?_eq (hk : 0 < k) : ofDecimal? negative k e =
    if (310 : Int) < (Nat.toDigits 10 k).length + e then none
    else if (Nat.toDigits 10 k).length + e < (-330 : Int) then some (zero negative)
    else ofRatio? negative (decimalRatio k e).1 (decimalRatio k e).2 := by
  rw [ofDecimal?.eq_def, if_neg hk.ne']
  cases e <;> rfl

theorem ofDecimal?_mul_pow (n : Nat) :
    ofDecimal? negative (k * 10 ^ n) e = ofDecimal? negative k (e + n) := by
  rcases Nat.eq_zero_or_pos k with rfl | hk
  · rw [Nat.zero_mul, ofDecimal?.eq_def, ofDecimal?.eq_def, if_pos rfl, if_pos rfl]
  · have hpos : 0 < k * 10 ^ n := Nat.mul_pos hk (Nat.pow_pos (by decide))
    have hten : (10 : ℚ) ≠ 0 := by norm_num
    have hpow : (0 : ℚ) < 10 ^ n := by positivity
    have hlength : ((Nat.toDigits 10 (k * 10 ^ n)).length : Int) =
        (Nat.toDigits 10 k).length + n := by
      obtain ⟨hlow, hhigh⟩ := between_pow_length hk
      refine length_eq_of_between hpos ?_ ?_
      · rw [add_sub_right_comm, zpow_add₀ hten, zpow_natCast]
        push_cast
        exact mul_le_mul_of_nonneg_right hlow hpow.le
      · rw [zpow_add₀ hten, zpow_natCast]
        push_cast
        exact mul_lt_mul_of_pos_right hhigh hpow
    have hratio :
        ofRatio? negative (decimalRatio (k * 10 ^ n) e).1 (decimalRatio (k * 10 ^ n) e).2 =
          ofRatio? negative (decimalRatio k (e + n)).1 (decimalRatio k (e + n)).2 := by
      refine ofRatio?_congr (decimalRatio_pos _ _) (decimalRatio_pos _ _) ?_
      rw [decimalRatio_value, decimalRatio_value, zpow_add₀ hten, zpow_natCast]
      push_cast
      rw [mul_assoc, mul_comm ((10 : ℚ) ^ n)]
    rw [ofDecimal?_eq hpos, ofDecimal?_eq hk, hlength, hratio, add_assoc, add_comm (n : Int) e]

/-- What is near to a number that is not zero is between the bounds of all numbers. -/
theorem IsNear.between {x : Number} {r : ℚ} (hx : x.magnitude ≠ 0) (h : x.IsNear r) :
    (10 : ℚ) ^ (-324 : Int) < r ∧ r < 10 ^ (309 : Int) := by
  have hs : (1 : ℚ) ≤ x.significand := by exact_mod_cast x.significand_pos hx
  have hs' : (x.significand : ℚ) + 1 ≤ 2 ^ 53 := by exact_mod_cast x.significand_lt
  have hleast : 2 * 2 ^ 1074 ≤ 10 ^ 324 := by decide +kernel
  have hmost : 2 ^ 53 * 2 ^ 971 ≤ 10 ^ 309 := by decide +kernel
  constructor
  · have hleast : (2 * 2 ^ 1074 : ℚ) ≤ 10 ^ 324 := by exact_mod_cast hleast
    calc (10 : ℚ) ^ (-324 : Int) = (10 ^ 324)⁻¹ := by rw [zpow_neg]; rfl
      _ ≤ (2 * 2 ^ 1074)⁻¹ := inv_anti₀ (by positivity) hleast
      _ = 1 / 2 * 2 ^ (-1074 : Int) := by rw [zpow_neg, mul_inv, one_div]; rfl
      _ ≤ (x.significand - 1 / 2) * 2 ^ x.exponent :=
        mul_le_mul (by linarith) (zpow_le_zpow_right₀ one_le_two x.le_exponent) (by positivity)
          (by linarith)
      _ < r := h.below
  · calc r < (x.significand + 1 / 2) * 2 ^ x.exponent := h.above
      _ ≤ 2 ^ 53 * 2 ^ (971 : Int) :=
        mul_le_mul (by linarith) (zpow_le_zpow_right₀ one_le_two x.exponent_le) (by positivity)
          (by positivity)
      _ ≤ 10 ^ (309 : Int) := by exact_mod_cast hmost

/-- A decimal that is near to a number is rounded to it. -/
theorem ofDecimal?_of_isNear {x : Number} (hx : x.magnitude ≠ 0) (h : x.IsNear (k * 10 ^ e)) :
    ofDecimal? x.negative k e = some x := by
  have hten : (1 : ℚ) < 10 := by norm_num
  have hpow : (0 : ℚ) < 10 ^ e := zpow_pos (by norm_num) e
  obtain ⟨hlow, hhigh⟩ := h.between hx
  have hk : 0 < k := by
    have := pos_of_mul_pos_left ((zpow_pos (by norm_num) _).trans hlow) hpow.le
    exact_mod_cast this
  obtain ⟨hleast, hmost⟩ := between_pow_length hk
  have hle : ((Nat.toDigits 10 k).length : Int) - 1 + e < 309 := by
    refine (zpow_lt_zpow_iff_right₀ hten).mp (lt_of_le_of_lt ?_ hhigh)
    rw [zpow_add₀ (by norm_num)]
    exact mul_le_mul_of_nonneg_right hleast hpow.le
  have hge : -324 < ((Nat.toDigits 10 k).length : Int) + e := by
    refine (zpow_lt_zpow_iff_right₀ hten).mp (hlow.trans ?_)
    rw [zpow_add₀ (by norm_num)]
    exact mul_lt_mul_of_pos_right hmost hpow
  rw [ofDecimal?_eq hk, if_neg (by omega), if_neg (by omega)]
  refine ofRatio?_of_isNear ?_ (decimalRatio_pos k e) (by rwa [decimalRatio_value])
  cases e with
  | ofNat e => exact Nat.mul_pos hk (Nat.pow_pos (by decide))
  | negSucc e => exact hk

end

end RuleEngine.Number
