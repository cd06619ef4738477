import Mathlib.Data.List.TakeWhile
import RuleEngine.Number.Shortest
import RuleEngine.Proofs.Number.Rounding
import RuleEngine.Proofs.Text.Numeral

/-!
# Shortest decimals are read back

On the grid of seventeen digits the point nearest to a double is nearer to it than half the distance
to its neighbours, so it is rounded to it. So the search for the shortest decimal does not go on in
vain, and what it finds is read as the double, with the zeros at its end or without them.

## Main definitions

* `Decimal.Denotes`: a decimal with a number that it is read as.

## Main results

* `Number.isNear_of_grid`: seventeen digits suffice.
* `Number.shortest_denotes`: the shortest decimal is read as the number.
-/

namespace RuleEngine

namespace Number

variable {x : Number}

/-! ### The size of a number -/

theorem ratio_pos (x : Number) : 0 < x.ratio.2 := by
  unfold ratio
  split
  · exact Nat.one_pos
  · rw [Nat.shiftLeft_eq, Nat.one_mul]
    exact Nat.pow_pos (by decide)

/-- The fraction of a number has its absolute value. -/
theorem ratio_value (x : Number) : (x.ratio.1 : ℚ) / x.ratio.2 = x.absolute := by
  unfold ratio absolute
  split
  · next q hq => simp [hq, Nat.shiftLeft_eq]
  · next q hq => simp [hq, Nat.shiftLeft_eq, zpow_negSucc, div_eq_mul_inv]

/-- The length of a quotient that is scaled by a power of ten tells a power of ten that the quotient
is not below. -/
theorem pow_length_le {num den scale e : Nat} (hs : scale ≤ 10 ^ e) (hd : 0 < den)
    (h : den ≤ num * scale) :
    (10 : ℚ) ^ (((Nat.toDigits 10 (num * scale / den)).length : Int) - (e + 1)) ≤ num / den := by
  have hd' : (0 : ℚ) < den := by exact_mod_cast hd
  have hle : ((num * scale / den : Nat) : ℚ) ≤ num / den * 10 ^ e := by
    rw [div_mul_eq_mul_div, le_div_iff₀ hd']
    exact_mod_cast (Nat.div_mul_le_self (num * scale) den).trans (Nat.mul_le_mul_left num hs)
  rw [add_comm (e : Int), ← sub_sub, zpow_sub₀ (by norm_num), zpow_natCast,
    div_le_iff₀ (by positivity)]
  exact (between_pow_length (Nat.div_pos h hd)).1.trans hle

/-- A number that is not zero is not below the power of ten of its leading place. -/
theorem pow_leadingPlace_le (hx : x.magnitude ≠ 0) : (10 : ℚ) ^ x.leadingPlace ≤ x.absolute := by
  have hsmall : 2 ^ 1074 ≤ Nat.pow 10 330 := by decide +kernel
  have hd : (0 : ℚ) < x.ratio.2 := by exact_mod_cast x.ratio_pos
  have hs : (1 : ℚ) ≤ x.significand := by exact_mod_cast x.significand_pos hx
  have habsolute : (2 ^ 1074 : ℚ)⁻¹ ≤ x.absolute := by
    calc (2 ^ 1074 : ℚ)⁻¹ = 1 * 2 ^ (-1074 : Int) := by rw [zpow_neg, one_mul]; rfl
      _ ≤ x.absolute := mul_le_mul hs (zpow_le_zpow_right₀ one_le_two x.le_exponent)
          (by positivity) (by linarith)
  have hplace : x.leadingPlace =
      ((Nat.toDigits 10 (x.ratio.1 * Nat.pow 10 330 / x.ratio.2)).length : Int) -
        ((330 : Nat) + 1) := rfl
  rw [← x.ratio_value] at habsolute ⊢
  have hle : x.ratio.2 ≤ x.ratio.1 * 2 ^ 1074 := by
    rw [inv_le_iff_one_le_mul₀ (by positivity), div_mul_eq_mul_div, le_div_iff₀ hd,
      one_mul] at habsolute
    exact_mod_cast habsolute
  have hle := hle.trans (Nat.mul_le_mul_left x.ratio.1 hsmall)
  rw [hplace]
  exact pow_length_le (e := 330) (by decide +kernel) x.ratio_pos hle

/-- A decimal of seventeen digits that is nearest to a number is rounded to it: its distance is at
most half a unit of the last of these digits, and the number has only 53 bits. -/
theorem isNear_of_grid (hx : x.magnitude ≠ 0) {r : ℚ}
    (hr : |r - x.absolute| ≤ 10 ^ (x.leadingPlace - 16) / 2) : x.IsNear r := by
  have hpow : (0 : ℚ) < 2 ^ x.exponent := zpow_pos two_pos _
  have hunit : ((exponentUnit : Nat) : ℚ) = 2 ^ 52 := by norm_num [exponentUnit]
  have hdistance : |r - x.absolute| ≤ x.significand / (2 * 10 ^ 16) * 2 ^ x.exponent := by
    refine hr.trans ?_
    calc (10 : ℚ) ^ (x.leadingPlace - 16) / 2 = 10 ^ x.leadingPlace / 10 ^ 16 / 2 := by
          rw [zpow_sub₀ (by norm_num)]; rfl
      _ ≤ x.absolute / 10 ^ 16 / 2 := by gcongr; exact pow_leadingPlace_le hx
      _ = x.significand / (2 * 10 ^ 16) * 2 ^ x.exponent := by rw [absolute]; ring
  have hless {c : ℚ} (hc : (x.significand : ℚ) / (2 * 10 ^ 16) < c) :
      (x.significand - c) * 2 ^ x.exponent < r ∧ r < (x.significand + c) * 2 ^ x.exponent := by
    have hlt := hdistance.trans_lt (mul_lt_mul_of_pos_right hc hpow)
    rw [abs_lt, absolute] at hlt
    rw [sub_mul, add_mul]
    exact ⟨by linarith [hlt.1], by linarith [hlt.2]⟩
  have hs : (x.significand : ℚ) < 2 ^ 53 := by exact_mod_cast x.significand_lt
  obtain ⟨hbelow, habove⟩ := hless (c := 1 / 2) (by linarith)
  refine ⟨habove, hbelow, fun hbinade => (hless ?_).1⟩
  rw [hbinade, hunit]
  norm_num

/-! ### The search -/

/-- The units below a fraction and what is left over make up the fraction. -/
theorem unitsBelow_value (num : Nat) {den : Nat} (hd : 0 < den) (place : Int) :
    (unitsBelow num den place).2.1 < (unitsBelow num den place).2.2 ∧
      ((unitsBelow num den place).1 + (unitsBelow num den place).2.1 /
        (unitsBelow num den place).2.2 : ℚ) * 10 ^ place = num / den := by
  have hsplit {a u : Nat} (hu : 0 < u) : ((a / u : Nat) : ℚ) + (a % u : Nat) / u = a / u := by
    have hu' : (u : ℚ) ≠ 0 := by exact_mod_cast hu.ne'
    rw [eq_div_iff hu', add_mul, div_mul_cancel₀ _ hu']
    exact_mod_cast Nat.div_add_mod' a u
  have hd' : (den : ℚ) ≠ 0 := by exact_mod_cast hd.ne'
  cases place with
  | ofNat p =>
    have hunit : 0 < den * 10 ^ p := Nat.mul_pos hd (Nat.pow_pos (by decide))
    refine ⟨Nat.mod_lt _ hunit, ?_⟩
    calc _ = (num : ℚ) / (den * 10 ^ p : Nat) * 10 ^ (p : Int) := congrArg (· * _) (hsplit hunit)
      _ = num / den := by
        rw [zpow_natCast]
        push_cast
        field_simp
  | negSucc p =>
    refine ⟨Nat.mod_lt _ hd, ?_⟩
    calc _ = ((num * 10 ^ (p + 1) : Nat) : ℚ) / den * 10 ^ Int.negSucc p :=
          congrArg (· * _) (hsplit hd)
      _ = num / den := by
        rw [zpow_negSucc]
        push_cast
        field_simp

/-- The two points around a number, the nearer one first. -/
def around (tie : Tie) (below left unit : Nat) : Nat × Nat :=
  if unit < 2 * left || (unit == 2 * left && (tie == .up || below % 2 == 1)) then
    (below + 1, below)
  else (below, below + 1)

/-- The nearer one of the two points is at most half a unit away. -/
theorem abs_around_sub_le (tie : Tie) (below : Nat) {left unit : Nat} (h : left < unit) :
    |((around tie below left unit).1 : ℚ) - (below + left / unit)| ≤ 1 / 2 := by
  have hunit : (0 : ℚ) < unit := by exact_mod_cast (Nat.zero_le _).trans_lt h
  have hone : (left : ℚ) / unit ≤ 1 := (div_le_one₀ hunit).mpr (by exact_mod_cast h.le)
  have hzero : (0 : ℚ) ≤ left / unit := div_nonneg (Nat.cast_nonneg _) hunit.le
  rw [abs_le, around]
  split
  · next hupper =>
    have hhalf : (1 : ℚ) / 2 ≤ left / unit := by
      have : unit ≤ 2 * left := by
        simp only [Bool.or_eq_true, Bool.and_eq_true, decide_eq_true_eq, beq_iff_eq] at hupper
        omega
      rw [div_le_div_iff₀ two_pos hunit]
      exact_mod_cast (by omega : 1 * unit ≤ left * 2)
    push_cast
    exact ⟨by linarith, by linarith⟩
  · next hlower =>
    have hhalf : (left : ℚ) / unit ≤ 1 / 2 := by
      have : 2 * left ≤ unit := by
        simp only [Bool.or_eq_true, decide_eq_true_eq, not_or] at hlower
        omega
      rw [div_le_div_iff₀ hunit two_pos]
      exact_mod_cast (by omega : left * 2 ≤ 1 * unit)
    exact ⟨by linarith, by linarith⟩

/-- The two points of a grid around a number, the nearer one first. -/
def neighbours (tie : Tie) (x : Number) (place : Int) : Nat × Nat :=
  around tie (unitsBelow x.ratio.1 x.ratio.2 place).1 (unitsBelow x.ratio.1 x.ratio.2 place).2.1
    (unitsBelow x.ratio.1 x.ratio.2 place).2.2

theorem neighbours_near (tie : Tie) (x : Number) (place : Int) :
    |((neighbours tie x place).1 : ℚ) * 10 ^ place - x.absolute| ≤ 10 ^ place / 2 := by
  obtain ⟨hleft, hvalue⟩ := unitsBelow_value x.ratio.1 x.ratio_pos place
  have hpow : (0 : ℚ) < 10 ^ place := zpow_pos (by norm_num) place
  have hnear := mul_le_mul_of_nonneg_right
    (abs_around_sub_le tie (unitsBelow x.ratio.1 x.ratio.2 place).1 hleft) hpow.le
  rw [← neighbours] at hnear
  rw [← x.ratio_value, ← hvalue, ← sub_mul, abs_mul, abs_of_pos hpow]
  exact hnear.trans_eq (one_div_mul_eq_div _ _)

theorem onGrid?_eq (tie : Tie) (x : Number) (place : Int) : onGrid? tie x place =
    if ofDecimal? x.negative (neighbours tie x place).1 place == some x then
      some (neighbours tie x place).1
    else if ofDecimal? x.negative (neighbours tie x place).2 place == some x then
      some (neighbours tie x place).2
    else none := rfl

/-- What is found on a grid is read as the number. -/
theorem ofDecimal?_of_onGrid? {tie : Tie} {place : Int} {k : Nat}
    (h : onGrid? tie x place = some k) : ofDecimal? x.negative k place = some x := by
  rw [onGrid?_eq] at h
  split at h
  · next hback =>
    cases h
    exact beq_iff_eq.mp hback
  · split at h
    · next hback =>
      cases h
      exact beq_iff_eq.mp hback
    · cases h

theorem ofDecimal?_of_searchGrids {tie : Tie} {lead place : Int} {fuel n k : Nat}
    (h : searchGrids tie x lead fuel n = some (k, place)) :
    ofDecimal? x.negative k place = some x := by
  induction fuel generalizing n with
  | zero => cases h
  | succ fuel ih =>
    rw [searchGrids] at h
    split at h
    · next hgrid =>
      cases h
      exact ofDecimal?_of_onGrid? hgrid
    · exact ih h

/-- The search ends where a grid holds a point that is read as the number. -/
theorem exists_searchGrids {tie : Tie} {lead : Int} {fuel n m k : Nat} (hn : n ≤ m)
    (hm : m < n + fuel) (h : onGrid? tie x (lead + 1 - m) = some k) :
    ∃ found, searchGrids tie x lead fuel n = some found := by
  induction fuel generalizing n with
  | zero => omega
  | succ fuel ih =>
    rw [searchGrids]
    split
    · exact ⟨_, rfl⟩
    · next hnone =>
      refine ih (Nat.lt_of_le_of_ne hn fun heq => ?_) (by omega)
      rw [heq, h] at hnone
      cases hnone

/-- On the grid of seventeen digits a point is found. -/
theorem exists_onGrid? (hx : x.magnitude ≠ 0) (tie : Tie) :
    ∃ k, onGrid? tie x (x.leadingPlace + 1 - (17 : Nat)) = some k := by
  have hplace : x.leadingPlace + 1 - (17 : Nat) = x.leadingPlace - 16 := by omega
  have hback := ofDecimal?_of_isNear hx (isNear_of_grid hx (neighbours_near tie x _))
  rw [hplace, onGrid?_eq]
  exact ⟨_, if_pos (beq_iff_eq.mpr hback)⟩

/-! ### The decimal that is found -/

end Number

/-- What a decimal has to be to stand for a number that is not zero: its digits do not start with
zeros, and it is read as the number. -/
structure Decimal.Denotes (d : Decimal) (x : Number) : Prop where
  isDigit : ∀ c ∈ d.digits, Text.isDigit c
  head : ∃ c cs, d.digits = c :: cs ∧ c ≠ '0'
  read : Number.ofDecimal? x.negative (Text.digitsValue d.digits) (d.point - d.digits.length) =
    some x

namespace Number

variable {x : Number}

/-- A decimal that is read as a number is so without the zeros at its end. -/
theorem decimalOf_denotes (hx : x.magnitude ≠ 0) {k : Nat} {place : Int}
    (h : ofDecimal? x.negative k place = some x) : (decimalOf k place).Denotes x := by
  have hk : 0 < k := by
    refine Nat.pos_of_ne_zero fun hk => hx ?_
    rw [hk, ofDecimal?.eq_def, if_pos rfl] at h
    exact (congrArg magnitude (Option.some.inj h)).symm
  obtain ⟨kept, z, hkept, hsplit⟩ : ∃ kept z, (decimalOf k place).digits = kept ∧
      Text.decimal k = kept ++ List.replicate z '0' := by
    let zeros := (Text.decimal k).reverse.takeWhile (· == '0')
    have hzeros : zeros = List.replicate zeros.length '0' :=
      List.eq_replicate_of_mem fun c hc =>
        beq_iff_eq.mp (List.mem_takeWhile_imp (p := (· == '0')) hc)
    refine ⟨_, zeros.length, rfl, ?_⟩
    rw [← List.reverse_inj, List.reverse_append, List.reverse_replicate, ← hzeros, decimalOf]
    dsimp only
    rw [List.reverse_reverse]
    exact List.takeWhile_append_dropWhile.symm
  have hdigits : ∀ c ∈ kept ++ List.replicate z '0', Text.isDigit c := fun c hc =>
    Text.isDigit_of_mem_decimal (hsplit ▸ hc)
  have hvalue : k = Text.digitsValue kept * 10 ^ z := by
    rw [← Text.digitsValue_decimal (n := k), hsplit,
      Text.digitsValue_append_zeros z (List.forall_mem_append.mp hdigits).1]
  have hpoint : (decimalOf k place).point = (kept.length + z : Nat) + place := by
    have : (Text.decimal k).length = kept.length + z := by simp [hsplit]
    rw [← this]
    rfl
  refine ⟨fun c hc => hdigits c (List.mem_append_left _ (hkept ▸ hc)), ?_, ?_⟩
  · obtain ⟨c, cs, hcs, hc⟩ := Text.decimal_eq_cons hk
    cases kept with
    | nil =>
      rw [Text.digitsValue, List.foldl_nil, Nat.zero_mul] at hvalue
      omega
    | cons d kept =>
      rw [hcs, List.cons_append] at hsplit
      cases hsplit
      exact ⟨c, kept, hkept, hc⟩
  · have hexponent : (kept.length + z : Nat) + place - kept.length = place + z := by omega
    rw [hkept, hpoint, hexponent, ← ofDecimal?_mul_pow, ← hvalue]
    exact h

/-- The shortest decimal is read as the number. -/
theorem shortest_denotes (hx : x.magnitude ≠ 0) (tie : Tie) : (x.shortest tie).Denotes x := by
  obtain ⟨k, hk⟩ := exists_onGrid? hx tie
  obtain ⟨⟨k, place⟩, hfound⟩ : ∃ found, searchGrids tie x x.leadingPlace 17 1 = some found :=
    exists_searchGrids (by decide) (by decide) hk
  rw [shortest, if_neg hx, hfound]
  exact decimalOf_denotes hx (ofDecimal?_of_searchGrids hfound)

end Number

end RuleEngine
