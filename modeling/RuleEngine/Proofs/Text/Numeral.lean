import RuleEngine.Proofs.Text.Blank
import RuleEngine.Text.Numeral
import Mathlib.Tactic.Tauto
import Mathlib.Tactic.Ring
import Mathlib.Tactic.GCongr

/-!
# The order of decimal numerals

Numbers that are written with the same count of digits are in the order of their texts, also if the
texts go on behind them. So the texts of records of padded numbers are in the order of the records.

## Main results

* `Text.lt_iff_digitsValue_lt`: texts of digits of one length are in the order of their numbers.
* `Text.padded_append_lt_iff`: texts that start with padded numbers are in the order of the
  numbers first.
* `Text.digitsValue_padded`: a padded number reads as the number.
-/

namespace RuleEngine.Text

/-! ### The number of a text of digits -/

theorem toNat_of_isDigit {c : Char} (h : isDigit c) : 48 ≤ c.toNat ∧ c.toNat ≤ 57 := by
  rw [isDigit, Bool.and_eq_true, decide_eq_true_eq, decide_eq_true_eq] at h
  exact h

theorem digitsValue_eq {ds : List Char} (h : ∀ c ∈ ds, isDigit c) :
    digitsValue ds = Nat.ofDigitChars 10 ds 0 := by
  have key (n : Nat) : ds.foldl (fun n c => 10 * n + (digitValue? c).getD 0) n =
      ds.foldl (fun n c => 10 * n + (c.toNat - '0'.toNat)) n := by
    induction ds generalizing n with
    | nil => rfl
    | cons c ds ih =>
      have hc : isDigit c := h c List.mem_cons_self
      rw [isDigit, Bool.and_eq_true, decide_eq_true_eq, decide_eq_true_eq] at hc
      rw [List.foldl_cons, List.foldl_cons, digitValue?, if_pos hc]
      exact ih (fun d hd => h d (List.mem_cons_of_mem _ hd)) _
  exact key 0

theorem digitsValue_cons {c : Char} {ds : List Char} (hc : isDigit c)
    (h : ∀ d ∈ ds, isDigit d) :
    digitsValue (c :: ds) = 10 ^ ds.length * (c.toNat - 48) + digitsValue ds := by
  have hcs : ∀ d ∈ c :: ds, isDigit d := List.forall_mem_cons.mpr ⟨hc, h⟩
  rw [digitsValue_eq hcs, digitsValue_eq h, Nat.ofDigitChars_cons,
    Nat.ofDigitChars_eq_ofDigitChars_zero]
  simp

theorem digitsValue_lt {ds : List Char} (h : ∀ c ∈ ds, isDigit c) :
    digitsValue ds < 10 ^ ds.length := by
  induction ds with
  | nil => decide
  | cons c ds ih =>
    obtain ⟨hc, hds⟩ := List.forall_mem_cons.mp h
    rw [digitsValue_cons hc hds, List.length_cons, Nat.pow_succ]
    have hv : c.toNat - 48 ≤ 9 := by
      have := toNat_of_isDigit hc
      omega
    calc 10 ^ ds.length * (c.toNat - 48) + digitsValue ds
      _ ≤ 10 ^ ds.length * 9 + digitsValue ds := by gcongr
      _ < 10 ^ ds.length * 9 + 10 ^ ds.length := by gcongr; exact ih hds
      _ = 10 ^ ds.length * 10 := by ring

/-- Texts of digits of one length are in the order of their numbers. -/
theorem lt_iff_digitsValue_lt {as bs : List Char} (hl : as.length = bs.length)
    (ha : ∀ c ∈ as, isDigit c) (hb : ∀ c ∈ bs, isDigit c) :
    as < bs ↔ digitsValue as < digitsValue bs := by
  induction as generalizing bs with
  | nil =>
    cases bs with
    | nil => simp
    | cons b bs => cases hl
  | cons a as ih =>
    cases bs with
    | nil => cases hl
    | cons b bs =>
      have hl : as.length = bs.length := Nat.succ.inj hl
      obtain ⟨ha, has⟩ := List.forall_mem_cons.mp ha
      obtain ⟨hb, hbs⟩ := List.forall_mem_cons.mp hb
      have hva := digitsValue_lt has
      have hvb := digitsValue_lt hbs
      have hna := toNat_of_isDigit ha
      have hnb := toNat_of_isDigit hb
      rw [List.cons_lt_cons_iff, ih hl has hbs, digitsValue_cons ha has, digitsValue_cons hb hbs,
        hl]
      rw [hl] at hva
      obtain hab | hab | hab := Nat.lt_trichotomy a.toNat b.toNat
      · have hn : a.toNat - 48 + 1 ≤ b.toNat - 48 := by omega
        have := Nat.mul_le_mul_left (10 ^ bs.length) hn
        rw [Nat.mul_succ] at this
        have hlt : a < b := hab
        simp only [hlt, true_or, true_iff]
        omega
      · obtain rfl : a = b := Char.toNat_inj.mp hab
        simp
      · have hn : b.toNat - 48 + 1 ≤ a.toNat - 48 := by omega
        have := Nat.mul_le_mul_left (10 ^ bs.length) hn
        rw [Nat.mul_succ] at this
        have hlt : ¬ a < b := Nat.lt_asymm hab
        have hne : a ≠ b := fun h => hab.ne' (congrArg Char.toNat h)
        simp only [hlt, hne, false_and, or_self, false_iff]
        omega

theorem digitsValue_append {as bs : List Char} (h : ∀ c ∈ as ++ bs, isDigit c) :
    digitsValue (as ++ bs) = digitsValue as * 10 ^ bs.length + digitsValue bs := by
  obtain ⟨ha, hb⟩ := List.forall_mem_append.mp h
  rw [digitsValue_eq h, digitsValue_eq ha, digitsValue_eq hb, Nat.ofDigitChars_append,
    Nat.ofDigitChars_eq_ofDigitChars_zero, Nat.mul_comm]

theorem isDigit_of_mem_replicate_zero {n : Nat} : ∀ c ∈ List.replicate n '0', isDigit c := by
  intro c hc
  rw [List.eq_of_mem_replicate hc]
  rfl

theorem digitsValue_replicate_zero (n : Nat) : digitsValue (List.replicate n '0') = 0 := by
  rw [digitsValue_eq isDigit_of_mem_replicate_zero, Nat.ofDigitChars_replicate_zero, Nat.mul_zero]

/-- Zeros in front of a number do not change it, and at its end they multiply it by ten. -/
theorem digitsValue_zeros_append (n : Nat) {ds : List Char} (h : ∀ c ∈ ds, isDigit c) :
    digitsValue (List.replicate n '0' ++ ds) = digitsValue ds := by
  rw [digitsValue_append (List.forall_mem_append.mpr ⟨isDigit_of_mem_replicate_zero, h⟩),
    digitsValue_replicate_zero, Nat.zero_mul, Nat.zero_add]

theorem digitsValue_append_zeros (n : Nat) {ds : List Char} (h : ∀ c ∈ ds, isDigit c) :
    digitsValue (ds ++ List.replicate n '0') = digitsValue ds * 10 ^ n := by
  rw [digitsValue_append (List.forall_mem_append.mpr ⟨h, isDigit_of_mem_replicate_zero⟩),
    digitsValue_replicate_zero, List.length_replicate, Nat.add_zero]

/-- The digits in front of a text that does not start with a digit. -/
theorem takeWhile_digits_append {ds cs : List Char} (h : ∀ c ∈ ds, isDigit c)
    (hc : ∀ c ∈ cs.head?, isDigit c = false) : (ds ++ cs).takeWhile isDigit = ds := by
  rw [List.takeWhile_append_of_pos h]
  cases cs with
  | nil => rw [List.takeWhile_nil, List.append_nil]
  | cons c cs => rw [List.takeWhile_cons_of_neg (by simp [hc c rfl]), List.append_nil]

theorem dropWhile_digits_append {ds cs : List Char} (h : ∀ c ∈ ds, isDigit c)
    (hc : ∀ c ∈ cs.head?, isDigit c = false) : (ds ++ cs).dropWhile isDigit = cs := by
  rw [List.dropWhile_append_of_pos h]
  cases cs with
  | nil => rfl
  | cons c cs => rw [List.dropWhile_cons_of_neg (by simp [hc c rfl])]

/-! ### The digits of a number -/

theorem isDigit_of_mem_decimal {n : Nat} {c : Char} (h : c ∈ decimal n) : isDigit c :=
  Nat.isDigit_of_mem_toDigits (by decide) (by decide) h

theorem digitsValue_decimal {n : Nat} : digitsValue (decimal n) = n := by
  rw [digitsValue_eq fun c => isDigit_of_mem_decimal, decimal, Nat.ofDigitChars_ten_toDigits]

/-- A number that is not zero does not start with the digit zero. -/
theorem decimal_eq_cons {n : Nat} (hn : 0 < n) : ∃ c cs, decimal n = c :: cs ∧ c ≠ '0' := by
  obtain ⟨c, cs, hcs⟩ := List.exists_cons_of_ne_nil (Nat.toDigits_ne_nil (b := 10) (n := n))
  refine ⟨c, cs, hcs, ?_⟩
  rintro rfl
  have hdigits : ∀ d ∈ '0' :: cs, isDigit d := fun d hd => isDigit_of_mem_decimal (hcs ▸ hd)
  have hvalue : n = digitsValue cs := by
    rw [← digitsValue_decimal (n := n), decimal, hcs,
      digitsValue_cons rfl (List.forall_mem_cons.mp hdigits).2]
    simp
  have hlt := digitsValue_lt (List.forall_mem_cons.mp hdigits).2
  rw [← hvalue] at hlt
  rcases Nat.eq_zero_or_pos cs.length with hl | hl
  · rw [hl] at hlt
    omega
  · have hle := (Nat.length_toDigits_le_iff (by decide) hl).mpr hlt
    rw [hcs, List.length_cons] at hle
    omega

/-! ### Padded numbers -/

variable {w m n : Nat}

theorem length_padded (hw : 0 < w) (hn : n < 10 ^ w) : (padded w n).length = w := by
  have : (decimal n).length ≤ w := (Nat.length_toDigits_le_iff (by decide) hw).mpr hn
  rw [padded, List.length_append, List.length_replicate]
  omega

@[simp] theorem isEmpty_padded : (padded w n).isEmpty = false := by
  have : decimal n ≠ [] := Nat.toDigits_ne_nil
  simp [padded, this]

theorem isDigit_of_mem_padded {c : Char} (h : c ∈ padded w n) : isDigit c := by
  rcases List.mem_append.mp h with h | h
  · rw [List.eq_of_mem_replicate h]
    rfl
  · exact Nat.isDigit_of_mem_toDigits (by decide) (by decide) h

/-- A padded number reads as the number. -/
@[simp] theorem digitsValue_padded : digitsValue (padded w n) = n := by
  rw [digitsValue_eq fun c => isDigit_of_mem_padded, padded, decimal, Nat.ofDigitChars_append,
    Nat.ofDigitChars_replicate_zero, Nat.mul_zero, Nat.ofDigitChars_ten_toDigits]

/-- Texts that go on behind parts of one length are in the order of the parts first. -/
theorem append_lt_append_iff {as bs cs ds : List Char} (hl : as.length = bs.length) :
    as ++ cs < bs ++ ds ↔ as < bs ∨ as = bs ∧ cs < ds := by
  induction as generalizing bs with
  | nil =>
    obtain rfl : bs = [] := List.length_eq_zero_iff.mp hl.symm
    simp
  | cons a as ih =>
    cases bs with
    | nil => cases hl
    | cons b bs =>
      rw [List.cons_append, List.cons_append, List.cons_lt_cons_iff, List.cons_lt_cons_iff,
        ih (Nat.succ.inj hl), List.cons.injEq]
      tauto

/-- Padded numbers are in the order of the numbers. -/
theorem padded_append_lt_iff {cs ds : List Char} (hw : 0 < w) (hm : m < 10 ^ w)
    (hn : n < 10 ^ w) : padded w m ++ cs < padded w n ++ ds ↔ m < n ∨ m = n ∧ cs < ds := by
  have hl : (padded w m).length = (padded w n).length := by
    rw [length_padded hw hm, length_padded hw hn]
  have heq : padded w m = padded w n ↔ m = n := by
    constructor
    · intro h
      simpa using congrArg digitsValue h
    · rintro rfl
      rfl
  rw [append_lt_append_iff hl, heq, lt_iff_digitsValue_lt hl (fun _ => isDigit_of_mem_padded)
    fun _ => isDigit_of_mem_padded, digitsValue_padded, digitsValue_padded]

/-! ### Padded numbers in front of a text -/

theorem isBlank_of_isDigit {c : Char} (h : isDigit c) : isBlank c = false := by
  have := toNat_of_isDigit h
  simp [isBlank]
  omega

theorem padded_eq_cons (hw : 0 < w) (hn : n < 10 ^ w) :
    ∃ c cs, padded w n = c :: cs ∧ isDigit c := by
  cases h : padded w n with
  | nil =>
    have := length_padded hw hn
    rw [h, List.length_nil] at this
    omega
  | cons c cs =>
    refine ⟨c, cs, rfl, isDigit_of_mem_padded (w := w) (n := n) ?_⟩
    rw [h]
    exact List.mem_cons_self

theorem trimStart_padded_append (hw : 0 < w) (hn : n < 10 ^ w) (cs : List Char) :
    trimStart (padded w n ++ cs) = padded w n ++ cs := by
  obtain ⟨c, ds, hp, hc⟩ := padded_eq_cons hw hn
  rw [hp, List.cons_append, trimStart_cons (isBlank_of_isDigit hc)]

theorem takeWhile_padded : (padded w n).takeWhile isDigit = padded w n :=
  calc (padded w n).takeWhile isDigit
    _ = (padded w n ++ []).takeWhile isDigit := by rw [List.append_nil]
    _ = padded w n ++ [].takeWhile isDigit :=
      List.takeWhile_append_of_pos fun _ => isDigit_of_mem_padded
    _ = padded w n := List.append_nil _

theorem takeWhile_padded_append {c : Char} (hc : isDigit c = false) (cs : List Char) :
    (padded w n ++ c :: cs).takeWhile isDigit = padded w n := by
  rw [List.takeWhile_append_of_pos fun _ => isDigit_of_mem_padded, List.takeWhile_cons, hc]
  simp

end RuleEngine.Text
