import RuleEngine.Json.Printer
import RuleEngine.Json.Reader
import RuleEngine.Proofs.Number.Shortest

/-!
# Numbers in JSON text

A number is spelt by a sign, the digits before the point, those behind it and an exponent. The
reader takes these parts from a text that goes on with something else, and what it makes of them is
the integer or the double that was written: of a double the digits are those of its shortest
decimal, with zeros that do not change what they stand for.

## Main definitions

* `NumberParts`: the parts that spell a number.
* `Json.Spells`: a text that spells a number, with its parts and what they denote.

## Main results

* `Json.readNumber_text`: the reader takes the parts of a number from its text.
* `Json.exists_spells_int`, `Json.numberOf_of_isMachineInt`: an integer of 64 bits is read as it was
  written.
* `Json.exists_spells_float`: so is a double.
-/

namespace RuleEngine

/-- The parts that spell a number. -/
structure NumberParts where
  negative : Bool
  whole : List Char
  fraction : List Char
  exponent : Option Int

namespace NumberParts

/-- The text of an exponent, with its sign. -/
def exponentText : Option Int → List Char
  | none => []
  | some e => (if e < 0 then ['e', '-'] else ['e', '+']) ++ Text.decimal e.natAbs

/-- The text of a number. -/
def text (p : NumberParts) : List Char :=
  (if p.negative then ['-'] else []) ++ (p.whole ++
    ((if p.fraction.isEmpty then [] else '.' :: p.fraction) ++ exponentText p.exponent))

/-- Whether parts are those of a number as JSON has it: digits, of which zero does not come first
before others. -/
structure IsSound (p : NumberParts) : Prop where
  whole : ∀ c ∈ p.whole, Text.isDigit c
  fraction : ∀ c ∈ p.fraction, Text.isDigit c
  head : p.whole = ['0'] ∨ ∃ c cs, p.whole = c :: cs ∧ c ≠ '0'

end NumberParts

namespace Json

/-- Whether a text goes on with what may follow a value: nothing, or a mark that ends it. -/
def IsClosed (rest : List Char) : Prop :=
  ∀ c ∈ rest.head?, c = ',' ∨ c = ']' ∨ c = '}'

theorem isClosed_nil : IsClosed [] := by
  rintro c ⟨⟩

theorem IsClosed.not_isDigit {rest : List Char} (h : IsClosed rest) :
    ∀ c ∈ rest.head?, Text.isDigit c = false := by
  intro c hc
  rcases h c hc with rfl | rfl | rfl <;> rfl

/-! ### The parts of a text -/

theorem readFraction_append {fraction rest : List Char} (h : ∀ c ∈ fraction, Text.isDigit c)
    (hr : ∀ c ∈ rest.head?, Text.isDigit c = false ∧ c ≠ '.') :
    readFraction ((if fraction.isEmpty then [] else '.' :: fraction) ++ rest) =
      some (fraction, rest) := by
  cases fraction with
  | nil =>
    cases rest with
    | nil => rfl
    | cons c rest =>
      have hc := (hr c rfl).2
      simp only [List.isEmpty_nil, if_true, List.nil_append]
      unfold readFraction
      split
      · next heq =>
        cases heq
        exact absurd rfl hc
      · rfl
  | cons d ds =>
    have hr := fun c hc => (hr c hc).1
    simp only [List.isEmpty_cons, Bool.false_eq_true, if_false, List.cons_append]
    rw [← List.cons_append, readFraction]
    simp only [Text.takeWhile_digits_append h hr, Text.dropWhile_digits_append h hr]
    rfl

theorem readExponent_append {exponent : Option Int} {rest : List Char} (hr : IsClosed rest) :
    readExponent (NumberParts.exponentText exponent ++ rest) = some (exponent, rest) := by
  have hdigits (n : Nat) : ∀ c ∈ Text.decimal n, Text.isDigit c := fun c =>
    Text.isDigit_of_mem_decimal
  cases exponent with
  | none =>
    cases rest with
    | nil => rfl
    | cons c rest => rcases hr c rfl with rfl | rfl | rfl <;> rfl
  | some e =>
    have hne : (Text.decimal e.natAbs).isEmpty = false := by
      rw [List.isEmpty_eq_false_iff]
      exact Nat.toDigits_ne_nil
    have hread := Text.takeWhile_digits_append (hdigits e.natAbs) hr.not_isDigit
    have hdrop := Text.dropWhile_digits_append (hdigits e.natAbs) hr.not_isDigit
    by_cases he : e < 0
    · have hvalue : -1 * (e.natAbs : Int) = e := by omega
      simp only [NumberParts.exponentText, he, if_true, List.cons_append, List.nil_append,
        readExponent, hread, hdrop, hne, Bool.false_eq_true, if_false, Text.digitsValue_decimal,
        hvalue]
    · have hvalue : 1 * (e.natAbs : Int) = e := by omega
      simp only [NumberParts.exponentText, he, if_false, List.cons_append, List.nil_append,
        readExponent, hread, hdrop, hne, Bool.false_eq_true, Text.digitsValue_decimal,
        hvalue]

/-- The parts of a number in front of a text that goes on behind it. -/
theorem readNumber_eq (negative : Bool) {whole rest : List Char}
    (hw : ∀ c ∈ whole, Text.isDigit c) (hh : whole = ['0'] ∨ ∃ c cs, whole = c :: cs ∧ c ≠ '0')
    (hr : ∀ c ∈ rest.head?, Text.isDigit c = false) :
    readNumber ((if negative then ['-'] else []) ++ (whole ++ rest)) =
      (readFraction rest).bind fun (fraction, rest) =>
        (readExponent rest).bind fun (exponent, rest) =>
          some (numberOf negative whole fraction exponent, rest) := by
  have hhead : (whole.isEmpty || (whole.head? == some '0' && decide (1 < whole.length))) =
      false := by
    rcases hh with rfl | ⟨c, cs, rfl, hc⟩
    · rfl
    · simp [hc]
  obtain ⟨c, cs, hwhole⟩ : ∃ c cs, whole = c :: cs := by
    rcases hh with rfl | ⟨c, cs, rfl, -⟩
    · exact ⟨_, _, rfl⟩
    · exact ⟨_, _, rfl⟩
  unfold readNumber
  split
  next sign body hsign =>
  obtain ⟨rfl, rfl⟩ : sign = negative ∧ body = whole ++ rest := by
    cases negative with
    | true =>
      cases hsign
      exact ⟨rfl, rfl⟩
    | false =>
      have hc := hw c (hwhole ▸ List.mem_cons_self)
      rw [hwhole] at hsign ⊢
      simp only [Bool.false_eq_true, if_false, List.nil_append, List.cons_append] at hsign
      split at hsign
      · next heq =>
        cases heq
        cases hc
      · cases hsign
        exact ⟨rfl, rfl⟩
  dsimp only
  rw [Text.takeWhile_digits_append hw hr, Text.dropWhile_digits_append hw hr, hhead]
  rfl

/-- The reader takes the parts of a number from its text. -/
theorem readNumber_text {p : NumberParts} (hp : p.IsSound) {rest : List Char}
    (hr : IsClosed rest) : readNumber (p.text ++ rest) =
      some (numberOf p.negative p.whole p.fraction p.exponent, rest) := by
  have hexponent : ∀ c ∈ (NumberParts.exponentText p.exponent ++ rest).head?,
      Text.isDigit c = false ∧ c ≠ '.' := by
    intro c hc
    cases he : p.exponent with
    | none =>
      rw [he] at hc
      rcases hr c hc with rfl | rfl | rfl <;> decide
    | some e =>
      rw [he] at hc
      obtain rfl : c = 'e' := by
        by_cases hneg : e < 0 <;> simpa [NumberParts.exponentText, hneg, eq_comm] using hc
      decide
  have hfraction : ∀ c ∈ ((if p.fraction.isEmpty then [] else '.' :: p.fraction) ++
      (NumberParts.exponentText p.exponent ++ rest)).head?, Text.isDigit c = false := by
    intro c hc
    by_cases hempty : p.fraction.isEmpty
    · rw [if_pos hempty] at hc
      exact (hexponent c hc).1
    · rw [if_neg hempty] at hc
      cases hc
      rfl
  rw [NumberParts.text, List.append_assoc, List.append_assoc, List.append_assoc,
    readNumber_eq p.negative hp.whole hp.head hfraction,
    readFraction_append hp.fraction hexponent]
  simp only [Option.bind_some, readExponent_append hr]

/-- Whether a text spells a number by its parts, and they denote it. -/
structure Spells (p : NumberParts) (j : Json) (text : List Char) : Prop where
  isSound : p.IsSound
  text_eq : text = p.text
  value : numberOf p.negative p.whole p.fraction p.exponent = j

/-- What is spelt is read. -/
theorem Spells.readNumber_append {p : NumberParts} {j : Json} {text rest : List Char}
    (h : Spells p j text) (hr : IsClosed rest) : readNumber (text ++ rest) = some (j, rest) := by
  rw [h.text_eq, readNumber_text h.isSound hr, h.value]

/-- The text of a number starts with its sign or a digit. -/
theorem Spells.exists_cons {p : NumberParts} {j : Json} {text : List Char} (h : Spells p j text) :
    ∃ c cs, text = c :: cs ∧ (c = '-' ∨ Text.isDigit c) := by
  rw [h.text_eq, NumberParts.text]
  obtain ⟨c, cs, hwhole⟩ : ∃ c cs, p.whole = c :: cs := by
    rcases h.isSound.head with hw | ⟨c, cs, hw, -⟩
    · exact ⟨_, _, hw⟩
    · exact ⟨_, _, hw⟩
  cases p.negative with
  | true => exact ⟨_, _, rfl, .inl rfl⟩
  | false =>
    rw [hwhole]
    exact ⟨c, _, rfl, .inr (h.isSound.whole c (hwhole ▸ List.mem_cons_self))⟩

/-! ### Integers -/

/-- The text of an integer spells what its digits denote. -/
theorem exists_spells_int (i : Int) : ∃ p,
    Spells p (numberOf (i < 0) (Text.decimal i.natAbs) [] none) (Text.decimalInt i) := by
  refine ⟨⟨i < 0, Text.decimal i.natAbs, [], none⟩,
    ⟨fun c => Text.isDigit_of_mem_decimal, fun _ h => (List.not_mem_nil h).elim, ?_⟩, ?_, rfl⟩
  · rcases Nat.eq_zero_or_pos i.natAbs with h | h
    · exact .inl (congrArg Text.decimal h)
    · exact .inr (Text.decimal_eq_cons h)
  · cases i with
    | ofNat n => simp [Text.decimalInt, NumberParts.text, NumberParts.exponentText]
    | negSucc n => simp [Text.decimalInt, NumberParts.text, NumberParts.exponentText]

/-- Whether an integer is one that 64 bits hold, with a sign or without one. -/
def IsMachineInt (i : Int) : Prop := -0x8000000000000000 ≤ i ∧ i < 0x10000000000000000

theorem numberOf_of_isMachineInt {i : Int} (h : IsMachineInt i) :
    numberOf (i < 0) (Text.decimal i.natAbs) [] none = .int i := by
  obtain ⟨hlow, hhigh⟩ := h
  unfold numberOf
  simp only [List.append_nil, Text.digitsValue_decimal]
  by_cases hi : i < 0
  · have hcond : 0 < i.natAbs ∧ i.natAbs ≤ 0x8000000000000000 := by omega
    have hvalue : -(i.natAbs : Int) = i := by omega
    simp only [hi, hcond, decide_true, if_true, List.isEmpty_nil, Option.isNone_none, Bool.and_self,
      and_self, hvalue]
  · have hcond : i.natAbs < 0x10000000000000000 := by omega
    have hvalue : (i.natAbs : Int) = i := by omega
    simp only [hi, hcond, decide_false, if_true, if_false, List.isEmpty_nil, Option.isNone_none,
      Bool.and_self, Bool.false_eq_true, hvalue]

/-! ### Doubles -/

/-- A number with a fraction or an exponent is a double. -/
theorem numberOf_eq_float {negative : Bool} {whole fraction : List Char} {exponent : Option Int}
    {x : Number} (h : fraction ≠ [] ∨ exponent.isSome)
    (hx : Number.ofDecimal? negative (Text.digitsValue (whole ++ fraction))
      (exponent.getD 0 - fraction.length) = some x) :
    numberOf negative whole fraction exponent = .float x := by
  have hnot : (fraction.isEmpty && exponent.isNone) = false := by
    rcases h with h | h
    · simp [h]
    · simp [Option.isNone_eq_false_iff.mpr h]
  simp only [numberOf, hnot, hx, Bool.false_eq_true, if_false]

variable {x : Number} {d : Decimal}

/-- A zero is spelt with its sign. -/
theorem exists_spells_zero (hx : x.magnitude = 0) :
    ∃ p, Spells p (.float x) ((if x.negative then ['-'] else []) ++
      NumberLayout.data.writePositional ⟨[], 0⟩) := by
  have hdigit : ∀ c ∈ ['0'], Text.isDigit c := Text.isDigit_of_mem_replicate_zero (n := 1)
  refine ⟨⟨x.negative, ['0'], ['0'], none⟩, ⟨hdigit, hdigit, .inl rfl⟩, ?_, ?_⟩
  · simp [NumberLayout.writePositional, NumberLayout.data, NumberParts.text,
      NumberParts.exponentText]
  · obtain ⟨negative, magnitude, hfinite⟩ := x
    cases hx
    exact numberOf_eq_float (.inl (List.cons_ne_nil _ _)) rfl

/-- A decimal is spelt with its digits around the point. -/
theorem exists_spells_positional (hd : d.Denotes x) :
    ∃ p, Spells p (.float x) ((if x.negative then ['-'] else []) ++
      NumberLayout.data.writePositional d) := by
  obtain ⟨c, cs, hcs, hc⟩ := hd.head
  obtain ⟨hdigits, hread⟩ := And.intro hd.isDigit hd.read
  have hne : d.digits ≠ [] := hcs ▸ List.cons_ne_nil _ _
  by_cases hp : d.point ≤ 0
  · -- zeros stand between the point and the digits
    refine ⟨⟨x.negative, ['0'], List.replicate (-d.point).toNat '0' ++ d.digits, none⟩,
      ⟨Text.isDigit_of_mem_replicate_zero (n := 1),
        List.forall_mem_append.mpr ⟨Text.isDigit_of_mem_replicate_zero, hdigits⟩, .inl rfl⟩, ?_, ?_⟩
    · simp [NumberLayout.writePositional, hp, hne, NumberParts.text, NumberParts.exponentText]
    · refine numberOf_eq_float (.inl (by simp [hne])) ?_
      have hexponent : (none : Option Int).getD 0 -
          ((List.replicate (-d.point).toNat '0' ++ d.digits).length : Int) =
            d.point - d.digits.length := by
        rw [List.length_append, List.length_replicate, Option.getD_none]
        omega
      rw [hexponent, ← List.append_assoc, ← List.replicate_one, List.replicate_append_replicate,
        Text.digitsValue_zeros_append _ hdigits]
      exact hread
  · obtain ⟨n, hn⟩ : ∃ n : Nat, d.point = n + 1 := ⟨(d.point - 1).toNat, by omega⟩
    have htoNat : d.point.toNat = n + 1 := by omega
    by_cases hl : n + 1 < d.digits.length
    · -- the point stands among the digits
      have hdrop : d.digits.drop (n + 1) ≠ [] := by simpa using hl
      refine ⟨⟨x.negative, d.digits.take (n + 1), d.digits.drop (n + 1), none⟩,
        ⟨fun e he => hdigits e (List.mem_of_mem_take he),
          fun e he => hdigits e (List.mem_of_mem_drop he),
          .inr ⟨c, cs.take n, by rw [hcs, List.take_succ_cons], hc⟩⟩, ?_, ?_⟩
      · have hzeros : n + 1 - d.digits.length = 0 := by omega
        simp [NumberLayout.writePositional, hp, htoNat, hzeros, hdrop, NumberParts.text,
          NumberParts.exponentText]
      · refine numberOf_eq_float (.inl hdrop) ?_
        have hexponent : (none : Option Int).getD 0 - ((d.digits.drop (n + 1)).length : Int) =
            d.point - d.digits.length := by
          rw [List.length_drop, Option.getD_none]
          omega
        rw [hexponent, List.take_append_drop]
        exact hread
    · -- zeros stand between the digits and the point, and one behind it
      obtain ⟨z, hz⟩ : ∃ z, n + 1 = d.digits.length + z := ⟨n + 1 - d.digits.length, by omega⟩
      refine ⟨⟨x.negative, d.digits ++ List.replicate z '0', ['0'], none⟩,
        ⟨List.forall_mem_append.mpr ⟨hdigits, Text.isDigit_of_mem_replicate_zero⟩,
          Text.isDigit_of_mem_replicate_zero (n := 1),
          .inr ⟨c, cs ++ List.replicate z '0', by rw [hcs, List.cons_append], hc⟩⟩, ?_, ?_⟩
      · simp [NumberLayout.writePositional, NumberLayout.data, hp, htoNat, hz, NumberParts.text,
          NumberParts.exponentText]
      · refine numberOf_eq_float (.inl (List.cons_ne_nil _ _)) ?_
        have hexponent : (none : Option Int).getD 0 - ((['0'] : List Char).length : Int) +
            (z + 1 : Nat) = d.point - d.digits.length := by
          rw [Option.getD_none, List.length_singleton]
          omega
        rw [← List.replicate_one, List.append_assoc, List.replicate_append_replicate,
          Text.digitsValue_append_zeros _ hdigits, Number.ofDecimal?_mul_pow, List.replicate_one,
          hexponent]
        exact hread

/-- A decimal is spelt with one digit before the point and an exponent. -/
theorem exists_spells_scientific (hd : d.Denotes x) :
    ∃ p, Spells p (.float x) ((if x.negative then ['-'] else []) ++
      NumberLayout.writeScientific d) := by
  obtain ⟨c, cs, hcs, hc⟩ := hd.head
  have hdigits := List.forall_mem_cons.mp (hcs ▸ hd.isDigit)
  refine ⟨⟨x.negative, [c], cs, some (d.point - 1)⟩,
    ⟨fun e he => List.mem_singleton.mp he ▸ hdigits.1, hdigits.2, .inr ⟨c, [], rfl, hc⟩⟩, ?_, ?_⟩
  · rw [NumberLayout.writeScientific, hcs]
    cases cs with
    | nil => simp [NumberParts.text, NumberParts.exponentText]
    | cons c' cs => simp [NumberParts.text, NumberParts.exponentText]
  · refine numberOf_eq_float (.inr rfl) ?_
    have hexponent : (some (d.point - 1)).getD 0 - (cs.length : Int) =
        d.point - d.digits.length := by
      rw [hcs, List.length_cons, Option.getD_some]
      omega
    rw [hexponent, List.singleton_append, ← hcs]
    exact hd.read

/-- The text of a double spells the double. -/
theorem exists_spells_float (x : Number) :
    ∃ p, Spells p (.float x) (NumberLayout.data.write x) := by
  unfold NumberLayout.write
  split
  · next hx => simpa [NumberLayout.data] using exists_spells_zero hx
  · next hx =>
    have hd := Number.shortest_denotes hx NumberLayout.data.tie
    extract_lets d inside
    cases inside with
    | true => exact exists_spells_positional hd
    | false => exact exists_spells_scientific hd

end Json

end RuleEngine
