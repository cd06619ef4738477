import RuleEngine.Proofs.Text.Numeral
import RuleEngine.Proofs.Time.Calendar
import RuleEngine.Store.Column

/-!
# Columns of instants

Instants are kept in columns as texts to the microsecond. For years of four digits the order of the
texts is the order of the instants, cut to the microsecond, and a column reads as the instant cut
to the microsecond. A leap second is second 60 of its minute, in its place between the others. The
text of an instant as data is exact, and reads as the instant, whatever its year is.

## Main definitions

* `Timestamp.HasFourDigitYear`: the instants whose columns can be read.
* `Timestamp.PartsPrecede`: the order of instants by the parts that are written.

## Main results

* `Column.ofInstant_lt_iff`: the order of columns is the order of the instants.
* `Column.instant_ofInstant`: a column reads as the instant cut to the microsecond.
* `Timestamp.read?_text`: the text of an instant as data reads as the instant.
-/

namespace RuleEngine

namespace Timestamp

/-! ### The parts of the text -/

/-- Whether the year has four digits. -/
def HasFourDigitYear (t : Timestamp) : Prop := 0 ≤ t.date.year ∧ t.date.year ≤ 9999

instance (t : Timestamp) : Decidable t.HasFourDigitYear := inferInstanceAs (Decidable (_ ∧ _))

/-- The second of the minute as it is written, 60 in a leap second. -/
def shownSecond (t : Timestamp) : Nat :=
  if 1000000000 ≤ t.nano then t.secondOfMinute + 1 else t.secondOfMinute

/-- The nanosecond of the second as it is written. -/
def shownNano (t : Timestamp) : Nat :=
  if 1000000000 ≤ t.nano then t.nano - 1000000000 else t.nano

/-- The microsecond of the second as it is written. -/
def shownMicro (t : Timestamp) : Nat :=
  (if 1000000000 ≤ t.nano then t.nano - 1000000000 else t.nano) / 1000

/-- The parts of an instant as they are written, with a fraction of a second behind them. -/
def shown (t : Timestamp) (fraction : List Char) : List Char :=
  writeYear t.date.year ++ '-' :: (Text.padded 2 t.date.month ++ '-' ::
    (Text.padded 2 t.date.day ++ 'T' :: (Text.padded 2 t.hour ++ ':' ::
    (Text.padded 2 t.minute ++ ':' :: (Text.padded 2 t.shownSecond ++ fraction)))))

theorem writeLocal_micros (t : Timestamp) :
    t.writeLocal .micros = t.shown ('.' :: Text.padded 6 t.shownMicro) :=
  rfl

theorem HasFourDigitYear.writeYear {t : Timestamp} (h : t.HasFourDigitYear) :
    writeYear t.date.year = Text.padded 4 t.date.year.toNat :=
  if_pos h

theorem month_lt (t : Timestamp) : t.date.month < 100 := by
  have := (Date.month_day_le t.dayNumber).1
  unfold date
  omega

theorem day_lt (t : Timestamp) : t.date.day < 100 := by
  have := (Date.month_day_le t.dayNumber).2
  unfold date
  omega

theorem hour_lt (t : Timestamp) : t.hour < 24 := by
  unfold hour secondOfDay
  omega

theorem minute_lt (t : Timestamp) : t.minute < 60 := by
  unfold minute
  omega

theorem shownSecond_le (t : Timestamp) : t.shownSecond ≤ 60 := by
  unfold shownSecond secondOfMinute
  split <;> omega

theorem shownMicro_lt (t : Timestamp) : t.shownMicro < 1000000 := by
  have := t.nano_lt
  unfold shownMicro
  split <;> omega

/-! ### The order of the texts -/

/-- The parts of an instant as they are written, each of them before that of another instant or
the same as it, and then the next one. -/
def PartsPrecede (a b : Timestamp) : Prop :=
  a.date.year < b.date.year ∨ a.date.year = b.date.year ∧
    (a.date.month < b.date.month ∨ a.date.month = b.date.month ∧
    (a.date.day < b.date.day ∨ a.date.day = b.date.day ∧
    (a.hour < b.hour ∨ a.hour = b.hour ∧
    (a.minute < b.minute ∨ a.minute = b.minute ∧
    (a.shownSecond < b.shownSecond ∨ a.shownSecond = b.shownSecond ∧
      a.shownMicro < b.shownMicro)))))

private theorem textMicros_lt_iff {a b : Timestamp} (ha : a.HasFourDigitYear)
    (hb : b.HasFourDigitYear) : a.textMicros < b.textMicros ↔ a.PartsPrecede b := by
  have hya : a.date.year.toNat < 10 ^ 4 := by
    have := ha.2
    omega
  have hyb : b.date.year.toNat < 10 ^ 4 := by
    have := hb.2
    omega
  have hy : a.date.year.toNat < b.date.year.toNat ↔ a.date.year < b.date.year := by
    have := ha.1
    omega
  have hye : a.date.year.toNat = b.date.year.toNat ↔ a.date.year = b.date.year := by
    have := ha.1
    have := hb.1
    omega
  have two {m n : Nat} {cs ds : List Char} (hm : m < 100) (hn : n < 100) :
      Text.padded 2 m ++ cs < Text.padded 2 n ++ ds ↔ m < n ∨ m = n ∧ cs < ds :=
    Text.padded_append_lt_iff (by decide) hm hn
  rw [String.lt_iff, textMicros, textMicros, String.toList_ofList, String.toList_ofList,
    writeLocal_micros, writeLocal_micros, shown, shown, ha.writeYear, hb.writeYear]
  simp only [List.append_assoc, List.cons_append]
  rw [Text.padded_append_lt_iff (by decide) hya hyb, hy, hye, List.cons_lt_cons_self,
    two a.month_lt b.month_lt, List.cons_lt_cons_self,
    two a.day_lt b.day_lt, List.cons_lt_cons_self,
    two (a.hour_lt.trans (by decide)) (b.hour_lt.trans (by decide)), List.cons_lt_cons_self,
    two (a.minute_lt.trans (by decide)) (b.minute_lt.trans (by decide)), List.cons_lt_cons_self,
    two (a.shownSecond_le.trans_lt (by decide)) (b.shownSecond_le.trans_lt (by decide)),
    List.cons_lt_cons_self,
    Text.padded_append_lt_iff (by decide) a.shownMicro_lt b.shownMicro_lt]
  have hz : ¬ ['Z'] < ['Z'] := List.lt_irrefl _
  simp only [hz, and_false, or_false]
  rfl

private theorem before_truncMicros {a b : Timestamp} : a.truncMicros.before b.truncMicros ↔
    a.second < b.second ∨ a.second = b.second ∧ a.nano / 1000 < b.nano / 1000 := by
  simp only [before, Bool.or_eq_true, decide_eq_true_eq, Bool.and_eq_true, beq_iff_eq]
  unfold truncMicros
  simp only
  omega

/-- Within a day the written parts are in the order of the seconds and the microseconds. -/
private theorem timePrecedes_iff {a b : Timestamp} :
    (a.hour < b.hour ∨ a.hour = b.hour ∧
      (a.minute < b.minute ∨ a.minute = b.minute ∧
      (a.shownSecond < b.shownSecond ∨ a.shownSecond = b.shownSecond ∧
        a.shownMicro < b.shownMicro))) ↔
    a.secondOfDay < b.secondOfDay ∨
      a.secondOfDay = b.secondOfDay ∧ a.nano / 1000 < b.nano / 1000 := by
  have hla : 1000000000 ≤ a.nano → a.secondOfDay % 60 = 59 := by
    have := a.leap_closes_minute
    unfold secondOfDay
    omega
  have hlb : 1000000000 ≤ b.nano → b.secondOfDay % 60 = 59 := by
    have := b.leap_closes_minute
    unfold secondOfDay
    omega
  unfold hour minute shownSecond shownMicro secondOfMinute
  generalize a.secondOfDay = s at *
  generalize b.secondOfDay = t at *
  split <;> split <;> omega

/-- The written parts are in the order of the instants cut to the microsecond. -/
theorem partsPrecede_iff {a b : Timestamp} :
    a.PartsPrecede b ↔ a.truncMicros.before b.truncMicros := by
  rw [PartsPrecede, timePrecedes_iff, before_truncMicros]
  have hs (t : Timestamp) : t.second = t.dayNumber * 86400 + t.secondOfDay := by
    unfold dayNumber secondOfDay
    omega
  have hd (t : Timestamp) : t.secondOfDay < 86400 := by
    unfold secondOfDay
    omega
  rw [hs a, hs b]
  have hda := hd a
  have hdb := hd b
  obtain h | h | h := Int.lt_trichotomy a.dayNumber b.dayNumber
  · have := Date.precedes_ofDayNumber h
    unfold Date.Precedes at this
    unfold date
    omega
  · unfold date
    rw [h]
    omega
  · have := Date.precedes_ofDayNumber h
    unfold Date.Precedes at this
    unfold date
    omega

/-- An instant of an earlier year is before one of a later year. -/
theorem before_of_year_lt {a b : Timestamp} (h : a.date.year < b.date.year) : a.before b := by
  have hbefore := before_truncMicros.mp (partsPrecede_iff.mp (.inl h))
  simp only [before, Bool.or_eq_true, decide_eq_true_eq, Bool.and_eq_true, beq_iff_eq]
  omega

/-! ### Reading the text -/

theorem readDigits_padded {w n : Nat} (hw : 0 < w) (hn : n < 10 ^ w) (cs : List Char) :
    readDigits w (Text.padded w n ++ cs) = some (n, cs) := by
  have hl := Text.length_padded hw hn
  have ht : (Text.padded w n ++ cs).take w = Text.padded w n := List.take_left' hl
  have hd : (Text.padded w n).takeWhile Text.isDigit = Text.padded w n :=
    Text.takeWhile_padded
  have he : (Text.padded w n).isEmpty = false := by
    obtain ⟨c, ds, hp, -⟩ := Text.padded_eq_cons hw hn
    rw [hp]
    rfl
  simp only [readDigits, Text.trimStart_padded_append hw hn, ht, hd, he, Bool.false_eq_true,
    if_false, Text.digitsValue_padded, List.drop_left]

theorem readMark_cons {c : Char} (hc : Text.isBlank c = false) (cs : List Char) :
    readMark c (c :: cs) = some cs := by
  rw [readMark, Text.trimStart_cons hc]
  exact if_pos rfl

theorem readYear_padded {y : Nat} (hy : y < 10 ^ 4) (cs : List Char) :
    readYear (Text.padded 4 y ++ cs) = some ((y : Int), cs) := by
  have hr := readDigits_padded (by decide) hy cs
  have ht := Text.trimStart_padded_append (by decide) hy cs
  obtain ⟨c, ds, hp, hc⟩ := Text.padded_eq_cons (by decide) hy
  rw [readYear, ht, hp, List.cons_append]
  rw [hp, List.cons_append] at hr
  split
  · next heq =>
    cases heq
    exact absurd hc (by decide)
  · next heq =>
    cases heq
    exact absurd hc (by decide)
  · rw [hr]
    rfl

/-- A year is read as it was written, with or without a sign. -/
theorem readYear_writeYear (y : Int) (cs : List Char) :
    readYear (writeYear y ++ '-' :: cs) = some (y, '-' :: cs) := by
  have hsigned (sign : Int) :
      readYear.signed sign (Text.padded 4 y.natAbs ++ '-' :: cs) =
        some (sign * y.natAbs, '-' :: cs) := by
    have hd := Text.takeWhile_padded_append (w := 4) (n := y.natAbs)
      (show Text.isDigit '-' = false from rfl) cs
    simp only [readYear.signed, hd, Text.isEmpty_padded, Bool.false_eq_true, if_false,
      Text.digitsValue_padded, List.drop_left]
  rw [writeYear]
  by_cases hy : 0 ≤ y ∧ y ≤ 9999
  · rw [if_pos hy, readYear_padded (by omega), Int.toNat_of_nonneg hy.1]
  · rw [if_neg hy, List.cons_append]
    by_cases hn : y < 0
    · have he : -1 * (y.natAbs : Int) = y := by omega
      rw [if_pos hn, readYear, Text.trimStart_cons rfl]
      exact (hsigned (-1)).trans (by rw [he])
    · have he : 1 * (y.natAbs : Int) = y := by omega
      rw [if_neg hn, readYear, Text.trimStart_cons rfl]
      exact (hsigned 1).trans (by rw [he])

theorem readNanos_padded {w n : Nat} (hw : 0 < w) (hw9 : w ≤ 9) (hn : n < 10 ^ w)
    (cs : List Char) :
    readNanos ('.' :: (Text.padded w n ++ 'Z' :: cs)) = some (n * 10 ^ (9 - w), 'Z' :: cs) := by
  have hl := Text.length_padded hw hn
  have he : (Text.padded w n).isEmpty = false := by
    obtain ⟨c, ds, hp, -⟩ := Text.padded_eq_cons hw hn
    rw [hp]
    rfl
  have ht : (Text.padded w n).take 9 = Text.padded w n := List.take_of_length_le (by omega)
  have hd : (Text.padded w n ++ 'Z' :: cs).drop w = 'Z' :: cs := List.drop_left' hl
  simp only [readNanos, Text.takeWhile_padded_append (show Text.isDigit 'Z' = false from rfl), he,
    Bool.false_eq_true, if_false, ht, Text.digitsValue_padded, hl, hd]
  rfl

theorem of?_eq_some {t : Timestamp} {second : Int} {nano : Nat} (hs : second = t.second)
    (hn : nano = t.nano) : of? second nano = some t := by
  subst hs hn
  exact dif_pos ⟨t.first_le, t.le_last, t.nano_lt, t.leap_closes_minute⟩

/-- The written parts are those of every instant in the same second with the same nanoseconds. -/
theorem ofParts?_shown {t t' : Timestamp} {n : Nat} (hs : t'.second = t.second)
    (hn : t'.nano = if 1000000000 ≤ t.nano then n + 1000000000 else n) :
    ofParts? t.date t.hour t.minute t.shownSecond n 0 = some t' := by
  have hv : t.date.isValid := Date.isValid_ofDayNumber _
  have hd : t.date.dayNumber = t.dayNumber := Date.dayNumber_ofDayNumber _
  have hh := t.hour_lt
  have hm := t.minute_lt
  have hle := t.shownSecond_le
  have hl := t.leap_closes_minute
  rw [ofParts?, if_pos (by simp [hv, hh, hm, hle]), hd]
  have hp : (if t.shownSecond = 60 then (59, n + 1000000000) else (t.shownSecond, n)) =
      (t.secondOfMinute, t'.nano) := by
    rw [hn]
    unfold shownSecond secondOfMinute secondOfDay
    by_cases hn : 1000000000 ≤ t.nano
    · have := hl hn
      rw [if_pos hn, if_pos hn, if_pos (by omega), Prod.mk.injEq]
      omega
    · rw [if_neg hn, if_neg hn, if_neg (by omega)]
  rw [hp]
  have ht : of? (t.dayNumber * 86400 + (t.hour * 3600 + t.minute * 60 + t.secondOfMinute : Nat))
      t'.nano = some t' := by
    refine of?_eq_some ?_ rfl
    rw [hs]
    unfold dayNumber hour minute secondOfMinute secondOfDay
    omega
  simp only [ht]
  exact of?_eq_some (by omega) rfl

/-- A text with the parts of an instant and a fraction behind them is read by its parts. -/
theorem read?_shown (t : Timestamp) {fraction : List Char} {n : Nat}
    (hf : readNanos (fraction ++ ['Z']) = some (n, ['Z'])) :
    read? (String.ofList (t.shown fraction ++ ['Z'])) =
      ofParts? t.date t.hour t.minute t.shownSecond n 0 := by
  have hh : t.hour < 10 ^ 2 := t.hour_lt.trans (by decide)
  have hm : t.minute < 10 ^ 2 := t.minute_lt.trans (by decide)
  have hs : t.shownSecond < 10 ^ 2 := t.shownSecond_le.trans_lt (by decide)
  have two {n : Nat} (hn : n < 10 ^ 2) (cs : List Char) := readDigits_padded (by decide) hn cs
  have hyphen := readMark_cons (show Text.isBlank '-' = false from rfl)
  have colon := readMark_cons (show Text.isBlank ':' = false from rfl)
  have hz : Text.trimStart ['Z'] = ['Z'] := rfl
  have ho : readOffset ['Z'] = some (0, []) := rfl
  rw [read?, String.toList_ofList, shown]
  simp only [List.append_assoc, List.cons_append]
  rw [readYear_writeYear, Option.bind_eq_bind, Option.bind_some]
  dsimp only [Option.bind_eq_bind]
  rw [hyphen, Option.bind_some, two t.month_lt, Option.bind_some]
  dsimp only
  rw [hyphen, Option.bind_some, two t.day_lt, Option.bind_some]
  change (some (Text.padded 2 t.hour ++ _)).bind _ = _
  rw [Option.bind_some, two hh, Option.bind_some]
  dsimp only
  rw [colon, Option.bind_some, two hm, Option.bind_some]
  dsimp only
  rw [colon, Option.bind_some, two hs, Option.bind_some]
  dsimp only
  rw [hf, Option.bind_some]
  dsimp only
  rw [hz, ho, Option.bind_some]
  rfl

/-- The text of an instant to the microsecond reads as the instant cut to the microsecond. -/
theorem read?_textMicros (t : Timestamp) :
    read? t.textMicros = some t.truncMicros := by
  have hf : readNanos ('.' :: Text.padded 6 t.shownMicro ++ ['Z']) =
      some (t.shownMicro * 1000, ['Z']) :=
    readNanos_padded (by decide) (by decide) t.shownMicro_lt []
  rw [textMicros, writeLocal_micros]
  refine (t.read?_shown hf).trans (ofParts?_shown rfl ?_)
  unfold truncMicros shownMicro
  dsimp only
  split <;> omega

/-- The fraction that is exact with the fewest digits reads as the nanoseconds. -/
theorem readNanos_writeFraction {n : Nat} (hn : n < 1000000000) :
    readNanos (writeFraction .shortest n ++ ['Z']) = some (n, ['Z']) := by
  rw [writeFraction]
  split
  · next h =>
    rw [h]
    rfl
  · split
    · next h =>
      have hdiv : n / 1000000 * 1000000 = n := Nat.div_mul_cancel (Nat.dvd_of_mod_eq_zero h)
      have hr := readNanos_padded (w := 3) (n := n / 1000000) (by decide) (by decide) (by omega) []
      rwa [show 10 ^ (9 - 3) = 1000000 from rfl, hdiv] at hr
    · split
      · next h =>
        have hdiv : n / 1000 * 1000 = n := Nat.div_mul_cancel (Nat.dvd_of_mod_eq_zero h)
        have hr := readNanos_padded (w := 6) (n := n / 1000) (by decide) (by decide) (by omega) []
        rwa [show 10 ^ (9 - 6) = 1000 from rfl, hdiv] at hr
      · have hr := readNanos_padded (w := 9) (n := n) (by decide) (by decide) hn []
        rwa [show 10 ^ (9 - 9) = 1 from rfl, Nat.mul_one] at hr

/-- The text of an instant as data reads as the instant. -/
theorem read?_text (t : Timestamp) : read? t.text = some t := by
  have hn : t.shownNano < 1000000000 := by
    have := t.nano_lt
    unfold shownNano
    split <;> omega
  have htext : t.text =
      String.ofList (t.shown (writeFraction .shortest t.shownNano) ++ ['Z']) :=
    rfl
  rw [htext]
  refine (t.read?_shown (readNanos_writeFraction hn)).trans (ofParts?_shown rfl ?_)
  unfold shownNano
  split <;> omega

/-! ### Instants cut to the microsecond -/

theorem truncMicros_eq_self {t : Timestamp} (h : t.nano = 0) : t.truncMicros = t := by
  obtain ⟨s, n, _, _, _, _⟩ := t
  obtain rfl : n = 0 := h
  simp [truncMicros]

theorem truncMicros_truncMicros (t : Timestamp) : t.truncMicros.truncMicros = t.truncMicros := by
  simp [truncMicros]

/-- The text of an instant to the microsecond says nothing of what is cut off. -/
theorem textMicros_truncMicros (t : Timestamp) : t.truncMicros.textMicros = t.textMicros := by
  have hs : t.truncMicros.shownSecond = t.shownSecond := by
    have hn : 1000000000 ≤ t.nano / 1000 * 1000 ↔ 1000000000 ≤ t.nano := by
      omega
    unfold shownSecond truncMicros
    simp only [hn]
    rfl
  have hm : t.truncMicros.shownMicro = t.shownMicro := by
    unfold shownMicro truncMicros
    dsimp only
    split <;> split <;> omega
  rw [textMicros, textMicros, writeLocal_micros, writeLocal_micros, hm, shown, hs]
  rfl

theorem HasFourDigitYear.truncMicros {t : Timestamp} (h : t.HasFourDigitYear) :
    t.truncMicros.HasFourDigitYear := h

end Timestamp

namespace Column

/-- The order of columns is the order of the instants cut to the microsecond. -/
theorem ofInstant_lt_iff {a b : Timestamp} (ha : a.HasFourDigitYear) (hb : b.HasFourDigitYear) :
    ofInstant a < ofInstant b ↔ a.truncMicros.before b.truncMicros := by
  rw [ofInstant, ofInstant, Timestamp.textMicros_lt_iff ha hb, Timestamp.partsPrecede_iff]

/-- The column of an instant whose year has four digits starts with a digit. -/
theorem exists_digit {t : Timestamp} (h : t.HasFourDigitYear) :
    ∃ c cs, (ofInstant t).toList = c :: cs ∧ Text.isDigit c = true := by
  have hy : t.date.year.toNat < 10 ^ 4 := by
    have := h.2
    omega
  obtain ⟨c, cs, hp, hc⟩ := Text.padded_eq_cons (w := 4) (by decide) hy
  rw [ofInstant, Timestamp.textMicros, String.toList_ofList, Timestamp.writeLocal_micros,
    Timestamp.shown, h.writeYear, hp]
  exact ⟨c, _, rfl, hc⟩

/-- The column of an instant whose year has not four digits starts with a sign. -/
theorem exists_sign {t : Timestamp} (h : ¬t.HasFourDigitYear) :
    ∃ sign cs, (ofInstant t).toList = sign :: cs ∧ (sign = '-' ∨ sign = '+') := by
  have hy : ¬ (0 ≤ t.date.year ∧ t.date.year ≤ 9999) := h
  rw [ofInstant, Timestamp.textMicros, String.toList_ofList, Timestamp.writeLocal,
    Timestamp.writeYear, if_neg hy]
  refine ⟨_, _, rfl, ?_⟩
  split
  · exact .inl rfl
  · exact .inr rfl

/-- A column reads as the instant cut to the microsecond. -/
theorem instant_ofInstant {t : Timestamp} (h : t.HasFourDigitYear) :
    instant (ofInstant t) = .ok t.truncMicros := by
  obtain ⟨c, cs, ht, hc⟩ := exists_digit h
  have hd : (ofInstant t).toList.head?.any Text.isDigit = true := by
    rw [ht]
    exact hc
  rw [instant, hd, ofInstant, Timestamp.read?_textMicros]

/-- The column of an instant has what is kept of it. -/
theorem ofInstant_truncMicros (t : Timestamp) : ofInstant t.truncMicros = ofInstant t :=
  t.textMicros_truncMicros

/-- An instant whose year has not four digits is not read back. -/
theorem instant_eq_error {t : Timestamp} (h : ¬ t.HasFourDigitYear) :
    instant (ofInstant t) = .error .storage := by
  obtain ⟨sign, cs, ht, hsign⟩ := exists_sign h
  have hd : (ofInstant t).toList.head?.any Text.isDigit = false := by
    rw [ht]
    rcases hsign with rfl | rfl <;> rfl
  rw [instant, hd]

/-- Both signs come before the digits, and so does the column of an instant whose year has not four
digits. -/
theorem ofInstant_lt_of_sign {a b : Timestamp} (ha : ¬a.HasFourDigitYear)
    (hb : b.HasFourDigitYear) : ofInstant a < ofInstant b := by
  obtain ⟨sign, cs, hs, hsign⟩ := exists_sign ha
  obtain ⟨c, ds, hd, hc⟩ := exists_digit hb
  have hlt : sign < c := by
    have hdigit := Text.toNat_of_isDigit hc
    rw [Char.lt_def, UInt32.lt_iff_toNat_lt]
    change sign.toNat < c.toNat
    rcases hsign with rfl | rfl <;> simp <;> omega
  rw [String.lt_iff, hs, hd]
  exact List.cons_lt_cons_iff.mpr (.inl hlt)

/-- A column that can be read is that of the instant that is read. -/
theorem ofInstant_of_instant {t t' : Timestamp} (h : instant (ofInstant t) = .ok t') :
    ofInstant t' = ofInstant t := by
  by_cases hy : t.HasFourDigitYear
  · rw [instant_ofInstant hy] at h
    obtain rfl : t.truncMicros = t' := Except.ok.inj h
    exact ofInstant_truncMicros t
  · rw [instant_eq_error hy] at h
    cases h

end Column

namespace Sample

/-- The first instant of the year 10000. -/
def tenthMillennium : Timestamp := (Timestamp.of? 253402300800 0).getD .epoch

end Sample

example : Column.ofInstant Sample.tenthMillennium = "+10000-01-01T00:00:00.000000Z" := by
  decide +kernel

end RuleEngine
