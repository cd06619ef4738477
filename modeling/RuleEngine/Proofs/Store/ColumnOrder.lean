import Mathlib.Data.List.Basic
import RuleEngine.Proofs.Time.Text

/-!
# The order of columns

A database compares the texts of its columns byte by byte. The column of an instant has ASCII
characters only, of which each is one byte, so that the order of the bytes is the order of the
characters, and columns of years of four digits have one length. Instants are therefore compared
through their columns: what is cut off below the microsecond is all that is lost, in the order and
in what is read back. A leap second stands between the seconds around it.

## Main definitions

* `Text.bytes`: the bytes of a text.
* `Text.IsAscii`: the texts of which every character is one byte.

## Main results

* `Text.bytes_lt_bytes_iff`: ASCII texts are in the order of their bytes.
* `Column.exists_chars`: the form of the column of an instant.
* `Column.ofInstant_chronological`: columns compare, and read back, as the instants cut to the
  microsecond.
-/

namespace RuleEngine

/-! ### The bytes of ASCII texts -/

namespace Text

variable {cs ds : List Char}

/-- The bytes of a text. -/
def bytes (s : String) : List UInt8 := s.toUTF8.data.toList

/-- Whether all characters of a text are ASCII characters. -/
def IsAscii (cs : List Char) : Prop := ∀ c ∈ cs, c.toNat < 128

theorem IsAscii.append (hc : IsAscii cs) (hd : IsAscii ds) : IsAscii (cs ++ ds) :=
  List.forall_mem_append.mpr ⟨hc, hd⟩

theorem IsAscii.cons {c : Char} (hc : c.toNat < 128) (hcs : IsAscii cs) : IsAscii (c :: cs) :=
  List.forall_mem_cons.mpr ⟨hc, hcs⟩

theorem isAscii_padded {w n : Nat} : IsAscii (padded w n) := fun c hc => by
  have := toNat_of_isDigit (isDigit_of_mem_padded hc)
  omega

theorem toNat_toUInt8 {c : Char} (h : c.toNat < 128) : c.toUInt8.toNat = c.toNat := by
  rw [Char.toUInt8, UInt32.toNat_toUInt8]
  exact Nat.mod_eq_of_lt (h.trans (by decide))

/-- An ASCII character is one byte. -/
theorem bytes_ofList (h : IsAscii cs) : bytes (String.ofList cs) = cs.map Char.toUInt8 := by
  have hone : ∀ c ∈ cs, String.utf8EncodeChar c = [c.toUInt8] := fun c hc =>
    if_pos (Nat.le_of_lt_succ (h c hc))
  rw [bytes, String.toUTF8, String.toByteArray_ofList, List.utf8Encode,
    List.toList_data_toByteArray, List.map_eq_flatMap]
  exact List.flatMap_congr hone

/-- ASCII texts are in the order of their bytes. -/
theorem bytes_lt_bytes_iff (hc : IsAscii cs) (hd : IsAscii ds) :
    bytes (String.ofList cs) < bytes (String.ofList ds) ↔ String.ofList cs < String.ofList ds := by
  rw [bytes_ofList hc, bytes_ofList hd, String.lt_iff, String.toList_ofList, String.toList_ofList]
  induction cs generalizing ds with
  | nil => cases ds <;> simp
  | cons c cs ih =>
    cases ds with
    | nil => simp
    | cons d ds =>
      obtain ⟨hc, hcs⟩ := List.forall_mem_cons.mp hc
      obtain ⟨hd, hds⟩ := List.forall_mem_cons.mp hd
      have hlt : c.toUInt8 < d.toUInt8 ↔ c < d := by
        rw [UInt8.lt_iff_toNat_lt, toNat_toUInt8 hc, toNat_toUInt8 hd]
        rfl
      have heq : c.toUInt8 = d.toUInt8 ↔ c = d := by
        rw [← UInt8.toNat_inj, toNat_toUInt8 hc, toNat_toUInt8 hd, Char.toNat_inj]
      rw [List.map_cons, List.map_cons, List.cons_lt_cons_iff, List.cons_lt_cons_iff, hlt, heq,
        ih hcs hds]

end Text

/-! ### The columns of instants -/

namespace Column

open Timestamp

variable {a b t : Timestamp}

/-- The column of an instant with a year of four digits has 27 characters, all of them ASCII. -/
theorem exists_chars (h : t.HasFourDigitYear) :
    ∃ cs, ofInstant t = String.ofList cs ∧ Text.IsAscii cs ∧ cs.length = 27 := by
  have hy : t.date.year.toNat < 10 ^ 4 := by
    have := h.2
    omega
  have hshown : t.writeLocal .micros = t.shown ('.' :: Text.padded 6 t.shownMicro) :=
    writeLocal_micros t
  rw [shown, h.writeYear] at hshown
  refine ⟨_, congrArg (fun cs => String.ofList (cs ++ ['Z'])) hshown, ?_, ?_⟩
  · have mark {c : Char} {w n : Nat} {cs : List Char} (hc : c.toNat < 128)
        (hcs : Text.IsAscii cs) : Text.IsAscii (Text.padded w n ++ c :: cs) :=
      Text.isAscii_padded.append (hcs.cons hc)
    have hend : Text.IsAscii (Text.padded 6 t.shownMicro ++ ['Z']) :=
      mark (by decide) (List.forall_mem_nil _)
    simp only [List.append_assoc, List.cons_append]
    exact mark (by decide) <| mark (by decide) <| mark (by decide) <| mark (by decide) <|
      mark (by decide) <| mark (by decide) hend
  · have two {n : Nat} (hn : n < 10 ^ 2) : (Text.padded 2 n).length = 2 :=
      Text.length_padded (by decide) hn
    simp only [List.length_append, List.length_cons, List.length_nil,
      Text.length_padded (by decide : 0 < 4) hy, two t.month_lt, two t.day_lt,
      two (t.hour_lt.trans (by decide)), two (t.minute_lt.trans (by decide)),
      two (t.shownSecond_le.trans_lt (by decide)),
      Text.length_padded (by decide : 0 < 6) t.shownMicro_lt]

/-- Columns are in the order of their bytes. -/
theorem bytes_ofInstant_lt_iff (ha : a.HasFourDigitYear) (hb : b.HasFourDigitYear) :
    Text.bytes (ofInstant a) < Text.bytes (ofInstant b) ↔ a.truncMicros.before b.truncMicros := by
  obtain ⟨cs, hcs, hascii, -⟩ := exists_chars ha
  obtain ⟨ds, hds, hascii', -⟩ := exists_chars hb
  rw [← ofInstant_lt_iff ha hb, hcs, hds, Text.bytes_lt_bytes_iff hascii hascii']

/-- The column of an instant with a year of four digits has 27 bytes. -/
theorem length_bytes_ofInstant (h : t.HasFourDigitYear) :
    (Text.bytes (ofInstant t)).length = 27 := by
  obtain ⟨cs, hcs, hascii, hlength⟩ := exists_chars h
  rw [hcs, Text.bytes_ofList hascii, List.length_map, hlength]

/-- Instants have the same column if they differ below the microsecond only. -/
theorem ofInstant_eq_iff (ha : a.HasFourDigitYear) (hb : b.HasFourDigitYear) :
    ofInstant a = ofInstant b ↔ a.truncMicros = b.truncMicros := by
  constructor
  · intro h
    have hab : Except.ok a.truncMicros = Except.ok (ε := EngineError) b.truncMicros := by
      rw [← instant_ofInstant ha, h, instant_ofInstant hb]
    exact Except.ok.inj hab
  · intro h
    rw [← ofInstant_truncMicros a, h, ofInstant_truncMicros]

/-- For years of four digits columns have one length, the order of their bytes is the order of the
instants cut to the microsecond, the columns are the same if these instants are, and a column reads
as the instant cut to the microsecond. -/
theorem ofInstant_chronological (ha : a.HasFourDigitYear) (hb : b.HasFourDigitYear) :
    (Text.bytes (ofInstant a)).length = (Text.bytes (ofInstant b)).length ∧
      (Text.bytes (ofInstant a) < Text.bytes (ofInstant b) ↔
        a.truncMicros.before b.truncMicros) ∧
      (ofInstant a = ofInstant b ↔ a.truncMicros = b.truncMicros) ∧
      instant (ofInstant a) = .ok a.truncMicros := by
  refine ⟨?_, bytes_ofInstant_lt_iff ha hb, ofInstant_eq_iff ha hb, instant_ofInstant ha⟩
  rw [length_bytes_ofInstant ha, length_bytes_ofInstant hb]

namespace Sample

/-- An instant in the leap second that ended the year 2016. -/
def leapSecond : Timestamp := (Timestamp.of? 1483228799 1500000999).getD .epoch

/-- The start of the year 2017. -/
def newYear : Timestamp := (Timestamp.of? 1483228800 0).getD .epoch

end Sample

/-- A leap second is written as second 60, before the minute that follows it. -/
theorem ofInstant_chronological_leapSecond :
    Sample.leapSecond.HasFourDigitYear ∧ Sample.newYear.HasFourDigitYear ∧
      ofInstant Sample.leapSecond = "2016-12-31T23:59:60.500000Z" ∧
      (Text.bytes (ofInstant Sample.leapSecond)).length =
        (Text.bytes (ofInstant Sample.newYear)).length ∧
      Text.bytes (ofInstant Sample.leapSecond) < Text.bytes (ofInstant Sample.newYear) ∧
      ofInstant Sample.leapSecond ≠ ofInstant Sample.newYear ∧
      instant (ofInstant Sample.leapSecond) = .ok Sample.leapSecond.truncMicros := by
  have hyear : Sample.leapSecond.HasFourDigitYear := by decide
  have hyear' : Sample.newYear.HasFourDigitYear := by decide
  obtain ⟨hlength, hlt, heq, hread⟩ := ofInstant_chronological hyear hyear'
  exact ⟨hyear, hyear', by decide +kernel, hlength, hlt.mpr (by decide),
    fun h => absurd (heq.mp h) (by decide), hread⟩

end Column

end RuleEngine
