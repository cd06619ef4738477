import RuleEngine.Proofs.Time.Text

/-!
# Minutes

Instants are in a strict order, and to start the minute of a clock reading keeps that order. A clock
reading is an instant outside leap seconds whose nanoseconds 64 bits can count; the minute that it
is in starts at a whole minute with a year of four digits.

## Main definitions

* `Timestamp.IsMinute`: the starts of minutes.
* `Timestamp.IsCounted`: the instants whose nanoseconds 64 bits can count.
* `Timestamp.IsReading`: the instants that a clock may show.

## Main results

* `Timestamp.IsReading.isMinute`: the minute of a reading starts at a whole minute.
* `Timestamp.floorMinute_notAfter`: later readings are in later minutes or in the same one.
-/

namespace RuleEngine

namespace Timestamp

variable {a b c t : Timestamp}

/-! ### The order of instants -/

theorem before_iff :
    a.before b ↔ a.second < b.second ∨ a.second = b.second ∧ a.nano < b.nano := by
  simp [before]

theorem notAfter_iff : a.notAfter b ↔ ¬ b.before a := by
  simp [notAfter]

theorem not_before_self : ¬ a.before a := by
  rw [before_iff]
  omega

theorem before_trans (hab : a.before b) (hbc : b.before c) : a.before c := by
  rw [before_iff] at *
  omega

/-- An instant is told by its seconds and nanoseconds. -/
theorem eq_of_parts (hs : a.second = b.second) (hn : a.nano = b.nano) : a = b := by
  obtain ⟨s, n, _, _, _, _⟩ := a
  obtain ⟨s', n', _, _, _, _⟩ := b
  obtain rfl : s = s' := hs
  obtain rfl : n = n' := hn
  rfl

/-- Of two instants one is before the other, or they are the same. -/
theorem before_trichotomy (a b : Timestamp) : a.before b ∨ a = b ∨ b.before a := by
  rw [before_iff, before_iff]
  by_cases hs : a.second = b.second
  · by_cases hn : a.nano = b.nano
    · exact .inr (.inl (eq_of_parts hs hn))
    · omega
  · omega

theorem notAfter_refl (a : Timestamp) : a.notAfter a :=
  notAfter_iff.mpr not_before_self

theorem notAfter_trans (hab : a.notAfter b) (hbc : b.notAfter c) : a.notAfter c := by
  rw [notAfter_iff, before_iff] at *
  omega

/-! ### The minute of a reading -/

/-- Whether an instant is the start of a minute. -/
def IsMinute (t : Timestamp) : Prop := t.second % 60 = 0 ∧ t.nano = 0

/-- There is one start of each minute of universal time. -/
theorem IsMinute.eq_of_div_eq (ha : a.IsMinute) (hb : b.IsMinute)
    (h : a.second / 60 = b.second / 60) : a = b := by
  obtain ⟨has, han⟩ := ha
  obtain ⟨hbs, hbn⟩ := hb
  rcases before_trichotomy a b with hab | hab | hba
  · rw [before_iff] at hab
    omega
  · exact hab
  · rw [before_iff] at hba
    omega

/-- Of distinct starts of minutes at most one is in a given minute of universal time. -/
theorem countP_minute_le_one {l : List Timestamp} (h : l.Nodup) (hm : ∀ a ∈ l, a.IsMinute)
    (minute : Int) : l.countP (·.second / 60 = minute) ≤ 1 := by
  induction l with
  | nil => exact Nat.zero_le _
  | cons a rest ih =>
    obtain ⟨hnot, hrest⟩ := List.nodup_cons.mp h
    obtain ⟨hma, hmrest⟩ := List.forall_mem_cons.mp hm
    by_cases ha : a.second / 60 = minute
    · have hnone : rest.countP (·.second / 60 = minute) = 0 := by
        rw [List.countP_eq_zero]
        intro b hb hminute
        obtain rfl := hma.eq_of_div_eq (hmrest b hb) (ha.trans (of_decide_eq_true hminute).symm)
        exact hnot hb
      rw [List.countP_cons_of_pos (by simpa using ha), hnone]
    · rw [List.countP_cons_of_neg (by simpa using ha)]
      exact ih hrest hmrest

/-- Whether 64 bits can count the nanoseconds of an instant. -/
def IsCounted (t : Timestamp) : Prop := t.nanosecondCount?.isSome

instance (t : Timestamp) : Decidable t.IsCounted := inferInstanceAs (Decidable (_ = true))

theorem IsCounted.nanosecondCount?_eq (h : t.IsCounted) :
    t.nanosecondCount? = some (t.second * 1000000000 + t.nano) := by
  obtain ⟨count, hcount⟩ := Option.isSome_iff_exists.mp h
  unfold nanosecondCount? at hcount ⊢
  rw [if_pos (Option.ite_none_right_eq_some.mp hcount).1]

/-- Whether a clock may show an instant: one outside leap seconds that 64 bits can count. -/
def IsReading (t : Timestamp) : Prop := t.nanosecondCount?.isSome ∧ t.nano < 1000000000

instance (t : Timestamp) : Decidable t.IsReading := inferInstanceAs (Decidable (_ ∧ _))

theorem IsReading.bounds (h : t.IsReading) :
    -9223372037 ≤ t.second ∧ t.second ≤ 9223372036 := by
  obtain ⟨hc, hn⟩ := h
  unfold nanosecondCount? at hc
  simp only [Option.isSome_ite] at hc
  omega

/-- The minute of a reading starts at the last whole minute. -/
theorem IsReading.floorMinute_eq (h : t.IsReading) :
    t.floorMinute.second = t.second / 60 * 60 ∧ t.floorMinute.nano = 0 := by
  have hb := h.bounds
  obtain ⟨hc, hn⟩ := h
  have hcount := IsCounted.nanosecondCount?_eq hc
  obtain ⟨m, hm⟩ : ∃ m, of? (t.second / 60 * 60) 0 = some m := by
    refine ⟨_, dif_pos ?_⟩
    unfold firstSecond lastSecond
    omega
  have hs : (t.second * 1000000000 + t.nano +
      -((t.second * 1000000000 + t.nano) % 60000000000)) / 1000000000 = t.second / 60 * 60 := by
    omega
  have hz : ((t.second * 1000000000 + t.nano +
      -((t.second * 1000000000 + t.nano) % 60000000000)) % 1000000000).toNat = 0 := by
    omega
  have hf : t.floorMinute = m := by
    simp only [floorMinute, hcount, add?, if_pos hn, hs, hz, hm, Option.getD_some]
  rw [hf]
  unfold of? at hm
  split at hm
  · cases hm
    exact ⟨rfl, rfl⟩
  · cases hm

/-- The minute of a reading starts at a whole minute. -/
theorem IsReading.isMinute (h : t.IsReading) : t.floorMinute.IsMinute := by
  obtain ⟨hs, hn⟩ := h.floorMinute_eq
  refine ⟨?_, hn⟩
  rw [hs]
  omega

/-- Later readings are in later minutes or in the same one. -/
theorem floorMinute_notAfter (ha : a.IsReading) (hb : b.IsReading) (h : a.notAfter b) :
    a.floorMinute.notAfter b.floorMinute := by
  obtain ⟨has, han⟩ := ha.floorMinute_eq
  obtain ⟨hbs, hbn⟩ := hb.floorMinute_eq
  rw [notAfter_iff, before_iff] at h ⊢
  omega

/-- The year of a minute that a reading is in has four digits. -/
theorem IsReading.hasFourDigitYear (h : t.IsReading) : t.floorMinute.HasFourDigitYear := by
  have hb := h.bounds
  have hs := h.floorMinute_eq.1
  have hfirst : (-106752 : Int) ≤ t.floorMinute.dayNumber := by
    unfold dayNumber
    omega
  have hlast : t.floorMinute.dayNumber ≤ 106751 := by
    unfold dayNumber
    omega
  have hlow := Date.year_le_of_le hfirst
  have hhigh := Date.year_le_of_le hlast
  have hy₁ : (Date.ofDayNumber (-106752)).year = 1677 := by decide
  have hy₂ : (Date.ofDayNumber 106751).year = 2262 := by decide
  unfold HasFourDigitYear date
  omega

end Timestamp

end RuleEngine
