import RuleEngine.Proofs.Run.WriteAhead
import RuleEngine.Proofs.Store.RuleReading
import RuleEngine.Proofs.Store.RuleRow

/-!
# Delays that no run can take

The delay of a rule is a number of seconds that nobody checks when the rule is saved. A run adds it
to the time at which the conditions were met, and stops where the sum is no date or the number is
no length of time; a number beyond 63 bits is no delay at all. A row holds at most 63 bits, so that
the rule that is read back has a delay where the one that was saved had none.

## Main definitions

* `Timestamp.IsOverrunBy`: seconds that are too many for the calendar after an instant.
* `Rule.Overruns`: a delay that is to be taken at an instant and cannot be.

## Main results

* `Run.hasRunAt_iff`: the delay leads to an instant unless it overruns.
* `Rule.overruns_read_iff`: when the delay that is read back overruns.
* `Engine.run_outOfTime_iff_overruns`: a run is cut short by a delay that overruns, and by nothing
  else; it then leaves its record as being evaluated.
-/

namespace RuleEngine

/-! ### Instants some seconds later -/

namespace Timestamp

variable {now t : Timestamp} {n : Nat}

/-- Whether seconds after an instant are more than a length of time can have, or lead beyond the
last date. -/
def IsOverrunBy (now : Timestamp) (n : Nat) : Prop :=
  Duration.maxSeconds < n ∨ lastSecond < now.second + n

instance (now : Timestamp) (n : Nat) : Decidable (now.IsOverrunBy n) :=
  inferInstanceAs (Decidable (_ ∨ _))

theorem of?_eq_some_iff {second : Int} {nano : Nat} :
    of? second nano = some t ↔ t.second = second ∧ t.nano = nano := by
  obtain ⟨s, m, hf, hl, hn, hc⟩ := t
  unfold of?
  split
  · next h => simp [eq_comm]
  · next h =>
    refine iff_of_false (by simp) ?_
    rintro ⟨rfl, rfl⟩
    exact h ⟨hf, hl, hn, hc⟩

/-- Some seconds later, a leap second is left and the nanoseconds are kept. -/
theorem add?_seconds (now : Timestamp) (hn : 0 < n) :
    now.add? (Duration.seconds n) = of? (now.second + n) (now.nano % 1000000000) := by
  have hnano := now.nano_lt
  have hs : Int.tdiv (Duration.seconds n) 1000000000 = n :=
    Int.mul_tdiv_cancel _ (by decide)
  have hplain (m : Int) (h0 : 0 ≤ m) (h1 : m < 1000000000) :
      of? ((now.second * 1000000000 + m + Duration.seconds n) / 1000000000)
        ((now.second * 1000000000 + m + Duration.seconds n) % 1000000000).toNat =
      of? (now.second + n) m.toNat := by
    unfold Duration.seconds
    congr 1 <;> omega
  unfold add?
  simp only [hs]
  by_cases hl : now.nano < 1000000000
  · rw [if_pos hl, hplain _ (by omega) (by omega), Nat.mod_eq_of_lt hl, Int.toNat_natCast]
  · rw [if_neg hl, if_pos (.inl (by omega)), hplain _ (by omega) (by omega)]
    congr 1
    omega

/-- Some seconds later there is an instant unless its date is beyond the last one. -/
theorem exists_add?_seconds_iff (now : Timestamp) (hn : 0 < n) :
    (∃ t, now.add? (Duration.seconds n) = some t) ↔ now.second + n ≤ lastSecond := by
  have hf := now.first_le
  simp only [add?_seconds now hn, of?_eq_some_iff]
  constructor
  · rintro ⟨t, ht, -⟩
    exact ht ▸ t.le_last
  · intro h
    exact ⟨⟨now.second + n, now.nano % 1000000000, by omega, h, by omega, by omega⟩, rfl, rfl⟩

end Timestamp

/-! ### Delays of rules -/

namespace Rule

variable {r : Rule} {now : Timestamp}

/-- Whether a rule has a delay, which 63 bits hold, that cannot be taken at an instant. -/
def Overruns (r : Rule) (now : Timestamp) : Prop :=
  ∃ n, r.delaySeconds = some n ∧ n ≤ RuleRow.longestDelay ∧ now.IsOverrunBy n

/-- No rule is refused for its delay. -/
theorem validate_delaySeconds (r : Rule) (delay : Option Nat) :
    ({ r with delaySeconds := delay } : Rule).validate = r.validate := rfl

theorem executionDelay_of_isNone (h : r.delaySeconds = none) : r.executionDelay = .none := by
  simp [executionDelay, h]

theorem executionDelay_of_zero (h : r.delaySeconds = some 0) : r.executionDelay = .none := by
  simp [executionDelay, h]

/-- The delay of a positive number of seconds. -/
theorem executionDelay_of_pos {n : Nat} (h : r.delaySeconds = some n) (hn : 0 < n) :
    r.executionDelay =
      if RuleRow.longestDelay < n then .none
      else if Duration.maxSeconds < n then .uncountable
      else .lasting (Duration.seconds n) := by
  unfold executionDelay
  rw [h]
  cases n with
  | zero => exact absurd hn (lt_irrefl 0)
  | succ n => rfl

end Rule

namespace Run

variable {r : Rule} {now : Timestamp}

/-- The delay of a rule leads to an instant unless it overruns. -/
theorem hasRunAt_iff : HasRunAt r now ↔ ¬r.Overruns now := by
  have hlast := now.le_last
  have hcap : Duration.maxSeconds < RuleRow.longestDelay := by decide
  unfold HasRunAt Rule.Overruns Timestamp.IsOverrunBy
  cases hd : r.delaySeconds with
  | none => simp [Rule.executionDelay_of_isNone hd]
  | some n =>
    rcases Nat.eq_zero_or_pos n with rfl | hn
    · have hmax : 0 ≤ Duration.maxSeconds := by decide
      simp [Rule.executionDelay_of_zero hd, hlast, hmax]
    · rw [Rule.executionDelay_of_pos hd hn]
      by_cases hlong : RuleRow.longestDelay < n
      · simp [hlong]
      by_cases hmax : Duration.maxSeconds < n
      · simp [hlong, hmax]
      · have hadd := now.exists_add?_seconds_iff hn
        simp [hlong, hmax, hadd]
        omega

end Run

/-! ### Delays in rows -/

namespace Rule

variable {r r' : Rule} {now : Timestamp}

/-- The delay that is read back is cut to the longest one. -/
theorem delaySeconds_of_read {lastTick : Option String}
    (h : ({ RuleRow.ofRule r with lastTick } : RuleRow).read = .ok r') :
    r'.delaySeconds = r.delaySeconds.map (min RuleRow.longestDelay) :=
  (RuleRow.read_eq_ok_iff.mp h).delaySeconds

/-- The delay that is read back overruns wherever so many seconds do, also those that are no delay
of the rule as it was saved. -/
theorem overruns_read_iff {lastTick : Option String}
    (h : ({ RuleRow.ofRule r with lastTick } : RuleRow).read = .ok r') :
    r'.Overruns now ↔ ∃ n, r.delaySeconds = some n ∧ now.IsOverrunBy n := by
  have hcap : Duration.maxSeconds < RuleRow.longestDelay := by decide
  unfold Overruns Timestamp.IsOverrunBy
  rw [delaySeconds_of_read h]
  cases r.delaySeconds with
  | none => simp
  | some n =>
    simp
    omega

end Rule

/-! ### Runs that a delay cuts short -/

namespace Engine

variable {σ : Type} [ExecutionLog σ]

/-- A run that is cut short leaves its record as being evaluated. -/
theorem store_of_run_outOfTime {e : Engine σ} {j : Job} (h : (e.run j).1 = .outOfTime) :
    ExecutionLog.updateRecord e.store (j.record.moved .evaluating e.clock) =
      .ok (e.run j).2.store := by
  obtain ⟨hs, ⟨s, hw⟩, -, -⟩ := (e.run_eq_outOfTime_iff j).mp h
  obtain ⟨events, hc, ha⟩ := exists_course_run (Run.ofJob_eq_ok_iff.mpr (.inl ⟨hs, rfl⟩)) e
  rw [h] at hc
  obtain ⟨-, ⟨now, rfl⟩, -⟩ := Job.orderly_of_course (Run.ofJob_eq_ok_iff.mpr (.inl ⟨hs, rfl⟩)) hc
  -- The version does not depend on the time, since it does not end the record.
  have hv : j.record.moved .evaluating now = j.record.moved .evaluating e.clock := rfl
  have hstore : (e.run j).2.store = s := by
    simpa [RunEvent.apply, hv, hw] using ha.1
  rw [hw, hstore]

/-- Which runs a delay cuts short, so that they return nothing. No rule is refused for its delay
when it is saved, and the instant at which a run is to come back is defined unless the delay
overruns. A run returns a record, a parked job or an error unless its record is pending, the first
version is accepted, the conditions are met, and the delay of the rule overruns; it then leaves its
record as being evaluated. A rule that is run as it was saved has such a delay if 63 bits hold the
seconds and they lead beyond the calendar or are no length of time, and a rule that was read back
has one in this case and if 63 bits do not hold the seconds. -/
theorem run_outOfTime_iff_overruns (e : Engine σ) (j : Job) :
    (∀ delay, ({ j.rule with delaySeconds := delay } : Rule).validate = j.rule.validate) ∧
    (∀ now, Run.HasRunAt j.rule now ↔ ¬j.rule.Overruns now) ∧
    ((e.run j).1 = .outOfTime ↔ j.record.status = .pending ∧
      (∃ s, ExecutionLog.updateRecord e.store (j.record.moved .evaluating e.clock) = .ok s) ∧
      (j.rule.evaluate e.lookup j.context).passed = true ∧ j.rule.Overruns e.clock) ∧
    ((e.run j).1 = .outOfTime → ExecutionLog.updateRecord e.store
      (j.record.moved .evaluating e.clock) = .ok (e.run j).2.store) ∧
    ∀ r lastTick, ({ RuleRow.ofRule r with lastTick } : RuleRow).read = .ok j.rule →
      ∀ now, j.rule.Overruns now ↔ ∃ n, r.delaySeconds = some n ∧ now.IsOverrunBy n := by
  refine ⟨j.rule.validate_delaySeconds, fun now => Run.hasRunAt_iff, ?_, store_of_run_outOfTime,
    fun r lastTick h now => Rule.overruns_read_iff h⟩
  rw [run_eq_outOfTime_iff, Run.hasRunAt_iff, not_not]

end Engine

namespace Sample

/-- The sample rule with more seconds of delay than 63 bits hold. -/
def boundlessRule : Rule := { rule with delaySeconds := some 0xFFFFFFFFFFFFFFFF }

/-- The job of a rule that fired for the order. -/
def jobOf (r : Rule) : Job := ⟨r, .ofChange order .epoch, record r⟩

end Sample

/-- A rule whose seconds 63 bits do not hold is accepted, and its run is not cut short as it was
saved. As it is read back, its run is cut short and leaves the record as being evaluated. -/
theorem Engine.run_outOfTime_iff_overruns_boundless :
    Sample.boundlessRule.validate = .ok () ∧
      (Sample.overlongEngine.run (Sample.jobOf Sample.boundlessRule)).1 ≠ .outOfTime ∧
      ∃ r, (RuleRow.ofRule Sample.boundlessRule).read = .ok r ∧
        (Sample.overlongEngine.run (Sample.jobOf r)).1 = .outOfTime ∧
        (Sample.overlongEngine.run (Sample.jobOf r)).2.store.versions.map (·.status) =
          [.pending, .evaluating] := by
  have hepoch : Timestamp.epoch.HasFourDigitYear := by decide +kernel
  have hread : (RuleRow.ofRule Sample.boundlessRule).read = .ok Sample.boundlessRule.kept :=
    RuleRow.read_ofRule
      ⟨by simp [Sample.boundlessRule, Sample.rule], by decide +kernel, by decide +kernel,
        by decide +kernel⟩
      ⟨hepoch, hepoch, by simp [Sample.boundlessRule, Sample.rule]⟩
  refine ⟨by decide +kernel, fun hend => ?_, _, hread, ?_, by decide +kernel⟩
  · obtain ⟨-, -, -, n, hn, hle, -⟩ := (run_outOfTime_iff_overruns Sample.overlongEngine
      (Sample.jobOf Sample.boundlessRule)).2.2.1.mp hend
    obtain rfl : 0xFFFFFFFFFFFFFFFF = n := Option.some.inj hn
    exact absurd hle (by decide)
  · obtain ⟨-, -, hiff, -, hback⟩ := run_outOfTime_iff_overruns Sample.overlongEngine
      (Sample.jobOf Sample.boundlessRule.kept)
    refine hiff.mpr ⟨rfl, ⟨_, rfl⟩, rfl, (hback Sample.boundlessRule none hread _).mpr ?_⟩
    exact ⟨_, rfl, by decide⟩

end RuleEngine
