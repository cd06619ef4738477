import RuleEngine.Proofs.Run.Path
import RuleEngine.Proofs.Store.Status

/-!
# Runs that a log accepts

A log accepts every version of a record that it holds open, and goes on to hold it open until a
version ends it. The versions after which a run goes on do not end it. So a run is not refused if
its record is held open when it starts and nobody else writes to the log, and if it is parked its
record is held open until it comes back.

## Main definitions

* `OpenLog`: a log that accepts the versions of a record that it holds open.

## Main results

* `Engine.run_accepted`: a run whose record is held open is not refused.
-/

namespace RuleEngine

/-- A log that accepts new versions of the records that it holds open. -/
class OpenLog (σ : Type) [ExecutionLog σ] where
  /-- Whether a log has a record that has not ended under an identifier. -/
  HoldsOpen : σ → ExecutionId → Prop
  /-- A version is accepted, and the record is held open if the version has not ended. -/
  update_open {s : σ} {v : ExecutionRecord} (h : HoldsOpen s v.id) :
    ∃ s', ExecutionLog.updateRecord s v = .ok s' ∧ (v.isTerminal = false → HoldsOpen s' v.id)

open OpenLog

/-! ### Runs over a log that holds their record open -/

section

variable {σ : Type} [ExecutionLog σ] [OpenLog σ] {r : Run} {p : RunProgress}

/-- A version that is asked for leads to an end or further, and not to a refusal. -/
private theorem Run.Writes.ne_refused {now : Timestamp} {v : ExecutionRecord}
    (h : r.Writes now v p) (error : EngineError) : p ≠ .ended (.refused error) := by
  cases h <;> exact fun hp => (nomatch hp)

/-- A version has not ended unless its run is finished. -/
private theorem Run.Writes.open_or_finished {now : Timestamp} {v : ExecutionRecord}
    (h : r.Writes now v p) (hr : r.IsSteady) :
    v.isTerminal = false ∨ p = .ended (.finished v) := by
  cases h with
  | declining | closing => exact .inr rfl
  | opening | accepting | starting | parking => exact .inl rfl
  | noting failure rest hs =>
    refine .inl ?_
    rw [ExecutionRecord.isTerminal, hr, hs]
    rfl

/-- A step of a run whose record is held open is not refused. The record is held open after it,
unless the run is finished. -/
theorem Run.holdsOpen_of_runStep {e e' : Engine σ} {events : List RunEvent}
    (h : e.RunStep r events p e') (hr : r.IsSteady) (ho : HoldsOpen e.store r.record.id) :
    (∀ error, p ≠ .ended (.refused error)) ∧
      (∀ r', p = .going r' → HoldsOpen e'.store r'.record.id) ∧
      ∀ j runAt, p = .ended (.deferred j runAt) → HoldsOpen e'.store j.record.id := by
  cases h with
  | @wrote v p s hw hs =>
    obtain ⟨s', hs', hkeep⟩ := update_open (hw.id_eq ▸ ho)
    cases hs.symm.trans hs'
    have hnext (hp : p ≠ .ended (.finished v)) : HoldsOpen s v.id :=
      hkeep ((hw.open_or_finished hr).resolve_right hp)
    refine ⟨hw.ne_refused, ?_, ?_⟩
    · rintro r' rfl
      exact hw.going_eq.2.2 ▸ hnext fun hp => (nomatch hp)
    · rintro j runAt rfl
      exact hw.deferred_eq.1 ▸ hnext fun hp => (nomatch hp)
  | @refused v p error hw hs =>
    obtain ⟨s', hs', -⟩ := update_open (hw.id_eq ▸ ho)
    cases hs.symm.trans hs'
  | unsteady fault hn => exact absurd hr hn
  | outOfTime =>
    exact ⟨fun error hp => (nomatch hp), fun r' hp => (nomatch hp), fun j runAt hp => (nomatch hp)⟩
  | judged hs =>
    refine ⟨fun error hp => (nomatch hp), ?_, fun j runAt hp => (nomatch hp)⟩
    rintro r' ⟨⟩
    exact ho
  | carried a t now rest o hs hc hstore hi =>
    refine ⟨fun error hp => (nomatch hp), ?_, fun j runAt hp => (nomatch hp)⟩
    rintro r' ⟨⟩
    exact hstore ▸ ho

namespace Engine

/-- A run that is carried through while its record is held open is not refused. -/
theorem carryRun_accepted (e : Engine σ) (r : Run) (hr : r.IsSteady)
    (ho : HoldsOpen e.store r.record.id) (fuel : Nat) :
    (∀ error, (e.carryRun r fuel).1 ≠ .ended (.refused error)) ∧
      ∀ j runAt, (e.carryRun r fuel).1 = .ended (.deferred j runAt) →
        HoldsOpen (e.carryRun r fuel).2.store j.record.id := by
  induction fuel generalizing e r with
  | zero => exact ⟨fun error hp => (nomatch hp), fun j runAt hp => (nomatch hp)⟩
  | succ fuel ih =>
    have hstep := e.runStep_stepRun r
    rw [carryRun]
    rcases hs : e.stepRun r with ⟨p, e'⟩
    rw [hs] at hstep
    obtain ⟨hrefused, hgoing, hdeferred⟩ := Run.holdsOpen_of_runStep hstep hr ho
    cases p with
    | going r' => exact ih e' r' (Run.steady_of_runStep hstep hr).1 (hgoing r' rfl)
    | ended ending => exact ⟨hrefused, hdeferred⟩

/-- An engine whose log holds the record of a job open does not refuse to run it, and holds it open
if it parks the job. -/
theorem run_accepted {j : Job} (hj : Run.ofJob j = .ok r) (e : Engine σ)
    (ho : HoldsOpen e.store j.record.id) : (∀ error, (e.run j).1 ≠ .refused error) ∧
      ∀ j' runAt, (e.run j).1 = .deferred j' runAt → HoldsOpen (e.run j).2.store j'.record.id := by
  have hrecord : r.record = j.record := congrArg Job.record (Run.job_of_ofJob hj)
  have h := e.carryRun_accepted r (Run.isSteady_of_ofJob hj) (hrecord ▸ ho) r.stepsLeft
  rw [carryRun_eq_run hj e] at h
  exact ⟨fun error hp => h.1 error (congrArg RunProgress.ended hp),
    fun j' runAt hp => h.2 j' runAt (congrArg RunProgress.ended hp)⟩

end Engine

end

/-! ### The two stores -/

instance MemoryStore.openLog : OpenLog MemoryStore where
  HoldsOpen m id := ∃ r, m.findRecord id = some r ∧ r.isTerminal = false
  update_open {m v} h := by
    obtain ⟨r, hr, ht⟩ := h
    refine ⟨m.putRecord v, ?_, fun hv => ⟨v, ?_, hv⟩⟩
    · change m.update v = _
      simp only [update, hr, ht, Bool.false_eq_true, if_false]
    · rw [findRecord_putRecord, if_pos rfl]

instance Database.openLog : OpenLog Database where
  HoldsOpen d id := d.isOpen = true ∧ ∃ row, d.executionRow? id = some row ∧ row.isOpen = true
  update_open {d v} h := by
    obtain ⟨hd, row, hrow, ht⟩ := h
    have hrevised := reviseRecord_eq_ok_iff.mpr ⟨row, hrow, ht, rfl⟩
    obtain ⟨stored, -, hfound⟩ := executionRow?_reviseRecord hrevised
    have hwritten : ExecutionLog.updateRecord d v = d.reviseRecord v := if_pos hd
    refine ⟨_, hwritten.trans hrevised, fun hv => ⟨hd, stored.revise v, ?_, ?_⟩⟩
    · rw [hfound, if_pos rfl]
    · rw [ExecutionRow.isOpen_revise, hv]
      rfl

end RuleEngine
