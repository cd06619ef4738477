import RuleEngine.Proofs.Data.Exchange
import RuleEngine.Proofs.Service.Effect
import RuleEngine.Proofs.Store.RuleRow

/-!
# Rules survive a database

A rule that was created or updated in a database is found afterwards as it was saved, with its times
cut to the microsecond and its delay cut to the longest one that a row holds. A delay that a row
holds comes back as it was, and with it the pause of the rule; a longer one does not.

## Main results

* `Database.get_of_saved`: what is found after a rule was saved.
-/

namespace RuleEngine

namespace Rule

/-- A delay that a row holds is kept, and with it the pause of the rule. -/
theorem executionDelay_kept {r : Rule}
    (h : ∀ s, r.delaySeconds = some s → s ≤ RuleRow.longestDelay) :
    r.kept.delaySeconds = r.delaySeconds ∧ r.kept.executionDelay = r.executionDelay := by
  have hd : r.kept.delaySeconds = r.delaySeconds := by
    change r.delaySeconds.map (min RuleRow.longestDelay) = r.delaySeconds
    cases hs : r.delaySeconds with
    | none => rfl
    | some s => rw [Option.map_some, Nat.min_eq_right (h s hs)]
  refine ⟨hd, ?_⟩
  rw [executionDelay, executionDelay, hd]

end Rule

/-- The times of a rule that is created can be kept if the instant can. -/
theorem RuleService.isDatable_created {r : Rule} {now : Timestamp} (h : now.HasFourDigitYear) :
    (created r now).IsDatable := ⟨h, h, fun _ ht => nomatch ht⟩

namespace Database

variable {d d' : Database} {r saved : Rule} {now : Timestamp}

/-- A rule that was saved has its row in the database, which is open. -/
theorem row?_of_saved (h : (RuleService.create r now).perform d = (.ok saved, d') ∨
    (RuleService.update r now).perform d = (.ok saved, d')) :
    d'.isOpen ∧ d'.row? saved.id = some (.ofRule saved) := by
  rcases h with h | h
  · obtain ⟨-, hw⟩ := RuleService.perform_create_eq_ok h
    have hi : d.insertRule saved = .ok d' := answer_eq_ok hw
    have ho := isOpen_of_answer hw
    refine ⟨?_, row?_insertRule hi⟩
    obtain ⟨-, rfl⟩ := insertRule_eq_ok_iff.mp hi
    exact ho
  · obtain ⟨_, -, -, -, hw⟩ := RuleService.perform_update_eq_ok h
    have hi : d.replaceRule saved = .ok d' := answer_eq_ok hw
    have ho := isOpen_of_answer hw
    refine ⟨?_, row?_replaceRule hi⟩
    obtain ⟨-, -, rfl⟩ := replaceRule_eq_ok_iff.mp hi
    exact ho

/-- The rule of a row is found under its identifier. -/
theorem perform_get_of_row? (ho : d.isOpen) (hrow : d.row? r.id = some (.ofRule r))
    (hs : r.IsStorable) (hd : r.IsDatable) :
    (RuleService.get r.tenant r.id).perform d = (.ok r.kept, d) := by
  have hfind : RuleStore.ruleById d r.id = .ok (some r.kept) := by
    change d.answer ((d.row? r.id).mapM RuleRow.read) = _
    rw [answer, if_pos ho, hrow, Option.mapM_some, RuleRow.read_ofRule hs hd]
    rfl
  rw [RuleService.perform_get, hfind]
  exact congrArg (·, d) (if_pos rfl)

/-- What is found after a rule was saved: the rule that the operation returned, its times cut to the
microsecond and its delay to the longest one of a row. Shorter delays are the same, and so is the
pause of the rule then. -/
theorem get_of_saved (h : (RuleService.create r now).perform d = (.ok saved, d') ∨
    (RuleService.update r now).perform d = (.ok saved, d'))
    (hs : saved.IsStorable) (hd : saved.IsDatable) :
    ∃ found, (RuleService.get saved.tenant saved.id).perform d' = (.ok found, d') ∧
      found = { saved with
        delaySeconds := saved.delaySeconds.map (min RuleRow.longestDelay)
        lastTick := saved.lastTick.map Timestamp.truncMicros
        createdAt := saved.createdAt.truncMicros
        updatedAt := saved.updatedAt.truncMicros } ∧
      ((∀ s, saved.delaySeconds = some s → s ≤ RuleRow.longestDelay) →
        found.delaySeconds = saved.delaySeconds ∧
          found.executionDelay = saved.executionDelay) := by
  obtain ⟨ho, hrow⟩ := row?_of_saved h
  exact ⟨saved.kept, perform_get_of_row? ho hrow hs hd, rfl, Rule.executionDelay_kept⟩

end Database

namespace Sample

/-- The rule of the mornings with a delay. -/
def patientRule (delay : Nat) : Rule := { morningRule with delaySeconds := some delay }

/-- An instant between two microseconds. -/
def betweenMicros : Timestamp := (Timestamp.of? 0 1500).getD .epoch

/-- The database in which the rule of the mornings was created between two microseconds. -/
def morningDatabase (delay : Nat) : Database :=
  { rules := [.ofRule (RuleService.created (patientRule delay) betweenMicros)] }

theorem isStorable_patientRule (delay : Nat) :
    (RuleService.created (patientRule delay) betweenMicros).IsStorable := by
  have hcron : weekdayMornings.IsRead := ⟨"0 9 * * 1-5", by decide +kernel⟩
  have horder : ∀ a ∈ morningRule.actions, a.order < wordBound := by decide +kernel
  have hconditions : (Json.arr (morningRule.conditions.map Condition.toJson)).depth ≤
      Json.depthLimit := by decide +kernel
  have hactions : (Json.arr (morningRule.actions.map Action.toJson)).depth ≤
      Json.depthLimit := by decide +kernel
  exact ⟨fun c hc => Trigger.schedule.inj hc ▸ hcron, horder, hconditions, hactions⟩

theorem isDatable_patientRule (delay : Nat) :
    (RuleService.created (patientRule delay) betweenMicros).IsDatable :=
  RuleService.isDatable_created (by decide +kernel)

end Sample

namespace Database

open Sample

/-- The longest delay of a row is found as it was saved. -/
theorem get_of_saved_longestDelay :
    let saved := RuleService.created (patientRule RuleRow.longestDelay) betweenMicros
    (RuleService.create (patientRule RuleRow.longestDelay) betweenMicros).perform
        ({} : Database) = (.ok saved, morningDatabase RuleRow.longestDelay) ∧
      saved.IsStorable ∧ saved.IsDatable ∧
      ∃ found, ((RuleService.get saved.tenant saved.id).perform
          (morningDatabase RuleRow.longestDelay)).1 = .ok found ∧
        found.delaySeconds = saved.delaySeconds := by
  intro saved
  have hsaved : (RuleService.create (patientRule RuleRow.longestDelay) betweenMicros).perform
      ({} : Database) = (.ok saved, morningDatabase RuleRow.longestDelay) := rfl
  have hs : saved.IsStorable := isStorable_patientRule _
  have hd : saved.IsDatable := isDatable_patientRule _
  obtain ⟨found, hfound, -, hdelay⟩ := get_of_saved (.inl hsaved) hs hd
  refine ⟨hsaved, hs, hd, found, congrArg Prod.fst hfound, (hdelay fun s h => ?_).1⟩
  exact (Option.some.inj h).ge

/-- A delay of one second more is not found as it was saved. -/
theorem delay_lost_of_saved :
    let saved := RuleService.created (patientRule 0x8000000000000000) betweenMicros
    (RuleService.create (patientRule 0x8000000000000000) betweenMicros).perform
        ({} : Database) = (.ok saved, morningDatabase 0x8000000000000000) ∧
      saved.delaySeconds = some 0x8000000000000000 ∧
      ∃ found, ((RuleService.get saved.tenant saved.id).perform
          (morningDatabase 0x8000000000000000)).1 = .ok found ∧
        found.delaySeconds = some 0x7FFFFFFFFFFFFFFF := by
  have hget := perform_get_of_row? (d := morningDatabase 0x8000000000000000) rfl rfl
    (isStorable_patientRule 0x8000000000000000) (isDatable_patientRule _)
  exact ⟨rfl, rfl, _, congrArg Prod.fst hget, rfl⟩

end Database

end RuleEngine
