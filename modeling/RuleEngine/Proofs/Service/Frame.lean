import RuleEngine.Proofs.Service.Survival
import RuleEngine.Proofs.Store.Rewriting

/-!
# What the operations on a stored rule leave alone

To update a rule, to switch it and to delete it either fails and changes nothing, or it changes the
row of the rule that it is about and nothing else. An update puts the new definition into the row,
in which the tenant, the time of creation and the noted minute of the scheduler stay whatever the
new definition says of them. A switch changes the state and the time of the update, and a rule that
is in the state already is left as it is. A deletion removes the row. No operation touches a record.

## Main results

* `RuleService.perform_update_frame`, `RuleService.perform_setActive_frame`,
  `RuleService.perform_delete_frame`: the database after each of the operations.
* `RuleService.reachableBy_perform`: what the operations make of such a database.
* `RuleService.perform_frame`: what the operations change and what they leave alone.
-/

namespace RuleEngine

namespace RuleService

variable {d : Database} {tenant : TenantId} {id : RuleId}

/-- An update is refused and changes nothing, or puts the definition into the row of the rule. -/
theorem perform_update_frame (h : d.Reachable) (r : Rule) (now : Timestamp) :
    (∃ e, (update r now).perform d = (.error e, d)) ∨
      ∃ row ∈ d.rules, row.id = r.id ∧ row.tenant = r.tenant ∧ ∃ stored, row.read = .ok stored ∧
        (update r now).perform d =
          (.ok (revised r stored now), d.setRow r.id (.redefined r now)) := by
  refine (perform_update_cases d r now).imp_right fun ⟨stored, d', hfound, htenant, hw, hdone⟩ => ?_
  obtain ⟨row, hm, hid, hread⟩ := Database.exists_row_of_ruleById hfound
  have hrow : row.tenant = r.tenant := (RuleRow.read_eq_ok_iff.mp hread).tenant.symm.trans htenant
  have hwritten := RuleRow.ofRule_revised now (h.exists_rule row hm) hread hid hrow
  refine ⟨row, hm, hid, hrow, stored, hread, hdone.trans ?_⟩
  rw [Database.replaceRule_eq_setRow (r := revised r stored now) h.isKeyed hm hid hwritten
    (Database.answer_eq_ok hw)]
  rfl

/-- The times that come with a definition make no difference to an update. -/
theorem update_times (r : Rule) (createdAt updatedAt : Timestamp) (lastTick : Option Timestamp)
    (now : Timestamp) : update { r with createdAt, updatedAt, lastTick } now = update r now := by
  have hc : check { r with createdAt, updatedAt, lastTick } = check r := rfl
  have he : ensureNameFree { r with createdAt, updatedAt, lastTick } = ensureNameFree r := by
    refine congrArg (RuleOperation.ask (.byName r.tenant r.name) >>= ·) (funext fun found => ?_)
    cases found <;> rfl
  rw [update, update, hc, he]

/-- A switch is refused and changes nothing, or finds the rule in that state and changes nothing, or
switches the row of the rule. -/
theorem perform_setActive_frame (h : d.ReachableBy Rule.IsWellFormed) (tenant : TenantId)
    (id : RuleId) (active : Bool) (now : Timestamp) :
    (∃ e, (setActive tenant id active now).perform d = (.error e, d)) ∨
      ∃ row ∈ d.rules, row.id = id ∧ row.tenant = tenant ∧ ∃ saved,
        (setActive tenant id active now).perform d =
          (.ok saved, if row.active = active then d else d.setRow id (.switched active now)) := by
  refine (perform_setActive_cases d tenant id active now).imp_right
    fun ⟨stored, hfound, htenant, hdone⟩ => ?_
  obtain ⟨row, hm, hid, hread⟩ := Database.exists_row_of_ruleById hfound
  have hreads := RuleRow.read_eq_ok_iff.mp hread
  refine ⟨row, hm, hid, hreads.tenant.symm.trans htenant, ?_⟩
  rw [← hreads.active]
  rcases hdone with ⟨ha, hdone⟩ | ⟨ha, d', hw, hdone⟩
  · exact ⟨stored, by rw [if_pos ha, hdone]⟩
  · have hrow := h.exists_rule (fun _ _ hr => ⟨hr.cron, hr.order⟩) row hm
    have hstored : row.id = stored.id := hreads.id.symm
    have hset := Database.replaceRule_eq_setRow (r := { stored with active, updatedAt := now })
      h.reachable.isKeyed hm hstored (RuleRow.ofRule_switched hrow hread)
      (Database.answer_eq_ok hw)
    refine ⟨{ stored with active, updatedAt := now }, ?_⟩
    rw [hdone, if_neg ha, hset, ← hid, hstored]

/-- A deletion is refused and changes nothing, or removes the row of the rule. -/
theorem perform_delete_frame (d : Database) (tenant : TenantId) (id : RuleId) :
    (∃ e, (delete tenant id).perform d = (.error e, d)) ∨
      ∃ row ∈ d.rules, row.id = id ∧ row.tenant = tenant ∧
        (delete tenant id).perform d =
          (.ok (), { d with rules := d.rules.filter fun row => row.id != id }) := by
  refine (perform_delete_cases d tenant id).imp_right
    fun ⟨stored, d', hfound, htenant, hw, hdone⟩ => ?_
  obtain ⟨row, hm, hid, hread⟩ := Database.exists_row_of_ruleById hfound
  cases Database.answer_eq_ok hw
  exact ⟨row, hm, hid, (RuleRow.read_eq_ok_iff.mp hread).tenant.symm.trans htenant, hdone⟩

/-- The operations make such a database of such a one, and so does the creation of a well-formed
rule. -/
theorem reachableBy_perform (h : d.ReachableBy Rule.IsWellFormed) {r : Rule}
    (hr : r.IsWellFormed) (active : Bool) (now : Timestamp) :
    ((create r now).perform d).2.ReachableBy Rule.IsWellFormed ∧
      ((update r now).perform d).2.ReachableBy Rule.IsWellFormed ∧
      ((setActive tenant id active now).perform d).2.ReachableBy Rule.IsWellFormed ∧
      ((delete tenant id).perform d).2.ReachableBy Rule.IsWellFormed := by
  refine ⟨?_, ?_, ?_, ?_⟩
  · rcases snd_perform_create d r now with hs | hw
    · exact hs.symm ▸ h
    · exact h.createRule (created r now) ⟨hr.cron, hr.order⟩ hw
  · rcases snd_perform_update d r now with hs | ⟨stored, -, hw⟩
    · exact hs.symm ▸ h
    · exact h.updateRule (revised r stored now) ⟨hr.cron, hr.order⟩ hw
  · rcases snd_perform_setActive d tenant id active now with hs | ⟨stored, hfound, hw⟩
    · exact hs.symm ▸ h
    · obtain ⟨row, hm, -, hread⟩ := Database.exists_row_of_ruleById hfound
      obtain ⟨w, hw', rfl⟩ := h.exists_rule (fun _ _ hr => ⟨hr.cron, hr.order⟩) row hm
      have hstored := (hw'.sameDefinition_of_read hread).isWellFormed hw'
      exact h.updateRule { stored with active, updatedAt := now }
        ⟨hstored.cron, hstored.order⟩ hw
  · rcases snd_perform_delete d tenant id with hs | hw
    · exact hs.symm ▸ h
    · exact h.deleteRule hw

/-- In every database that well-formed rules were written to, an update, a switch and a deletion
are refused and change nothing, or they find the row of the rule with the given tenant. Then an
update puts the definition into that row, with its delay cut to the longest one of a row, and leaves
the identifier, the tenant, the time of creation and the noted minute as they are, whatever times
come with the definition; a switch changes the state and the time of the update, or nothing at all
if the row is in that state; and a deletion removes the row. Every other row stays as it is, and so
do the records. -/
theorem perform_frame (h : d.ReachableBy Rule.IsWellFormed) :
    (∀ (r : Rule) (now : Timestamp),
      ((∃ e, (update r now).perform d = (.error e, d)) ∨
        ∃ row ∈ d.rules, row.id = r.id ∧ row.tenant = r.tenant ∧ ∃ saved,
          (update r now).perform d = (.ok saved, d.setRow r.id (.redefined r now))) ∧
      ∀ createdAt updatedAt lastTick,
        (update { r with createdAt, updatedAt, lastTick } now).perform d =
          (update r now).perform d) ∧
    (∀ (tenant : TenantId) (id : RuleId) (active : Bool) (now : Timestamp),
      (∃ e, (setActive tenant id active now).perform d = (.error e, d)) ∨
        ∃ row ∈ d.rules, row.id = id ∧ row.tenant = tenant ∧ ∃ saved,
          (setActive tenant id active now).perform d =
            (.ok saved, if row.active = active then d else d.setRow id (.switched active now))) ∧
    ∀ (tenant : TenantId) (id : RuleId),
      (∃ e, (delete tenant id).perform d = (.error e, d)) ∨
        ∃ row ∈ d.rules, row.id = id ∧ row.tenant = tenant ∧
          (delete tenant id).perform d =
            (.ok (), { d with rules := d.rules.filter fun row => row.id != id }) := by
  refine ⟨fun r now => ⟨?_, fun createdAt updatedAt lastTick => ?_⟩,
    perform_setActive_frame h, perform_delete_frame d⟩
  · refine (perform_update_frame h.reachable r now).imp_right ?_
    rintro ⟨row, hm, hid, htenant, stored, -, hdone⟩
    exact ⟨row, hm, hid, htenant, _, hdone⟩
  · rw [update_times]

end RuleService

/-! ### A rule that is updated -/

namespace Sample

theorem isWellFormed_patientRule (delay : Nat) : (patientRule delay).IsWellFormed := by
  refine ⟨fun c hc => ?_, by change ∀ a ∈ morningRule.actions, _; decide⟩
  obtain rfl : weekdayMornings = c := Trigger.schedule.inj hc
  exact ⟨"0 9 * * 1-5", by decide +kernel⟩

/-- The database in which the rule of the mornings was created can be reached. -/
theorem reachableBy_morningDatabase (delay : Nat) :
    (morningDatabase delay).ReachableBy Rule.IsWellFormed :=
  have hwell := isWellFormed_patientRule delay
  .createRule .empty (RuleService.created (patientRule delay) betweenMicros)
    ⟨hwell.cron, hwell.order⟩ rfl

end Sample

namespace RuleService

open Sample

/-- The rule of the mornings gets a pause of one second, or is switched on. -/
theorem perform_frame_patientRule :
    (morningDatabase 0).ReachableBy Rule.IsWellFormed ∧
      (∃ saved, (update (patientRule 1) .epoch).perform (morningDatabase 0) = (.ok saved,
        (morningDatabase 0).setRow (patientRule 1).id (.redefined (patientRule 1) .epoch))) ∧
      ∃ saved, (setActive (patientRule 0).tenant (patientRule 0).id true .epoch).perform
        (morningDatabase 0) = (.ok saved,
          (morningDatabase 0).setRow (patientRule 0).id (.switched true .epoch)) := by
  obtain ⟨hupdate, hswitch, -⟩ := perform_frame (reachableBy_morningDatabase 0)
  refine ⟨reachableBy_morningDatabase 0, ?_, ?_⟩
  · have hok : ((update (patientRule 1) .epoch).perform (morningDatabase 0)).1.isOk := by
      decide +kernel
    rcases (hupdate (patientRule 1) .epoch).1 with ⟨e, he⟩ | ⟨_, -, -, -, saved, hdone⟩
    · rw [he] at hok
      cases hok
    · exact ⟨saved, hdone⟩
  · have hok : ((setActive (patientRule 0).tenant (patientRule 0).id true .epoch).perform
        (morningDatabase 0)).1.isOk := by decide +kernel
    rcases hswitch (patientRule 0).tenant (patientRule 0).id true .epoch with
      ⟨e, he⟩ | ⟨row, hm, -, -, saved, hdone⟩
    · rw [he] at hok
      cases hok
    · obtain rfl := List.mem_singleton.mp hm
      exact ⟨saved, hdone.trans (by rw [if_neg (by decide)])⟩

/-- A delay of one second more than a row holds is not stored as it was given. -/
theorem delay_lost_of_updated :
    (morningDatabase 0).ReachableBy Rule.IsWellFormed ∧
      ∃ saved d', (update (patientRule 0x8000000000000000) .epoch).perform (morningDatabase 0) =
          (.ok saved, d') ∧
        (patientRule 0x8000000000000000).delaySeconds = some 0x8000000000000000 ∧
        (d'.row? (patientRule 0x8000000000000000).id).map (·.delaySeconds) =
          some (some 0x7FFFFFFFFFFFFFFF) := by
  have hreach := reachableBy_morningDatabase 0
  have hok : ((update (patientRule 0x8000000000000000) .epoch).perform
      (morningDatabase 0)).1.isOk := by decide +kernel
  rcases perform_update_frame hreach.reachable (patientRule 0x8000000000000000) .epoch with
    ⟨e, he⟩ | ⟨_, -, -, -, _, -, hdone⟩
  · rw [he] at hok
    cases hok
  · exact ⟨hreach, _, _, hdone, rfl, rfl⟩

end RuleService

end RuleEngine
