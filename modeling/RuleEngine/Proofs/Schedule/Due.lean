import RuleEngine.Firing
import RuleEngine.Proofs.Cron.Selection

/-!
# Rules that are due

The scheduler cuts the reading of its clock to the minute before it looks at the schedules of the
rules, so that the minute can be noted for them. A schedule selects instants by the parts of their
minute, which cutting keeps at every instant: at those that cannot be counted and in leap seconds
too, although the start of the minute is not reached there. What fires is therefore what the
reading itself fires, and only the minutes that are noted are compared with the instant that the
reading was cut to.

## Main results

* `CronExpression.selects_floorMinute`: a schedule selects an instant if and only if it selects the
  one that the instant is cut to.
* `Firing.waiting_ofInstant`: the rules that a tick takes, by the reading of the clock.
-/

namespace RuleEngine

/-- A schedule selects an instant if and only if it selects the one that the instant is cut to. -/
theorem CronExpression.selects_floorMinute (c : CronExpression) (t : Timestamp) :
    c.selects t.floorMinute = c.selects t :=
  selects_congr (Timestamp.sameMinute_iff.mp t.floorMinute_sameMinute)

theorem Trigger.matchesTick_floorMinute (g : Trigger) (t : Timestamp) :
    g.matchesTick t.floorMinute = g.matchesTick t := by
  cases g with
  | event => rfl
  | schedule cron => exact cron.selects_floorMinute t

namespace Firing

theorem isDue_floorMinute (now : Timestamp) (r : Rule) :
    isDue now.floorMinute r =
      (r.trigger.matchesTick now && !r.lastTick.any now.floorMinute.notAfter) := by
  rw [isDue, r.trigger.matchesTick_floorMinute]

/-- Cutting to the minute changes nothing for a schedule. So a tick takes those of the listed rules
whose triggers the reading of the clock itself matches, but for those for which the minute or a
later one is noted. -/
theorem waiting_ofInstant {σ : Type} [RuleStore σ] (s : σ) (now : Timestamp) :
    (∀ c : CronExpression, c.selects now.floorMinute = c.selects now) ∧
      (ofInstant s now).map waiting =
        (RuleStore.activeRules s none .schedule).map fun rules => rules.filter fun r =>
          r.trigger.matchesTick now && !r.lastTick.any now.floorMinute.notAfter := by
  refine ⟨fun c => c.selects_floorMinute now, ?_⟩
  have hdue : isDue now.floorMinute = fun r =>
      r.trigger.matchesTick now && !r.lastTick.any now.floorMinute.notAfter :=
    funext (isDue_floorMinute now)
  rw [← hdue, ofInstant]
  cases RuleStore.activeRules s none .schedule with
  | error e => rfl
  | ok rules => rfl

end Firing

end RuleEngine
