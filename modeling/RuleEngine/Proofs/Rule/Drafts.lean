import Mathlib.Data.List.Induction
import Mathlib.Tactic.SplitIfs
import RuleEngine.Rule.Builder

/-!
# What a draft keeps of its steps

A rule is put together by steps in any order and any number. For a field with one value the last
step that gives one counts, and of the steps that say when the rule fires the last one counts,
whichever kind it is: a trigger empties the slot of the schedule and a schedule that of the
trigger. Conditions and actions gather in the order of their steps. So the rule that is built, or
the fault that is reported, can be said from the last words of the steps alone.

## Main definitions

* `RuleDraft.lastValue`: what the last step that gives a value for a field gives.
* `RuleDraft.TriggerWord`: what a step says of the time at which the rule fires.
* `RuleDraft.SameWords`: two sequences of steps with the same last words, conditions and actions.
* `RuleDraft.assembled`: the rule that has the last words of the steps.

## Main results

* `RuleDraft.applyAll_eq_ofLastWords`: what the slots of a draft hold after a sequence of steps.
* `RuleDraft.build_lastWords`: the rule, or the fault, that any sequence of steps comes to.
-/

namespace RuleEngine

/-! ### Faults of a trigger -/

/-- Whether a fault is about the trigger of a rule. -/
def DefinitionFault.isOfTrigger : DefinitionFault → Bool
  | .missingTrigger | .invalidCron _ => true
  | _ => false

/-- To check a condition finds no fault in a trigger. -/
theorem Condition.isOfTrigger_of_validate {c : Condition} {t : Trigger} {fault : DefinitionFault}
    (h : c.validate t = .error fault) : fault.isOfTrigger = false := by
  unfold validate at h
  split_ifs at h <;> cases h <;> rfl

theorem Rule.isOfTrigger_of_validateConditions {conditions : List Condition} {t : Trigger}
    {fault : DefinitionFault} (h : validateConditions t conditions = .error fault) :
    fault.isOfTrigger = false := by
  induction conditions with
  | nil => cases h
  | cons c rest ih =>
    rw [validateConditions] at h
    cases hc : c.validate t with
    | error found =>
      rw [hc] at h
      cases h
      exact Condition.isOfTrigger_of_validate hc
    | ok _ =>
      rw [hc] at h
      exact ih h

theorem Action.isOfTrigger_of_validateAll {actions : List Action} {seen : List Nat}
    {fault : DefinitionFault} (h : validateAll seen actions = .error fault) :
    fault.isOfTrigger = false := by
  induction actions generalizing seen with
  | nil => cases h
  | cons a rest ih =>
    rw [validateAll] at h
    split_ifs at h
    · cases h; rfl
    · cases h; rfl
    · exact ih h

/-- To check a rule finds no fault in its trigger. -/
theorem Rule.isOfTrigger_of_validate {r : Rule} {fault : DefinitionFault}
    (h : r.validate = .error fault) : fault.isOfTrigger = false := by
  unfold validate at h
  split at h
  · cases h; rfl
  · split at h
    · cases h; rfl
    · cases hc : validateConditions r.trigger r.conditions with
      | error found =>
        rw [hc] at h
        cases h
        exact isOfTrigger_of_validateConditions hc
      | ok _ =>
        rw [hc] at h
        exact Action.isOfTrigger_of_validateAll h

namespace RuleDraft

/-! ### Last words -/

/-- What a step says of the time at which the rule fires: a trigger, or a schedule as it was
written. -/
inductive TriggerWord where
  | trigger (t : Trigger)
  | schedule (expression : String)

namespace TriggerWord

/-- The trigger that a word gives. -/
def trigger? : TriggerWord → Option Trigger
  | .trigger t => some t
  | .schedule _ => none

/-- The schedule that a word gives. -/
def schedule? : TriggerWord → Option String
  | .trigger _ => none
  | .schedule e => some e

/-- The trigger that a word comes to: a schedule comes to one if it can be read. -/
inductive Means : TriggerWord → Trigger → Prop
  | trigger (t : Trigger) : Means (.trigger t) t
  | schedule {e cron} (h : CronExpression.parse e = .ok cron) :
      Means (.schedule e) (.schedule cron)

/-- A word comes to a trigger, or it is a schedule that cannot be read. -/
theorem means_or_malformed (w : TriggerWord) :
    (∃ t, w.Means t) ∨ ∃ e fault, w = .schedule e ∧ CronExpression.parse e = .error fault := by
  cases w with
  | trigger t => exact .inl ⟨t, .trigger t⟩
  | schedule e =>
    cases he : CronExpression.parse e with
    | ok cron => exact .inl ⟨_, .schedule he⟩
    | error fault => exact .inr ⟨e, fault, rfl, he⟩

end TriggerWord

namespace Step

/-- The identifier that a step gives. -/
def id? : Step → Option RuleId
  | .id i => some i
  | _ => none

/-- The tenant that a step gives. -/
def tenant? : Step → Option TenantId
  | .tenant t => some t
  | _ => none

/-- The name that a step gives. -/
def name? : Step → Option String
  | .name n => some n
  | _ => none

/-- What a step says of the time at which the rule fires. -/
def triggerWord? : Step → Option TriggerWord
  | .trigger t => some (.trigger t)
  | .onEvent subjectType eventKind => some (.trigger (.event subjectType eventKind))
  | .schedule e => some (.schedule e)
  | _ => none

/-- The combination that a step gives. -/
def combination? : Step → Option Combination
  | .combination c => some c
  | _ => none

/-- Whether the rule is active, if a step says so. -/
def active? : Step → Option Bool
  | .active a => some a
  | _ => none

/-- The delay that a step gives. -/
def delaySeconds? : Step → Option Nat
  | .delaySeconds s => some s
  | _ => none

/-- The condition that a step adds. -/
def condition? : Step → Option Condition
  | .condition c => some c
  | _ => none

/-- The action that a step adds. -/
def action? : Step → Option Action
  | .action a => some a
  | _ => none

/-- The tick that a step gives. -/
def lastTick? : Step → Option Timestamp
  | .lastTick t => some t
  | _ => none

/-- The time of creation that a step gives. -/
def createdAt? : Step → Option Timestamp
  | .createdAt t => some t
  | _ => none

end Step

/-- What the last step that gives a value for a field gives. -/
def lastValue {α : Type} (value? : Step → Option α) (steps : List Step) : Option α :=
  (steps.filterMap value?).getLast?

/-- One more step has the last word if it gives a value. -/
theorem lastValue_concat {α : Type} (value? : Step → Option α) (steps : List Step) (s : Step) :
    lastValue value? (steps ++ [s]) = (value? s).or (lastValue value? steps) := by
  cases hv : value? s <;> simp [lastValue, hv]

theorem lastValue_eq_none_iff {α : Type} {value? : Step → Option α} {steps : List Step} :
    lastValue value? steps = none ↔ ∀ s ∈ steps, value? s = none := by
  simp [lastValue]

/-- Two sequences of steps have the same last word for every field with one value, the last of
the steps that say when the rule fires among them, and the same conditions and actions. -/
structure SameWords (steps steps' : List Step) : Prop where
  id : lastValue Step.id? steps = lastValue Step.id? steps'
  tenant : lastValue Step.tenant? steps = lastValue Step.tenant? steps'
  name : lastValue Step.name? steps = lastValue Step.name? steps'
  trigger : lastValue Step.triggerWord? steps = lastValue Step.triggerWord? steps'
  combination : lastValue Step.combination? steps = lastValue Step.combination? steps'
  active : lastValue Step.active? steps = lastValue Step.active? steps'
  delaySeconds : lastValue Step.delaySeconds? steps = lastValue Step.delaySeconds? steps'
  conditions : steps.filterMap Step.condition? = steps'.filterMap Step.condition?
  actions : steps.filterMap Step.action? = steps'.filterMap Step.action?
  lastTick : lastValue Step.lastTick? steps = lastValue Step.lastTick? steps'
  createdAt : lastValue Step.createdAt? steps = lastValue Step.createdAt? steps'

/-- The draft whose slots hold the last words of the steps. -/
def ofLastWords (steps : List Step) : RuleDraft where
  id := lastValue Step.id? steps
  tenant := lastValue Step.tenant? steps
  name := lastValue Step.name? steps
  trigger := (lastValue Step.triggerWord? steps).bind TriggerWord.trigger?
  schedule := (lastValue Step.triggerWord? steps).bind TriggerWord.schedule?
  combination := (lastValue Step.combination? steps).getD .all
  active := lastValue Step.active? steps
  delaySeconds := lastValue Step.delaySeconds? steps
  conditions := steps.filterMap Step.condition?
  actions := steps.filterMap Step.action?
  lastTick := lastValue Step.lastTick? steps
  createdAt := lastValue Step.createdAt? steps

/-- A step sets its own slot; one that says when the rule fires empties the other slot for it. -/
theorem apply_ofLastWords (steps : List Step) (s : Step) :
    (ofLastWords steps).apply s = ofLastWords (steps ++ [s]) := by
  unfold ofLastWords
  simp only [lastValue_concat, List.filterMap_append]
  cases s <;>
    simp only [Step.condition?, Step.action?, List.filterMap_cons, List.filterMap_nil,
      List.append_nil] <;> rfl

/-- A draft holds the last words of its steps, and nothing else of them. -/
theorem applyAll_eq_ofLastWords (steps : List Step) :
    applyAll {} steps = ofLastWords steps := by
  induction steps using List.reverseRecOn with
  | nil => rfl
  | append_singleton steps s ih =>
    rw [← apply_ofLastWords, ← ih]
    simp [applyAll]

theorem SameWords.ofLastWords_eq {steps steps' : List Step} (h : SameWords steps steps') :
    ofLastWords steps = ofLastWords steps' := by
  simp only [ofLastWords, h.id, h.tenant, h.name, h.trigger, h.combination, h.active,
    h.delaySeconds, h.conditions, h.actions, h.lastTick, h.createdAt]

/-! ### The rule that is built -/

/-- The rule with the last words of the steps and a trigger; it gets the identifier `fresh` and the
time `now` where no step gives one, and is active unless one says otherwise. -/
def assembled (steps : List Step) (trigger : Trigger) (fresh : RuleId) (now : Timestamp) :
    Rule where
  id := (lastValue Step.id? steps).getD fresh
  tenant := (lastValue Step.tenant? steps).getD ""
  name := (lastValue Step.name? steps).getD ""
  trigger
  combination := (lastValue Step.combination? steps).getD .all
  active := (lastValue Step.active? steps).getD true
  delaySeconds := lastValue Step.delaySeconds? steps
  conditions := steps.filterMap Step.condition?
  actions := steps.filterMap Step.action?
  lastTick := lastValue Step.lastTick? steps
  createdAt := (lastValue Step.createdAt? steps).getD now
  updatedAt := (lastValue Step.createdAt? steps).getD now

section

variable {steps : List Step} {fresh : RuleId} {now : Timestamp}

theorem build_of_missing (h : lastValue Step.triggerWord? steps = none) :
    (applyAll {} steps).build fresh now = .error .missingTrigger := by
  rw [applyAll_eq_ofLastWords]
  simp only [build, readTrigger, ofLastWords, h]
  rfl

theorem build_of_malformed {e : String} {fault : Cron.Fault}
    (h : lastValue Step.triggerWord? steps = some (.schedule e))
    (he : CronExpression.parse e = .error fault) :
    (applyAll {} steps).build fresh now = .error (.invalidCron fault) := by
  rw [applyAll_eq_ofLastWords]
  simp only [build, readTrigger, ofLastWords, h, Option.bind_some, TriggerWord.trigger?,
    TriggerWord.schedule?, he]
  rfl

/-- Steps that say when the rule fires come to their rule if it passes the check, and else to what
the check finds. -/
theorem build_of_means {w : TriggerWord} {t : Trigger}
    (h : lastValue Step.triggerWord? steps = some w) (hw : w.Means t) :
    (applyAll {} steps).build fresh now =
      (assembled steps t fresh now).validate.map fun _ => assembled steps t fresh now := by
  have ht : (ofLastWords steps).readTrigger = .ok t := by
    cases hw with
    | trigger t => simp only [readTrigger, ofLastWords, h, Option.bind_some, TriggerWord.trigger?]
    | schedule hp =>
      simp only [readTrigger, ofLastWords, h, Option.bind_some, TriggerWord.trigger?,
        TriggerWord.schedule?, hp]
  rw [applyAll_eq_ofLastWords, build, ht]
  change (do (assembled steps t fresh now).validate; return assembled steps t fresh now) = _
  cases (assembled steps t fresh now).validate <;> rfl

/-- What a rule that means a trigger is refused for is not its trigger. -/
theorem isOfTrigger_of_build {w : TriggerWord} {t : Trigger} {fault : DefinitionFault}
    (h : lastValue Step.triggerWord? steps = some w) (hw : w.Means t)
    (hb : (applyAll {} steps).build fresh now = .error fault) : fault.isOfTrigger = false := by
  rw [build_of_means h hw] at hb
  cases hv : (assembled steps t fresh now).validate with
  | ok _ => rw [hv] at hb; cases hb
  | error found =>
    rw [hv] at hb
    cases hb
    exact Rule.isOfTrigger_of_validate hv

/-- The steps have no trigger exactly if none of them says when the rule fires. -/
theorem build_eq_missingTrigger_iff :
    (applyAll {} steps).build fresh now = .error .missingTrigger ↔
      ∀ s ∈ steps, s.triggerWord? = none := by
  rw [← lastValue_eq_none_iff]
  refine ⟨fun hb => ?_, build_of_missing⟩
  cases h : lastValue Step.triggerWord? steps with
  | none => rfl
  | some w =>
    rcases w.means_or_malformed with ⟨t, hw⟩ | ⟨e, fault, rfl, he⟩
    · cases isOfTrigger_of_build h hw hb
    · rw [build_of_malformed h he] at hb
      cases hb

/-- The steps have a malformed schedule exactly if the last of them that says when the rule fires
is a schedule that cannot be read. -/
theorem build_eq_invalidCron_iff {fault : Cron.Fault} :
    (applyAll {} steps).build fresh now = .error (.invalidCron fault) ↔
      ∃ e, lastValue Step.triggerWord? steps = some (.schedule e) ∧
        CronExpression.parse e = .error fault := by
  refine ⟨fun hb => ?_, fun ⟨e, h, he⟩ => build_of_malformed h he⟩
  cases h : lastValue Step.triggerWord? steps with
  | none =>
    rw [build_of_missing h] at hb
    cases hb
  | some w =>
    rcases w.means_or_malformed with ⟨t, hw⟩ | ⟨e, found, rfl, he⟩
    · cases isOfTrigger_of_build h hw hb
    · rw [build_of_malformed h he] at hb
      cases hb
      exact ⟨e, rfl, he⟩

/-- A rule that is built has the trigger of the last word and passes the check. -/
theorem build_eq_ok_iff {r : Rule} :
    (applyAll {} steps).build fresh now = .ok r ↔
      ∃ w t, lastValue Step.triggerWord? steps = some w ∧ w.Means t ∧
        r = assembled steps t fresh now ∧ r.validate = .ok () := by
  constructor
  · intro hb
    cases h : lastValue Step.triggerWord? steps with
    | none =>
      rw [build_of_missing h] at hb
      cases hb
    | some w =>
      rcases w.means_or_malformed with ⟨t, hw⟩ | ⟨e, found, rfl, he⟩
      · rw [build_of_means h hw] at hb
        cases hv : (assembled steps t fresh now).validate with
        | error found => rw [hv] at hb; cases hb
        | ok _ =>
          rw [hv] at hb
          cases hb
          exact ⟨w, t, rfl, hw, rfl, hv⟩
      · rw [build_of_malformed h he] at hb
        cases hb
  · rintro ⟨w, t, h, hw, rfl, hv⟩
    rw [build_of_means h hw, hv]
    rfl

/-- Any sequence of steps comes to what its last words say. Another sequence with the same last
words, conditions and actions builds the same; the trigger is missing if no step says when the rule
fires, and malformed if the last one that does is a schedule that cannot be read; otherwise the
rule with the last words is checked, and built or refused as the check says. A rule that is built
passes the check, was last changed when it was made, and is active unless the last word on that
says otherwise. -/
theorem build_lastWords (steps : List Step) (fresh : RuleId) (now : Timestamp) :
    (∀ steps', SameWords steps steps' →
      (applyAll {} steps').build fresh now = (applyAll {} steps).build fresh now) ∧
    ((applyAll {} steps).build fresh now = .error .missingTrigger ↔
      ∀ s ∈ steps, s.triggerWord? = none) ∧
    (∀ fault, (applyAll {} steps).build fresh now = .error (.invalidCron fault) ↔
      ∃ e, lastValue Step.triggerWord? steps = some (.schedule e) ∧
        CronExpression.parse e = .error fault) ∧
    (∀ w t, lastValue Step.triggerWord? steps = some w → w.Means t →
      (∀ fault, (applyAll {} steps).build fresh now = .error fault ↔
        (assembled steps t fresh now).validate = .error fault) ∧
      ∀ r, (applyAll {} steps).build fresh now = .ok r ↔
        (assembled steps t fresh now).validate = .ok () ∧ r = assembled steps t fresh now) ∧
    (∀ r, (applyAll {} steps).build fresh now = .ok r →
      r.validate = .ok () ∧ r.updatedAt = r.createdAt ∧
        r.active = (lastValue Step.active? steps).getD true) := by
  refine ⟨fun steps' h => ?_, build_eq_missingTrigger_iff, fun _ => build_eq_invalidCron_iff,
    fun w t h hw => ?_, fun r hb => ?_⟩
  · rw [applyAll_eq_ofLastWords, applyAll_eq_ofLastWords, h.ofLastWords_eq]
  · rw [build_of_means h hw]
    cases (assembled steps t fresh now).validate with
    | ok _ => simp [Except.map, eq_comm]
    | error found => simp [Except.map]
  · obtain ⟨w, t, -, -, rfl, hv⟩ := build_eq_ok_iff.mp hb
    exact ⟨hv, rfl, rfl⟩

end

end RuleDraft

/-! ### The steps to one rule -/

namespace Sample

/-- A rule gets a schedule that cannot be read, and after that an event in its place. -/
def replacingSteps : List RuleDraft.Step :=
  [.schedule "60 * * * *", .tenant "acme", .onEvent "order" .created, .name "greet"]

/-- The steps to the same rule without the schedule. -/
def plainSteps : List RuleDraft.Step :=
  [.tenant "acme", .onEvent "order" .created, .name "greet"]

end Sample

/-- The schedule that was replaced leaves no trace, and the rule is built. -/
theorem RuleDraft.build_lastWords_replacingSteps :
    SameWords Sample.replacingSteps Sample.plainSteps ∧
      (applyAll {} Sample.plainSteps).build (.numbered 0) .epoch =
        .ok (assembled Sample.replacingSteps (.event "order" .created) (.numbered 0) .epoch) := by
  have h : SameWords Sample.replacingSteps Sample.plainSteps :=
    ⟨rfl, rfl, rfl, rfl, rfl, rfl, rfl, rfl, rfl, rfl, rfl⟩
  obtain ⟨hsame, -, -, hrule, -⟩ :=
    build_lastWords Sample.replacingSteps (.numbered 0) .epoch
  refine ⟨h, (hsame _ h).trans ?_⟩
  exact ((hrule _ _ rfl (.trigger _)).2 _).mpr ⟨by decide +kernel, rfl⟩

end RuleEngine
