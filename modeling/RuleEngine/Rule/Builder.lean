import RuleEngine.Rule

/-!
# Building rules

A draft of a rule is filled step by step. A trigger and the text of a schedule empty each other's
slot, and the schedule is read when the rule is built.
-/

namespace RuleEngine

/-- A rule being put together, with a slot for its trigger and one for a schedule as it was
written. -/
structure RuleDraft where
  id : Option RuleId := none
  tenant : Option TenantId := none
  name : Option String := none
  trigger : Option Trigger := none
  schedule : Option String := none
  combination : Combination := .all
  active : Option Bool := none
  delaySeconds : Option Nat := none
  conditions : List Condition := []
  actions : List Action := []
  lastTick : Option Timestamp := none
  createdAt : Option Timestamp := none

/-- One step of putting a rule together. -/
inductive RuleDraft.Step where
  | id (id : RuleId)
  | tenant (tenant : TenantId)
  | name (name : String)
  | trigger (t : Trigger)
  | onEvent (subjectType : String) (eventKind : EventKind)
  | schedule (expression : String)
  | combination (c : Combination)
  | active (active : Bool)
  | delaySeconds (seconds : Nat)
  | condition (c : Condition)
  | action (a : Action)
  | lastTick (t : Timestamp)
  | createdAt (t : Timestamp)

namespace RuleDraft

/-- The draft after a step. -/
def apply (d : RuleDraft) : Step → RuleDraft
  | .id id => { d with id := some id }
  | .tenant t => { d with tenant := some t }
  | .name n => { d with name := some n }
  | .trigger t => { d with trigger := some t, schedule := none }
  | .onEvent subjectType eventKind =>
    { d with trigger := some (.event subjectType eventKind), schedule := none }
  | .schedule e => { d with schedule := some e, trigger := none }
  | .combination c => { d with combination := c }
  | .active a => { d with active := some a }
  | .delaySeconds s => { d with delaySeconds := some s }
  | .condition c => { d with conditions := d.conditions ++ [c] }
  | .action a => { d with actions := d.actions ++ [a] }
  | .lastTick t => { d with lastTick := some t }
  | .createdAt t => { d with createdAt := some t }

/-- The draft after several steps. -/
def applyAll (d : RuleDraft) (steps : List Step) : RuleDraft :=
  steps.foldl apply d

/-- The trigger of a draft: that in its slot, or else the schedule once it is read. -/
def readTrigger (d : RuleDraft) : Except DefinitionFault Trigger :=
  match d.trigger, d.schedule with
  | some t, _ => .ok t
  | none, some e => match CronExpression.parse e with
    | .ok cron => .ok (.schedule cron)
    | .error fault => .error (.invalidCron fault)
  | none, none => .error .missingTrigger

/-- The rule of a draft, which gets the identifier `fresh` and the time `now` where it names
none. -/
def build (d : RuleDraft) (fresh : RuleId) (now : Timestamp) : Except DefinitionFault Rule := do
  let trigger ← d.readTrigger
  let rule : Rule := {
    id := d.id.getD fresh
    tenant := d.tenant.getD ""
    name := d.name.getD ""
    trigger
    combination := d.combination
    active := d.active.getD true
    delaySeconds := d.delaySeconds
    conditions := d.conditions
    actions := d.actions
    lastTick := d.lastTick
    createdAt := d.createdAt.getD now
    updatedAt := d.createdAt.getD now }
  rule.validate
  return rule

end RuleDraft

end RuleEngine
