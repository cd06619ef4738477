import RuleEngine.Json.Reader
import RuleEngine.Rule.Builder
import RuleEngine.Rule.Json
import RuleEngine.Service.Rules

/-!
# Seeding rules

Rules can be defined in a text of JSON. Each definition replaces the rule of its tenant with its
name, or becomes a new rule.
-/

namespace RuleEngine

/-- The readings of a clock, from one time it is looked at to the next. -/
structure Readings where
  reading : Nat → Timestamp

/-- A clock that stands still. -/
instance : Coe Timestamp Readings := ⟨fun t => ⟨fun _ => t⟩⟩

/-- The definition of a rule in a seed text. -/
structure RuleSeed where
  tenant : TenantId
  name : String
  trigger : Trigger
  combination : Combination
  active : Bool
  delaySeconds : Option Nat
  conditions : List Condition
  actions : List Action

/-- Why seeding stops: the text cannot be had, it defines no rules, or a rule is refused. -/
inductive SeedError where
  | unavailable
  | malformed
  | refused (name : String) (error : EngineError)
deriving DecidableEq

namespace SeedError

/-- The message of an error by itself. -/
def summary : SeedError → String
  | .unavailable => "failed to read seed file"
  | .malformed => "failed to parse seed file"
  | .refused name _ => "failed to save seeded rule " ++ Text.quoted name

/-- The name of the kind of an error. -/
def kind : SeedError → String
  | .unavailable => "Io"
  | .malformed => "Parse"
  | .refused .. => "Rule"

end SeedError

namespace RuleSeed

/-- The data of a definition. -/
def toJson (s : RuleSeed) : Json :=
  .obj [
    ("tenant_id", .str s.tenant),
    ("name", .str s.name),
    ("trigger", s.trigger.toJson),
    ("combination", .str s.combination.name),
    ("active", .bool s.active),
    ("execution_delay_secs", .ofOption (fun s => .int (s : Nat)) s.delaySeconds),
    ("conditions", .arr (s.conditions.map Condition.toJson)),
    ("actions", .arr (s.actions.map Action.toJson))]

/-- The definition that data denotes. -/
def ofJson? (j : Json) : Option RuleSeed := do
  match ← j.record? [("tenant_id", false), ("name", false), ("trigger", false),
      ("combination", true), ("active", true), ("execution_delay_secs", true),
      ("conditions", true), ("actions", true)] with
  | [tenant, name, trigger, combination, active, delay, conditions, actions] =>
    some {
      tenant := ← Json.required Json.text? tenant
      name := ← Json.required Json.text? name
      trigger := ← Json.required Trigger.ofJson? trigger
      combination := ← Json.defaulted .all Combination.ofJson? combination
      active := ← Json.defaulted true Json.bool? active
      delaySeconds := ← Json.optional (Json.natBelow? longBound) delay
      conditions := ← Json.defaulted [] (Json.list? Condition.ofJson?) conditions
      actions := ← Json.defaulted [] (Json.list? Action.ofJson?) actions }
  | _ => none

/-- The definitions in a seed text. -/
def parse (text : String) : Except SeedError (List RuleSeed) :=
  match (Json.read? text).bind (Json.list? ofJson?) with
  | some seeds => .ok seeds
  | none => .error .malformed

/-- The steps that put a rule together from its definition. -/
def steps (s : RuleSeed) : List RuleDraft.Step :=
  [.tenant s.tenant, .name s.name, .trigger s.trigger, .combination s.combination,
    .active s.active] ++
  s.delaySeconds.toList.map .delaySeconds ++
  s.conditions.map .condition ++
  s.actions.map .action

/-- The rule of a definition. -/
def build (s : RuleSeed) (fresh : RuleId) (now : Timestamp) : Except DefinitionFault Rule :=
  (RuleDraft.applyAll {} s.steps).build fresh now

/-- Saves the rule of a definition under the identifier of the stored rule with its name, or as a
new rule. -/
def save (s : RuleSeed) (fresh : RuleId) (now : Timestamp) : RuleOperation Rule := do
  match s.build fresh now with
  | .error fault => throw (.definition fault)
  | .ok r =>
    let stored ← RuleService.list r.tenant
    match stored.find? fun other => other.name == r.name with
    | some other => RuleService.update { r with id := other.id } now
    | none => RuleService.create r now

/-- Saves the rules of definitions one after the other, and counts them; the first refusal stops
it. New rules take their identifiers from `fresh`, and the clock is looked at for each rule. -/
def saveAll (fresh : Nat → RuleId) (clock : Readings) : Nat → List RuleSeed →
    ExceptT SeedError RuleScript Nat
  | saved, [] => pure saved
  | saved, s :: rest => do
    let _ ← ExceptT.adapt (SeedError.refused s.name) (s.save (fresh saved) (clock.reading saved))
    saveAll fresh clock (saved + 1) rest

end RuleSeed

end RuleEngine
