import RuleEngine.Engine
import RuleEngine.Execution.Json
import RuleEngine.Service.Executions
import RuleEngine.Service.Rules

/-!
# Requests

What can be asked of an engine about its rules and records, as data: the requests of a tenant, and
those that go to the stores directly. A request has a name and arguments, and is answered at once.
-/

namespace RuleEngine

/-- A request. Those for a tenant are checked, those to a store are not. -/
inductive Request where
  | createRule (r : Rule)
  | updateRule (r : Rule)
  | getRule (tenant : TenantId) (id : RuleId)
  | listRules (tenant : TenantId)
  | setActive (tenant : TenantId) (id : RuleId) (active : Bool)
  | deleteRule (tenant : TenantId) (id : RuleId)
  | storeRule (r : Rule)
  | replaceRule (r : Rule)
  | ruleById (id : RuleId)
  | ruleByName (tenant : TenantId) (name : String)
  | removeRule (id : RuleId)
  | activeRules (tenant : Option TenantId) (kind : TriggerKind)
  | claimTick (id : RuleId) (tick : Timestamp)
  | getExecution (tenant : TenantId) (id : ExecutionId)
  | listExecutions (tenant : TenantId) (q : ExecutionQuery)
  | queryRecords (q : ExecutionQuery)
  | appendRecord (r : ExecutionRecord)
  | updateRecord (r : ExecutionRecord)
  | recordById (id : ExecutionId)
  | abandonOpen

/-- The answer to a request. -/
inductive Reply where
  | done
  | verdict (b : Bool)
  | count (n : Nat)
  | rule (r : Option Rule)
  | rules (all : List Rule)
  | names (all : List (TenantId × String))
  | record (r : Option ExecutionRecord)
  | records (all : List ExecutionRecord)

namespace Reply

/-- The data of an answer. -/
def toJson : Reply → Json
  | .done => .null
  | .verdict b => .bool b
  | .count n => .int (n : Nat)
  | .rule r => .ofOption Rule.toJson r
  | .rules all => .arr (all.map Rule.toJson)
  | .names all => .arr (all.map fun (tenant, name) => .arr [.str tenant, .str name])
  | .record r => .ofOption ExecutionRecord.toJson r
  | .records all => .arr (all.map ExecutionRecord.toJson)

end Reply

namespace Request

/-- An argument; one that is left out counts as null. -/
def argument? {α : Type} (j : Json) (name : String) (f : Json → Option α) : Option α :=
  f ((j.get? name).getD .null)

/-- The request that a name and arguments denote. Nothing for an unknown name, and nothing in it if
the arguments do not fit. -/
def read? (name : String) (j : Json) : Option (Option Request) :=
  let tenant := argument? j "tenant" Json.text?
  let id := argument? j "id" Identifier.ofJson?
  let rule := argument? j "rule" Rule.ofJson?
  let record := argument? j "record" ExecutionRecord.ofJson?
  let query := argument? j "query" ExecutionQuery.ofJson?
  match name with
  | "create_rule" => some (rule.map .createRule)
  | "update_rule" => some (rule.map .updateRule)
  | "get_rule" => some do return .getRule (← tenant) (← id)
  | "list_rules" => some (tenant.map .listRules)
  | "set_active" =>
    some do return .setActive (← tenant) (← id) (← argument? j "active" Json.bool?)
  | "delete_rule" => some do return .deleteRule (← tenant) (← id)
  | "repo_create" => some (rule.map .storeRule)
  | "repo_update" => some (rule.map .replaceRule)
  | "repo_get" => some (id.map .ruleById)
  | "repo_find" => some do return .ruleByName (← tenant) (← argument? j "name" Json.text?)
  | "repo_delete" => some (id.map .removeRule)
  | "repo_active" => some do
    return .activeRules (← Json.optional Json.text? (j.get? "tenant"))
      (← argument? j "kind" TriggerKind.ofJson?)
  | "claim_tick" => some do return .claimTick (← id) (← argument? j "tick" Timestamp.ofJson?)
  | "get_execution" => some do return .getExecution (← tenant) (← id)
  | "list_executions" => some do return .listExecutions (← tenant) (← query)
  | "log_query" => some (query.map .queryRecords)
  | "log_append" => some (record.map .appendRecord)
  | "log_update" => some (record.map .updateRecord)
  | "log_get" => some (id.map .recordById)
  | "abandon" => some (some .abandonOpen)
  | _ => none

end Request

namespace Engine

variable {σ : Type}

/-- The engine with a changed store, and an answer that does not depend on the change. -/
def written (e : Engine σ) (reply : Reply) (changed : Except EngineError σ) :
    Except EngineError Reply × Engine σ :=
  match changed with
  | .ok store => (.ok reply, { e with store })
  | .error error => (.error error, e)

/-- Answers a request of a client whose clock shows `now`. Records are abandoned at the time of the
engine. -/
def answer [RuleStore σ] [ExecutionLog σ] (e : Engine σ) (now : Timestamp) (r : Request) :
    Except EngineError Reply × Engine σ :=
  let rule (operation : RuleOperation Rule) : Except EngineError Reply × Engine σ :=
    let (result, e) := e.manage operation
    (result.map fun r => .rule (some r), e)
  match r with
  | .createRule r => rule (RuleService.create r now)
  | .updateRule r => rule (RuleService.update r now)
  | .getRule tenant id => rule (RuleService.get tenant id)
  | .setActive tenant id active => rule (RuleService.setActive tenant id active now)
  | .listRules tenant =>
    let (result, e) := e.manage (RuleService.list tenant)
    (result.map .rules, e)
  | .deleteRule tenant id =>
    let (result, e) := e.manage (RuleService.delete tenant id)
    (result.map fun _ => .done, e)
  | .storeRule r => e.written (.rule (some r)) (RuleStore.createRule e.store r)
  | .replaceRule r => e.written (.rule (some r)) (RuleStore.updateRule e.store r)
  | .ruleById id => ((RuleStore.ruleById e.store id).map .rule, e)
  | .ruleByName tenant name => ((RuleStore.ruleByName e.store tenant name).map .rule, e)
  | .removeRule id => e.written .done (RuleStore.deleteRule e.store id)
  | .activeRules tenant kind =>
    ((RuleStore.activeRules e.store tenant kind).map fun all =>
      .names (all.map fun r => (r.tenant, r.name)), e)
  | .claimTick id tick => match RuleStore.claimTick e.store id tick with
    | .ok (claimed, store) => (.ok (.verdict claimed), { e with store })
    | .error error => (.error error, e)
  | .getExecution tenant id =>
    ((ExecutionService.get e.store tenant id).map fun r => .record (some r), e)
  | .listExecutions tenant q => ((ExecutionService.list e.store tenant q).map .records, e)
  | .queryRecords q => ((ExecutionLog.queryRecords e.store q).map .records, e)
  | .appendRecord r => e.written (.record (some r)) (ExecutionLog.appendRecord e.store r)
  | .updateRecord r => e.written (.record (some r)) (ExecutionLog.updateRecord e.store r)
  | .recordById id => ((ExecutionLog.recordById e.store id).map .record, e)
  | .abandonOpen =>
    let (result, e) := e.abandon
    (result.map .count, e)

end Engine

end RuleEngine
