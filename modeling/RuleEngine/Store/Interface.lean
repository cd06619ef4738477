import RuleEngine.Error
import RuleEngine.Execution.Query

/-!
# Stores

What the engine asks of a store for rules and of an execution log. Each operation is one
indivisible call; a refused call changes nothing.
-/

namespace RuleEngine

/-- A store for rules. -/
class RuleStore (σ : Type) where
  /-- Adds a rule. -/
  createRule : σ → Rule → Except EngineError σ
  /-- Replaces the rule with the same identifier. -/
  updateRule : σ → Rule → Except EngineError σ
  /-- Removes a rule, if it is there. -/
  deleteRule : σ → RuleId → Except EngineError σ
  /-- The rule with an identifier. -/
  ruleById : σ → RuleId → Except EngineError (Option Rule)
  /-- The rule of a tenant with a name. -/
  ruleByName : σ → TenantId → String → Except EngineError (Option Rule)
  /-- The rules of a tenant in the order of their names. -/
  rulesOf : σ → TenantId → Except EngineError (List Rule)
  /-- The active rules with a kind of trigger, of one tenant or of all. -/
  activeRules : σ → Option TenantId → TriggerKind → Except EngineError (List Rule)
  /-- Notes a minute of the scheduler as the last one of a rule, if it is later than the one
  noted, and tells whether it was. -/
  claimTick : σ → RuleId → Timestamp → Except EngineError (Bool × σ)

/-- A log of execution records. -/
class ExecutionLog (σ : Type) where
  /-- Adds a record. -/
  appendRecord : σ → ExecutionRecord → Except EngineError σ
  /-- Writes a new version of a record that has not ended. -/
  updateRecord : σ → ExecutionRecord → Except EngineError σ
  /-- The record with an identifier. -/
  recordById : σ → ExecutionId → Except EngineError (Option ExecutionRecord)
  /-- The records that pass a filter, the latest start first. -/
  queryRecords : σ → ExecutionQuery → Except EngineError (List ExecutionRecord)
  /-- Abandons every record that has not ended, and counts them. -/
  abandonOpen : σ → Timestamp → Except EngineError (Nat × σ)

end RuleEngine
