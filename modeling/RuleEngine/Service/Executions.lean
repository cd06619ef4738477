import RuleEngine.Store.Interface

/-!
# Reading the execution log

A tenant reads the records of its own executions only, whatever tenant a query names.
-/

namespace RuleEngine.ExecutionService

variable {σ : Type} [ExecutionLog σ]

/-- The record of a tenant with an identifier. -/
def get (s : σ) (tenant : TenantId) (id : ExecutionId) : Except EngineError ExecutionRecord := do
  match ← ExecutionLog.recordById s id with
  | some r => if r.tenant = tenant then .ok r else .error (.notFound .execution id)
  | none => .error (.notFound .execution id)

/-- The records of a tenant that pass a filter, the latest start first. -/
def list (s : σ) (tenant : TenantId) (q : ExecutionQuery) :
    Except EngineError (List ExecutionRecord) :=
  ExecutionLog.queryRecords s { q with tenant := some tenant }

end RuleEngine.ExecutionService
