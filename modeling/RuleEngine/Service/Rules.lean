import RuleEngine.Service.Script

/-!
# Managing rules

The operations by which a tenant manages its rules. A definition is checked before it is saved,
and a tenant sees its own rules only.
-/

namespace RuleEngine

namespace RuleService

/-- Refuses a faulty definition. -/
def check (r : Rule) : RuleOperation Unit :=
  match r.validate with
  | .ok () => pure ()
  | .error fault => throw (.definition fault)

/-- Refuses a name that another rule of the tenant has. -/
def ensureNameFree (r : Rule) : RuleOperation Unit := do
  match ← RuleOperation.ask (.byName r.tenant r.name) with
  | some other => if other.id = r.id then pure () else throw (.conflict .rule r.name)
  | none => pure ()

/-- The rule of a tenant with an identifier. -/
def get (tenant : TenantId) (id : RuleId) : RuleOperation Rule := do
  match ← RuleOperation.ask (.byId id) with
  | some r => if r.tenant = tenant then pure r else throw (.notFound .rule id)
  | none => throw (.notFound .rule id)

/-- The rules of a tenant. -/
def list (tenant : TenantId) : RuleOperation (List Rule) :=
  RuleOperation.ask (.list tenant)

/-- Creates a rule. It counts as created and updated now, and no minute of the scheduler is noted
for it. -/
def create (r : Rule) (now : Timestamp) : RuleOperation Rule := do
  check r
  ensureNameFree r
  let r := { r with createdAt := now, updatedAt := now, lastTick := none }
  RuleOperation.ask (.create r)
  return r

/-- Replaces the definition of a rule. The time of its creation and the noted minute of the
scheduler stay those of the stored rule. -/
def update (r : Rule) (now : Timestamp) : RuleOperation Rule := do
  check r
  let stored ← get r.tenant r.id
  if stored.name ≠ r.name then ensureNameFree r
  let r := { r with createdAt := stored.createdAt, lastTick := stored.lastTick, updatedAt := now }
  RuleOperation.ask (.update r)
  return r

/-- Switches a rule on or off; a rule that is in that state already is left alone. -/
def setActive (tenant : TenantId) (id : RuleId) (active : Bool) (now : Timestamp) :
    RuleOperation Rule := do
  let stored ← get tenant id
  if stored.active = active then return stored
  let r := { stored with active, updatedAt := now }
  RuleOperation.ask (.update r)
  return r

/-- Deletes a rule; the records of its executions stay. -/
def delete (tenant : TenantId) (id : RuleId) : RuleOperation Unit := do
  let _ ← get tenant id
  RuleOperation.ask (.delete id)

end RuleService

end RuleEngine
