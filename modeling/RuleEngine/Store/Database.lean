import RuleEngine.Store.Column
import RuleEngine.Store.Interface

/-!
# The store of a database

Rules and records are kept as rows of two tables. A rule is unique by its identifier and by its
tenant and name, a record by its identifier. A new version of a record touches only what changes
in the course of an execution, and only if the record has not ended.
-/

namespace RuleEngine

/-- A row of the table of rules. -/
structure RuleRow where
  id : RuleId
  tenant : TenantId
  name : String
  triggerKind : String
  trigger : Column.Data
  combination : String
  active : Bool
  delaySeconds : Option Nat
  conditions : Column.Data
  actions : Column.Data
  lastTick : Option String
  createdAt : String
  updatedAt : String

namespace RuleRow

/-- The largest delay that a row holds. -/
def longestDelay : Nat := 0x7FFFFFFFFFFFFFFF

/-- The row of a rule. -/
def ofRule (r : Rule) : RuleRow where
  id := r.id
  tenant := r.tenant
  name := r.name
  triggerKind := r.trigger.kind.name
  trigger := Column.ofJson r.trigger.toJson
  combination := r.combination.name
  active := r.active
  delaySeconds := r.delaySeconds.map (min longestDelay)
  conditions := Column.ofJson (.arr (r.conditions.map Condition.toJson))
  actions := Column.ofJson (.arr (r.actions.map Action.toJson))
  lastTick := r.lastTick.map Column.ofInstant
  createdAt := Column.ofInstant r.createdAt
  updatedAt := Column.ofInstant r.updatedAt

/-- The rule of a row. -/
def read (row : RuleRow) : Except EngineError Rule := do
  return {
    id := row.id
    tenant := row.tenant
    name := row.name
    trigger := ← Column.structured Trigger.ofJson? row.trigger
    combination := ← Column.tag Combination.names row.combination
    active := row.active
    delaySeconds := row.delaySeconds
    conditions := ← Column.structured (Json.list? Condition.ofJson?) row.conditions
    actions := ← Column.structured (Json.list? Action.ofJson?) row.actions
    lastTick := ← Column.optionalInstant row.lastTick
    createdAt := ← Column.instant row.createdAt
    updatedAt := ← Column.instant row.updatedAt }

/-- Whether a row belongs to a rule that comes before another by tenant and name. -/
def order (a b : RuleRow) : Bool :=
  a.tenant < b.tenant || (a.tenant == b.tenant && a.name ≤ b.name)

end RuleRow

/-- A row of the table of execution records. -/
structure ExecutionRow where
  id : ExecutionId
  tenant : TenantId
  ruleId : RuleId
  ruleName : String
  triggerKind : String
  trigger : Column.Data
  subjectType : Option String
  subjectId : Option String
  status : String
  conditions : Column.Data
  steps : Column.Data
  error : Option String
  delayedUntil : Option String
  startedAt : String
  finishedAt : Option String

namespace ExecutionRow

/-- The row of a record. -/
def ofRecord (r : ExecutionRecord) : ExecutionRow :=
  let subject := match r.trigger with
    | .event subjectType subjectId _ => some (subjectType, subjectId)
    | .schedule _ => none
  { id := r.id
    tenant := r.tenant
    ruleId := r.ruleId
    ruleName := r.ruleName
    triggerKind := r.triggerKind.name
    trigger := Column.ofJson r.trigger.toJson
    subjectType := subject.map (·.1)
    subjectId := subject.map (·.2)
    status := r.status.name
    conditions := Column.ofJson (.arr (r.conditions.map ConditionResult.toJson))
    steps := Column.ofJson (.arr (r.steps.map ActionStep.toJson))
    error := r.error
    delayedUntil := r.delayedUntil.map Column.ofInstant
    startedAt := Column.ofInstant r.startedAt
    finishedAt := r.finishedAt.map Column.ofInstant }

/-- The record of a row. -/
def read (row : ExecutionRow) : Except EngineError ExecutionRecord := do
  return {
    id := row.id
    tenant := row.tenant
    ruleId := row.ruleId
    ruleName := row.ruleName
    triggerKind := ← Column.tag TriggerKind.names row.triggerKind
    trigger := ← Column.structured TriggerSnapshot.ofJson? row.trigger
    status := ← Column.tag ExecutionStatus.names row.status
    conditions := ← Column.structured (Json.list? ConditionResult.ofJson?) row.conditions
    steps := ← Column.structured (Json.list? ActionStep.ofJson?) row.steps
    error := row.error
    delayedUntil := ← Column.optionalInstant row.delayedUntil
    startedAt := ← Column.instant row.startedAt
    finishedAt := ← Column.optionalInstant row.finishedAt }

/-- The names of the statuses in which rows are not written to any more. -/
def closedTags : List String := ["conditions_not_met", "completed", "failed", "abandoned"]

/-- Whether a row is still written to. -/
def isOpen (row : ExecutionRow) : Bool := !closedTags.contains row.status

/-- The row with the parts of a record that a new version changes. -/
def revise (row : ExecutionRow) (r : ExecutionRecord) : ExecutionRow :=
  { row with
    status := r.status.name
    conditions := Column.ofJson (.arr (r.conditions.map ConditionResult.toJson))
    steps := Column.ofJson (.arr (r.steps.map ActionStep.toJson))
    error := r.error
    delayedUntil := r.delayedUntil.map Column.ofInstant
    finishedAt := r.finishedAt.map Column.ofInstant }

/-- The row abandoned at an instant, if it is still written to. -/
def abandon (now : Timestamp) (row : ExecutionRow) : ExecutionRow :=
  if row.isOpen then
    { row with
      status := "abandoned"
      delayedUntil := none
      finishedAt := some (Column.ofInstant now) }
  else row

/-- Whether a row passes a filter, the limit aside. -/
def accepted (q : ExecutionQuery) (row : ExecutionRow) : Bool :=
  ExecutionQuery.demand q.tenant (· == row.tenant) &&
    ExecutionQuery.demand q.ruleId (· == row.ruleId) &&
    ExecutionQuery.demand q.status (·.name == row.status) &&
    ExecutionQuery.demand q.subjectType (fun t => row.subjectType == some t) &&
    ExecutionQuery.demand q.subjectId (fun i => row.subjectId == some i) &&
    ExecutionQuery.demand q.since (fun t => Column.ofInstant t ≤ row.startedAt) &&
    ExecutionQuery.demand q.endBefore (fun t => row.startedAt < Column.ofInstant t)

end ExecutionRow

/-- A database with its two tables. -/
structure Database where
  isOpen : Bool := true
  rules : List RuleRow := []
  executions : List ExecutionRow := []

namespace Database

/-- The answer of an open database; a closed one refuses every call. -/
def answer {α : Type} (d : Database) (a : Except EngineError α) : Except EngineError α :=
  if d.isOpen then a else .error .storage

/-- Adds a row to the table of rules, unless its identifier, or its tenant and name, are in use. -/
def insertRule (d : Database) (r : Rule) : Except EngineError Database :=
  if d.rules.any fun row => row.id == r.id || (row.tenant == r.tenant && row.name == r.name) then
    .error (.conflict .rule r.name)
  else .ok { d with rules := d.rules ++ [.ofRule r] }

/-- Replaces a row of the table of rules, unless another row has the tenant and the name. -/
def replaceRule (d : Database) (r : Rule) : Except EngineError Database :=
  if !d.rules.any fun row => row.id == r.id then .error (.notFound .rule r.id)
  else if d.rules.any fun row => row.id != r.id && row.tenant == r.tenant && row.name == r.name
  then .error (.conflict .rule r.name)
  else .ok { d with rules := d.rules.map fun row => if row.id = r.id then .ofRule r else row }

/-- Notes a minute of the scheduler in a row, if its text is greater than the one noted. -/
def claim (d : Database) (id : RuleId) (tick : Timestamp) : Bool × Database :=
  let text := Column.ofInstant tick
  let isBehind (row : RuleRow) : Bool := row.id == id && row.lastTick.all (· < text)
  (d.rules.any isBehind,
    { d with rules := d.rules.map fun row =>
        if isBehind row then { row with lastTick := some text } else row })

/-- Adds a row to the table of records, unless its identifier is in use. -/
def insertRecord (d : Database) (r : ExecutionRecord) : Except EngineError Database :=
  if d.executions.any fun row => row.id == r.id then .error .storage
  else .ok { d with executions := d.executions ++ [.ofRecord r] }

/-- Writes a new version into the row of a record that has not ended. -/
def reviseRecord (d : Database) (r : ExecutionRecord) : Except EngineError Database :=
  match d.executions.find? fun row => row.id == r.id with
  | none => .error (.notFound .execution r.id)
  | some stored =>
    if stored.isOpen then
      .ok { d with
        executions := d.executions.map fun row => if row.id = r.id then row.revise r else row }
    else do throw (.transition ⟨← Column.tag ExecutionStatus.names stored.status, r.status⟩)

/-- The rows of records that pass a filter, the latest start first. -/
def select (d : Database) (q : ExecutionQuery) : List ExecutionRow :=
  q.cut ((d.executions.filter (ExecutionRow.accepted q)).mergeSort
    fun a b => b.startedAt ≤ a.startedAt)

instance : RuleStore Database where
  createRule d r := d.answer (d.insertRule r)
  updateRule d r := d.answer (d.replaceRule r)
  deleteRule d id := d.answer (.ok { d with rules := d.rules.filter fun row => row.id != id })
  ruleById d id := d.answer ((d.rules.find? fun row => row.id == id).mapM RuleRow.read)
  ruleByName d tenant name :=
    d.answer
      ((d.rules.find? fun row => row.tenant == tenant && row.name == name).mapM RuleRow.read)
  rulesOf d tenant :=
    d.answer (((d.rules.filter fun row => row.tenant == tenant).mergeSort
      fun a b => a.name ≤ b.name).mapM RuleRow.read)
  activeRules d tenant kind :=
    d.answer (((d.rules.filter fun row => row.active && row.triggerKind == kind.name &&
      ExecutionQuery.demand tenant (· == row.tenant)).mergeSort RuleRow.order).mapM RuleRow.read)
  claimTick d id tick := d.answer (.ok (d.claim id tick))

instance : ExecutionLog Database where
  appendRecord d r := d.answer (d.insertRecord r)
  updateRecord d r := d.answer (d.reviseRecord r)
  recordById d id := d.answer ((d.executions.find? fun row => row.id == id).mapM ExecutionRow.read)
  queryRecords d q := d.answer ((d.select q).mapM ExecutionRow.read)
  abandonOpen d now :=
    d.answer (.ok ((d.executions.filter ExecutionRow.isOpen).length,
      { d with executions := d.executions.map (ExecutionRow.abandon now) }))

end Database

end RuleEngine
