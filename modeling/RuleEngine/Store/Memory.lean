import RuleEngine.Store.Interface

/-!
# The store in memory

Rules and records are kept as they are, by their identifiers. Writing a rule puts it in the place
of one with the same identifier. The log also keeps every version that was written to it.
-/

namespace RuleEngine

/-- Rules and records in memory, and the written versions of the records from the first to the
last. -/
structure MemoryStore where
  rules : List Rule := []
  records : List ExecutionRecord := []
  versions : List ExecutionRecord := []

namespace MemoryStore

/-- Puts an item in the place of the one with the same key, or at the end. -/
def put {α κ : Type} [DecidableEq κ] (key : α → κ) (a : α) : List α → List α
  | [] => [a]
  | b :: rest => if key b = key a then a :: rest else b :: put key a rest

/-- The rule with an identifier. -/
def findRule (s : MemoryStore) (id : RuleId) : Option Rule :=
  s.rules.find? fun r => r.id = id

/-- The record with an identifier. -/
def findRecord (s : MemoryStore) (id : ExecutionId) : Option ExecutionRecord :=
  s.records.find? fun r => r.id = id

/-- Writes a rule. -/
def putRule (s : MemoryStore) (r : Rule) : MemoryStore :=
  { s with rules := put Rule.id r s.rules }

/-- Writes a version of a record. -/
def putRecord (s : MemoryStore) (r : ExecutionRecord) : MemoryStore :=
  { s with
    records := put ExecutionRecord.id r s.records
    versions := s.versions ++ [r] }

/-- Whether one rule comes before another by tenant and name. -/
def ruleOrder (a b : Rule) : Bool :=
  a.tenant < b.tenant || (a.tenant == b.tenant && a.name ≤ b.name)

/-- Abandons a record that has not ended. -/
def abandon (now : Timestamp) (r : ExecutionRecord) : ExecutionRecord :=
  match r.transition .abandoned now with
  | .ok r => r
  | .error _ => r

/-- Notes a minute of the scheduler for a rule, if it is later than the one noted. -/
def claim (s : MemoryStore) (id : RuleId) (tick : Timestamp) : Bool × MemoryStore :=
  match s.findRule id with
  | none => (false, s)
  | some r =>
    if r.lastTick.any tick.notAfter then (false, s)
    else (true, s.putRule { r with lastTick := some tick })

/-- Writes a new version of a record that is there and has not ended. -/
def update (s : MemoryStore) (r : ExecutionRecord) : Except EngineError MemoryStore :=
  match s.findRecord r.id with
  | none => .error (.notFound .execution r.id)
  | some stored =>
    if stored.isTerminal then .error (.transition ⟨stored.status, r.status⟩)
    else .ok (s.putRecord r)

/-- The records that pass a filter, the latest start first. -/
def query (s : MemoryStore) (q : ExecutionQuery) : List ExecutionRecord :=
  q.cut ((s.records.filter q.accepts).mergeSort fun a b => b.startedAt.notAfter a.startedAt)

instance : RuleStore MemoryStore where
  createRule s r := .ok (s.putRule r)
  updateRule s r := .ok (s.putRule r)
  deleteRule s id := .ok { s with rules := s.rules.filter fun r => r.id ≠ id }
  ruleById s id := .ok (s.findRule id)
  ruleByName s tenant name := .ok (s.rules.find? fun r => r.tenant == tenant && r.name == name)
  rulesOf s tenant :=
    .ok ((s.rules.filter fun r => r.tenant == tenant).mergeSort fun a b => a.name ≤ b.name)
  activeRules s tenant kind :=
    .ok ((s.rules.filter fun r => r.active && r.trigger.kind == kind &&
      ExecutionQuery.demand tenant (· == r.tenant)).mergeSort ruleOrder)
  claimTick s id tick := .ok (s.claim id tick)

instance : ExecutionLog MemoryStore where
  appendRecord s r := .ok (s.putRecord r)
  updateRecord s r := s.update r
  recordById s id := .ok (s.findRecord id)
  queryRecords s q := .ok (s.query q)
  abandonOpen s now :=
    .ok ((s.records.filter fun r => !r.isTerminal).length,
      { s with records := s.records.map (abandon now) })

end MemoryStore

end RuleEngine
