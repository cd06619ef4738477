import RuleEngine.Evaluation.Lookup
import RuleEngine.Value.Json

/-!
# Lookup tables

Business records given as a table: each row answers the question for one field of one record, for
one tenant or for all of them.
-/

namespace RuleEngine

/-- A row of a lookup table. -/
structure LookupRow where
  tenant : Option TenantId
  entity : EntityRef
  field : String
  answer : LookupAnswer

namespace EntityRef

/-- The pointer that data denotes: a type and an identifier. -/
def ofJson? : Json → Option EntityRef
  | .arr [.str type, .str id] => some ⟨type, id⟩
  | _ => none

end EntityRef

namespace LookupAnswer

/-- Whether an answer is a value or a pointer. -/
def isFound : LookupAnswer → Bool
  | .value _ | .related _ => true
  | .notFound | .failed => false

/-- The answer that the members of a row denote: a failure, a value, a pointer or nothing. -/
def ofJson? (j : Json) : Option LookupAnswer :=
  match j.given? "error", j.given? "value", j.given? "related" with
  | some _, _, _ => some .failed
  | none, some v, _ => (Value.ofJson? .direct v).map .value
  | none, none, some e => (EntityRef.ofJson? e).map .related
  | none, none, none => some .notFound

end LookupAnswer

namespace LookupRow

/-- The row that data denotes. -/
def ofJson? (j : Json) : Option LookupRow := do
  some {
    tenant := ← Json.optional Json.text? (j.get? "tenant")
    entity := ← (j.get? "entity").bind EntityRef.ofJson?
    field := ← (j.get? "field").bind Json.text?
    answer := ← LookupAnswer.ofJson? j }

/-- Whether a row is about a field of a record. -/
def isAbout (r : LookupRow) (entity : EntityRef) (field : String) : Bool :=
  r.entity == entity && r.field == field

end LookupRow

namespace Lookup

/-- The lookup in a table: the first row about the question and for its tenant answers. -/
def ofRows (rows : List LookupRow) : Lookup := fun tenant entity field =>
  match rows.find? fun r => r.tenant.all (· == tenant) && r.isAbout entity field with
  | some r => r.answer
  | none => .notFound

/-- The lookup in the index of a table: the last row that holds something about the question
answers, whatever its tenant. -/
def ofIndex (rows : List LookupRow) : Lookup := fun _ entity field =>
  match rows.reverse.find? fun r => r.answer.isFound && r.isAbout entity field with
  | some r => r.answer
  | none => .notFound

/-- The lookup that always fails. -/
def failing : Lookup := fun _ _ _ => .failed

end Lookup

namespace LookupCall

/-- The data of a question. -/
def toJson (c : LookupCall) : Json :=
  .arr [.str c.tenant, .str c.entity.type, .str c.entity.id, .str c.field]

end LookupCall

end RuleEngine
