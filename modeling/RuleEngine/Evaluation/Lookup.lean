import RuleEngine.Identifier
import RuleEngine.Value

/-!
# Entity lookups

Read access to the business records that a rule's conditions refer to. The owner of the records
answers one question at a time: what one field of one record of one tenant holds.
-/

namespace RuleEngine

/-- A pointer to a business record. -/
structure EntityRef where
  type : String
  id : String
deriving DecidableEq

/-- What a field of a record holds: a value, or a pointer to a related record. A lookup may also
find nothing, or fail. -/
inductive LookupAnswer where
  | value (v : Value)
  | related (target : EntityRef)
  | notFound
  | failed

/-- The owner of the business records. -/
abbrev Lookup := TenantId → EntityRef → String → LookupAnswer

/-- A question to the owner of the business records. -/
structure LookupCall where
  tenant : TenantId
  entity : EntityRef
  field : String
deriving DecidableEq

namespace Lookup

/-- The lookup of an engine without business records. -/
def detached : Lookup := fun _ _ _ => .notFound

end Lookup

end RuleEngine
