import RuleEngine.Identifier
import RuleEngine.Text.Quoted
import RuleEngine.Value

/-!
# Change notifications

What the owner of the business records reports after a record was created, updated or deleted.
-/

namespace RuleEngine

/-- The kind of a change. -/
inductive EventKind where
  | created
  | updated
  | deleted
deriving DecidableEq, Inhabited

namespace EventKind

/-- The names of the kinds of change. -/
def names : List (String × EventKind) :=
  [("created", .created), ("updated", .updated), ("deleted", .deleted)]

/-- The name of a kind of change. -/
def name : EventKind → String
  | .created => "created"
  | .updated => "updated"
  | .deleted => "deleted"

/-- The message about a text that names no kind of change. -/
def unknownMessage (text : String) : String :=
  "unknown event kind " ++ Text.quoted text

end EventKind

/-- The report of one change of one record, the subject, with the fields before and after it as
far as they are known. -/
structure ChangeNotification where
  tenant : TenantId
  subjectType : String
  eventKind : EventKind
  subjectId : String
  before : Option Fields
  after : Option Fields
deriving Inhabited

namespace ChangeNotification

/-- The fields as they are now: those after the change, except for a deletion, of which those
before it count. The other side stands in for an absent one. -/
def current (n : ChangeNotification) : Option Fields :=
  match n.eventKind with
  | .deleted => n.before <|> n.after
  | .created | .updated => n.after <|> n.before

end ChangeNotification

end RuleEngine
