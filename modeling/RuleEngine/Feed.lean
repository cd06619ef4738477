import RuleEngine.Change
import RuleEngine.Json.Reader
import RuleEngine.Rule.Json
import RuleEngine.Text.Blank

/-!
# The change feed

A feed hands every notification to all of its subscribers. It keeps the latest ones only, so a
subscriber that falls behind loses the oldest and is told how many. Notifications also come in as
lines of JSON; a blank line and a malformed one bring nothing and do no harm.
-/

namespace RuleEngine

/-- A feed that keeps the latest `slots` notifications: how many were published in all, the kept
ones from the oldest to the newest, and whether more may come. -/
structure ChangeFeed where
  slots : Nat
  published : Nat
  kept : List ChangeNotification
  isOpen : Bool
  length_kept_le : kept.length ≤ published

/-- A reader of a feed: how many of the published notifications it has passed. -/
structure Subscription where
  passed : Nat

/-- What a subscriber reads: a notification, the loss of some, nothing yet, or nothing any more. -/
inductive Delivery where
  | notification (n : ChangeNotification)
  | lagged (count : Nat)
  | empty
  | closed

namespace Delivery

/-- What was read, as data. -/
def toJson : Delivery → Json
  | .notification n => n.toJson
  | .lagged count => .obj [("lagged", .int (count : Nat))]
  | .empty => .str "empty"
  | .closed => .str "closed"

end Delivery

namespace ChangeFeed

/-- A feed to which nothing was published. -/
def fresh (slots : Nat) : ChangeFeed := ⟨slots, 0, [], true, Nat.zero_le _⟩

/-- A feed that keeps at least `capacity` notifications: as many as the next power of two. It has
to keep some. -/
def ofCapacity? (capacity : Nat) : Option ChangeFeed :=
  if capacity = 0 then none else some (fresh capacity.nextPowerOfTwo)

/-- The feed after one more notification. -/
def publish (f : ChangeFeed) (n : ChangeNotification) : ChangeFeed :=
  let kept := f.kept ++ [n]
  { f with
    published := f.published + 1
    kept := kept.drop (kept.length - f.slots)
    length_kept_le := by
      have := f.length_kept_le
      simp only [kept, List.length_drop, List.length_append, List.length_singleton]
      omega }

/-- The feed without publishers. -/
def close (f : ChangeFeed) : ChangeFeed := { f with isOpen := false }

/-- A subscription to the notifications to come. -/
def subscribe (f : ChangeFeed) : Subscription := ⟨f.published⟩

/-- How many of the published notifications the feed no longer keeps. -/
def lost (f : ChangeFeed) : Nat := f.published - f.kept.length

/-- How many notifications a subscription has not passed. -/
def unread (f : ChangeFeed) (s : Subscription) : Nat := f.published - s.passed

/-- Reads the next notification. A subscriber that was overtaken is told so first, and goes on
with the oldest one kept. -/
def receive (f : ChangeFeed) (s : Subscription) : Delivery × Subscription :=
  if s.passed < f.lost then (.lagged (f.lost - s.passed), ⟨f.lost⟩)
  else match f.kept[s.passed - f.lost]? with
    | some n => (.notification n, ⟨s.passed + 1⟩)
    | none => (if f.isOpen then .empty else .closed, s)

end ChangeFeed

/-- A line of input: blank, a notification, or something else. -/
inductive InputLine where
  | blank
  | notification (n : ChangeNotification)
  | malformed

namespace InputLine

/-- Reads a line. -/
def parse (line : String) : InputLine :=
  let text := Text.trim line.toList
  if text.isEmpty then .blank
  else match (Json.read? (String.ofList text)).bind (ChangeNotification.ofJson? .direct) with
    | some n => .notification n
    | none => .malformed

/-- The notification of a line. -/
def notification? : InputLine → Option ChangeNotification
  | .notification n => some n
  | .blank | .malformed => none

end InputLine

namespace ChangeFeed

/-- Publishes the notification of a line, if it has one, and counts it. -/
def ingestLine (f : ChangeFeed) (count : Nat) (line : String) : Nat × ChangeFeed :=
  match (InputLine.parse line).notification? with
  | some n => (count + 1, f.publish n)
  | none => (count, f)

/-- Publishes the notifications of lines in order, and counts them. -/
def ingest (f : ChangeFeed) (lines : List String) : Nat × ChangeFeed :=
  lines.foldl (fun (count, f) line => f.ingestLine count line) (0, f)

/-- What a subscriber reads until nothing is left; every read passes a notification that was not
passed before. -/
def receiveAll (f : ChangeFeed) (s : Subscription) : List Delivery :=
  (List.range (f.unread s)).foldl (fun (read, s) _ =>
    match f.receive s with
    | (.empty, s) | (.closed, s) => (read, s)
    | (d, s) => (read ++ [d], s)) (([] : List Delivery), s) |>.1

end ChangeFeed

end RuleEngine
