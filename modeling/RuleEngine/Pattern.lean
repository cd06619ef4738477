import RuleEngine.Pattern.Class
import RuleEngine.Text.Alphanumeric

/-!
# Patterns

The texts that are patterns which can be looked for. A pattern is a list of branches, a branch a
list of parts, and a part a place, a class, a group in parentheses or a repetition of one of them.
A pattern that is not nested too deep can be looked for if no word boundary in it is about
characters.
-/

namespace RuleEngine.Pattern

/-- What stands in a branch: settings, or a part with its depth. -/
inductive Item where
  | settings
  | part (depth : Nat)

/-- The depth of an item. -/
def Item.depth : Item → Nat
  | .settings => 0
  | .part d => d

/-- A group that is being read: the depths of its finished branches, and the items of the last one,
latest first. -/
structure OpenGroup where
  branches : List Nat := []
  items : List Item := []

namespace OpenGroup

/-- The group with one more item. -/
def add (g : OpenGroup) (i : Item) : OpenGroup :=
  { g with items := i :: g.items }

/-- The group with a new branch. -/
def branch (g : OpenGroup) : OpenGroup :=
  { branches := depthOf (g.items.map Item.depth) :: g.branches }

/-- The depth of what the group has within its parentheses. -/
def innerDepth (g : OpenGroup) : Nat :=
  depthOf g.branch.branches

/-- The group with its last part repeated. Settings cannot be repeated. -/
def repeat? (g : OpenGroup) : Option OpenGroup :=
  match g.items with
  | .part d :: rest => some { g with items := .part (d + 1) :: rest }
  | _ => none

end OpenGroup

/-- What has been read of a pattern: the innermost group and the mode in it, the groups around it,
each with the mode to go on with, the names of groups, and whether a word boundary has been met that
is about characters. -/
structure Reading where
  mode : Mode := {}
  group : OpenGroup := {}
  outer : List (Mode × OpenGroup) := []
  names : List String := []
  hasWordBoundary : Bool := false

namespace Reading

/-- The reading with one more item in the innermost group. -/
def add (r : Reading) (i : Item) : Reading :=
  { r with group := r.group.add i }

/-- The reading inside of a new group. -/
def enter (r : Reading) (mode : Mode) : Reading :=
  { r with mode, group := {}, outer := (r.mode, r.group) :: r.outer }

/-- The reading behind the innermost group, if there is one. -/
def leave? (r : Reading) : Option Reading :=
  match r.outer with
  | (mode, group) :: outer =>
    some { r with mode, group := group.add (.part (r.group.innerDepth + 1)), outer }
  | [] => none

/-- The reading with one more atom, if that may stand there. -/
def place? (r : Reading) (a : Atom) : Option Reading :=
  if !a.fits r.mode then none
  else
    let r := r.add (.part 0)
    match a with
    | .condition true => some { r with hasWordBoundary := r.hasWordBoundary || r.mode.isUnicode }
    | _ => some r

end Reading

/-- Whether a text is the name of a group. -/
def isGroupName : List Char → Bool
  | [] => false
  | c :: cs =>
    (c == '_' || Text.isLetter c) &&
      cs.all fun c => c == '_' || c == '.' || c == '[' || c == ']' || Text.isAlphanumeric c

/-- Reads the beginning of a named group from behind the sign that opens the name. No two groups
have the same name. -/
def readGroupName? (r : Reading) (cs : List Char) : Option (Reading × List Char) :=
  let name := cs.takeWhile (· != '>')
  match cs.dropWhile (· != '>') with
  | _ :: rest =>
    if isGroupName name && !r.names.contains (String.ofList name) then
      some ({ r.enter r.mode with names := String.ofList name :: r.names }, rest)
    else none
  | [] => none

/-- Whether a text is a list of settings: each at most once, and a minus sign in front of those that
are turned off. -/
def areSettings (cs : List Char) : Bool :=
  cs.all "imsuxRU-".toList.contains && cs.eraseDups.length == cs.length && cs.getLast? != some '-'

/-- Reads settings from behind the question mark in front of them, and the beginning of the group
that they are for. They are for the rest of the group around them if that ends them. -/
def readSettings? (r : Reading) (cs : List Char) : Option (Reading × List Char) :=
  let isEnd (c : Char) : Bool := c == ':' || c == ')'
  let settings := cs.takeWhile fun c => !isEnd c
  if !areSettings settings then none
  else
    let mode := r.mode.set settings
    match cs.dropWhile fun c => !isEnd c with
    | ':' :: rest => some (r.enter mode, rest)
    | _ :: rest => if settings.isEmpty then none else some ({ r.add .settings with mode }, rest)
    | [] => none

/-- Reads the beginning of a group from behind its parenthesis. -/
def readGroup? (r : Reading) (cs : List Char) : Option (Reading × List Char) :=
  match r.mode.skip cs with
  | '?' :: 'P' :: '<' :: rest | '?' :: '<' :: rest => readGroupName? r rest
  | '?' :: rest => readSettings? r rest
  | rest => some (r.enter r.mode, rest)

/-- Reads the next item of a pattern. A number of repetitions is in braces, and the values of fields
have no closing brace. -/
def readNext? (r : Reading) (c : Char) (cs : List Char) : Option (Reading × List Char) := do
  if c == '(' then readGroup? r cs
  else if c == ')' then some (← r.leave?, cs)
  else if c == '|' then some ({ r with group := r.group.branch }, cs)
  else if c == '[' then
    let (first, rest) := OpenClass.start r.mode cs
    let (depth, rest) ← readClass? r.mode (rest.length + 1) [] first rest
    some (r.add (.part depth), rest)
  else if c == '*' || c == '+' || c == '?' then
    let rest := if cs.head? = some '?' then cs.drop 1 else cs
    some ({ r with group := ← r.group.repeat? }, rest)
  else if c == '\x7b' then none
  else if c == '\\' then
    let (a, rest) ← readEscape? r.mode cs
    some (← r.place? a, rest)
  else if c == '^' || c == '$' then some (← r.place? (.condition false), cs)
  else if c == '.' then some (← r.place? .any, cs)
  else some (← r.place? (.literal c false), cs)

/-- Reads a pattern to its end. -/
def read? : Nat → Reading → List Char → Option Reading
  | 0, _, _ => none
  | fuel + 1, r, cs => do
    match r.mode.skip cs with
    | [] => if r.outer.isEmpty then some r else none
    | c :: rest =>
      let (r, rest) ← readNext? r c rest
      read? fuel r rest

/-- Checks that a text is a pattern that can be looked for. -/
def check (cs : List Char) : Except PatternFault Unit :=
  match read? (cs.length + 1) {} cs with
  | none => .error .malformed
  | some r =>
    if depthLimit < r.group.innerDepth then .error .malformed
    else if r.hasWordBoundary then .error .wordBoundary
    else .ok ()

end RuleEngine.Pattern
