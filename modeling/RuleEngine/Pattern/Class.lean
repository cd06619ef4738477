import RuleEngine.Pattern.Basic

/-!
# Classes of characters in patterns

A class stands in square brackets. Its items are characters, ranges of them, named classes and
classes within it, and operators between the items make two sets into one.
-/

namespace RuleEngine.Pattern

/-- The names of classes that may stand between colons. -/
def asciiClassNames : List String :=
  ["alnum", "alpha", "ascii", "blank", "cntrl", "digit", "graph", "lower", "print", "punct",
    "space", "upper", "word", "xdigit"]

/-- Reads a named class from behind its opening bracket, and whether it is negated. -/
def readAsciiClass? : List Char → Option (Bool × List Char)
  | ':' :: cs =>
    let (negated, cs) := match cs with
      | '^' :: cs => (true, cs)
      | cs => (false, cs)
    match cs.dropWhile (· != ':') with
    | ':' :: ']' :: rest =>
      if asciiClassNames.contains (String.ofList (cs.takeWhile (· != ':'))) then
        some (negated, rest)
      else none
    | _ => none
  | _ => none

/-- Whether a set that is negated or not can be a class. All but some ASCII characters are no class
of bytes. -/
def canNegate (m : Mode) (negated : Bool) : Bool :=
  m.isUnicode || !negated

/-- A class that is being read: the depths of its items since the last operator, and the depth of
what stands before the operator, if there is one. The class is fresh while a closing bracket or a
minus sign would be an item of it. -/
structure OpenClass where
  negated : Bool := false
  isFresh : Bool := true
  items : List Nat := []
  operand : Option Nat := none

namespace OpenClass

/-- The class with one more item. -/
def add (c : OpenClass) (depth : Nat) : OpenClass :=
  { c with isFresh := false, items := depth :: c.items }

/-- The depth of what the class has within its brackets. -/
def innerDepth (c : OpenClass) : Nat :=
  match c.operand with
  | none => depthOf c.items
  | some d => max d (depthOf c.items) + 1

/-- The class after an operator. -/
def applyOperator (c : OpenClass) : OpenClass :=
  { negated := c.negated, isFresh := false, operand := some c.innerDepth }

/-- Reads the beginning of a class from behind its opening bracket. -/
def start (m : Mode) (cs : List Char) : OpenClass × List Char :=
  match m.skip cs with
  | '^' :: rest => ({ negated := true }, rest)
  | rest => ({}, rest)

end OpenClass

/-- Reads a character or a named class. -/
def readMember? (m : Mode) : List Char → Option (Atom × List Char)
  | [] => none
  | '\\' :: cs => readEscape? m cs
  | c :: cs => some (.literal c false, cs)

/-- Reads an item of a class that is not a class in brackets. A minus sign stands for a range unless
the class ends or an operator begins behind it. -/
def readRange? (m : Mode) (cs : List Char) : Option (List Char) := do
  let (a, rest) ← readMember? m cs
  if !a.fitsClass m then none
  else match m.skip rest with
    | '-' :: rest =>
      if m.peek? rest = some ']' || m.peek? rest = some '-' then some ('-' :: rest)
      else do
        let (b, rest) ← readMember? m (m.skip rest)
        match a, b with
        | .literal x _, .literal y _ => if x ≤ y && b.fitsClass m then some rest else none
        | _, _ => none
    | rest => some rest

/-- Reads a class from behind its opening bracket, and its depth. It stands in the classes `outer`,
and `c` has been read of it. -/
def readClass? (m : Mode) :
    Nat → List OpenClass → OpenClass → List Char → Option (Nat × List Char)
  | 0, _, _, _ => none
  | fuel + 1, outer, c, cs => do
    match m.skip cs with
    | [] => none
    | '[' :: rest =>
      match readAsciiClass? rest with
      | some (negated, rest) =>
        if m.knowsCase && canNegate m negated then readClass? m fuel outer (c.add 0) rest
        else none
      | none =>
        let (inner, rest) := OpenClass.start m rest
        readClass? m fuel (c :: outer) inner rest
    | ']' :: rest =>
      if c.isFresh && c.items.isEmpty then
        if m.knowsCase then readClass? m fuel outer (c.add 0) rest else none
      else if !canNegate m c.negated then none
      else match outer with
        | [] => some (c.innerDepth + 1, rest)
        | parent :: outer => readClass? m fuel outer (parent.add (c.innerDepth + 1)) rest
    | '-' :: rest =>
      if c.isFresh then
        if m.knowsCase then
          readClass? m fuel outer { c.add 0 with isFresh := true } rest
        else none
      else if rest.head? = some '-' then
        readClass? m fuel outer c.applyOperator (rest.drop 1)
      else readClass? m fuel outer (c.add 0) (← readRange? m ('-' :: rest))
    | '&' :: '&' :: rest | '~' :: '~' :: rest =>
      readClass? m fuel outer c.applyOperator rest
    | rest => readClass? m fuel outer (c.add 0) (← readRange? m rest)

end RuleEngine.Pattern
