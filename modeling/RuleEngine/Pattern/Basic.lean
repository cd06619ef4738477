import RuleEngine.Text.Blank
import RuleEngine.Text.Numeral

/-!
# The parts of patterns

A pattern is a regular expression that a text has to match. It is read under a mode, which settings
within it change. There are no tables of characters: under the default mode, which is about
characters and not about bytes, nothing can be said that would need one, such as letters of either
case or the class of all digits. The module has the modes, what matches at one place, and the depth
of nesting.
-/

namespace RuleEngine

/-- Why a text is no pattern that can be looked for: it is malformed, or it has a word boundary for
which a table of letters would be needed. -/
inductive PatternFault where
  | malformed
  | wordBoundary
deriving DecidableEq

namespace PatternFault

/-- The message of a fault. -/
def message : PatternFault → String
  | .malformed => "error building NFA"
  | .wordBoundary =>
    "unsupported regex feature for DFAs: cannot build DFAs for regexes with Unicode word " ++
      "boundaries; switch to ASCII word boundaries, or heuristically enable Unicode word " ++
      "boundaries or use a different regex engine"

end PatternFault

namespace Pattern

/-- How a part of a pattern is read: whether the case of letters is ignored, whether it is about
characters rather than about bytes, and whether it may have white space and comments in it. -/
structure Mode where
  ignoresCase : Bool := false
  isUnicode : Bool := true
  isVerbose : Bool := false

/-- What matches at one place: a character, which may be given by the number of a byte, any
character but the end of a line, a class with a letter for a name, or no character if a condition
holds. -/
inductive Atom where
  | literal (c : Char) (asByte : Bool)
  | any
  | named (negated : Bool)
  | condition (isWordBoundary : Bool)

/-- Whether the two cases of a letter are known where they count as one. -/
def Mode.knowsCase (m : Mode) : Bool :=
  !(m.ignoresCase && m.isUnicode)

namespace Atom

/-- Whether an atom may stand in a class of characters. A class of bytes has ASCII characters
only. -/
def fitsClass (m : Mode) : Atom → Bool
  | .literal c _ => m.knowsCase && (m.isUnicode || c.toNat < 0x80)
  | .named negated => !m.isUnicode && !negated
  | .any | .condition _ => false

/-- Whether an atom may stand outside of classes. What matches bytes must not match a part of a
character. -/
def fits (m : Mode) : Atom → Bool
  | .literal c asByte => m.knowsCase && (m.isUnicode || !asByte || c.toNat < 0x80)
  | .named negated => !m.isUnicode && !negated
  | .any => m.isUnicode
  | .condition _ => true

end Atom

/-- The text without the white space and the comments in front of it. A comment goes from a number
sign to the end of the line. -/
def skipComments (inComment : Bool) : List Char → List Char
  | [] => []
  | c :: cs =>
    if inComment then skipComments (c != '\n') cs
    else if Text.isBlank c then skipComments false cs
    else if c == '#' then skipComments true cs
    else c :: cs

/-- The first character that is neither white space nor the first number sign. -/
def firstSolid? (inComment : Bool) : List Char → Option Char
  | [] => none
  | c :: cs =>
    if Text.isBlank c then firstSolid? inComment cs
    else if !inComment && c == '#' then firstSolid? true cs
    else some c

namespace Mode

/-- The text from the next character that counts on. -/
def skip (m : Mode) (cs : List Char) : List Char :=
  if m.isVerbose then skipComments false cs else cs

/-- The next character that counts. A look ahead goes past the sign of a comment and no further. -/
def peek? (m : Mode) (cs : List Char) : Option Char :=
  if m.isVerbose then firstSolid? false cs <|> cs.head? else cs.head?

/-- The mode after settings, those behind a minus sign being turned off. -/
def set (m : Mode) (settings : List Char) : Mode :=
  let on := settings.takeWhile (· != '-')
  let off := settings.dropWhile (· != '-')
  let apply (was : Bool) (name : Char) : Bool := on.contains name || was && !off.contains name
  { ignoresCase := apply m.ignoresCase 'i'
    isUnicode := apply m.isUnicode 'u'
    isVerbose := apply m.isVerbose 'x' }

end Mode

/-- The depth of parts that stand side by side. A single part is not nested in anything. -/
def depthOf : List Nat → Nat
  | [] => 0
  | [d] => d
  | ds => ds.foldl max 0 + 1

/-- The deepest nesting of a pattern. -/
def depthLimit : Nat := 250

/-- The characters that a letter behind a backslash stands for. -/
def controlLetters : List (Char × Char) :=
  [('a', '\x07'), ('f', '\x0c'), ('n', '\n'), ('r', '\r'), ('t', '\t'), ('v', '\x0b')]

/-- Reads a number of hexadecimal digits. -/
def readHex? (m : Mode) : Nat → Nat → List Char → Option (Nat × List Char)
  | 0, value, cs => some (value, cs)
  | _ + 1, _, [] => none
  | n + 1, value, c :: cs => do
    readHex? m n (16 * value + (← Text.hexValue? c)) (m.skip cs)

/-- Reads a character by its number. -/
def readNumbered? (m : Mode) (digits : Nat) (asByte : Bool) (cs : List Char) :
    Option (Atom × List Char) := do
  let (n, rest) ← readHex? m digits 0 (m.skip cs)
  if n.isValidChar then some (.literal (Char.ofNat n) asByte, rest) else none

/-- Reads what stands behind a backslash. A sign stands for itself there. There is no class of
characters that would go by a property, and nothing refers back. -/
def readEscape? (m : Mode) : List Char → Option (Atom × List Char)
  | [] => none
  | 'x' :: cs => readNumbered? m 2 true cs
  | 'u' :: cs => readNumbered? m 4 false cs
  | 'U' :: cs => readNumbered? m 8 false cs
  | c :: cs =>
    if "dsw".toList.contains c then some (.named false, cs)
    else if "DSW".toList.contains c then some (.named true, cs)
    else if "Az".toList.contains c then some (.condition false, cs)
    else if "bB<>".toList.contains c then some (.condition true, cs)
    else match controlLetters.lookup c with
      | some control => some (.literal control false, cs)
      | none =>
        if c.toNat < 0x80 && !c.isAlphanum then some (.literal c false, cs) else none

end Pattern

end RuleEngine
