import RuleEngine.Text.Casing
import RuleEngine.Text.Numeral
import RuleEngine.Text.Quoted.Ranges

/-!
# Quoted texts

A text between quotation marks, as messages show it: the quotation mark, the backslash and four
control characters have short escapes, and every other character that would not print by itself
is written as the number of its code point.
-/

namespace RuleEngine.Text

/-- Whether a character prints by itself: it does not extend the character before it and is
neither a blank letter, a control, a separator nor unassigned. -/
def isPrintable (c : Char) : Bool :=
  let n := c.toNat
  if n < 0x7F then 0x20 ≤ n
  else
    !inRanges graphemeExtendRanges n && !inRanges hangulFillerRanges n &&
      !inRanges unprintableRanges n

/-- The escape of one character inside a quoted text. -/
def quoteChar (c : Char) : List Char :=
  if c = Char.ofNat 0 then ['\\', '0']
  else if c = '\t' then ['\\', 't']
  else if c = '\r' then ['\\', 'r']
  else if c = '\n' then ['\\', 'n']
  else if c = '\\' then ['\\', '\\']
  else if c = '"' then ['\\', '"']
  else if isPrintable c then [c]
  else ['\\', 'u', '\x7b'] ++ hex c.toNat ++ ['\x7d']

/-- The text between quotation marks. -/
def quoted (s : String) : String :=
  String.ofList (['"'] ++ s.toList.flatMap quoteChar ++ ['"'])

end RuleEngine.Text
