import RuleEngine.Text.Alphanumeric.Ranges
import RuleEngine.Text.Casing

/-!
# Letters and numerals

The characters that are letters or numerals of some script.
-/

namespace RuleEngine.Text

/-- Whether a character is a letter or a numeral. -/
def isAlphanumeric (c : Char) : Bool :=
  if c.toNat < 0x80 then c.isAlphanum else inRanges alphanumericRanges c.toNat

/-- Whether a character is a letter. A numeral that is written with letters, such as a Roman one, is
a letter too. -/
def isLetter (c : Char) : Bool :=
  isAlphanumeric c && !inRanges numeralRanges c.toNat

end RuleEngine.Text
