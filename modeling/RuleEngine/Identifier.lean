import RuleEngine.Text.Numeral

/-!
# Identifiers

Universally unique identifiers of 128 bits and their texts.
-/

namespace RuleEngine

/-- An identifier of 128 bits. -/
structure Identifier where
  value : Nat
  value_lt : value < 0x100000000000000000000000000000000
deriving DecidableEq

namespace Identifier

instance : Inhabited Identifier := ⟨0, by decide⟩

/-- The identifier whose number is congruent to `n`. -/
def ofNat (n : Nat) : Identifier :=
  ⟨n % 0x100000000000000000000000000000000, Nat.mod_lt _ (by decide)⟩

/-- The identifier that an engine gives to its `n`-th new thing. -/
def numbered (n : Nat) : Identifier :=
  ofNat (0xE0000000_0000_4000_8000_000000000000 + n)

/-- The identifier with 32 given hexadecimal digits. -/
def ofHex? (ds : List Char) : Option Identifier :=
  if ds.length = 32 then
    (ds.mapM Text.hexValue?).map fun vs => ofNat (vs.foldl (fun n v => 16 * n + v) 0)
  else none

/-- The identifier of five groups of digits with hyphens between them. -/
def ofHyphenated? (cs : List Char) : Option Identifier :=
  if cs.length = 36 ∧ cs[8]? = some '-' ∧ cs[13]? = some '-' ∧ cs[18]? = some '-' ∧
      cs[23]? = some '-' then
    ofHex? (cs.take 8 ++ (cs.drop 9).take 4 ++ (cs.drop 14).take 4 ++ (cs.drop 19).take 4 ++
      cs.drop 24)
  else none

/-- Reads an identifier: the groups alone, in braces or behind `urn:uuid:`, or the digits without
hyphens. Letters may be of either case. -/
def read? (s : String) : Option Identifier :=
  let cs := s.toList
  match cs with
  | '\x7b' :: rest => if rest.getLast? = some '\x7d' then ofHyphenated? rest.dropLast else none
  | _ =>
    if Text.asciiLower (cs.take 9) = "urn:uuid:".toList then ofHyphenated? (cs.drop 9)
    else if cs.length = 32 then ofHex? cs
    else ofHyphenated? cs

/-- The text of an identifier: five groups of lower-case digits. -/
def text (i : Identifier) : String :=
  let ds := Text.hex i.value
  let ds := List.replicate (32 - ds.length) '0' ++ ds
  String.ofList (ds.take 8 ++ '-' :: ((ds.drop 8).take 4 ++ '-' :: ((ds.drop 12).take 4 ++
    '-' :: ((ds.drop 16).take 4 ++ '-' :: ds.drop 20))))

end Identifier

/-- The identifier of a rule. -/
abbrev RuleId := Identifier

/-- The identifier of an execution record. -/
abbrev ExecutionId := Identifier

/-- The name of a tenant. -/
abbrev TenantId := String

end RuleEngine
