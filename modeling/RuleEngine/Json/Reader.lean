import RuleEngine.Json.Basic
import RuleEngine.Number.Rounding
import RuleEngine.Text.Numeral

/-!
# Reading JSON text

The reader accepts exactly the JSON grammar. A piece of text that follows the grammar and denotes
no value is read as `unreadable`, so that a part nobody asks for does no harm.
-/

namespace RuleEngine.Json

/-- The text after the white space that JSON allows between its tokens. -/
def skipBlank (cs : List Char) : List Char :=
  cs.dropWhile fun c => c == ' ' || c == '\n' || c == '\t' || c == '\r'

/-- Four hexadecimal digits, and the text after them. -/
def readHex4 : List Char → Option (Nat × List Char)
  | a :: b :: c :: d :: rest => do
    let a ← Text.hexValue? a
    let b ← Text.hexValue? b
    let c ← Text.hexValue? c
    let d ← Text.hexValue? d
    some (((a * 16 + b) * 16 + c) * 16 + d, rest)
  | _ => none

/-- A string being read: its characters, the last one first; a first half of a surrogate pair
that waits for the second; and whether every half has found its partner so far. -/
structure PartialText where
  characters : List Char
  half : Option Nat
  sound : Bool

namespace PartialText

/-- Nothing read yet. -/
def start : PartialText := ⟨[], none, true⟩

/-- Adds a character that stands for itself. -/
def push (t : PartialText) (c : Char) : PartialText :=
  ⟨c :: t.characters, none, t.sound && t.half.isNone⟩

/-- Adds a code unit written by its number. -/
def pushUnit (t : PartialText) (n : Nat) : PartialText :=
  if 0xD800 ≤ n ∧ n < 0xDC00 then ⟨t.characters, some n, t.sound && t.half.isNone⟩
  else if 0xDC00 ≤ n ∧ n < 0xE000 then
    match t.half with
    | some h =>
      ⟨Char.ofNat (0x10000 + (h - 0xD800) * 0x400 + (n - 0xDC00)) :: t.characters, none, t.sound⟩
    | none => ⟨t.characters, none, false⟩
  else t.push (Char.ofNat n)

/-- The text, if no half of a pair was left alone. -/
def finish (t : PartialText) : Option String :=
  if t.sound && t.half.isNone then some (String.ofList t.characters.reverse) else none

end PartialText

/-- The characters of a string after its opening quotation mark, up to the closing one. -/
def readStringBody (t : PartialText) : Nat → List Char → Option (Option String × List Char)
  | 0, _ => none
  | fuel + 1, cs => match cs with
    | [] => none
    | '"' :: rest => some (t.finish, rest)
    | '\\' :: 'u' :: rest => match readHex4 rest with
      | some (n, rest) => readStringBody (t.pushUnit n) fuel rest
      | none => none
    | '\\' :: e :: rest =>
      match e with
      | '"' | '\\' | '/' => readStringBody (t.push e) fuel rest
      | 'b' => readStringBody (t.push '\x08') fuel rest
      | 'f' => readStringBody (t.push '\x0c') fuel rest
      | 'n' => readStringBody (t.push '\n') fuel rest
      | 'r' => readStringBody (t.push '\r') fuel rest
      | 't' => readStringBody (t.push '\t') fuel rest
      | _ => none
    | c :: rest => if c < ' ' then none else readStringBody (t.push c) fuel rest

/-- A string after its opening quotation mark; `none` inside stands for a string that denotes no
text. -/
def readString (cs : List Char) : Option (Option String × List Char) :=
  readStringBody .start (cs.length + 1) cs

/-- The fraction digits of a number, if it has a point, and the text after them. -/
def readFraction : List Char → Option (List Char × List Char)
  | '.' :: cs =>
    let ds := cs.takeWhile Text.isDigit
    if ds.isEmpty then none else some (ds, cs.dropWhile Text.isDigit)
  | cs => some ([], cs)

/-- The exponent of a number, if it has one, and the text after it. -/
def readExponent (cs : List Char) : Option (Option Int × List Char) :=
  let digits (sign : Int) (cs : List Char) : Option (Option Int × List Char) :=
    let ds := cs.takeWhile Text.isDigit
    if ds.isEmpty then none
    else some (some (sign * Text.digitsValue ds), cs.dropWhile Text.isDigit)
  match cs with
  | 'e' :: rest | 'E' :: rest => match rest with
    | '-' :: rest => digits (-1) rest
    | '+' :: rest => digits 1 rest
    | rest => digits 1 rest
  | cs => some (none, cs)

/-- The value of a number from its parts. Without a fraction and an exponent it is an integer if
64 bits hold it; a negative zero is no integer. Any other number is the nearest double: a reader
that takes a double next to it for some texts is assumed not to meet one of these. -/
def numberOf (negative : Bool) (whole fraction : List Char) (exponent : Option Int) : Json :=
  let digits := Text.digitsValue (whole ++ fraction)
  let rounded : Json :=
    match Number.ofDecimal? negative digits (exponent.getD 0 - fraction.length) with
    | some x => .float x
    | none => .unreadable
  if fraction.isEmpty && exponent.isNone then
    if negative then
      if 0 < digits ∧ digits ≤ 0x8000000000000000 then .int (-(digits : Int)) else rounded
    else if digits < 0x10000000000000000 then .int digits else rounded
  else rounded

/-- A number, and the text after it. -/
def readNumber (cs : List Char) : Option (Json × List Char) :=
  let (negative, cs) := match cs with
    | '-' :: cs => (true, cs)
    | cs => (false, cs)
  let whole := cs.takeWhile Text.isDigit
  if whole.isEmpty || (whole.head? == some '0' && 1 < whole.length) then none
  else do
    let (fraction, cs) ← readFraction (cs.dropWhile Text.isDigit)
    let (exponent, cs) ← readExponent cs
    some (numberOf negative whole fraction exponent, cs)

mutual

/-- A value inside `depth` arrays and objects, and the text after it. -/
def readValue : Nat → Nat → List Char → Option (Json × List Char)
  | 0, _, _ => none
  | fuel + 1, depth, cs =>
    match skipBlank cs with
    | 'n' :: 'u' :: 'l' :: 'l' :: rest => some (.null, rest)
    | 't' :: 'r' :: 'u' :: 'e' :: rest => some (.bool true, rest)
    | 'f' :: 'a' :: 'l' :: 's' :: 'e' :: rest => some (.bool false, rest)
    | '"' :: rest => match readString rest with
      | some (some s, rest) => some (.str s, rest)
      | some (none, rest) => some (.unreadable, rest)
      | none => none
    | '[' :: rest =>
      let read := match skipBlank rest with
        | ']' :: rest => some (.arr [], rest)
        | _ => readItems fuel (depth + 1) [] rest
      if depth < depthLimit then read else read.map fun (_, rest) => (.unreadable, rest)
    | '{' :: rest =>
      let read := match skipBlank rest with
        | '}' :: rest => some (.obj [], rest)
        | _ => readMembers fuel (depth + 1) [] true rest
      if depth < depthLimit then read else read.map fun (_, rest) => (.unreadable, rest)
    | rest => readNumber rest

/-- The items of an array up to its end; those read so far come with the last one first. -/
def readItems : Nat → Nat → List Json → List Char → Option (Json × List Char)
  | 0, _, _, _ => none
  | fuel + 1, depth, items, cs =>
    match readValue fuel depth cs with
    | none => none
    | some (j, rest) => match skipBlank rest with
      | ',' :: rest => readItems fuel depth (j :: items) rest
      | ']' :: rest => some (.arr (j :: items).reverse, rest)
      | _ => none

/-- The members of an object up to its end; those read so far come with the last one first. An
object with a name that denotes no text has no value. -/
def readMembers : Nat → Nat → List (String × Json) → Bool → List Char →
    Option (Json × List Char)
  | 0, _, _, _, _ => none
  | fuel + 1, depth, members, sound, cs =>
    match skipBlank cs with
    | '"' :: rest => match readString rest with
      | none => none
      | some (name, rest) => match skipBlank rest with
        | ':' :: rest => match readValue fuel depth rest with
          | none => none
          | some (j, rest) =>
            let members := (name.getD "", j) :: members
            let sound := sound && name.isSome
            match skipBlank rest with
            | ',' :: rest => readMembers fuel depth members sound rest
            | '}' :: rest =>
              some (if sound then .obj members.reverse else .unreadable, rest)
            | _ => none
        | _ => none
    | _ => none

end

/-- The data that the characters of a text denote; nothing if they do not follow the grammar. -/
def parse? (cs : List Char) : Option Json :=
  match readValue (2 * cs.length + 2) 0 cs with
  | some (j, rest) => if (skipBlank rest).isEmpty then some j else none
  | none => none

/-- The data that a text denotes. -/
def read? (text : String) : Option Json :=
  parse? text.toList

/-- The data of a text in normal form; nothing if any part of it has no value. -/
def readNormal? (text : String) : Option Json :=
  (read? text).bind fun j => if j.isReadable then some j.normal else none

end RuleEngine.Json
