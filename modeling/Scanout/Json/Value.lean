import Scanout.Json.Numeral
import Scanout.Decimal.Notation

/-!
# Data texts

The values of a data text, and the two ways to write them: `Json.compact` without any blank and
`Json.pretty` with a line for each member. A string literal whose escapes name half a surrogate pair
denotes no text; such a literal may stand only where its content is not asked for.
-/

namespace Scanout

/-- The text that a string literal denotes, if it denotes one. -/
abbrev Json.Literal := Option String

/-- A value of a data text. Members keep their order, and a name may occur more than once. -/
inductive Json where
  | null
  | bool (b : Bool)
  | number (n : Json.Numeral)
  | string (s : Json.Literal)
  | array (elements : List Json)
  | object (members : List (Json.Literal × Json))
  deriving Repr, Inhabited

namespace Json

def ofInt (i : Int) : Json := .number (Numeral.ofInt i)

def ofNat (n : Nat) : Json := ofInt n

def ofString (s : String) : Json := .string (some s)

/-- Members with their names. -/
def ofMembers (members : List (String × Json)) : Json :=
  .object (members.map fun (name, value) => (some name, value))

/-- Split the text of a number at its point and its power. -/
def numeralOfText (text : List Char) : Numeral :=
  let negative := text.head? = some '-'
  let body := if negative then text.tail else text
  let mantissa := body.takeWhile (· ≠ 'e')
  let power := (body.dropWhile (· ≠ 'e')).tail
  { negative
    whole := mantissa.takeWhile (· ≠ '.')
    fraction := (mantissa.dropWhile (· ≠ '.')).tail
    exponent := match power with
      | [] => none
      | '-' :: digits => some (true, digits)
      | '+' :: digits => some (false, digits)
      | digits => some (false, digits) }

/-- A number of the 32-bit format; what is not finite becomes `null`. -/
def ofSingle (x : Single) : Json :=
  if x.isFinite then .number (numeralOfText (x.text Decimal.data)) else .null

/-- A number of the 64-bit format, by its bits; what is not finite becomes `null`. -/
def ofDouble (bits : Nat) : Json :=
  let value := Binary.binary64.decode bits
  match value with
  | .finite .. => .number (numeralOfText (Decimal.valueText Binary.binary64 Decimal.longData value))
  | _ => .null

/-- A hexadecimal digit. -/
def hexDigit (n : Nat) : Char := Nat.digitChar n

/-- A character inside a string literal. -/
def escape (c : Char) : List Char :=
  if c = '"' then ['\\', '"']
  else if c = '\\' then ['\\', '\\']
  else if c = '\x08' then ['\\', 'b']
  else if c = '\x0c' then ['\\', 'f']
  else if c = '\n' then ['\\', 'n']
  else if c = '\r' then ['\\', 'r']
  else if c = '\t' then ['\\', 't']
  else if c.toNat < 0x20 then
    ['\\', 'u', '0', '0', hexDigit (c.toNat / 16), hexDigit (c.toNat % 16)]
  else [c]

/-- A string literal. -/
def literalText (s : Literal) : List Char :=
  '"' :: ((s.getD "").toList.flatMap escape) ++ ['"']

/-- The two ways to break a value into lines: not at all, or with an indentation. -/
structure Breaks where
  newline : Nat → List Char
  colon : List Char

/-- Everything on one line, without blanks. -/
def Breaks.none : Breaks := ⟨fun _ => [], [':']⟩

/-- A line for each element and member, indented by two blanks a level. -/
def Breaks.indented : Breaks := ⟨fun depth => '\n' :: List.replicate (2 * depth) ' ', [':', ' ']⟩

mutual

/-- Write a value that stands `depth` levels deep. -/
def write (breaks : Breaks) (depth : Nat) : Json → List Char
  | .null => "null".toList
  | .bool b => if b then "true".toList else "false".toList
  | .number n => n.text
  | .string s => literalText s
  | .array [] => ['[', ']']
  | .array (x :: xs) =>
    '[' :: breaks.newline (depth + 1) ++ write breaks (depth + 1) x
      ++ writeElements breaks (depth + 1) xs ++ breaks.newline depth ++ [']']
  | .object [] => ['\x7b', '\x7d']
  | .object (m :: ms) =>
    '\x7b' :: breaks.newline (depth + 1) ++ writeMember breaks (depth + 1) m
      ++ writeMembers breaks (depth + 1) ms ++ breaks.newline depth ++ ['\x7d']

/-- Write the elements after the first. -/
def writeElements (breaks : Breaks) (depth : Nat) : List Json → List Char
  | [] => []
  | x :: xs => ',' :: breaks.newline depth ++ write breaks depth x ++ writeElements breaks depth xs

/-- Write a name and its value. -/
def writeMember (breaks : Breaks) (depth : Nat) : Literal × Json → List Char
  | (name, value) => literalText name ++ breaks.colon ++ write breaks depth value

/-- Write the members after the first. -/
def writeMembers (breaks : Breaks) (depth : Nat) : List (Literal × Json) → List Char
  | [] => []
  | m :: ms =>
    ',' :: breaks.newline depth ++ writeMember breaks depth m ++ writeMembers breaks depth ms

end

/-- The value on one line. -/
def compact (j : Json) : String := String.ofList (j.write .none 0)

/-- The value with a line for each member. -/
def pretty (j : Json) : String := String.ofList (j.write .indented 0)

end Json

end Scanout
