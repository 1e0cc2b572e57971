import Scanout.Json.Value

/-!
# Reading data texts

`Json.parse?` reads one value that fills the whole text, up to blanks around it. Every reading
function returns what it has not read.
-/

namespace Scanout.Json

/-- What a reading function returns: a result and the rest of the text. -/
abbrev Reader (α : Type) := List Char → Option (α × List Char)

/-- A blank: space, tabulator, line feed or carriage return. -/
def isBlank (c : Char) : Bool := c = ' ' || c = '\t' || c = '\n' || c = '\r'

def skipBlanks (s : List Char) : List Char := s.dropWhile isBlank

def isDigit (c : Char) : Bool := '0' ≤ c && c ≤ '9'

/-- At least one digit. -/
def readDigits : Reader (List Char) := fun s =>
  let digits := s.takeWhile isDigit
  if digits.isEmpty then none else some (digits, s.dropWhile isDigit)

/-- The digits before the point: a zero alone, or digits that start with another one. -/
def readWhole : Reader (List Char) := fun s => do
  let (digits, rest) ← readDigits s
  if digits.head? = some '0' ∧ digits.length ≠ 1 then none else some (digits, rest)

/-- A point and the digits after it, if there is a point. -/
def readFraction : Reader (List Char)
  | '.' :: s => readDigits s
  | s => some ([], s)

/-- A power of ten, if there is one. -/
def readExponent : Reader (Option (Bool × List Char)) := fun s =>
  match s with
  | c :: s' =>
    if c = 'e' ∨ c = 'E' then
      let (negative, s') := match s' with
        | '-' :: t => (true, t)
        | '+' :: t => (false, t)
        | t => (false, t)
      (readDigits s').map fun (digits, rest) => (some (negative, digits), rest)
    else some (none, s)
  | [] => some (none, s)

/-- A number. -/
def readNumeral : Reader Numeral := fun s => do
  let (negative, s) := match s with
    | '-' :: t => (true, t)
    | t => (false, t)
  let (whole, s) ← readWhole s
  let (fraction, s) ← readFraction s
  let (exponent, s) ← readExponent s
  return (⟨negative, whole, fraction, exponent⟩, s)

/-- The value of a hexadecimal digit. -/
def hexValue? (c : Char) : Option Nat :=
  if isDigit c then some (c.toNat - '0'.toNat)
  else if 'a' ≤ c ∧ c ≤ 'f' then some (c.toNat - 'a'.toNat + 10)
  else if 'A' ≤ c ∧ c ≤ 'F' then some (c.toNat - 'A'.toNat + 10)
  else none

/-- One step of a string literal: a character, or a code unit written as an escape. -/
inductive Piece where
  | char (c : Char)
  | unit (u : Nat)

/-- The character that a letter after a backslash stands for. -/
def escaped? (c : Char) : Option Char :=
  match c with
  | '"' => some '"'
  | '\\' => some '\\'
  | '/' => some '/'
  | 'b' => some '\x08'
  | 'f' => some '\x0c'
  | 'n' => some '\n'
  | 'r' => some '\r'
  | 't' => some '\t'
  | _ => none

/-- The pieces of a string literal after its opening quote, up to its closing quote. -/
def readPieces : List Char → Option (List Piece × List Char)
  | [] => none
  | '"' :: s => some ([], s)
  | '\\' :: 'u' :: a :: b :: c :: d :: s => do
    let u := (← hexValue? a) * 0x1000 + (← hexValue? b) * 0x100 + (← hexValue? c) * 0x10
      + (← hexValue? d)
    let (pieces, rest) ← readPieces s
    return (.unit u :: pieces, rest)
  | '\\' :: c :: s => do
    let c ← escaped? c
    let (pieces, rest) ← readPieces s
    return (.char c :: pieces, rest)
  | c :: s =>
    if c.toNat < 0x20 ∨ c = '\\' then none
    else do
      let (pieces, rest) ← readPieces s
      return (.char c :: pieces, rest)

/-- The characters of the pieces; two halves of a surrogate pair join, and neither stands alone. -/
def joinPieces : List Piece → Option (List Char)
  | [] => some []
  | .char c :: ps => (joinPieces ps).map (c :: ·)
  | .unit u :: ps =>
    if 0xD800 ≤ u ∧ u < 0xDC00 then
      match ps with
      | .unit v :: ps' =>
        if 0xDC00 ≤ v ∧ v < 0xE000 then
          (joinPieces ps').map (Char.ofNat (0x10000 + (u - 0xD800) * 0x400 + (v - 0xDC00)) :: ·)
        else none
      | _ => none
    else if 0xDC00 ≤ u ∧ u < 0xE000 then none
    else (joinPieces ps).map (Char.ofNat u :: ·)

/-- A string literal after its opening quote. -/
def readLiteral : Reader Literal := fun s =>
  (readPieces s).map fun (pieces, rest) => ((joinPieces pieces).map String.ofList, rest)

/-- A fixed word. -/
def readWord (word : List Char) (j : Json) : Reader Json := fun s =>
  if s.take word.length = word then some (j, s.drop word.length) else none

mutual

/-- A value, after any blanks. -/
def readValue : Nat → Reader Json
  | 0, _ => none
  | fuel + 1, s =>
    match skipBlanks s with
    | '[' :: s' =>
      match skipBlanks s' with
      | ']' :: rest => some (.array [], rest)
      | s' => (readElements fuel s').map fun (xs, rest) => (.array xs, rest)
    | '\x7b' :: s' =>
      match skipBlanks s' with
      | '\x7d' :: rest => some (.object [], rest)
      | s' => (readMembers fuel s').map fun (ms, rest) => (.object ms, rest)
    | '"' :: s' => (readLiteral s').map fun (l, rest) => (.string l, rest)
    | 't' :: s' => readWord "rue".toList (.bool true) s'
    | 'f' :: s' => readWord "alse".toList (.bool false) s'
    | 'n' :: s' => readWord "ull".toList .null s'
    | s' => (readNumeral s').map fun (n, rest) => (.number n, rest)

/-- At least one element, up to the closing bracket. -/
def readElements : Nat → Reader (List Json)
  | 0, _ => none
  | fuel + 1, s => do
    let (x, s) ← readValue fuel s
    match skipBlanks s with
    | ']' :: rest => return ([x], rest)
    | ',' :: s => do
      let (xs, rest) ← readElements fuel s
      return (x :: xs, rest)
    | _ => none

/-- At least one member, up to the closing brace. -/
def readMembers : Nat → Reader (List (Literal × Json))
  | 0, _ => none
  | fuel + 1, s =>
    match skipBlanks s with
    | '"' :: s => do
      let (name, s) ← readLiteral s
      match skipBlanks s with
      | ':' :: s => do
        let (value, s) ← readValue fuel s
        match skipBlanks s with
        | '\x7d' :: rest => return ([(name, value)], rest)
        | ',' :: s => do
          let (ms, rest) ← readMembers fuel s
          return ((name, value) :: ms, rest)
        | _ => none
      | _ => none
    | _ => none

end

/-- The value that fills the text. -/
def parse? (text : String) : Option Json := do
  let s := text.toList
  let (j, rest) ← readValue (s.length + 1) s
  if (skipBlanks rest).isEmpty then some j else none

end Scanout.Json
