import Scanout.Binary.Single

/-!
# Numerals

A number of a data text is kept as it was written, and read as a number of a certain kind only when
a field asks for it. A whole numeral is an integer if it fits a word of 64 bits; every other numeral
is a number of the 64-bit format.
-/

namespace Scanout.Json

open Binary

/-- A number as written. `fraction` is empty if there is no point. -/
structure Numeral where
  negative : Bool
  whole : List Char
  fraction : List Char
  exponent : Option (Bool × List Char)
  deriving DecidableEq, Repr, Inhabited

namespace Numeral

def digit (c : Char) : Nat := c.toNat - '0'.toNat

/-- The greatest significand that is collected digit by digit. -/
def greatest : Nat := 0xFFFFFFFFFFFFFFFF

/-- Append digits to a significand while it fits; the digits that no longer fit are left. -/
def collect (significand : Nat) : List Char → Nat × List Char
  | [] => (significand, [])
  | c :: rest =>
    if significand * 10 + digit c ≤ greatest then collect (significand * 10 + digit c) rest
    else (significand, c :: rest)

/-- The number of the 64-bit format nearest to `10^power`. -/
def powerOfTen (power : Nat) : Nat := binary64.ofNat (tenTo power)

/-- The greatest power of ten of the 64-bit format. -/
def greatestPower : Nat := 308

/-- The number `x · 10^power`, scaled in steps of at most `greatestPower`. A result that is too
large is refused. -/
def scale (x : Nat) (power : Int) : Nat → Option Nat
  | 0 => none
  | fuel + 1 =>
    if power.natAbs ≤ greatestPower then
      if 0 ≤ power then
        let y := binary64.mul x (powerOfTen power.natAbs)
        if y = binary64.infinity then none else some y
      else some (binary64.div x (powerOfTen power.natAbs))
    else if x = 0 then some x
    else if 0 ≤ power then none
    else scale (binary64.div x (powerOfTen greatestPower)) (power + greatestPower) fuel

/-- The sign and the digits of a power of ten. A power beyond a signed word of 32 bits is no
number. -/
def power (exponent : Option (Bool × List Char)) : Option Int :=
  match exponent with
  | none => some 0
  | some (negative, digits) =>
    let n := digits.foldl (fun n c => n * 10 + digit c) 0
    if n < 0x80000000 then some (if negative then -n else n) else none

/-- A power of ten moved into the range of a signed word of 32 bits. -/
def saturate (i : Int) : Int := max (-0x80000000) (min i 0x7FFFFFFF)

/-- The numeral as a magnitude of the 64-bit format. -/
def magnitude (n : Numeral) : Option Nat :=
  let (s, left) := collect 0 n.whole
  let (s, unread) := collect s n.fraction
  let shift : Int := left.length - (n.fraction.length - unread.length : Nat)
  match power n.exponent with
  | some p =>
    let p := saturate (shift + p)
    scale (binary64.ofNat s) p (p.natAbs / greatestPower + 1)
  | none =>
    -- a power out of all range: nothing, unless the result is zero
    if s ≠ 0 ∧ n.exponent.all (!·.1) then none else some 0

/-- The numeral has neither a fraction nor a power of ten. -/
def isWhole (n : Numeral) : Bool := n.fraction.isEmpty && n.exponent.isNone

/-- The numeral as a whole number of at most 64 bits. A negative zero is not whole. -/
def integer? (n : Numeral) : Option Int :=
  let (s, left) := collect 0 n.whole
  if !n.isWhole || !left.isEmpty then none
  else if !n.negative then some s
  else if 0 < s ∧ s ≤ 0x8000000000000000 then some (-s) else none

/-- The numeral as a number of the 32-bit format. -/
def single? (n : Numeral) : Option Single :=
  match n.integer? with
  | some i =>
    let m := Single.ofNat i.natAbs
    some (if i < 0 then m.neg else m)
  | none => do
    let m ← n.magnitude
    return Single.ofDouble (binary64.signed n.negative m)

/-- The numeral of an integer. -/
def ofInt (i : Int) : Numeral := ⟨i < 0, Nat.toDigits 10 i.natAbs, [], none⟩

/-- The numeral as a text; its power of ten has a sign. -/
def text (n : Numeral) : List Char :=
  (if n.negative then ['-'] else []) ++ n.whole
    ++ (if n.fraction.isEmpty then [] else '.' :: n.fraction)
    ++ match n.exponent with
      | none => []
      | some (negative, digits) => 'e' :: (if negative then '-' else '+') :: digits

end Numeral

end Scanout.Json
