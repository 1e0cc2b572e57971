import Scanout.Decimal.Shortest

/-!
# Decimal notation

How a number is written: `Notation` says which of two equally near decimals is taken, in which
range of magnitudes the decimal point is put in its place, and whether a whole number keeps a
fraction. Outside that range the number is written with one digit before the point and a power of
ten.
-/

namespace Scanout

open Binary

namespace Decimal

/-- The choices in writing a decimal. A number below `10^place` and not below `10^(place - 1)` is
written in full if `place` lies within the bounds. -/
structure Notation where
  tie : Tie
  leastPlace : Option Int
  greatestPlace : Option Int
  /-- a whole number written in full has a fraction of zero -/
  keepFraction : Bool
  /-- a power of ten that is not negative has a plus sign -/
  signPower : Bool

/-- The place is within the bounds. -/
def Notation.inFull (n : Notation) (place : Int) : Bool :=
  n.leastPlace.all (· ≤ place) && n.greatestPlace.all (place ≤ ·)

/-- Every number in full, a whole number without a fraction. -/
def plain : Notation := ⟨.up, none, none, false, false⟩

/-- The notation of data texts for numbers of the 32-bit format. -/
def data : Notation := ⟨.even, some (-5), some 13, true, true⟩

/-- The notation of data texts for numbers of the 64-bit format. -/
def longData : Notation := ⟨.even, some (-4), some 16, true, true⟩

/-- The notation of diagnostic texts. -/
def diagnostic : Notation := ⟨.up, some (-3), some 16, true, false⟩

def zeros (n : Int) : List Char := List.replicate n.toNat '0'

/-- Digits with the point after `place` of them. -/
def inFull (digits : List Char) (place : Int) (keepFraction : Bool) : List Char :=
  if place ≤ 0 then '0' :: '.' :: zeros (-place) ++ digits
  else
    let whole := digits.take place.toNat ++ zeros (place - digits.length)
    let fraction := digits.drop place.toNat
    if fraction.isEmpty then
      if keepFraction then whole ++ ['.', '0'] else whole
    else whole ++ '.' :: fraction

/-- A power of ten. -/
def powerText (power : Int) (signed : Bool) : List Char :=
  let sign := if power < 0 then ['-'] else if signed then ['+'] else []
  'e' :: sign ++ digitsOf power.natAbs

/-- Digits with the point after the first of them and a power of ten. -/
def withPower (digits : List Char) (place : Int) (signed : Bool) : List Char :=
  let mantissa := match digits with
    | first :: rest => if rest.isEmpty then [first] else first :: '.' :: rest
    | [] => []
  mantissa ++ powerText (place - 1) signed

/-- Write a positive decimal. -/
def write (n : Notation) (d : Decimal) : List Char :=
  let digits := digitsOf d.digits
  let place := d.power + digits.length
  if n.inFull place then inFull digits place n.keepFraction
  else withPower digits place n.signPower

/-- The magnitude `m · 2^e` of a format in a notation. -/
def magnitudeText (f : Format) (n : Notation) (m : Nat) (e : Int) : List Char :=
  if m = 0 then if n.keepFraction then ['0', '.', '0'] else ['0']
  else (shortest f n.tie m e).write n

def signText (negative : Bool) : List Char := if negative then ['-'] else []

/-- The shortest text that reads back as the value. -/
def valueText (f : Format) (n : Notation) : Value → List Char
  | .nan => ['N', 'a', 'N']
  | .infinite negative => signText negative ++ ['i', 'n', 'f']
  | .finite negative m e => signText negative ++ magnitudeText f n m e

end Decimal

namespace Single

/-- The shortest text that reads back as the number. -/
def text (n : Decimal.Notation) (x : Single) : List Char := Decimal.valueText binary32 n x.value

/-- The number with two places, a tie going to the even one. -/
def fixed2 (x : Single) : List Char :=
  match x.value with
  | .finite negative m e =>
    let (num, den) := Format.scaled m 1 e
    let hundredths := Format.roundQuotient (num * 100) den
    let fraction := Decimal.digitsOf (hundredths % 100)
    Decimal.signText negative ++ Decimal.digitsOf (hundredths / 100) ++
      '.' :: List.replicate (2 - fraction.length) '0' ++ fraction
  | _ => x.text Decimal.plain

end Single

end Scanout
