import Scanout.Binary.Single

/-!
# Shortest decimals

A finite number `m · 2^e` is read back from every decimal inside the interval that rounds to it; the
ends of the interval belong to it if `m` is even. `Decimal.shortest` gives the decimal of that
interval with the fewest digits, and of several the nearest to the number. Two of them can lie
equally near; a `Tie` says which of the two is taken.
-/

namespace Scanout

open Binary

/-- The decimal `digits · 10^power`. -/
structure Decimal where
  digits : Nat
  power : Int
  deriving DecidableEq, Repr, Inhabited

namespace Decimal

/-- Where a quotient goes that lies halfway between two natural numbers. -/
inductive Tie where
  | even
  | up
  deriving DecidableEq, Repr

/-- The quotient `num / den` rounded to the nearest natural number. -/
def Tie.nearest (num den : Nat) : Tie → Nat
  | .even => Format.roundQuotient num den
  | .up => (2 * num + den) / (2 * den)

/-- The digits of a natural number, most significant first. -/
def digitsOf (n : Nat) : List Char := Nat.toDigits 10 n

/-- The value `digits · 10^power` as a quotient of natural numbers. -/
def quotient (d : Decimal) : Nat × Nat :=
  if 0 ≤ d.power then (d.digits * tenTo d.power.toNat, 1) else (d.digits, tenTo (-d.power).toNat)

/-- The place of the leading digit of `num / den`: the greatest `p` with `10^p ≤ num / den`. -/
def leadingPlace (num den : Nat) : Int :=
  if den ≤ num then (digitsOf (num / den)).length - 1
  else -((digitsOf ((den - 1) / num)).length : Int)

/-- Drop the zeros at the end of the digits, at most `fuel` of them. -/
def trim (d : Decimal) : Nat → Decimal
  | 0 => d
  | fuel + 1 =>
    if d.digits % 10 = 0 then trim ⟨d.digits / 10, d.power + 1⟩ fuel else d

/-- The interval of numbers that round to `m · 2^e`, in quarters of its last place: the two ends and
whether they belong to it. Below a power of two the numbers lie twice as close. -/
def roundingInterval (f : Format) (m : Nat) (e : Int) : Nat × Nat × Bool :=
  let lower := if m = twoTo f.fractionBits ∧ f.lowest < e then 1 else 2
  (4 * m - lower, 4 * m + 2, m % 2 = 0)

/-- The decimal lies in the interval that rounds to `m · 2^e`. -/
def roundsTo (f : Format) (m : Nat) (e : Int) (d : Decimal) : Bool :=
  let (lo, hi, closed) := roundingInterval f m e
  let (a, b) := Format.scaled 1 1 (e - 2)
  let (x, y) := d.quotient
  if closed then lo * a * y ≤ x * b && x * b ≤ hi * a * y
  else lo * a * y < x * b && x * b < hi * a * y

/-- The decimal of `count` digits, if there is one, that lies nearest to `m · 2^e` among those that
round to it. -/
def ofCount? (f : Format) (tie : Tie) (m : Nat) (e : Int) (count : Nat) : Option Decimal :=
  let (num, den) := Format.scaled m 1 e
  let power := leadingPlace num den + 1 - count
  let (x, y) := quotient ⟨1, power⟩
  let below := num * y / (den * x)
  let nearest := tie.nearest (num * y) (den * x)
  let other := if nearest = below then below + 1 else below
  if roundsTo f m e ⟨nearest, power⟩ then some ⟨nearest, power⟩
  else if roundsTo f m e ⟨other, power⟩ then some ⟨other, power⟩
  else none

/-- So many decimal digits tell all numbers of a format apart; `30103 / 100000` is the decimal
logarithm of two. -/
def enoughDigits (f : Format) : Nat := 2 + (f.fractionBits + 1) * 30103 / 100000

/-- The decimal with the fewest digits that rounds to `m · 2^e`, for `m ≠ 0`. -/
def shortest (f : Format) (tie : Tie) (m : Nat) (e : Int) : Decimal :=
  let d :=
    ((List.range (enoughDigits f)).findSome? fun n => ofCount? f tie m e (n + 1)).getD default
  d.trim (enoughDigits f)

end Decimal

end Scanout
