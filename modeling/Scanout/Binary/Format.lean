/-!
# Binary floating point

A `Format` fixes the widths of the fraction and of the exponent. A bit pattern is read as a `Value`,
an exact number `± m · 2^e`, infinity or no number. Every operation is exact on values, and the
result is written back by `Format.nearest`, which rounds a quotient to the nearest representable
number and a tie to the even one. All patterns that are no number are written as one.
-/

namespace Scanout.Binary

/-- A power of two. -/
def twoTo (n : Nat) : Nat := Nat.pow 2 n

/-- A power of ten. -/
def tenTo (n : Nat) : Nat := Nat.pow 10 n

/-- The widths of a binary interchange format. -/
structure Format where
  fractionBits : Nat
  exponentBits : Nat
  deriving DecidableEq, Repr

/-- The format of 32 bits. -/
def binary32 : Format := ⟨23, 8⟩

/-- The format of 64 bits. -/
def binary64 : Format := ⟨52, 11⟩

/-- What a bit pattern stands for; `finite s m e` is `m · 2^e`, negated if `s` is set. -/
inductive Value where
  | nan
  | infinite (negative : Bool)
  | finite (negative : Bool) (m : Nat) (e : Int)
  deriving DecidableEq, Repr

namespace Format

/-- The exponent of the last place of the numbers around zero. -/
def lowest (f : Format) : Int := 2 - (twoTo (f.exponentBits - 1) : Int) - f.fractionBits

/-- The magnitude bits of infinity. -/
def infinity (f : Format) : Nat := (twoTo f.exponentBits - 1) * twoTo f.fractionBits

/-- The sign bit. -/
def signBit (f : Format) : Nat := twoTo (f.exponentBits + f.fractionBits)

/-- The pattern that stands for no number. -/
def quietNan (f : Format) : Nat := f.infinity + twoTo (f.fractionBits - 1)

/-- Read a bit pattern. -/
def decode (f : Format) (bits : Nat) : Value :=
  let negative := bits / f.signBit % 2 = 1
  let field := bits / twoTo f.fractionBits % twoTo f.exponentBits
  let fraction := bits % twoTo f.fractionBits
  if field = twoTo f.exponentBits - 1 then
    if fraction = 0 then .infinite negative else .nan
  else if field = 0 then .finite negative fraction f.lowest
  else .finite negative (twoTo f.fractionBits + fraction) (f.lowest + (field - 1 : Nat))

/-- The quotient `num / den` rounded to the nearest natural number, a tie to the even one. -/
def roundQuotient (num den : Nat) : Nat :=
  let q := num / den
  let r := num % den
  if 2 * r > den ∨ (2 * r = den ∧ q % 2 = 1) then q + 1 else q

/-- The value `num / den · 2^e` as a quotient of natural numbers. -/
def scaled (num den : Nat) (e : Int) : Nat × Nat :=
  if 0 ≤ e then (num * twoTo e.toNat, den) else (num, den * twoTo (-e).toNat)

/-- The magnitude bits of the number nearest to `num / den · 2^e`. -/
def nearest (f : Format) (num den : Nat) (e : Int) : Nat :=
  if num = 0 then 0 else
    let k : Int := (num.log2 : Int) - den.log2
    let (n, d) := scaled num den (-k)
    -- the binary logarithm of `num / den` is `k`, or `k - 1` if the quotient falls short of `2^k`
    let top : Int := e + (if d ≤ n then k else k - 1)
    let unit : Int := max f.lowest (top - f.fractionBits)
    let (n, d) := scaled num den (e - unit)
    min f.infinity ((unit - f.lowest).toNat * twoTo f.fractionBits + roundQuotient n d)

/-- Put a sign before magnitude bits. -/
def signed (f : Format) (negative : Bool) (magnitude : Nat) : Nat :=
  if negative then f.signBit + magnitude else magnitude

/-- Write a value. -/
def encode (f : Format) : Value → Nat
  | .nan => f.quietNan
  | .infinite negative => f.signed negative f.infinity
  | .finite negative m e => f.signed negative (f.nearest m 1 e)

end Format

namespace Value

/-- The value `± m · 2^e` as a signed multiple of `2^unit`, for `unit ≤ e`. -/
def multiple (negative : Bool) (m : Nat) (e unit : Int) : Int :=
  let n : Int := (m * twoTo (e - unit).toNat : Nat)
  if negative then -n else n

def neg : Value → Value
  | .nan => .nan
  | .infinite s => .infinite (!s)
  | .finite s m e => .finite (!s) m e

/-- The exact sum. Opposite numbers add up to a zero without a sign. -/
def add : Value → Value → Value
  | .nan, _ => .nan
  | _, .nan => .nan
  | .infinite s, .infinite t => if s = t then .infinite s else .nan
  | .infinite s, .finite .. => .infinite s
  | .finite .., .infinite t => .infinite t
  | .finite s m e, .finite t n d =>
    let unit := min e d
    let sum := multiple s m e unit + multiple t n d unit
    if sum = 0 then .finite (s && t) 0 unit else .finite (sum < 0) sum.natAbs unit

/-- The exact product. -/
def mul : Value → Value → Value
  | .nan, _ => .nan
  | _, .nan => .nan
  | .infinite s, .infinite t => .infinite (s != t)
  | .infinite s, .finite t n _ => if n = 0 then .nan else .infinite (s != t)
  | .finite s m _, .infinite t => if m = 0 then .nan else .infinite (s != t)
  | .finite s m e, .finite t n d => .finite (s != t) (m * n) (e + d)

/-- Equality of numbers: the two zeros are equal, and what is no number differs from all. -/
def beq : Value → Value → Bool
  | .nan, _ => false
  | _, .nan => false
  | .infinite s, .infinite t => s = t
  | .finite s m e, .finite t n d =>
    let unit := min e d
    multiple s m e unit = multiple t n d unit
  | _, _ => false

/-- The order of numbers. -/
def lt : Value → Value → Bool
  | .nan, _ => false
  | _, .nan => false
  | .infinite s, .infinite t => s && !t
  | .infinite s, .finite .. => s
  | .finite .., .infinite t => !t
  | .finite s m e, .finite t n d =>
    let unit := min e d
    multiple s m e unit < multiple t n d unit

end Value

namespace Format

def add (f : Format) (a b : Nat) : Nat := f.encode ((f.decode a).add (f.decode b))

def mul (f : Format) (a b : Nat) : Nat := f.encode ((f.decode a).mul (f.decode b))

/-- The quotient, rounded once. -/
def div (f : Format) (a b : Nat) : Nat :=
  match f.decode a, f.decode b with
  | .nan, _ => f.quietNan
  | _, .nan => f.quietNan
  | .infinite _, .infinite _ => f.quietNan
  | .infinite s, .finite t _ _ => f.signed (s != t) f.infinity
  | .finite s _ _, .infinite t => f.signed (s != t) 0
  | .finite s m e, .finite t n d =>
    if n = 0 then
      if m = 0 then f.quietNan else f.signed (s != t) f.infinity
    else f.signed (s != t) (f.nearest m n (e - d))

/-- The number `n`, rounded. -/
def ofNat (f : Format) (n : Nat) : Nat := f.nearest n 1 0

end Format

end Scanout.Binary
