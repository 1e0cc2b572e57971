import Scanout.Binary.Format

/-!
# Single precision

`Single` is a number of the 32-bit format, held as its bit pattern. Its arithmetic is that of
`Binary.Format`; two patterns are the same `Single` only if all bits agree, while `Single.beq` and
`Single.lt` compare the numbers.
-/

namespace Scanout

open Binary

/-- A bit pattern of the 32-bit format. -/
structure Single where
  bits : UInt32
  deriving DecidableEq, Repr, Inhabited

namespace Single

def ofMagnitude (bits : Nat) : Single := ⟨UInt32.ofNat bits⟩

/-- The number that the pattern stands for. -/
def value (x : Single) : Value := binary32.decode x.bits.toNat

/-- The number nearest to an exact value. -/
def ofValue (v : Value) : Single := ofMagnitude (binary32.encode v)

/-- The number nearest to `n`. -/
def ofNat (n : Nat) : Single := ofMagnitude (binary32.ofNat n)

/-- The number nearest to one of the 64-bit format. -/
def ofDouble (bits : Nat) : Single := ofValue (binary64.decode bits)

/-- The number nearest to `num / den`. -/
def ofQuotient (num den : Nat) : Single := ofMagnitude (binary32.nearest num den 0)

instance (n : Nat) : OfNat Single n := ⟨ofNat n⟩

def half : Single := ofQuotient 1 2

def isNan (x : Single) : Bool :=
  match x.value with
  | .nan => true
  | _ => false

/-- A number that is neither infinite nor missing. -/
def isFinite (x : Single) : Bool :=
  match x.value with
  | .finite .. => true
  | _ => false

def neg (x : Single) : Single := ofValue x.value.neg

def add (x y : Single) : Single := ofMagnitude (binary32.add x.bits.toNat y.bits.toNat)

def sub (x y : Single) : Single := ofValue (x.value.add y.value.neg)

def mul (x y : Single) : Single := ofMagnitude (binary32.mul x.bits.toNat y.bits.toNat)

def div (x y : Single) : Single := ofMagnitude (binary32.div x.bits.toNat y.bits.toNat)

/-- The number without its sign. -/
def abs (x : Single) : Single := ⟨x.bits &&& 0x7FFFFFFF⟩

instance : Add Single := ⟨add⟩
instance : Sub Single := ⟨sub⟩
instance : Mul Single := ⟨mul⟩
instance : Div Single := ⟨div⟩
instance : Neg Single := ⟨neg⟩

/-- Equality of numbers. -/
def beq (x y : Single) : Bool := x.value.beq y.value

/-- The order of numbers. -/
def lt (x y : Single) : Bool := x.value.lt y.value

def le (x y : Single) : Bool := x.lt y || x.beq y

/-- The lesser number; of a number and none, the number. -/
def min (x y : Single) : Single :=
  if x.isNan then y else if y.isNan then x else if y.lt x then y else x

/-- The greater number; of a number and none, the number. -/
def max (x y : Single) : Single :=
  if x.isNan then y else if y.isNan then x else if x.lt y then y else x

/-- The number moved to the nearest end of `lo … hi` if it lies outside. -/
def clamp (x lo hi : Single) : Single :=
  if x.lt lo then lo else if hi.lt x then hi else x

/-- The least whole number that is not less. -/
def ceil (x : Single) : Single :=
  match x.value with
  | .finite negative m e =>
    if 0 ≤ e then x
    else
      let d := twoTo (-e).toNat
      let whole := if negative then m / d else (m + d - 1) / d
      ofValue (.finite negative whole 0)
  | _ => x

/-- The whole part, as an unsigned word of 32 bits; what lies beyond is moved to the nearest end. -/
def toWord32 (x : Single) : Nat :=
  match x.value with
  | .nan => 0
  | .infinite negative => if negative then 0 else 0xFFFFFFFF
  | .finite true _ _ => 0
  | .finite false m e =>
    Nat.min 0xFFFFFFFF (if 0 ≤ e then m * twoTo e.toNat else m / twoTo (-e).toNat)

end Single

end Scanout
