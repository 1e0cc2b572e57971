import Scanout.Fault
import Scanout.Json.Record

/-!
# Pixel rectangles

A rectangle holds the pixels from its left and top edge up to, but not including, its right and
bottom edge. All rectangles that hold no pixel stand for the empty set, and `Rect.merge` treats each
of them as its neutral element.
-/

namespace Scanout

/-- A rectangle of pixels, with `right` and `bottom` exclusive. -/
structure Rect where
  left : Int
  top : Int
  right : Int
  bottom : Int
  deriving DecidableEq, Repr

namespace Rect

/-- The canonical empty rectangle. -/
def none : Rect := ⟨0, 0, 0, 0⟩

instance : Inhabited Rect := ⟨none⟩

/-- A rectangle without pixels. -/
def isEmpty (r : Rect) : Bool :=
  r.right ≤ r.left || r.bottom ≤ r.top

/-- The pixel at column `x` of row `y` belongs to the rectangle. -/
def Holds (r : Rect) (x y : Int) : Prop :=
  r.left ≤ x ∧ x < r.right ∧ r.top ≤ y ∧ y < r.bottom

instance (r : Rect) (x y : Int) : Decidable (r.Holds x y) :=
  inferInstanceAs (Decidable (_ ∧ _))

/-- The number of columns. -/
def width (r : Rect) : Except Fault Nat :=
  return (← signed32 (r.right - r.left)).toNat

/-- The number of rows. -/
def height (r : Rect) : Except Fault Nat :=
  return (← signed32 (r.bottom - r.top)).toNat

/-- The smallest rectangle around both. -/
def merge (a b : Rect) : Rect :=
  if a.isEmpty then b
  else if b.isEmpty then a
  else ⟨min a.left b.left, min a.top b.top, max a.right b.right, max a.bottom b.bottom⟩

/-- The overlap of the edges, whether or not it holds a pixel. -/
def overlap (a b : Rect) : Rect :=
  ⟨max a.left b.left, max a.top b.top, min a.right b.right, min a.bottom b.bottom⟩

/-- The common pixels, `Rect.none` if there are none. -/
def intersection (a b : Rect) : Rect :=
  if (a.overlap b).isEmpty then none else a.overlap b

/-- The rectangles share a pixel. -/
def intersects (a b : Rect) : Bool :=
  !(a.intersection b).isEmpty

/-- The edges of `b` lie within those of `a`. -/
def contains (a b : Rect) : Bool :=
  a.left ≤ b.left && a.top ≤ b.top && b.right ≤ a.right && b.bottom ≤ a.bottom

/-- The rectangle moved to the right by `dx` and down by `dy`. -/
def shift (r : Rect) (dx dy : Int) : Except Fault Rect :=
  return {
    left := ← signed32 (r.left + dx)
    top := ← signed32 (r.top + dy)
    right := ← signed32 (r.right + dx)
    bottom := ← signed32 (r.bottom + dy) }

def fieldNames : List String := ["left", "top", "right", "bottom"]

def toJson (r : Rect) : Json :=
  .ofMembers (fieldNames.zip ([r.left, r.top, r.right, r.bottom].map .ofInt))

def ofJson? (j : Json) : Option Rect := do
  let r ← j.record? fieldNames
  return {
    left := ← r.required 0 Json.signed32?
    top := ← r.required 1 Json.signed32?
    right := ← r.required 2 Json.signed32?
    bottom := ← r.required 3 Json.signed32? }

end Rect

end Scanout
