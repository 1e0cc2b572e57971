import Scanout.Pixel
import Scanout.Json.Record

/-!
# Screens

A screen is a snapshot of the seven registers of the video interface that say what is shown: which
image in memory, its pixel size, and how much of it. Starts and ends share a register, ten bits
each, and scales are fixed-point numbers with ten bits of fraction. `Screen.simple` writes the
registers of an unscaled screen of a given size.
-/

namespace Scanout

/-- The registers that say what is shown. -/
structure Screen where
  status : Nat
  origin : Nat
  width : Nat
  hStart : Nat
  vStart : Nat
  xScale : Nat
  yScale : Nat
  deriving DecidableEq, Repr

namespace Screen

/-- A screen with all registers clear shows nothing. -/
def blank : Screen := ⟨0, 0, 0, 0, 0, 0, 0⟩

instance : Inhabited Screen := ⟨blank⟩

/-- The first visible column of an unscaled screen. -/
def firstColumn : Nat := 0x6C

/-- The first visible half-line of an unscaled screen. -/
def firstHalfLine : Nat := 0x25

/-- A scale of one. -/
def unscaled : Nat := 0x400

/-- The status of a screen of pixels of the given size; only the largest size has its own. -/
def statusOf : PixelSize → Nat
  | .bits32 => 3
  | _ => 2

/-- An unscaled screen of `width` columns and `height` lines. -/
def simple (origin width height : Nat) (size : PixelSize) : Except Fault Screen := do
  let lastHalfLine ← word32 (firstHalfLine + (← word32 (height * 2)))
  let lastColumn ← word32 (firstColumn + width)
  return {
    status := statusOf size
    origin, width
    hStart := firstColumn * 0x10000 ||| lastColumn
    vStart := firstHalfLine * 0x10000 ||| lastHalfLine
    xScale := unscaled
    yScale := unscaled }

/-- The address of the image shown. -/
def address (s : Screen) : Nat := s.origin % 0x1000000

/-- The pixels of a line of the image. -/
def lineWidth (s : Screen) : Nat := s.width % 0x1000

/-- The pixel size of the image, none if the output is switched off. -/
def size? (s : Screen) : Option PixelSize :=
  match s.status % 4 with
  | 2 => some .bits16
  | 3 => some .bits32
  | _ => none

/-- The distance from the start to the end held in one register. -/
def span (register : Nat) : Nat := register % 0x400 - register / 0x10000 % 0x400

/-- The lines shown. -/
def height (s : Screen) : Nat := span s.vStart / 2 * (s.yScale % 0x1000) / 0x400

/-- The columns shown. -/
def visibleWidth (s : Screen) : Nat :=
  min (span s.hStart * (s.xScale % 0x1000) / 0x400) s.lineWidth

/-- The screen shows an image. -/
def visible (s : Screen) : Bool :=
  s.size?.isSome && 0 < s.lineWidth && 0 < s.height && 0 < s.visibleWidth

/-- The bytes of memory that the lines shown take. -/
def byteCount (s : Screen) : Except Fault Nat :=
  match s.size? with
  | some size => do size.bytesFor (← word32 (s.lineWidth * s.height))
  | none => .ok 0

def registers (s : Screen) : List Nat :=
  [s.status, s.origin, s.width, s.hStart, s.vStart, s.xScale, s.yScale]

def fieldNames : List String :=
  ["status", "origin", "width", "h_start", "v_start", "x_scale", "y_scale"]

def toJson (s : Screen) : Json :=
  .ofMembers (fieldNames.zip (s.registers.map .ofNat))

def ofJson? (j : Json) : Option Screen := do
  let r ← j.record? fieldNames
  return {
    status := ← r.required 0 Json.word32?
    origin := ← r.required 1 Json.word32?
    width := ← r.required 2 Json.word32?
    hStart := ← r.required 3 Json.word32?
    vStart := ← r.required 4 Json.word32?
    xScale := ← r.required 5 Json.word32?
    yScale := ← r.required 6 Json.word32? }

end Screen

end Scanout
