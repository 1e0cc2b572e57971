import Scanout.Fault
import Scanout.Json.Record

/-!
# Pixels

Images in memory are big-endian runs of pixels of four sizes. `PixelSize` names the sizes,
`PixelSize.texel?` reads one pixel, and `Image.decode` turns a run of bytes into colours of the form
`0xAARRGGBB`.
-/

namespace Scanout

/-- Runs of bytes are compared byte by byte. -/
instance bytesDecidableEq : DecidableEq ByteArray := ByteArray.instDecidableEq

/-- The four pixel sizes, in bits. -/
inductive PixelSize where
  | bits4
  | bits8
  | bits16
  | bits32
  deriving DecidableEq, Repr, Inhabited

namespace PixelSize

/-- The size that the low two bits of a field select. -/
def ofField (field : Nat) : PixelSize :=
  match field % 4 with
  | 0 => bits4
  | 1 => bits8
  | 2 => bits16
  | _ => bits32

def bits : PixelSize → Nat
  | bits4 => 4
  | bits8 => 8
  | bits16 => 16
  | bits32 => 32

def name : PixelSize → String
  | bits4 => "Bits4"
  | bits8 => "Bits8"
  | bits16 => "Bits16"
  | bits32 => "Bits32"

def all : List PixelSize := [bits4, bits8, bits16, bits32]

/-- The bytes that hold `pixels` pixels; half a byte is rounded up. -/
def bytesFor (size : PixelSize) (pixels : Nat) : Except Fault Nat :=
  match size with
  | bits4 => .ok ((pixels + 1) / 2)
  | bits8 => .ok pixels
  | bits16 => word32 (pixels * 2)
  | bits32 => word32 (pixels * 4)

def toJson (size : PixelSize) : Json := .ofString size.name

def ofJson? (j : Json) : Option PixelSize :=
  j.alternative? (all.map fun size => (size.name, size))

end PixelSize

/-- A colour, `0xAARRGGBB`. -/
abbrev Argb := Nat

namespace Argb

def ofChannels (alpha red green blue : Nat) : Argb :=
  alpha * 0x1000000 + red * 0x10000 + green * 0x100 + blue

/-- An opaque colour of three channels of eight bits. -/
def ofRgb (red green blue : Nat) : Argb := ofChannels 0xFF red green blue

def alpha (c : Argb) : Nat := c / 0x1000000 % 0x100

def red (c : Argb) : Nat := c / 0x10000 % 0x100

def green (c : Argb) : Nat := c / 0x100 % 0x100

def blue (c : Argb) : Nat := c % 0x100

/-- A channel of five bits spread over eight, so that full intensity stays full. -/
def spread5 (c : Nat) : Nat := c * 8 + c / 4

/-- A pixel of five bits a channel and one bit of coverage. -/
def ofRgba5551 (pixel : Nat) : Argb :=
  ofChannels (if pixel % 2 = 1 then 0xFF else 0)
    (spread5 (pixel / 0x800 % 32)) (spread5 (pixel / 0x40 % 32)) (spread5 (pixel / 2 % 32))

/-- A pixel of eight bits a channel, with alpha last. -/
def ofRgba8888 (pixel : Nat) : Argb := pixel / 0x100 + pixel % 0x100 * 0x1000000

/-- An opaque grey. -/
def ofIntensity (i : Nat) : Argb := ofRgb i i i

end Argb

namespace PixelSize

/-- The pixel at place `i` of a run of pixels, if all its bytes are there. -/
def texel? (size : PixelSize) (bytes : ByteArray) (i : Nat) : Option Nat :=
  match size with
  | bits4 => do
    let b ← bytes[i / 2]?
    return if i % 2 = 0 then b.toNat / 16 else b.toNat % 16
  | bits8 => do
    let b ← bytes[i]?
    return b.toNat
  | bits16 => do
    let b₀ ← bytes[2 * i]?
    let b₁ ← bytes[2 * i + 1]?
    return b₀.toNat * 0x100 + b₁.toNat
  | bits32 => do
    let b₀ ← bytes[4 * i]?
    let b₁ ← bytes[4 * i + 1]?
    let b₂ ← bytes[4 * i + 2]?
    let b₃ ← bytes[4 * i + 3]?
    return b₀.toNat * 0x1000000 + b₁.toNat * 0x10000 + b₂.toNat * 0x100 + b₃.toNat

/-- The colour that a pixel shows; the two small sizes are intensities. -/
def colour : PixelSize → Nat → Argb
  | bits4, texel => Argb.ofIntensity (texel * 16 + texel)
  | bits8, texel => Argb.ofIntensity texel
  | bits16, texel => Argb.ofRgba5551 texel
  | bits32, texel => Argb.ofRgba8888 texel

end PixelSize

/-- An image of colours, row by row. -/
structure Image where
  width : Nat
  height : Nat
  pixels : Array Argb
  deriving DecidableEq, Repr, Inhabited

namespace Image

/-- The image that a run of pixels shows. Pixels beyond the end of the bytes are `0`. -/
def decode (bytes : ByteArray) (size : PixelSize) (width height : Nat) : Except Fault Image := do
  let count ← word32 (width * height)
  let pixel (i : Nat) : Argb :=
    match size.texel? bytes i with
    | some texel => size.colour texel
    | none => 0
  return ⟨width, height, (Array.range count).map pixel⟩

def fieldNames : List String := ["width", "height", "pixels"]

def toJson (image : Image) : Json :=
  .ofMembers (fieldNames.zip
    [.ofNat image.width, .ofNat image.height, .array (image.pixels.toList.map .ofNat)])

def ofJson? (j : Json) : Option Image := do
  let r ← j.record? fieldNames
  return {
    width := ← r.required 0 Json.word32?
    height := ← r.required 1 Json.word32?
    pixels := (← r.required 2 (Json.list? Json.word32?)).toArray }

end Image

end Scanout
