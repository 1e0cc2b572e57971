import Scanout.Framebuffer.Table

/-!
# Tiles

A tile is a part of an image in memory that is loaded as a texture. If the device has rendered the
image, its memory is stale, and the texture must come from a copy of the rendered region instead.
Such a copy serves only if it holds every texel that is sampled.
-/

namespace Scanout

/-- A load of a texture. -/
structure Tile where
  /-- the address of the source image -/
  address : Nat
  /-- the texels of a line of the source image -/
  width : Nat
  size : PixelSize
  format : Nat
  /-- the texels loaded, in the source image -/
  loadRect : Rect
  /-- the texels sampled, in the source image -/
  sampleRect : Rect
  /-- the hash of the texture memory, for when no copy serves -/
  memoryHash : Nat
  deriving DecidableEq, Repr, Inhabited

/-- A copy of a rendered region: `fbRect` in the framebuffer is `tileRect` in the source image. -/
structure CopyRegion where
  address : Nat
  fbRect : Rect
  tileRect : Rect
  deriving DecidableEq, Repr, Inhabited

/-- Where a texture comes from. -/
inductive TileSource where
  | copy (region : CopyRegion)
  | textureMemory (hash : Nat)
  deriving DecidableEq, Repr, Inhabited

/-- A copy of a rendered region, the one with this index in its workload. -/
structure TileCopy where
  address : Nat
  size : PixelSize
  width : Nat
  index : Nat
  fbRect : Rect
  tileRect : Rect
  deriving DecidableEq, Repr, Inhabited

namespace Tile

/-- The bytes of the rows loaded: from the first to after the last address. -/
def byteSpan (t : Tile) : Except Fault (Nat × Nat) := do
  let stride ← t.size.bytesFor t.width
  let start ← word32 (t.address + (← word32 (t.loadRect.top.toNat * stride)))
  let stop ← word32 (t.address + (← word32 (t.loadRect.bottom.toNat * stride)))
  return (start, max stop (← word32 (start + 1)))

/-- The columns and rows from the start of the framebuffer to the start of the source image. -/
def offset (t : Tile) (fb : Framebuffer) (stride pixelBytes : Nat) : Int × Int :=
  let offset := t.address - fb.address
  (wrapSigned32 (offset % stride / pixelBytes), wrapSigned32 (offset / stride))

/-- The framebuffer holds an image of the tile's layout that the device has written. -/
def fits (t : Tile) (fb : Framebuffer) : Bool :=
  fb.wasWritten && t.size = fb.size && t.width = fb.width && fb.address ≤ t.address

/-- The region of the framebuffer to copy for the tile, if it holds every texel sampled. -/
def copyRegion? (t : Tile) (fb : Framebuffer) : Traced (Option CopyRegion) := do
  if !t.fits fb then return none
  let stride ← fb.stride
  let pixelBytes := (← fb.size.bytesFor 2) / 2
  if stride = 0 ∨ pixelBytes = 0 then return none
  let (dx, dy) := t.offset fb stride pixelBytes
  let fbRect := (← t.loadRect.shift dx dy).intersection fb.bounds
  if fbRect.isEmpty then return none
  let tileRect ← fbRect.shift (-dx) (-dy)
  if tileRect.contains t.sampleRect then return some ⟨fb.address, fbRect, tileRect⟩
  .note (.tileCopyTooSmall fb.address t.sampleRect tileRect)
  return none

/-- Where the texture comes from: a copy from the framebuffer written last among those that the load
touches, or the texture memory. -/
def resolve (t : Tile) (table : FramebufferTable) : Traced TileSource := do
  let (start, stop) ← t.byteSpan
  let region? ← match ← table.findOverlapping start (stop - start) with
    | some fb => t.copyRegion? fb
    | none => pure none
  return match region? with
    | some region => .copy region
    | none => .textureMemory t.memoryHash

def fieldNames : List String :=
  ["address", "width", "siz", "fmt", "load_rect", "sample_rect", "tmem_hash"]

def toJson (t : Tile) : Json :=
  .ofMembers (fieldNames.zip
    [.ofNat t.address, .ofNat t.width, t.size.toJson, .ofNat t.format, t.loadRect.toJson,
      t.sampleRect.toJson, .ofNat t.memoryHash])

def ofJson? (j : Json) : Option Tile := do
  let r ← j.record? fieldNames
  return {
    address := ← r.required 0 Json.word32?
    width := ← r.required 1 Json.word32?
    size := ← r.required 2 PixelSize.ofJson?
    format := ← r.required 3 Json.word8?
    loadRect := ← r.required 4 Rect.ofJson?
    sampleRect := ← r.required 5 Rect.ofJson?
    memoryHash := ← r.required 6 Json.word32? }

end Tile

namespace CopyRegion

def fieldNames : List String := ["address", "fb_rect", "tile_rect"]

def toJson (region : CopyRegion) : Json :=
  .ofMembers (fieldNames.zip
    [.ofNat region.address, region.fbRect.toJson, region.tileRect.toJson])

def ofJson? (j : Json) : Option CopyRegion := do
  let r ← j.record? fieldNames
  return {
    address := ← r.required 0 Json.word32?
    fbRect := ← r.required 1 Rect.ofJson?
    tileRect := ← r.required 2 Rect.ofJson? }

end CopyRegion

namespace TileSource

def toJson : TileSource → Json
  | copy region => .ofChoice "Copy" region.toJson
  | textureMemory hash => .ofChoice "Tmem" (.ofMembers [("hash", .ofNat hash)])

def ofJson? (j : Json) : Option TileSource := do
  match ← j.choice? with
  | ("Copy", some content) => return copy (← CopyRegion.ofJson? content)
  | ("Tmem", some content) =>
    let r ← content.record? ["hash"]
    return textureMemory (← r.required 0 Json.word32?)
  | _ => none

end TileSource

namespace TileCopy

/-- The key of the texture that receives the copy. -/
def key (c : TileCopy) : TargetKey := ⟨c.address, c.width, c.size, .tileCopy, c.index⟩

def fieldNames : List String := ["address", "siz", "width", "index", "fb_rect", "tile_rect"]

def toJson (c : TileCopy) : Json :=
  .ofMembers (fieldNames.zip
    [.ofNat c.address, c.size.toJson, .ofNat c.width, .ofNat c.index, c.fbRect.toJson,
      c.tileRect.toJson])

def ofJson? (j : Json) : Option TileCopy := do
  let r ← j.record? fieldNames
  return {
    address := ← r.required 0 Json.word32?
    size := ← r.required 1 PixelSize.ofJson?
    width := ← r.required 2 Json.word32?
    index := ← r.required 3 Json.word32?
    fbRect := ← r.required 4 Rect.ofJson?
    tileRect := ← r.required 5 Rect.ofJson? }

end TileCopy

end Scanout
