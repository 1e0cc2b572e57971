import Scanout.Matrix
import Scanout.Pixel
import Scanout.Rect

/-!
# Commands for the graphics device

The vocabulary between the pipeline and the device: graphics interfaces, textures and the commands
of a command list, which a device executes in order.
-/

namespace Scanout

/-- The graphics interfaces that a host may offer. -/
inductive GraphicsApi where
  | d3d12
  | vulkan
  | metal
  deriving DecidableEq, Repr, Inhabited

namespace GraphicsApi

def all : List GraphicsApi := [d3d12, vulkan, metal]

def name : GraphicsApi → String
  | d3d12 => "D3D12"
  | vulkan => "Vulkan"
  | metal => "Metal"

/-- The interface used if none is asked for. -/
def preferred : GraphicsApi := vulkan

def toJson (api : GraphicsApi) : Json := .ofString api.name

def ofJson? (j : Json) : Option GraphicsApi :=
  j.alternative? (all.map fun api => (api.name, api))

end GraphicsApi

/-- A texture of the device, by the number it was created under. -/
abbrev TextureId := Nat

/-- How a texture keeps its pixels. -/
inductive TextureFormat where
  | rgba8
  | depth32
  deriving DecidableEq, Repr, Inhabited

namespace TextureFormat

def name : TextureFormat → String
  | rgba8 => "Rgba8"
  | depth32 => "Depth32"

def toJson (format : TextureFormat) : Json := .ofString format.name

def ofJson? (j : Json) : Option TextureFormat :=
  j.alternative? ([rgba8, depth32].map fun format => (format.name, format))

end TextureFormat

/-- Size and format of a texture. -/
structure TextureShape where
  width : Nat
  height : Nat
  format : TextureFormat
  samples : Nat
  deriving DecidableEq, Repr, Inhabited

namespace TextureShape

def fieldNames : List String := ["width", "height", "format", "samples"]

def toJson (shape : TextureShape) : Json :=
  .ofMembers (fieldNames.zip
    [.ofNat shape.width, .ofNat shape.height, shape.format.toJson, .ofNat shape.samples])

def ofJson? (j : Json) : Option TextureShape := do
  let r ← j.record? fieldNames
  return {
    width := ← r.required 0 Json.word32?
    height := ← r.required 1 Json.word32?
    format := ← r.required 2 TextureFormat.ofJson?
    samples := ← r.required 3 Json.word32? }

end TextureShape

/-- What a draw samples. -/
inductive TextureBinding where
  /-- a rendered region copied into a texture -/
  | tileCopy (texture : TextureId)
  /-- the texture memory with this hash -/
  | textureMemory (hash : Nat)
  deriving DecidableEq, Repr, Inhabited

namespace TextureBinding

def toJson : TextureBinding → Json
  | tileCopy texture => .ofChoice "TileCopy" (.ofNat texture)
  | textureMemory hash => .ofChoice "Tmem" (.ofMembers [("hash", .ofNat hash)])

def ofJson? (j : Json) : Option TextureBinding := do
  match ← j.choice? with
  | ("TileCopy", some content) => return tileCopy (← content.word64?)
  | ("Tmem", some content) =>
    let r ← content.record? ["hash"]
    return textureMemory (← r.required 0 Json.word32?)
  | _ => none

end TextureBinding

/-- A pair of numbers, the shift of a texture. -/
structure Scroll where
  x : Single
  y : Single
  deriving DecidableEq, Repr

namespace Scroll

def zero : Scroll := ⟨0, 0⟩

instance : Inhabited Scroll := ⟨zero⟩

def toJson (s : Scroll) : Json := .array [.ofSingle s.x, .ofSingle s.y]

def ofJson? (j : Json) : Option Scroll := do
  match ← j.list? Json.single? with
  | [x, y] => return ⟨x, y⟩
  | _ => none

end Scroll

/-- The bytes of an upload as numbers. -/
def bytesToJson (bytes : ByteArray) : Json := .array (bytes.data.toList.map fun b => .ofNat b.toNat)

def bytesOfJson? (j : Json) : Option ByteArray := do
  return ⟨((← j.list? Json.word8?).map UInt8.ofNat).toArray⟩

/-- The parameters of a draw. -/
structure DrawCommand where
  color : TextureId
  depth : Option TextureId
  vertexCount : Nat
  projection : Matrix
  transform : Matrix
  texture : Option TextureBinding
  scroll : Scroll
  scissor : Rect
  resolutionScale : Single
  misalignX : Single
  deriving DecidableEq, Repr, Inhabited

namespace DrawCommand

def fieldNames : List String :=
  ["color", "depth", "vertex_count", "projection", "transform", "texture", "tile_scroll", "scissor",
    "resolution_scale", "misalign_x"]

def toJson (d : DrawCommand) : Json :=
  .ofMembers (fieldNames.zip
    [.ofNat d.color, Json.ofNullable .ofNat d.depth, .ofNat d.vertexCount, d.projection.toJson,
      d.transform.toJson, Json.ofNullable TextureBinding.toJson d.texture, d.scroll.toJson,
      d.scissor.toJson, .ofSingle d.resolutionScale, .ofSingle d.misalignX])

def ofJson? (j : Json) : Option DrawCommand := do
  let r ← j.record? fieldNames
  return {
    color := ← r.required 0 Json.word64?
    depth := ← r.nullable 1 Json.word64?
    vertexCount := ← r.required 2 Json.word32?
    projection := ← r.required 3 Matrix.ofJson?
    transform := ← r.required 4 Matrix.ofJson?
    texture := ← r.nullable 5 TextureBinding.ofJson?
    scroll := ← r.required 6 Scroll.ofJson?
    scissor := ← r.required 7 Rect.ofJson?
    resolutionScale := ← r.required 8 Json.single?
    misalignX := ← r.required 9 Json.single? }

end DrawCommand

/-- A command of a command list. -/
inductive Command where
  /-- write pixels, as they lie in memory, into a region of a texture -/
  | upload (target : TextureId) (rect : Rect) (size : PixelSize) (data : ByteArray)
  /-- copy a region to the origin of another texture; `reinterpret` converts between colours and
  depths -/
  | copy (source destination : TextureId) (rect : Rect) (reinterpret : Bool)
  /-- let later commands read what earlier ones wrote to the texture -/
  | barrier (texture : TextureId)
  | draw (d : DrawCommand)
  deriving DecidableEq, Inhabited

namespace Command

def toJson : Command → Json
  | upload target rect size data =>
    .ofChoice "UploadTexture" (.ofMembers [("target", .ofNat target), ("rect", rect.toJson),
      ("siz", size.toJson), ("data", bytesToJson data)])
  | copy source destination rect reinterpret =>
    .ofChoice "CopyTexture" (.ofMembers [("src", .ofNat source), ("dst", .ofNat destination),
      ("rect", rect.toJson), ("reinterpret", .bool reinterpret)])
  | barrier texture => .ofChoice "Barrier" (.ofMembers [("texture", .ofNat texture)])
  | draw d => .ofChoice "Draw" d.toJson

def ofJson? (j : Json) : Option Command := do
  match ← j.choice? with
  | ("UploadTexture", some content) =>
    let r ← content.record? ["target", "rect", "siz", "data"]
    return upload (← r.required 0 Json.word64?) (← r.required 1 Rect.ofJson?)
      (← r.required 2 PixelSize.ofJson?) (← r.required 3 bytesOfJson?)
  | ("CopyTexture", some content) =>
    let r ← content.record? ["src", "dst", "rect", "reinterpret"]
    return copy (← r.required 0 Json.word64?) (← r.required 1 Json.word64?)
      (← r.required 2 Rect.ofJson?) (← r.required 3 Json.bool?)
  | ("Barrier", some content) =>
    let r ← content.record? ["texture"]
    return barrier (← r.required 0 Json.word64?)
  | ("Draw", some content) => return draw (← DrawCommand.ofJson? content)
  | _ => none

end Command

end Scanout
