import Scanout.Json.Parser
import Scanout.Workload.Basic

/-!
# Workloads as data texts

How workloads are written and read. The projection in use is not written.
-/

namespace Scanout

namespace Transform

def fieldNames : List String := ["id", "matrix"]

def toJson (t : Transform) : Json := .ofMembers (fieldNames.zip [.ofNat t.id, t.matrix.toJson])

def ofJson? (j : Json) : Option Transform := do
  let r ← j.record? fieldNames
  return { id := ← r.required 0 Json.word32?, matrix := ← r.required 1 Matrix.ofJson? }

end Transform

namespace ProjectionKind

def all : List ProjectionKind := [perspective, orthographic, rectangle]

def name : ProjectionKind → String
  | perspective => "Perspective"
  | orthographic => "Orthographic"
  | rectangle => "Rectangle"

def toJson (kind : ProjectionKind) : Json := .ofString kind.name

def ofJson? (j : Json) : Option ProjectionKind :=
  j.alternative? (all.map fun kind => (kind.name, kind))

end ProjectionKind

namespace Projection

def fieldNames : List String := ["kind", "matrix"]

def toJson (p : Projection) : Json := .ofMembers (fieldNames.zip [p.kind.toJson, p.matrix.toJson])

def ofJson? (j : Json) : Option Projection := do
  let r ← j.record? fieldNames
  return { kind := ← r.required 0 ProjectionKind.ofJson?, matrix := ← r.required 1 Matrix.ofJson? }

end Projection

namespace Draw

def fieldNames : List String :=
  ["transform", "vertex_count", "tile", "scissor", "tile_scroll", "depth_write"]

def toJson (d : Draw) : Json :=
  .ofMembers (fieldNames.zip
    [.ofNat d.transform, .ofNat d.vertexCount, Json.ofNullable .ofNat d.tile, d.scissor.toJson,
      d.scroll.toJson, .bool d.writesDepth])

def ofJson? (j : Json) : Option Draw := do
  let r ← j.record? fieldNames
  return {
    transform := ← r.required 0 Json.word64?
    vertexCount := ← r.required 1 Json.word32?
    tile := ← r.nullable 2 Json.word64?
    scissor := ← r.required 3 Rect.ofJson?
    scroll := ← r.required 4 Scroll.ofJson?
    writesDepth := ← r.required 5 Json.bool? }

end Draw

namespace Call

def fieldNames : List String := ["projection", "draw_call"]

def toJson (c : Call) : Json := .ofMembers (fieldNames.zip [.ofNat c.projection, .ofNat c.draw])

def ofJson? (j : Json) : Option Call := do
  let r ← j.record? fieldNames
  return { projection := ← r.required 0 Json.word64?, draw := ← r.required 1 Json.word64? }

end Call

namespace ColorImage

def fieldNames : List String := ["address", "siz", "width"]

def toJson (image : ColorImage) : Json :=
  .ofMembers (fieldNames.zip [.ofNat image.address, image.size.toJson, .ofNat image.width])

def ofJson? (j : Json) : Option ColorImage := do
  let r ← j.record? fieldNames
  return {
    address := ← r.required 0 Json.word32?
    size := ← r.required 1 PixelSize.ofJson?
    width := ← r.required 2 Json.word32? }

end ColorImage

namespace Pair

def fieldNames : List String :=
  ["color_image", "depth_image", "projections", "game_calls", "draw_color_rect", "draw_depth_rect",
    "sync_required", "interpolate", "start_fb_operations", "end_fb_operations"]

def toJson (p : Pair) : Json :=
  .ofMembers (fieldNames.zip
    [Json.ofNullable ColorImage.toJson p.colorImage, Json.ofNullable .ofNat p.depthImage,
      .array (p.projections.map Projection.toJson), .array (p.calls.map Call.toJson),
      p.colorRect.toJson, p.depthRect.toJson, .bool p.syncRequired, .bool p.blendable,
      .array (p.before.map Operation.toJson), .array (p.after.map Operation.toJson)])

def ofJson? (j : Json) : Option Pair := do
  let r ← j.record? fieldNames
  return {
    colorImage := ← r.nullable 0 ColorImage.ofJson?
    depthImage := ← r.nullable 1 Json.word32?
    projections := ← r.required 2 (Json.list? Projection.ofJson?)
    calls := ← r.required 3 (Json.list? Call.ofJson?)
    colorRect := ← r.required 4 Rect.ofJson?
    depthRect := ← r.required 5 Rect.ofJson?
    syncRequired := ← r.required 6 Json.bool?
    blendable := ← r.required 7 Json.bool?
    before := ← r.required 8 (Json.list? Operation.ofJson?)
    after := ← r.required 9 (Json.list? Operation.ofJson?) }

end Pair

/-- The tables that the draws of a workload refer to. -/
structure DrawTables where
  draws : List Draw
  transforms : List Transform
  tiles : List Tile
  tileCopies : List (Option TileCopy)
  deriving DecidableEq

namespace DrawTables

def fieldNames : List String := ["calls", "transforms", "tiles", "tile_copies"]

def toJson (t : DrawTables) : Json :=
  .ofMembers (fieldNames.zip
    [.array (t.draws.map Draw.toJson), .array (t.transforms.map Transform.toJson),
      .array (t.tiles.map Tile.toJson),
      .array (t.tileCopies.map (Json.ofNullable TileCopy.toJson))])

def ofJson? (j : Json) : Option DrawTables := do
  let r ← j.record? fieldNames
  return {
    draws := ← r.required 0 (Json.list? Draw.ofJson?)
    transforms := ← r.required 1 (Json.list? Transform.ofJson?)
    tiles := ← r.required 2 (Json.list? Tile.ofJson?)
    tileCopies := ← r.required 3 (Json.list? (Json.nullable? TileCopy.ofJson?)) }

end DrawTables

namespace Workload

def tables (w : Workload) : DrawTables := ⟨w.draws, w.transforms, w.tiles, w.tileCopies⟩

def fieldNames : List String :=
  ["workload_id", "present_id", "fb_pairs", "draw_data", "submission_frame", "paused",
    "vi_original_rate", "fb_changes"]

def toJson (w : Workload) : Json :=
  .ofMembers (fieldNames.zip
    [.ofNat w.id, .ofNat w.presentId, .array (w.pairs.map Pair.toJson), w.tables.toJson,
      .ofNat w.submissionFrame, .bool w.paused, .ofNat w.gameRate,
      .array (w.changes.map MemoryChange.toJson)])

def ofJson? (j : Json) : Option Workload := do
  let r ← j.record? fieldNames
  let tables ← r.required 3 DrawTables.ofJson?
  return {
    id := ← r.required 0 Json.word64?
    presentId := ← r.required 1 Json.word64?
    pairs := ← r.required 2 (Json.list? Pair.ofJson?)
    draws := tables.draws
    transforms := tables.transforms
    tiles := tables.tiles
    tileCopies := tables.tileCopies
    submissionFrame := ← r.required 4 Json.word64?
    paused := ← r.required 5 Json.bool?
    gameRate := ← r.required 6 Json.word32?
    changes := ← r.required 7 (Json.list? MemoryChange.ofJson?)
    currentProjection := none }

/-- The workload as a text. -/
def text (w : Workload) : String := w.toJson.compact

/-- The workload that a text holds. -/
def ofText? (s : String) : Option Workload := do ofJson? (← Json.parse? s)

end Workload

end Scanout
