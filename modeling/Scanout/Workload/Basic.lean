import Scanout.Operation

/-!
# Workloads

A workload is one frame of drawing. Draws are grouped into pairs, runs of draws with the same color
and depth image; transforms, tiles and the draws themselves are kept in tables of the workload and
referred to by index.
-/

namespace Scanout

/-- A transform with an identity that lasts from frame to frame. -/
structure Transform where
  id : Nat
  matrix : Matrix
  deriving DecidableEq, Repr, Inhabited

/-- How a projection maps to the screen; rectangles are in screen coordinates already. -/
inductive ProjectionKind where
  | perspective
  | orthographic
  | rectangle
  deriving DecidableEq, Repr, Inhabited

structure Projection where
  kind : ProjectionKind
  matrix : Matrix
  deriving DecidableEq, Repr, Inhabited

/-- A draw. -/
structure Draw where
  /-- its place in the table of transforms -/
  transform : Nat
  vertexCount : Nat
  /-- its place in the table of tiles -/
  tile : Option Nat
  scissor : Rect
  scroll : Scroll
  writesDepth : Bool
  deriving DecidableEq, Repr, Inhabited

/-- A draw as issued within a pair. -/
structure Call where
  /-- the place in the pair's projections -/
  projection : Nat
  /-- the place in the table of draws -/
  draw : Nat
  deriving DecidableEq, Repr, Inhabited

/-- The image that colors are drawn to. -/
structure ColorImage where
  address : Nat
  size : PixelSize
  width : Nat
  deriving DecidableEq, Repr, Inhabited

/-- A run of draws with the same images. -/
structure Pair where
  colorImage : Option ColorImage
  depthImage : Option Nat
  projections : List Projection
  calls : List Call
  /-- the region that the draws color -/
  colorRect : Rect
  /-- the region whose depth the draws write -/
  depthRect : Rect
  /-- a later pair samples what this one draws -/
  syncRequired : Bool
  /-- the draws may be blended with those of the frame before -/
  blendable : Bool
  before : List Operation
  after : List Operation
  deriving DecidableEq

namespace Pair

def empty : Pair where
  colorImage := none
  depthImage := none
  projections := []
  calls := []
  colorRect := Rect.none
  depthRect := Rect.none
  syncRequired := false
  blendable := false
  before := []
  after := []

instance : Inhabited Pair := ⟨empty⟩

/-- No draw was issued yet. -/
def isEmpty (p : Pair) : Bool := p.calls.isEmpty

/-- The rows that the draws reach, at least one. -/
def drawHeight (p : Pair) : Nat := (max (max p.colorRect.bottom p.depthRect.bottom) 1).toNat

/-- Another pair with the same images. -/
def withSameImages (p : Pair) : Pair :=
  { empty with colorImage := p.colorImage, depthImage := p.depthImage }

/-- The address of the color image, `0` if there is none. -/
def colorAddress (p : Pair) : Nat := p.colorImage.elim 0 ColorImage.address

end Pair

/-- The shape of a workload. Only workloads of equal shape are blended. -/
structure Topology where
  /-- for each pair the color image and the number of draws -/
  pairs : List (Nat × Nat)
  transformIds : List Nat
  deriving DecidableEq, Repr, Inhabited

/-- One frame of drawing. -/
structure Workload where
  id : Nat
  /-- the last present before this workload -/
  presentId : Nat
  pairs : List Pair
  draws : List Draw
  transforms : List Transform
  tiles : List Tile
  /-- for each tile the copy that serves it -/
  tileCopies : List (Option TileCopy)
  submissionFrame : Nat
  paused : Bool
  gameRate : Nat
  /-- the changes of memory found on submission -/
  changes : List MemoryChange
  /-- the projection of the draws to come -/
  currentProjection : Option Nat
  deriving DecidableEq

namespace Workload

def empty : Workload where
  id := 0
  presentId := 0
  pairs := []
  draws := []
  transforms := []
  tiles := []
  tileCopies := []
  submissionFrame := 0
  paused := false
  gameRate := 0
  changes := []
  currentProjection := none

instance : Inhabited Workload := ⟨empty⟩

/-- Remove everything that belongs to the frame. -/
def reset (w : Workload) : Workload :=
  { w with
    pairs := []
    draws := []
    transforms := []
    tiles := []
    tileCopies := []
    changes := []
    paused := false
    currentProjection := none }

/-- Addresses have 24 bits. -/
def imageAddress (address : Nat) : Nat := address % 0x1000000

/-- Change the last pair, a first one if there is none. -/
def updateLast (f : Pair → Pair) (pairs : List Pair) : List Pair :=
  pairs.dropLast ++ [f (pairs.getLast?.getD .empty)]

/-- Change the last pair, a first one if there is none. -/
def modifyPair (w : Workload) (f : Pair → Pair) : Workload :=
  { w with pairs := updateLast f w.pairs }

/-- A pair without draws for a change of images: the last one, or a new one with the same images. -/
def openPair (w : Workload) : Workload :=
  match w.pairs.getLast? with
  | some p =>
    if p.isEmpty then w
    else { w with pairs := w.pairs ++ [p.withSameImages], currentProjection := none }
  | none => w

/-- Draw colors to this image from now on. -/
def setColorImage (w : Workload) (address : Nat) (size : PixelSize) (width : Nat) : Workload :=
  let image : ColorImage := ⟨imageAddress address, size, width⟩
  if w.pairs.getLast?.bind Pair.colorImage = some image then w
  else w.openPair.modifyPair fun p => { p with colorImage := some image }

/-- Draw depths to this image from now on. -/
def setDepthImage (w : Workload) (address : Nat) : Workload :=
  if w.pairs.getLast?.bind Pair.depthImage = some (imageAddress address) then w
  else w.openPair.modifyPair fun p => { p with depthImage := some (imageAddress address) }

/-- Add a transform; its place is the size of the table before. -/
def addTransform (w : Workload) (id : Nat) (matrix : Matrix) : Workload :=
  { w with transforms := w.transforms ++ [⟨id, matrix⟩] }

/-- The number of projections of the last pair. -/
def projectionCount (w : Workload) : Nat := (w.pairs.getLast?.getD .empty).projections.length

/-- Add a projection to the last pair and use it from now on. -/
def addProjection (w : Workload) (kind : ProjectionKind) (matrix : Matrix) : Workload :=
  { w.modifyPair fun p => { p with projections := p.projections ++ [⟨kind, matrix⟩] } with
    currentProjection := some w.projectionCount }

/-- Add a tile; its place is the size of the table before. -/
def addTile (w : Workload) (tile : Tile) : Workload :=
  { w with tiles := w.tiles ++ [tile], tileCopies := w.tileCopies ++ [none] }

/-- Make sure that there is a projection to draw under. -/
def withProjection (w : Workload) : Workload :=
  match w.currentProjection with
  | some _ => w
  | none => w.addProjection .rectangle Matrix.identity

/-- Add a draw to the last pair; its place is the size of the table before. -/
def addDraw (w : Workload) (draw : Draw) : Workload :=
  let w := w.withProjection
  let call : Call := ⟨w.currentProjection.getD 0, w.draws.length⟩
  { w.modifyPair fun p => { p with
      calls := p.calls ++ [call]
      colorRect := p.colorRect.merge draw.scissor
      depthRect := if draw.writesDepth then p.depthRect.merge draw.scissor else p.depthRect } with
    draws := w.draws ++ [draw] }

/-- The shape of the workload. -/
def topology (w : Workload) : Topology where
  pairs := w.pairs.map fun p => (p.colorAddress, p.calls.length)
  transformIds := w.transforms.map Transform.id

end Workload

end Scanout
