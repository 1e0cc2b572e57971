import Scanout.Workload.Basic

/-!
# Synchronizing workloads

On submission a workload is compared with memory, pair by pair. Each pair gets the operations that
have to precede its draws: copies of rendered regions that it samples, uploads of rows that the CPU
has changed, and conversions of images last written in the other encoding. The writes of the pair
are then recorded in the table of framebuffers, so that later pairs and workloads build on them.
-/

namespace Scanout

/-- The operations queued, by kind. -/
structure SyncStats where
  uploads : Nat
  tileCopies : Nat
  reinterprets : Nat
  deriving DecidableEq, Repr

namespace SyncStats

def zero : SyncStats := ⟨0, 0, 0⟩

instance : Inhabited SyncStats := ⟨zero⟩

/-- One more operation was queued. -/
def count (stats : SyncStats) : Operation → SyncStats
  | .upload .. => { stats with uploads := stats.uploads + 1 }
  | .copyTile _ => { stats with tileCopies := stats.tileCopies + 1 }
  | .reinterpret .. => { stats with reinterprets := stats.reinterprets + 1 }
  | .synchronize .. => stats

def fieldNames : List String := ["uploads", "tile_copies", "reinterprets"]

def toJson (stats : SyncStats) : Json :=
  .ofMembers (fieldNames.zip
    [.ofNat stats.uploads, .ofNat stats.tileCopies, .ofNat stats.reinterprets])

def ofJson? (j : Json) : Option SyncStats := do
  let r ← j.record? fieldNames
  return {
    uploads := ← r.required 0 Json.word64?
    tileCopies := ← r.required 1 Json.word64?
    reinterprets := ← r.required 2 Json.word64? }

end SyncStats

/-- How far a workload is synchronized. -/
structure Sync where
  table : FramebufferTable
  /-- for each tile the copy that serves it -/
  tileCopies : List (Option TileCopy)
  /-- the pairs done, the latest first -/
  done : List Pair
  /-- the operations queued for the pair in hand -/
  queued : List Operation
  changes : List MemoryChange
  stats : SyncStats
  deriving Inhabited

namespace Sync

/-- Queue an operation for the pair in hand. -/
def queue (s : Sync) (op : Operation) : Sync :=
  { s with queued := s.queued ++ [op], stats := s.stats.count op }

/-- The pair drew to the image at the address. -/
def drewTo (address : Nat) (p : Pair) : Bool := p.colorImage.any (·.address = address)

/-- Let the last pair that drew to an image make its output visible, once. -/
def markProducer (address : Nat) (size : PixelSize) (width : Nat) : List Pair → List Pair
  | [] => []
  | p :: ps =>
    if drewTo address p then
      (if p.syncRequired then p
        else { p with
          syncRequired := true, after := p.after ++ [.synchronize address size width] }) :: ps
    else p :: markProducer address size width ps

/-- The image at the address was written by this workload. -/
def renderedHere (s : Sync) (stamp address : Nat) : Bool :=
  (s.table.find? address).any (·.lastWriteStamp = stamp)

/-- The tile at a place, if it is known and no copy serves it yet; nothing is known beyond either
table. -/
def openTile? (s : Sync) (tiles : List Tile) (place : Nat) : Traced (Option Tile) :=
  match tiles[place]?, s.tileCopies[place]? with
  | some tile, some none => return some tile
  | some _, some (some _) => return none
  | _, _ => do
    Traced.note (.unknownTile place)
    return none

/-- Look for a rendered region that serves the tile at a place, and queue its copy. -/
def syncTile (stamp : Nat) (tiles : List Tile) (s : Sync) (place : Nat) : Traced Sync := do
  let some tile ← s.openTile? tiles place | return s
  let .copy region ← tile.resolve s.table | return s
  let copy : TileCopy :=
    ⟨region.address, tile.size, tile.width, s.stats.tileCopies, region.fbRect, region.tileRect⟩
  let s := { s.queue (.copyTile copy) with tileCopies := s.tileCopies.set place (some copy) }
  return if s.renderedHere stamp region.address then
    { s with done := markProducer region.address tile.size tile.width s.done }
  else s

/-- Bring a framebuffer up to date with memory. Rows that the CPU changed over rendered output leave
nothing to blend with. -/
def checkImage (ram : ByteArray) (table : FramebufferTable) (address : Nat) (size : PixelSize)
    (width height : Nat) (type : WriteType) : Traced (Option Operation × FramebufferTable) := do
  let (fb, table) ← table.get address size width height
  let (change, fb) ← fb.check ram
  let fb := { fb with blendable := change.isNone || !fb.wasWritten }
  let table := table.insert address fb
  return match change with
    | some change => (some (.upload type change), table)
    | none =>
      if fb.wasWritten ∧ fb.lastWriteType ≠ type then
        (some (.reinterpret address size width fb.lastWriteType type fb.lastWriteRect), table)
      else (none, table)

/-- Bring an image of the pair in hand up to date, and queue what that takes. -/
def syncImage (ram : ByteArray) (s : Sync) (address : Nat) (size : PixelSize) (width height : Nat)
    (type : WriteType) : Traced Sync := do
  let (op?, table) ← checkImage ram s.table address size width height type
  let s := { s with table }
  return match op? with
    | some op =>
      { s.queue op with
        changes := match op with
          | .upload _ change => s.changes ++ [change]
          | _ => s.changes }
    | none => s

/-- The depth image that the draws of a pair write to. -/
def writtenDepth (p : Pair) : Option Nat := if p.depthRect.isEmpty then none else p.depthImage

/-- The draws of the image at the address may be blended with those of the frame before. -/
def blendable (s : Sync) (address : Nat) : Bool := (s.table.find? address).all (·.blendable)

/-- Record what the draws of a pair write. -/
def recordWrites (stamp : Nat) (s : Sync) (p : Pair) (image : ColorImage) : Sync :=
  let table :=
    if p.colorRect.isEmpty then s.table
    else s.table.recordWrite image.address .color p.colorRect stamp
  let table := match writtenDepth p with
    | some address => table.recordWrite address .depth p.depthRect stamp
    | none => table
  { s with table }

/-- Bring the images of a pair up to date and record what it writes. -/
def syncImages (ram : ByteArray) (stamp : Nat) (s : Sync) (p : Pair) : Traced (Sync × Pair) := do
  let some image := p.colorImage | return (s, p)
  let s ← s.syncImage ram image.address image.size image.width p.drawHeight .color
  let s ← match writtenDepth p with
    | some address => s.syncImage ram address .bits16 image.width p.drawHeight .depth
    | none => pure s
  let p := { p with blendable := s.blendable image.address }
  return (s.recordWrites stamp p image, p)

/-- The tiles that the draws of a pair sample. -/
def sampledTiles (draws : List Draw) (p : Pair) : List Nat :=
  p.calls.filterMap fun call => draws[call.draw]?.bind Draw.tile

/-- Synchronize the next pair: first what it samples, then what it draws to. -/
def syncPair (ram : ByteArray) (w : Workload) (s : Sync) (p : Pair) : Traced Sync := do
  let s ← (sampledTiles w.draws p).foldlM (syncTile w.id w.tiles) { s with queued := [] }
  let (s, p) ← s.syncImages ram w.id p
  return { s with done := { p with before := p.before ++ s.queued } :: s.done, queued := [] }

end Sync

/-- Synchronize a workload with memory. -/
def Workload.synchronize (w : Workload) (table : FramebufferTable) (ram : ByteArray) :
    Traced (SyncStats × Workload × FramebufferTable) := do
  let start : Sync := ⟨table, w.tileCopies, [], [], [], .zero⟩
  let s ← w.pairs.foldlM (Sync.syncPair ram w) start
  Traced.note
    (.workloadSynchronized w.id s.stats.uploads s.stats.tileCopies s.stats.reinterprets)
  let w := { w with
    pairs := s.done.reverse, tileCopies := s.tileCopies, changes := w.changes ++ s.changes }
  return (s.stats, w, s.table)

end Scanout
