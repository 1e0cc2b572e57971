import Mathlib.Tactic.NormNum
import Scanout.Workload.Text

/-!
# The words of a workload

Numbers are kept without bounds, while the fields that hold them are words. A value is `InWords` if
each of its fields fits its word.
-/

namespace Scanout

/-- The edges are signed words of 32 bits. -/
def Rect.InWords (r : Rect) : Prop :=
  ∀ i ∈ [r.left, r.top, r.right, r.bottom], -2 ^ 31 ≤ i ∧ i < 2 ^ 31

instance : DecidablePred Rect.InWords := fun _ => inferInstanceAs (Decidable (∀ _ ∈ _, _))

def MemoryChange.InWords (change : MemoryChange) : Prop :=
  change.address < 2 ^ 32 ∧ change.width < 2 ^ 32 ∧ change.rect.InWords

instance : DecidablePred MemoryChange.InWords := fun _ => inferInstanceAs (Decidable (_ ∧ _))

def Tile.InWords (t : Tile) : Prop :=
  t.address < 2 ^ 32 ∧ t.width < 2 ^ 32 ∧ t.format < 2 ^ 8 ∧ t.loadRect.InWords ∧
    t.sampleRect.InWords ∧ t.memoryHash < 2 ^ 32

instance : DecidablePred Tile.InWords := fun _ => inferInstanceAs (Decidable (_ ∧ _))

def TileCopy.InWords (c : TileCopy) : Prop :=
  c.address < 2 ^ 32 ∧ c.width < 2 ^ 32 ∧ c.index < 2 ^ 32 ∧ c.fbRect.InWords ∧ c.tileRect.InWords

instance : DecidablePred TileCopy.InWords := fun _ => inferInstanceAs (Decidable (_ ∧ _))

def Operation.InWords : Operation → Prop
  | .upload _ change => change.InWords
  | .copyTile copy => copy.InWords
  | .reinterpret address _ width _ _ rect => address < 2 ^ 32 ∧ width < 2 ^ 32 ∧ rect.InWords
  | .synchronize address _ width => address < 2 ^ 32 ∧ width < 2 ^ 32

instance : DecidablePred Operation.InWords
  | .upload _ change => inferInstanceAs (Decidable change.InWords)
  | .copyTile copy => inferInstanceAs (Decidable copy.InWords)
  | .reinterpret .. => inferInstanceAs (Decidable (_ ∧ _))
  | .synchronize .. => inferInstanceAs (Decidable (_ ∧ _))

def Draw.InWords (d : Draw) : Prop :=
  d.transform < 2 ^ 64 ∧ d.vertexCount < 2 ^ 32 ∧ (∀ tile ∈ d.tile, tile < 2 ^ 64) ∧
    d.scissor.InWords

instance : DecidablePred Draw.InWords := fun _ => inferInstanceAs (Decidable (_ ∧ _))

def Call.InWords (c : Call) : Prop := c.projection < 2 ^ 64 ∧ c.draw < 2 ^ 64

instance : DecidablePred Call.InWords := fun _ => inferInstanceAs (Decidable (_ ∧ _))

def ColorImage.InWords (image : ColorImage) : Prop := image.address < 2 ^ 32 ∧ image.width < 2 ^ 32

instance : DecidablePred ColorImage.InWords := fun _ => inferInstanceAs (Decidable (_ ∧ _))

@[mk_iff]
structure Pair.InWords (p : Pair) : Prop where
  colorImage : ∀ image ∈ p.colorImage, image.InWords
  depthImage : ∀ address ∈ p.depthImage, address < 2 ^ 32
  calls : ∀ c ∈ p.calls, c.InWords
  colorRect : p.colorRect.InWords
  depthRect : p.depthRect.InWords
  before : ∀ op ∈ p.before, op.InWords
  after : ∀ op ∈ p.after, op.InWords

instance : DecidablePred Pair.InWords := fun p => decidable_of_iff' _ p.inWords_iff

/-- Every field of the workload fits the word that holds it. -/
@[mk_iff]
structure Workload.InWords (w : Workload) : Prop where
  id : w.id < 2 ^ 64
  presentId : w.presentId < 2 ^ 64
  pairs : ∀ p ∈ w.pairs, p.InWords
  draws : ∀ d ∈ w.draws, d.InWords
  transforms : ∀ t ∈ w.transforms, t.id < 2 ^ 32
  tiles : ∀ t ∈ w.tiles, t.InWords
  tileCopies : ∀ o ∈ w.tileCopies, ∀ c ∈ o, c.InWords
  submissionFrame : w.submissionFrame < 2 ^ 64
  gameRate : w.gameRate < 2 ^ 32
  changes : ∀ c ∈ w.changes, c.InWords

instance : DecidablePred Workload.InWords := fun w => decidable_of_iff' _ w.inWords_iff

/-- The numbers of the projections. -/
def Pair.singles (p : Pair) : List Single :=
  p.projections.flatMap fun projection => projection.matrix.components

/-- The numbers of the scrolls and the transforms. -/
def DrawTables.singles (t : DrawTables) : List Single :=
  t.draws.flatMap (fun d => [d.scroll.x, d.scroll.y]) ++
    t.transforms.flatMap fun transform => transform.matrix.components

/-- The numbers of the scrolls, the transforms and the projections. -/
def Workload.singles (w : Workload) : List Single :=
  w.tables.singles ++ w.pairs.flatMap Pair.singles

end Scanout
