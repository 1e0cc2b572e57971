import Scanout.Operation
import Scanout.Target.Manager

/-!
# Recording operations

Operations become commands once the textures of their targets are known. A region to copy that was
not rendered in the slot at hand is looked for among the final images; an operation whose source was
not rendered at all is left out.
-/

namespace Scanout

namespace Operation

/-- The target that a rendered region is copied from. -/
def copySource? (r : Renderer) (address : Nat) (slot : Slot) : Option Target :=
  (r.findByAddress? address .color slot).or (r.findByAddress? address .color .main)

/-- The rows down to the bottom of a rectangle, at least one. -/
def rowsDownTo (rect : Rect) : Nat := (max rect.bottom 1).toNat

/-- Record the commands of an operation, at most one. -/
def record (slot : Slot) : Operation → Rendering Unit
  | upload type change => do
    let key := TargetKey.ofImage change.address change.width change.size type
    let target ← Target.request key slot change.width (rowsDownTo change.rect)
    Rendering.emit (.upload target.texture change.rect change.size change.data)
  | copyTile copy => do
    match copySource? (← get) copy.address slot with
    | some source =>
      let target ← Target.request copy.key slot (← copy.fbRect.width) (← copy.fbRect.height)
      Rendering.emit (.copy source.texture target.texture copy.fbRect false)
    | none => Rendering.note (.tileCopyWithoutSource copy.address)
  | reinterpret address size width source target rect => do
    match (← get).findByAddress? address (.ofWrite source) slot with
    | some found =>
      if found.key.kind = .ofWrite source then
        let key := TargetKey.ofImage address width size target
        let copied ← Target.request key slot width (rowsDownTo rect)
        Rendering.emit (.copy found.texture copied.texture rect true)
    | none => pure ()
  | synchronize address size width => do
    match (← get).find? (TargetKey.ofImage address width size .color) slot with
    | some target => Rendering.emit (.barrier target.texture)
    | none => pure ()

/-- Record several operations in order. -/
def recordAll (slot : Slot) (ops : List Operation) : Rendering Unit := ops.forM (record slot)

end Operation

end Scanout
