import Scanout.Tile

/-!
# Operations

What has to be done to render targets around the draws of a workload: bring in memory that the CPU
has changed, copy rendered regions that are sampled, convert between colours and depths, and make
output visible.
-/

namespace Scanout

/-- A step around the draws of a framebuffer. -/
inductive Operation where
  /-- upload changed rows into the target of the given kind -/
  | upload (type : WriteType) (change : MemoryChange)
  /-- copy a rendered region into a texture -/
  | copyTile (copy : TileCopy)
  /-- convert an image last written as `source` for use as `target` -/
  | reinterpret (address : Nat) (size : PixelSize) (width : Nat) (source target : WriteType)
      (rect : Rect)
  /-- make what was drawn visible to later draws -/
  | synchronize (address : Nat) (size : PixelSize) (width : Nat)
  deriving DecidableEq, Inhabited

namespace Operation

def toJson : Operation → Json
  | upload type change =>
    .ofChoice "WriteChanges" (.ofMembers [("write_type", type.toJson), ("change", change.toJson)])
  | copyTile copy => .ofChoice "CreateTileCopy" copy.toJson
  | reinterpret address size width source target rect =>
    .ofChoice "Reinterpret" (.ofMembers [("address", .ofNat address), ("siz", size.toJson),
      ("width", .ofNat width), ("from", source.toJson), ("to", target.toJson),
      ("rect", rect.toJson)])
  | synchronize address size width =>
    .ofChoice "Synchronize" (.ofMembers [("address", .ofNat address), ("siz", size.toJson),
      ("width", .ofNat width)])

def ofJson? (j : Json) : Option Operation := do
  match ← j.choice? with
  | ("WriteChanges", some content) =>
    let r ← content.record? ["write_type", "change"]
    return upload (← r.required 0 WriteType.ofJson?) (← r.required 1 MemoryChange.ofJson?)
  | ("CreateTileCopy", some content) => return copyTile (← TileCopy.ofJson? content)
  | ("Reinterpret", some content) =>
    let r ← content.record? ["address", "siz", "width", "from", "to", "rect"]
    return reinterpret (← r.required 0 Json.word32?) (← r.required 1 PixelSize.ofJson?)
      (← r.required 2 Json.word32?) (← r.required 3 WriteType.ofJson?)
      (← r.required 4 WriteType.ofJson?) (← r.required 5 Rect.ofJson?)
  | ("Synchronize", some content) =>
    let r ← content.record? ["address", "siz", "width"]
    return synchronize (← r.required 0 Json.word32?) (← r.required 1 PixelSize.ofJson?)
      (← r.required 2 Json.word32?)
  | _ => none

end Operation

end Scanout
