import Scanout.Pixel

/-!
# Render targets: keys

A render target is found under a key and a slot. The key tells which image in memory it stands for
and in which encoding; the slot tells the final image from the intermediate ones.
-/

namespace Scanout

/-- How an image was last written by the device. -/
inductive WriteType where
  | color
  | depth
  deriving DecidableEq, Repr, Inhabited

namespace WriteType

def name : WriteType → String
  | color => "Color"
  | depth => "Depth"

def toJson (type : WriteType) : Json := .ofString type.name

def ofJson? (j : Json) : Option WriteType :=
  j.alternative? ([color, depth].map fun type => (type.name, type))

end WriteType

/-- What a render target is for. -/
inductive TargetKind where
  | color
  | depth
  /-- a copied region, sampled as a texture -/
  | tileCopy
  /-- the scratch image that is put together for presenting -/
  | present
  deriving DecidableEq, Repr, Inhabited

namespace TargetKind

def name : TargetKind → String
  | color => "Color"
  | depth => "Depth"
  | tileCopy => "TileCopy"
  | present => "Present"

/-- The kind of target that a write goes to. -/
def ofWrite : WriteType → TargetKind
  | .color => color
  | .depth => depth

/-- The targets that draws write to. -/
def isDrawn : TargetKind → Bool
  | color | depth => true
  | _ => false

end TargetKind

/-- The key of a render target; `modifier` tells apart several targets of one address. -/
structure TargetKey where
  address : Nat
  width : Nat
  size : PixelSize
  kind : TargetKind
  modifier : Nat
  deriving DecidableEq, Repr, Inhabited

/-- The key of an image written in the given way. -/
def TargetKey.ofImage (address width : Nat) (size : PixelSize) (type : WriteType) : TargetKey :=
  ⟨address, width, size, .ofWrite type, 0⟩

/-- The key of the scratch image for presenting. -/
def TargetKey.scratch : TargetKey := ⟨0, 0, .bits32, .present, 0⟩

/-- The final image of a workload, or one of those shown before it. -/
inductive Slot where
  | main
  | intermediate (index : Nat)
  deriving DecidableEq, Repr, Inhabited

/-- The settings that all render targets share. -/
structure TargetConfig where
  scale : Single
  downsample : Nat
  samples : Nat
  deriving DecidableEq, Repr

namespace TargetConfig

instance : Inhabited TargetConfig := ⟨⟨1, 1, 1⟩⟩

/-- Equality of settings; the scales are compared as numbers. -/
def beq (a b : TargetConfig) : Bool :=
  a.scale.beq b.scale && a.downsample = b.downsample && a.samples = b.samples

end TargetConfig

end Scanout
