import Scanout.Gpu.Device
import Scanout.Note

/-!
# Render targets: the manager

The manager owns every texture that the pipeline renders into. Targets grow but never shrink: a
request for a larger size replaces the texture, and all targets are replaced when the settings
change. `Rendering` is a computation on the manager and its device; whatever it has done stays done
when it fails.
-/

namespace Scanout

/-- A texture that is rendered into. -/
structure Target where
  key : TargetKey
  slot : Slot
  texture : TextureId
  /-- the size in pixels of the image -/
  width : Nat
  height : Nat
  /-- the size in pixels of the texture -/
  scaledWidth : Nat
  scaledHeight : Nat
  scale : Single
  downsample : Nat
  /-- the part of a column added because the width does not scale to a whole number -/
  misalignX : Single
  samples : Nat
  deriving DecidableEq, Repr, Inhabited

/-- The target holds an image of this size. -/
def Target.covers (t : Target) (width height : Nat) : Bool :=
  width ≤ t.width && height ≤ t.height

/-- Why rendering had to stop. -/
inductive Stop where
  | refused (cause : DeviceError)
  | fault (f : Fault)
  deriving DecidableEq, Repr, Inhabited

/-- The render targets and the device that holds their textures. -/
structure Renderer where
  device : Device
  config : TargetConfig
  targets : List Target
  /-- how each image was last written -/
  writtenAs : List (Nat × WriteType)
  /-- the command list in hand -/
  commands : List Command
  notes : List Note
  deriving Inhabited

/-- A computation on the render targets and the device. -/
abbrev Rendering := EStateM Stop Renderer

namespace Rendering

def note (n : Note) : Rendering Unit := modify fun r => { r with notes := r.notes ++ [n] }

/-- Add a command to the list in hand. -/
def emit (c : Command) : Rendering Unit := modify fun r => { r with commands := r.commands ++ [c] }

/-- The image at an address was written. -/
def markWritten (address : Nat) (type : WriteType) : Rendering Unit :=
  modify fun r => { r with writtenAs := (address, type) :: r.writtenAs.filter (·.1 ≠ address) }

/-- Start a new command list. -/
def begin : Rendering Unit := modify fun r => { r with commands := [] }

/-- Hand the command list to the device. -/
def submit : Rendering Unit := do
  let r ← get
  match r.device.submit r.commands with
  | .ok device => set { r with device }
  | .error cause => throw (.refused cause)

/-- A result that may be a fault. -/
def ofFault {α : Type} (x : Except Fault α) : Rendering α :=
  match x with
  | .ok a => pure a
  | .error f => throw (.fault f)

instance : MonadLift (Except Fault) Rendering := ⟨ofFault⟩

end Rendering

namespace Renderer

def new (device : Device) (config : TargetConfig) : Renderer := ⟨device, config, [], [], [], []⟩

/-- The scale of a target of the given size: the one asked for, unless the device is too small. -/
def scaleFor (r : Renderer) (width height : Nat) : Single :=
  let greatest := Single.ofNat r.device.limits.maxTextureSize
  let extent := Single.ofNat (max (max width height) 1)
  (r.config.scale * Single.ofNat (max r.config.downsample 1)).min (greatest / extent)

/-- The target under a key in a slot. -/
def find? (r : Renderer) (key : TargetKey) (slot : Slot) : Option Target :=
  r.targets.find? fun t => t.key = key && t.slot = slot

/-- The target of an image of the given kind, or failing that any drawn target at the address. -/
def findByAddress? (r : Renderer) (address : Nat) (kind : TargetKind) (slot : Slot) :
    Option Target :=
  let here := r.targets.filter fun t => t.key.address = address && t.slot = slot
  (here.find? (·.key.kind = kind)).or (here.reverse.find? (·.key.kind.isDrawn))

/-- Keep a target as the latest. -/
def insert (r : Renderer) (t : Target) : Renderer := { r with targets := r.targets ++ [t] }

/-- Give up the target under a key in a slot, and its texture. -/
def remove (r : Renderer) (t : Target) : Renderer :=
  { r with
    targets := r.targets.filter fun t' => t'.key ≠ t.key || t'.slot ≠ t.slot
    device := r.device.destroy t.texture }

/-- Give up all targets. -/
def destroyAll (r : Renderer) : Renderer :=
  { r with
    targets := []
    device := r.targets.foldl (fun d t => d.destroy t.texture) r.device }

/-- Use other settings. All targets are given up unless the settings are the same. -/
def setConfig (r : Renderer) (config : TargetConfig) : Bool × Renderer :=
  if config.beq r.config then (false, r)
  else
    (true, { r.destroyAll with
      config, notes := r.notes ++ [.targetConfigChanged r.config config] })

end Renderer

namespace Target

/-- The samples for each pixel; only drawn targets have more than one. -/
def samplesFor (config : TargetConfig) (kind : TargetKind) : Nat :=
  if kind.isDrawn then max config.samples 1 else 1

def formatFor : TargetKind → TextureFormat
  | .depth => .depth32
  | _ => .rgba8

/-- A texture for a target of the given size. -/
def create (key : TargetKey) (slot : Slot) (width height : Nat) : Rendering Target := do
  let r ← get
  let scale := r.scaleFor width height
  let greatest := r.device.limits.maxTextureSize
  let exactWidth := Single.ofNat width * scale
  let scaledWidth := min exactWidth.ceil.toWord32 greatest
  let scaledHeight := min (Single.ofNat height * scale).ceil.toWord32 greatest
  let samples := samplesFor r.config key.kind
  let (texture?, device) := r.device.create ⟨scaledWidth, scaledHeight, formatFor key.kind, samples⟩
  set { r with device }
  match texture? with
  | .error cause => throw (.refused cause)
  | .ok texture =>
    Rendering.note
      (.targetCreated key.kind key.address width height scale scaledWidth scaledHeight samples)
    return {
      key, slot, texture, width, height, scaledWidth, scaledHeight, scale
      downsample := r.config.downsample
      misalignX := (Single.ofNat scaledWidth - exactWidth).max 0
      samples }

/-- The target under a key in a slot, created or enlarged so that it holds an image of the given
size. -/
def request (key : TargetKey) (slot : Slot) (width height : Nat) : Rendering Target := do
  match (← get).find? key slot with
  | some old =>
    if old.covers width height then return old
    let width := max old.width width
    let height := max old.height height
    Rendering.note (.targetGrown key.kind key.address old.width old.height width height)
    modify fun r => r.remove old
    let new ← create key slot width height
    modify fun r => r.insert new
    return new
  | none =>
    let new ← create key slot (max width 1) (max height 1)
    modify fun r => r.insert new
    return new

end Target

end Scanout
