import Scanout.Error

/-!
# The recording device

A graphics device that keeps the textures it was asked for and the command lists it was given,
instead of drawing. It refuses a command list that names a texture which is not live, and it can be
told to run out of memory.
-/

namespace Scanout

/-- What a device can do. -/
structure DeviceLimits where
  maxTextureSize : Nat
  maxSamples : Nat
  raytracing : Bool
  deriving DecidableEq, Repr

instance : Inhabited DeviceLimits := ⟨⟨16384, 8, false⟩⟩

/-- A device that records. -/
structure Device where
  limits : DeviceLimits
  /-- the number that the next texture is created under -/
  nextTexture : TextureId
  /-- the creations of textures left before the memory is used up; none if it never is -/
  budget : Option Nat
  textures : List (TextureId × TextureShape)
  destroyed : Nat
  /-- the command lists submitted, the latest first -/
  submitted : List (List Command)
  deriving Inhabited

namespace Device

def name : String := "Recording Device"

def new (limits : DeviceLimits) : Device where
  limits := limits
  nextTexture := 1
  budget := none
  textures := []
  destroyed := 0
  submitted := []

/-- The texture exists. -/
def isLive (d : Device) (t : TextureId) : Bool := d.textures.any (·.1 = t)

def live (d : Device) : List TextureId := d.textures.map (·.1)

def shape? (d : Device) (t : TextureId) : Option TextureShape := d.textures.lookup t

/-- Let the memory be used up after `count` more textures; the greatest word stands for never. -/
def failAfter (d : Device) (count : Nat) : Device :=
  { d with budget := if count = 0xFFFFFFFFFFFFFFFF then none else some count }

/-- A texture of this shape is too large for the device. -/
def isTooLarge (d : Device) (shape : TextureShape) : Bool :=
  d.limits.maxTextureSize < shape.width || d.limits.maxTextureSize < shape.height

/-- Create a texture. A refusal on account of size uses up memory as well. -/
def create (d : Device) (shape : TextureShape) : Except DeviceError TextureId × Device :=
  let refusal := .error (.outOfMemory shape.width shape.height)
  if d.budget = some 0 then (refusal, d)
  else
    let d := { d with budget := d.budget.map (· - 1) }
    if d.isTooLarge shape then (refusal, d)
    else
      (.ok d.nextTexture,
        { d with
          nextTexture := d.nextTexture + 1, textures := d.textures ++ [(d.nextTexture, shape)] })

/-- Destroy a texture, if it exists. -/
def destroy (d : Device) (t : TextureId) : Device :=
  if d.isLive t then
    { d with textures := d.textures.filter (·.1 ≠ t), destroyed := d.destroyed + 1 }
  else d

/-- The textures that a command is checked for, in this order. -/
def checkedTextures : Command → List TextureId
  | .upload target .. => [target]
  | .copy source destination .. => [source, destination]
  | .barrier texture => [texture]
  | .draw d => d.color :: d.depth.toList

/-- The first texture that the commands need and that does not exist. -/
def missing? (d : Device) (commands : List Command) : Option TextureId :=
  (commands.flatMap checkedTextures).find? fun t => !d.isLive t

/-- Take a command list. -/
def submit (d : Device) (commands : List Command) : Except DeviceError Device :=
  match d.missing? commands with
  | some t => .error (.unknownTexture t)
  | none => .ok { d with submitted := commands :: d.submitted }

/-- Forget the command lists. -/
def clear (d : Device) : Device := { d with submitted := [] }

end Device

end Scanout
