import Scanout.Trial.Options
import Scanout.Video.Interface
import Scanout.Workload.Basic

/-!
# Trial runs: the game

The game of a trial run draws an object that moves to the right under an overlay that stays, and now
and then writes into the memory of the image that it draws to.
-/

namespace Scanout.Trial

/-- The bytes of memory. -/
def memorySize : Nat := 0x800000

/-- Where the image that the game draws to begins. -/
def imageAddress : Nat := 0x100000

/-- The memory at the start. -/
def blankMemory : ByteArray := ⟨Array.replicate memorySize 0⟩

/-- The frames after which the object starts over. -/
def lap : Nat := 64

/-- How far the object has moved. -/
def distance (frame : Nat) : Single := Single.ofNat (frame % lap) * 2

/-- The part of the screen that the overlay covers. -/
def overlayRect : Rect := ⟨8, 8, 72, 24⟩

/-- Draw a frame on top of what a workload holds. -/
def drawFrame (o : Options) (frame : Nat) (w : Workload) : Workload :=
  let x := distance frame
  let w := w.setColorImage imageAddress .bits16 o.width
  let w := w.addProjection .perspective Matrix.identity
  let object : Draw := {
    transform := w.transforms.length
    vertexCount := 36
    tile := none
    scissor := ⟨0, 0, wrapSigned32 o.width, wrapSigned32 o.height⟩
    scroll := ⟨x * Single.half, 0⟩
    writesDepth := false }
  let w := (w.addTransform 1 (Matrix.shift x 0 0)).addDraw object
  let w := w.addProjection .rectangle Matrix.identity
  let overlay : Draw := {
    transform := w.transforms.length
    vertexCount := 6
    tile := none
    scissor := overlayRect
    scroll := .zero
    writesDepth := false }
  (w.addTransform 2 Matrix.identity).addDraw overlay

/-- The game writes to memory once in so many frames. -/
def touchInterval : Nat := 8

/-- The place in memory that the game writes to before a frame. -/
def touchedPlace? (o : Options) (frame : Nat) : Except Fault (Option Nat) := do
  if frame % touchInterval + 1 < touchInterval then return none
  if o.height = 0 then throw .zeroDivisor
  let row := frame / touchInterval % o.height
  return some (imageAddress + (← word32 ((← word32 (row * o.width)) * 2)))

/-- Count up a byte. -/
def bump (ram : ByteArray) (place : Nat) : ByteArray :=
  if h : place < ram.size then ram.set place (ram[place] + 1) h else ram

/-- Write to memory before a frame. -/
def touch (o : Options) (frame : Nat) (ram : ByteArray) : Except Fault ByteArray := do
  return match ← touchedPlace? o frame with
    | some place => bump ram place
    | none => ram

/-- The screen that the game sets up once. -/
def setUpScreen (o : Options) : Traced Screen := do
  let s ← Screen.simple imageAddress o.width o.height .bits16
  let v ← VideoInterface.new.program s
  return v.snapshot

end Scanout.Trial
