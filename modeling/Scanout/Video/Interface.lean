import Scanout.Note
import Scanout.Video.Screen

/-!
# The video interface

The register file of the video interface. Registers keep only the bits that they have; writing the
current line acknowledges the interrupt and clears it. `VideoInterface.program` sets the registers
that `VideoInterface.snapshot` takes a screen from.
-/

namespace Scanout

/-- The registers, by their offset. -/
inductive VideoRegister where
  | status
  | origin
  | width
  | interrupt
  | current
  | burst
  | vSync
  | hSync
  | leap
  | hStart
  | vStart
  | vBurst
  | xScale
  | yScale
  deriving DecidableEq, Repr

namespace VideoRegister

def all : List VideoRegister :=
  [status, origin, width, interrupt, current, burst, vSync, hSync, leap, hStart, vStart, vBurst,
    xScale, yScale]

/-- The register at a byte offset; registers are words of four bytes. -/
def ofOffset? (offset : Nat) : Option VideoRegister :=
  if offset % 4 = 0 then all[offset / 4]? else none

/-- The byte offset of the register. -/
def offset (r : VideoRegister) : Nat := 4 * all.idxOf r

/-- The number of values that the register can hold. -/
def capacity : VideoRegister → Nat
  | origin => 0x1000000
  | width | hSync | xScale | yScale => 0x1000
  | interrupt | vSync => 0x400
  | current => 1
  | _ => 0x100000000

end VideoRegister

/-- The contents of all registers. -/
structure VideoInterface where
  contents : VideoRegister → Nat

namespace VideoInterface

/-- The registers after power-on: a line of 320 pixels at the timing of 525 lines. -/
def powerOn : VideoRegister → Nat
  | .status => 0
  | .origin => 0
  | .width => 320
  | .interrupt => 0x200
  | .current => 0
  | .burst => 0x03E52239
  | .vSync => 0x020D
  | .hSync => 0x0C15
  | .leap => 0x0C150C15
  | .hStart => 0x006C02EC
  | .vStart => 0x002501FF
  | .vBurst => 0x000E0204
  | .xScale => 0x0200
  | .yScale => 0x0400

def new : VideoInterface := ⟨powerOn⟩

instance : Inhabited VideoInterface := ⟨new⟩

/-- The register at an offset; there is nothing but zero elsewhere. -/
def read (v : VideoInterface) (offset : Nat) : Nat :=
  match VideoRegister.ofOffset? offset with
  | some r => v.contents r
  | none => 0

/-- Put a value into the register at an offset, cut to its bits. -/
def write (v : VideoInterface) (offset value : Nat) : VideoInterface :=
  match VideoRegister.ofOffset? offset with
  | some r => ⟨fun r' => if r' = r then value % r.capacity else v.contents r'⟩
  | none => v

/-- What a write is reported as: it is if it changes what is shown at once. -/
def writeNotes (offset value : Nat) : List Note :=
  match VideoRegister.ofOffset? offset with
  | some .status | some .origin => [.registerWritten offset value]
  | _ => []

/-- Write a register, and report it. -/
def writeTraced (v : VideoInterface) (offset value : Nat) : Traced VideoInterface :=
  ⟨writeNotes offset value, .ok (v.write offset value)⟩

/-- From this vertical period on the timing has 625 lines. -/
def longField : Nat := 0x270

/-- The fields a second that the vertical timing implies. -/
def fieldRate (v : VideoInterface) : Nat :=
  if longField ≤ v.contents .vSync then 50 else 60

/-- What is shown now. -/
def snapshot (v : VideoInterface) : Screen where
  status := v.contents .status
  origin := v.contents .origin
  width := v.contents .width
  hStart := v.contents .hStart
  vStart := v.contents .vStart
  xScale := v.contents .xScale
  yScale := v.contents .yScale

/-- The registers that a screen is made of, and what it puts into them. -/
def settings (s : Screen) : List (VideoRegister × Nat) :=
  [(.status, s.status), (.origin, s.origin), (.width, s.width), (.hStart, s.hStart),
    (.vStart, s.vStart), (.xScale, s.xScale), (.yScale, s.yScale)]

/-- Set the registers that a screen is made of. -/
def program (v : VideoInterface) (s : Screen) : Traced VideoInterface :=
  (settings s).foldlM (fun v (r, value) => v.writeTraced r.offset value) v

end VideoInterface

end Scanout
