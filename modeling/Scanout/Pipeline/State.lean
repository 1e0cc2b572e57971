import Scanout.Interpolation.Matcher
import Scanout.Pipeline.Shared
import Scanout.Ring
import Scanout.Video.Screen

/-!
# The pipeline: state

The pipeline has three parties. The producer submits workloads and presents through two rings; the
render worker renders the images of each workload; the present worker shows them. The state of the
pipeline is what the parties share, the two rings, and for each party where it stands. A phase of a
worker is a point between two steps; each step is short enough to be taken as a whole.
-/

namespace Scanout

/-- A request to show a screen. -/
structure Present where
  id : Nat
  screen : Screen
  /-- the workload that must be rendered before -/
  workloadId : Nat
  /-- uploads for the image shown -/
  operations : List Operation
  /-- the bytes of the image shown, if it was never rendered -/
  storage : ByteArray
  /-- show the last image again -/
  again : Bool
  deriving DecidableEq

namespace Present

def empty : Present := ⟨0, .blank, 0, [], ByteArray.empty, false⟩

instance : Inhabited Present := ⟨empty⟩

/-- Show the last image again. -/
def repeating (id workloadId : Nat) : Present := { empty with id, workloadId, again := true }

end Present

/-- The window that images are shown in. -/
structure SwapChain where
  valid : Bool
  refreshRate : Nat
  size : Nat × Nat
  /-- showing an image fails -/
  lost : Bool
  /-- the images shown, the latest first -/
  shown : List Shown
  deriving DecidableEq, Repr, Inhabited

namespace SwapChain

def new (refreshRate : Nat) (size : Nat × Nat) : SwapChain := ⟨true, refreshRate, size, false, []⟩

/-- Show an image. -/
def present (s : SwapChain) (image : Shown) : Except DeviceError SwapChain :=
  if s.lost then .error .deviceLost else .ok { s with shown := image :: s.shown }

end SwapChain

/-- The rendering of a workload. -/
structure RenderJob where
  /-- the slot of the ring that holds the workload -/
  place : Nat
  plan : FramePlan
  /-- the last image rendered -/
  last : Option Nat
  rendered : List SubFrame
  skipped : Nat
  deriving DecidableEq, Repr, Inhabited

/-- Where the render worker stands. -/
inductive RenderPhase where
  | claim
  /-- wait for the present that the workload depends on -/
  | await (place : Nat)
  /-- give up images that nobody will show -/
  | abandon (place : Nat)
  | configure (place : Nat)
  | plan (place : Nat)
  | draw (job : RenderJob)
  /-- make the image known that was rendered last -/
  | publish (job : RenderJob) (index : Nat)
  /-- tell that the first image is rendered -/
  | announce (job : RenderJob)
  | conclude (job : RenderJob)
  | finish (place : Nat) (paused : Bool)
  | release (place : Nat) (paused : Bool)
  | leave
  | stopped
  | lost
  deriving DecidableEq, Repr, Inhabited

/-- The showing of a screen. -/
structure PresentJob where
  /-- the slot of the ring that held the present -/
  place : Nat
  present : Present
  /-- the window can be presented to -/
  valid : Bool
  /-- this is the first screen of its workload -/
  first : Bool
  /-- the images to show -/
  total : Nat
  /-- the image in hand -/
  index : Nat
  deriving DecidableEq, Inhabited

/-- Where the present worker stands. -/
inductive PresentPhase where
  | claim
  /-- wait for the workload that the present depends on -/
  | await (place : Nat) (present : Present)
  /-- look at the window -/
  | enter (place : Nat) (present : Present)
  | showAgain (job : PresentJob)
  | upload (job : PresentJob)
  | inspect (job : PresentJob)
  /-- wait for the image in hand -/
  | select (job : PresentJob)
  | compose (job : PresentJob) (slot : Slot)
  | settle (job : PresentJob) (slot : Slot) (image : Option Shown)
  | show (job : PresentJob) (image : Option Shown)
  | conclude (place : Nat) (id : Nat)
  | finish (place : Nat)
  | release (place : Nat)
  | leave
  | stopped
  | lost
  deriving DecidableEq, Inhabited

/-- What the producer waits for. -/
inductive Pending where
  | workload (id : Nat)
  | present (id : Nat)
  deriving DecidableEq, Repr, Inhabited

/-- The producer's own state. -/
structure Producer where
  table : FramebufferTable
  nextWorkloadId : Nat
  nextPresentId : Nat
  lastWorkloadId : Nat
  lastPresentId : Nat
  paused : Bool
  pending : Option Pending
  deriving Inhabited

def Producer.new : Producer := ⟨.empty, 1, 1, 0, 0, false, none⟩

/-- The state of the pipeline. -/
structure Pipeline where
  shared : Shared
  workloads : Ring Workload
  presents : Ring Present
  swapChain : SwapChain
  producer : Producer
  matcher : Matcher
  /-- the changes of the settings that the render worker has taken over -/
  revision : Nat
  render : RenderPhase
  /-- the workload of the last visible screen -/
  shownWorkloadId : Nat
  present : PresentPhase
  deriving Inhabited

namespace Pipeline

def modifyShared (p : Pipeline) (f : Shared → Shared) : Pipeline := { p with shared := f p.shared }

def note (p : Pipeline) (n : Note) : Pipeline := p.modifyShared (·.note n)

/-- Leave notes and go on, or be abandoned. -/
def traced {α : Type} (p : Pipeline) (x : Traced α) : Except Fault α × Pipeline :=
  (x.outcome, p.modifyShared fun s => { s with notes := x.notes.reverse ++ s.notes })

/-- Hand out the notes left so far, those of the parties before those of the render targets. -/
def takeNotes (p : Pipeline) : List Note × Pipeline :=
  let s := p.shared
  (s.notes.reverse ++ s.renderer.notes,
    { p with shared := { s with notes := [], renderer := { s.renderer with notes := [] } } })

/-- Another count of work done. -/
def modifyStats (p : Pipeline) (f : Stats → Stats) : Pipeline :=
  p.modifyShared fun s => { s with stats := f s.stats }

end Pipeline

end Scanout
