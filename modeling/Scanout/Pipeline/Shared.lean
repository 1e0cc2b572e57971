import Scanout.Config
import Scanout.Interpolation.Ticks
import Scanout.Pipeline.Signal
import Scanout.Target.Manager

/-!
# What the parties share

The producer, the render worker and the present worker share the settings, the render targets, the
progress of the workload being rendered, two signals that tell which workloads and presents are
done, and counters. A failure stops all of them; the first one is kept for the producer.
-/

namespace Scanout

/-- The progress of the workload being rendered. -/
structure Production where
  workloadId : Nat
  planned : Nat
  /-- the slots of the images rendered, in the order in which they are shown -/
  produced : List Slot
  complete : Bool
  /-- images were left out -/
  skipped : Bool
  /-- intermediate images that were rendered but not shown -/
  inFlight : Nat
  rates : Rates
  deriving DecidableEq, Repr, Inhabited

namespace Production

def new : Production := ⟨0, 0, [], false, false, 0, ⟨0, 0⟩⟩

/-- A new workload is about to be rendered. -/
def start (workloadId planned : Nat) (rates : Rates) : Production :=
  { new with workloadId, planned, rates }

def produce (p : Production) (slot : Slot) : Production :=
  { p with produced := p.produced ++ [slot] }

def finish (p : Production) (skipped : Bool) : Production :=
  { p with complete := true, skipped }

/-- The slot of an image of a workload: `some none` if it will not come, `none` if it may. -/
def image (p : Production) (running : Bool) (workloadId index : Nat) : Option (Option Slot) :=
  if p.workloadId ≠ workloadId ∨ !running then some none
  else match p.produced[index]? with
    | some slot => some (some slot)
    | none => if p.complete then some none else none

/-- Whether a workload was rendered completely, `none` as long as it is being rendered. -/
def completion (p : Production) (running : Bool) (workloadId : Nat) : Option Bool :=
  if p.workloadId = workloadId ∧ !p.complete ∧ running then none
  else some (p.workloadId = workloadId && p.complete)

/-- All images are shown, or nobody will show them. -/
def drained (p : Production) (running : Bool) : Bool := p.inFlight = 0 || !running

end Production

/-- What became of a workload. -/
structure FrameRecord where
  workloadId : Nat
  subFrames : List SubFrame
  skipped : Bool
  matched : Bool
  deriving DecidableEq, Repr, Inhabited

namespace FrameRecord

def fieldNames : List String := ["workload_id", "sub_frames", "skipped", "matched"]

def toJson (f : FrameRecord) : Json :=
  .ofMembers (fieldNames.zip
    [.ofNat f.workloadId, .array (f.subFrames.map SubFrame.toJson), .bool f.skipped,
      .bool f.matched])

def ofJson? (j : Json) : Option FrameRecord := do
  let r ← j.record? fieldNames
  return {
    workloadId := ← r.required 0 Json.word64?
    subFrames := ← r.required 1 (Json.list? SubFrame.ofJson?)
    skipped := ← r.required 2 Json.bool?
    matched := ← r.required 3 Json.bool? }

end FrameRecord

/-- Counters of the work done. They start over after the greatest word. -/
structure Stats where
  workloadsRendered : Nat
  subFramesRendered : Nat
  subFramesSkipped : Nat
  presentsProcessed : Nat
  framesPresented : Nat
  presentsSkipped : Nat
  uploads : Nat
  /-- the workloads rendered, the latest first -/
  frames : List FrameRecord
  deriving DecidableEq, Repr, Inhabited

namespace Stats

def zero : Stats := ⟨0, 0, 0, 0, 0, 0, 0, []⟩

/-- A counter after `n` more events. -/
def count (counter n : Nat) : Nat := (counter + n) % 0x10000000000000000

/-- The records that are kept for reports. -/
def recordsKept : Nat := 4096

/-- The latest records, in the order in which they were made. -/
def frameLog (s : Stats) : List FrameRecord := (s.frames.take recordsKept).reverse

def addFrame (s : Stats) (f : FrameRecord) : Stats := { s with frames := f :: s.frames }

end Stats

/-- A region of a texture, as shown on the screen. -/
structure Shown where
  texture : TextureId
  rect : Rect
  deriving DecidableEq, Repr, Inhabited

/-- What the parties share. -/
structure Shared where
  config : Config
  window : Nat × Nat
  /-- the number of changes of the settings -/
  revision : Nat
  renderer : Renderer
  /-- the addresses shown last, the newest last -/
  history : List Nat
  lastShown : Option Shown
  production : Production
  workloadSignal : Signal
  presentSignal : Signal
  displayRate : Nat
  idleActive : Bool
  stats : Stats
  running : Bool
  error : Option PipelineError
  notes : List Note
  deriving Inhabited

namespace Shared

def new (config : Config) (window : Nat × Nat) (renderer : Renderer) (displayRate : Nat) :
    Shared where
  config := config
  window := window
  revision := 0
  renderer := renderer
  history := []
  lastShown := none
  production := .new
  workloadSignal := .new
  presentSignal := .new
  displayRate := displayRate
  idleActive := config.idleWork
  stats := .zero
  running := true
  error := none
  notes := []

def note (s : Shared) (n : Note) : Shared := { s with notes := n :: s.notes }

def noteWhen (s : Shared) (condition : Bool) (n : Note) : Shared :=
  if condition then s.note n else s

/-- The addresses that are remembered as shown. -/
def historySize : Nat := 4

/-- The history after an address was shown; an address shown again in a row counts once. -/
def extendHistory (history : List Nat) (address : Nat) : List Nat :=
  if history.getLast? = some address then history
  else if history.length = historySize then history.tail ++ [address]
  else history ++ [address]

def pushHistory (s : Shared) (address : Nat) : Shared :=
  { s with history := extendHistory s.history address }

/-- Change the settings. -/
def update (s : Shared) (config : Config) (window : Nat × Nat) : Shared :=
  { s with config, window, revision := s.revision + 1, idleActive := config.idleWork }

/-- The settings of render targets that follow from the settings. -/
def targetConfig (s : Shared) : TargetConfig := s.config.targetConfig s.window.2

def modifyProduction (s : Shared) (f : Production → Production) : Shared :=
  { s with production := f s.production }

/-- Stop all parties. -/
def shutdown (s : Shared) : Shared :=
  { s with
    running := false
    idleActive := false
    workloadSignal := s.workloadSignal.stop
    presentSignal := s.presentSignal.stop }

/-- Stop all parties on account of an error, and keep the first error. -/
def fail (s : Shared) (e : PipelineError) : Shared :=
  { s with error := s.error.or (some e) }.shutdown

/-- Hand out the error that was kept. -/
def takeError (s : Shared) : Option PipelineError × Shared := (s.error, { s with error := none })

/-- A worker was lost on account of a fault. -/
def losing (s : Shared) (worker : Worker) : Shared :=
  (s.note (.workerFaulted worker)).fail (.workerFaulted worker)

/-- Work on the render targets. -/
def render {α : Type} (s : Shared) (x : Rendering α) : Except Stop α × Shared :=
  match x s.renderer with
  | .ok a renderer => (.ok a, { s with renderer })
  | .error e renderer => (.error e, { s with renderer })

end Shared

end Scanout
