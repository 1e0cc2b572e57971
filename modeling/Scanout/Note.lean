import Scanout.Error
import Scanout.Target.Key

/-!
# Notes

The events that the library reports while it works, each with the category and the level it is
reported under and its line of text. `Traced` is a computation that leaves notes behind; they stay
when the computation is abandoned.
-/

namespace Scanout

/-- How much is reported. -/
inductive Level where
  | off
  | error
  | warn
  | info
  | debug
  | trace
  deriving DecidableEq, Repr, Inhabited

namespace Level

def all : List Level := [off, error, warn, info, debug, trace]

def rank : Level → Nat
  | off => 0
  | error => 1
  | warn => 2
  | info => 3
  | debug => 4
  | trace => 5

def name : Level → String
  | off => "Off"
  | error => "Error"
  | warn => "Warn"
  | info => "Info"
  | debug => "Debug"
  | trace => "Trace"

end Level

/-- The part of the library that an event belongs to. -/
inductive Category where
  | workload
  | present
  | framebuffer
  | renderTarget
  | interpolation
  | gpu
  | stubs
  deriving DecidableEq, Repr, Inhabited

namespace Category

def all : List Category :=
  [workload, present, framebuffer, renderTarget, interpolation, gpu, stubs]

def name : Category → String
  | workload => "Workload"
  | present => "Present"
  | framebuffer => "Framebuffer"
  | renderTarget => "RenderTarget"
  | interpolation => "Interpolation"
  | gpu => "Gpu"
  | stubs => "Stubs"

end Category

/-- An event worth a line. -/
inductive Note where
  | registerWritten (offset value : Nat)
  | formatChanged (address : Nat) (size : PixelSize) (width : Nat) (newSize : PixelSize)
      (newWidth : Nat)
  | memoryChanged (address first last : Nat) (full : Bool)
  | framebufferAdded (address : Nat) (size : PixelSize) (width height : Nat)
  | framebuffersReset (count : Nat)
  | tileCopyTooSmall (address : Nat) (sampled covered : Rect)
  | unknownTile (tile : Nat)
  | workloadSynchronized (id uploads tileCopies reinterprets : Nat)
  | tileCopyWithoutSource (address : Nat)
  | ratesChanged (fromGame fromTarget game target : Nat)
  | topologyChanged (id subFrames : Nat)
  | subFramesPlanned (id count game target gap : Nat)
  | subFramesUnpresented (id count : Nat)
  | subFramesSkipped (id skipped count : Nat)
  | targetGrown (kind : TargetKind) (address width height newWidth newHeight : Nat)
  | targetCreated (kind : TargetKind) (address width height : Nat) (scale : Single)
      (scaledWidth scaledHeight samples : Nat)
  | targetConfigChanged (previous next : TargetConfig)
  | framebuffersInvalidated
  | drainTimedOut
  | deviceChosen (device : String) (api : GraphicsApi) (width height rate : Nat)
  | workerStarted (worker : Worker)
  | workerStopped (worker : Worker)
  | workerFaulted (worker : Worker)
  | workerLost (worker : Worker)
  | renderingFailed (cause : PipelineError)
  | presentFailed (id : Nat) (cause : PipelineError)
  | blankScreen (id : Nat)
  | nothingToPresent (address : Nat)
  | showFailed (cause : DeviceError)
  deriving DecidableEq, Repr

namespace Note

/-- A number in upper-case hexadecimal digits, at least `width` of them. -/
def hex (width n : Nat) : String :=
  let digits := (Nat.toDigits 16 n).map Char.toUpper
  String.ofList (List.replicate (width - digits.length) '0' ++ digits)

/-- An address, six digits long. -/
def addressText (address : Nat) : String := s!"0x{hex 6 address}"

def rectText (r : Rect) : String :=
  s!"FixedRect \x7b left: {r.left}, top: {r.top}, right: {r.right}, bottom: {r.bottom} \x7d"

def targetConfigText (c : TargetConfig) : String :=
  let scale := String.ofList (c.scale.text Decimal.diagnostic)
  "RenderTargetConfig \x7b " ++ s!"resolution_scale: {scale}, " ++
    s!"downsample_multiplier: {c.downsample}, samples: {c.samples}" ++ " \x7d"

def category : Note → Category
  | registerWritten .. => .present
  | formatChanged .. => .framebuffer
  | memoryChanged .. => .framebuffer
  | framebufferAdded .. => .framebuffer
  | framebuffersReset .. => .framebuffer
  | tileCopyTooSmall .. => .framebuffer
  | unknownTile .. => .framebuffer
  | workloadSynchronized .. => .framebuffer
  | tileCopyWithoutSource .. => .framebuffer
  | ratesChanged .. => .interpolation
  | topologyChanged .. => .interpolation
  | subFramesPlanned .. => .interpolation
  | subFramesUnpresented .. => .interpolation
  | subFramesSkipped .. => .interpolation
  | targetGrown .. => .renderTarget
  | targetCreated .. => .renderTarget
  | targetConfigChanged .. => .renderTarget
  | framebuffersInvalidated => .renderTarget
  | drainTimedOut => .renderTarget
  | deviceChosen .. => .gpu
  | workerStarted .render => .workload
  | workerStarted .present => .present
  | workerStopped .render => .workload
  | workerStopped .present => .present
  | workerFaulted .. => .gpu
  | workerLost .render => .workload
  | workerLost .present => .present
  | renderingFailed .. => .gpu
  | presentFailed .. => .present
  | blankScreen .. => .present
  | nothingToPresent .. => .present
  | showFailed .. => .present

def level : Note → Level
  | registerWritten .. => .trace
  | formatChanged .. => .debug
  | memoryChanged .. => .trace
  | framebufferAdded .. => .debug
  | framebuffersReset .. => .debug
  | tileCopyTooSmall .. => .trace
  | unknownTile .. => .debug
  | workloadSynchronized .. => .debug
  | tileCopyWithoutSource .. => .debug
  | ratesChanged .. => .debug
  | topologyChanged .. => .debug
  | subFramesPlanned .. => .trace
  | subFramesUnpresented .. => .trace
  | subFramesSkipped .. => .debug
  | targetGrown .. => .debug
  | targetCreated .. => .debug
  | targetConfigChanged .. => .info
  | framebuffersInvalidated => .info
  | drainTimedOut => .warn
  | deviceChosen .. => .info
  | workerStarted .. => .debug
  | workerStopped .. => .debug
  | workerFaulted .. => .error
  | workerLost .. => .error
  | renderingFailed .. => .error
  | presentFailed .. => .error
  | blankScreen .. => .trace
  | nothingToPresent .. => .debug
  | showFailed .. => .warn

def text : Note → String
  | registerWritten offset value => s!"VI: write to offset 0x{hex 2 offset} = 0x{hex 8 value}"
  | formatChanged address size width newSize newWidth =>
    s!"Framebuffer {addressText address} changed format {size.name}x{width} -> " ++
      s!"{newSize.name}x{newWidth}"
  | memoryChanged address first last full =>
    s!"Framebuffer {addressText address} RAM changed, rows {first}..{last}" ++
      (if full then " (full)" else "")
  | framebufferAdded address size width height =>
    s!"New framebuffer {addressText address} {size.name} {width}x{height}"
  | framebuffersReset count => s!"Resetting {count} framebuffers"
  | tileCopyTooSmall address sampled covered =>
    s!"Tile copy of {addressText address} too small: sampled {rectText sampled} outside " ++
      rectText covered
  | unknownTile tile => s!"Draw call samples unknown tile {tile}"
  | workloadSynchronized id uploads tileCopies reinterprets =>
    s!"Workload {id} synced: {uploads} uploads, {tileCopies} tile copies, " ++
      s!"{reinterprets} reinterprets"
  | tileCopyWithoutSource address => s!"Tile copy source {addressText address} has no target"
  | ratesChanged fromGame fromTarget game target =>
    s!"Rates changed {fromGame}Hz -> {fromTarget}Hz to {game}Hz -> {target}Hz, " ++
      "restarting ticks"
  | topologyChanged id subFrames =>
    s!"Workload {id} topology changed, presenting {subFrames} sub-frames as one"
  | subFramesPlanned id count game target gap =>
    s!"Workload {id}: {count} sub-frames at {game}Hz -> {target}Hz, gap {gap}"
  | subFramesUnpresented id count => s!"Workload {id}: {count} sub-frames never presented"
  | subFramesSkipped id skipped count =>
    s!"Workload {id}: producer blocked, skipped {skipped} of {count} sub-frames"
  | targetGrown kind address width height newWidth newHeight =>
    s!"Growing {kind.name} target {addressText address} {width}x{height} -> " ++
      s!"{newWidth}x{newHeight}"
  | targetCreated kind address width height scale scaledWidth scaledHeight samples =>
    let scale := String.ofList scale.fixed2
    s!"Created {kind.name} target {addressText address} {width}x{height} at {scale}x " ++
      s!"({scaledWidth}x{scaledHeight}, {samples} samples)"
  | targetConfigChanged previous next =>
    s!"Render target config {targetConfigText previous} -> {targetConfigText next}, " ++
      "recreating targets"
  | framebuffersInvalidated => "Render target configuration changed, resetting framebuffers"
  | drainTimedOut => "Timed out waiting for interpolated frames to present"
  | deviceChosen device api width height rate =>
    s!"Using {device} ({api.name}), window {width}x{height} at {rate}Hz"
  | workerStarted worker => s!"{worker.name} thread started"
  | workerStopped worker => s!"{worker.name} thread stopped"
  | workerFaulted worker => s!"{worker.name} thread panicked, stopping the pipeline"
  | workerLost worker => s!"{worker.name} thread panicked"
  | renderingFailed cause => s!"Rendering failed: {cause.message}"
  | presentFailed id cause => s!"Present {id} failed: {cause.message}"
  | blankScreen id => s!"Present {id} has a blank screen"
  | nothingToPresent address => s!"Nothing to present for VI framebuffer {addressText address}"
  | showFailed cause => s!"Swap chain present failed: {cause.message}"

/-- The whole line. -/
def line (n : Note) : String := s!"[{n.category.name}] {n.text}"

end Note

/-- A computation that leaves notes and may be abandoned. -/
structure Traced (α : Type) where
  notes : List Note
  outcome : Except Fault α

namespace Traced

def note (n : Note) : Traced Unit := ⟨[n], .ok ()⟩

def noteWhen (condition : Bool) (n : Note) : Traced Unit :=
  if condition then note n else ⟨[], .ok ()⟩

def bind {α β : Type} (x : Traced α) (f : α → Traced β) : Traced β :=
  match x.outcome with
  | .ok a =>
    let y := f a
    ⟨x.notes ++ y.notes, y.outcome⟩
  | .error e => ⟨x.notes, .error e⟩

instance : Monad Traced where
  pure a := ⟨[], .ok a⟩
  bind := bind

instance : MonadLift (Except Fault) Traced where
  monadLift x := ⟨[], x⟩

end Traced

end Scanout
