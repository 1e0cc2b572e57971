import Scanout.Error
import Scanout.Json.Parser
import Scanout.Target.Key

/-!
# Configuration

The settings of the user, kept as a data text. Each member of the text has a default of its own, so
that any of them may be left out, and `Config.validate` tells the first setting out of range.
-/

namespace Scanout

/-- How the resolution of render targets is chosen. -/
inductive ResolutionMode where
  | native
  /-- the largest whole multiple that fits the window -/
  | windowIntegerScale
  | manual
  deriving DecidableEq, Repr

namespace ResolutionMode

/-- The mode if none is chosen. -/
def default : ResolutionMode := windowIntegerScale

instance : Inhabited ResolutionMode := ⟨default⟩

def all : List ResolutionMode := [native, windowIntegerScale, manual]

def name : ResolutionMode → String
  | native => "Original"
  | windowIntegerScale => "WindowIntegerScale"
  | manual => "Manual"

def toJson (mode : ResolutionMode) : Json := .ofString mode.name

def ofJson? (j : Json) : Option ResolutionMode :=
  j.alternative? (all.map fun mode => (mode.name, mode))

end ResolutionMode

/-- The rate at which images are presented. -/
inductive RefreshRateMode where
  /-- the rate of the game -/
  | game
  /-- the rate of the display -/
  | display
  | manual
  deriving DecidableEq, Repr

namespace RefreshRateMode

/-- The mode if none is chosen. -/
def default : RefreshRateMode := game

instance : Inhabited RefreshRateMode := ⟨default⟩

def all : List RefreshRateMode := [game, display, manual]

def name : RefreshRateMode → String
  | game => "Original"
  | display => "Display"
  | manual => "Manual"

def toJson (mode : RefreshRateMode) : Json := .ofString mode.name

def ofJson? (j : Json) : Option RefreshRateMode :=
  j.alternative? (all.map fun mode => (mode.name, mode))

end RefreshRateMode

/-- The settings of the user. -/
structure Config where
  graphicsApi : Option GraphicsApi
  resolution : ResolutionMode
  resolutionMultiplier : Single
  downsampleMultiplier : Nat
  msaaSamples : Nat
  refreshRate : RefreshRateMode
  refreshRateTarget : Nat
  frameInterpolation : Bool
  idleWork : Bool
  skipBuffering : Bool
  workloadRingSize : Nat
  presentRingSize : Nat
  deriving DecidableEq, Repr

namespace Config

/-- The multiplier of the resolution if a text has none. -/
def defaultMultiplier : Single := 2

/-- The factor of downsampling, or the samples for each pixel, if a text has none. -/
def defaultOne : Nat := 1

/-- The rate to present at if a text has none. -/
def defaultRefreshTarget : Nat := 60

/-- A switch if a text does not have it. -/
def defaultOn : Bool := true

/-- The size of a ring if a text has none. -/
def defaultRingSize : Nat := 4

/-- The settings of a user who has set nothing. -/
def default : Config where
  graphicsApi := none
  resolution := .default
  resolutionMultiplier := defaultMultiplier
  downsampleMultiplier := 1
  msaaSamples := 1
  refreshRate := .default
  refreshRateTarget := defaultRefreshTarget
  frameInterpolation := true
  idleWork := true
  skipBuffering := true
  workloadRingSize := defaultRingSize
  presentRingSize := defaultRingSize

instance : Inhabited Config := ⟨default⟩

/-- The first setting that is out of range. A paused workload keeps its place in the ring, so that
ring needs one place more. -/
def invalid? (c : Config) : Option InvalidSetting :=
  if c.msaaSamples ∉ [1, 2, 4, 8] then some (.sampleCount c.msaaSamples)
  else if !((0 : Single).lt c.resolutionMultiplier && c.resolutionMultiplier.le 16) then
    some (.resolutionMultiplier c.resolutionMultiplier)
  else if ¬ (1 ≤ c.downsampleMultiplier ∧ c.downsampleMultiplier ≤ 4) then
    some (.downsampleMultiplier c.downsampleMultiplier)
  else if c.refreshRate = .manual ∧ ¬ (1 ≤ c.refreshRateTarget ∧ c.refreshRateTarget ≤ 1000) then
    some (.refreshRateTarget c.refreshRateTarget)
  else if c.workloadRingSize < 3 then some (.workloadRingSize c.workloadRingSize)
  else if c.presentRingSize < 2 then some (.presentRingSize c.presentRingSize)
  else none

/-- All settings are in range. -/
def validate (c : Config) : Except PipelineError Unit :=
  match c.invalid? with
  | some setting => .error (.invalidConfiguration setting)
  | none => .ok ()

/-- All settings are in range for a device with so many samples for each pixel. -/
def validateFor (c : Config) (maxSamples : Nat) : Except PipelineError Unit := do
  c.validate
  if maxSamples < c.msaaSamples then
    throw (.invalidConfiguration (.tooManySamples c.msaaSamples maxSamples))

/-- The graphics interface to use. -/
def api (c : Config) : GraphicsApi := c.graphicsApi.getD .preferred

/-- The rate to present at, for a game and a display with these rates. -/
def targetRate (c : Config) (game display : Nat) : Nat :=
  match c.refreshRate with
  | .game => game
  | .display => if 0 < display then display else game
  | .manual => c.refreshRateTarget

/-- The lines of a frame without scaling. -/
def nativeHeight : Nat := 240

/-- The scale of render targets in a window of this height. -/
def resolutionScale (c : Config) (windowHeight : Nat) : Single :=
  match c.resolution with
  | .native => 1
  | .windowIntegerScale => Single.ofNat (max (windowHeight / nativeHeight) 1)
  | .manual => c.resolutionMultiplier

/-- The settings of render targets in a window of this height. -/
def targetConfig (c : Config) (windowHeight : Nat) : TargetConfig :=
  ⟨c.resolutionScale windowHeight, c.downsampleMultiplier, c.msaaSamples⟩

def fieldNames : List String :=
  ["graphics_api", "resolution", "resolution_multiplier", "downsample_multiplier", "msaa_samples",
    "refresh_rate", "refresh_rate_target", "frame_interpolation", "idle_work", "skip_buffering",
    "workload_ring_size", "present_ring_size"]

def toJson (c : Config) : Json :=
  .ofMembers (fieldNames.zip
    [Json.ofNullable GraphicsApi.toJson c.graphicsApi, c.resolution.toJson,
      .ofSingle c.resolutionMultiplier, .ofNat c.downsampleMultiplier, .ofNat c.msaaSamples,
      c.refreshRate.toJson, .ofNat c.refreshRateTarget, .bool c.frameInterpolation,
      .bool c.idleWork, .bool c.skipBuffering, .ofNat c.workloadRingSize, .ofNat c.presentRingSize])

def ofJson? (j : Json) : Option Config := do
  let r ← j.record? fieldNames
  return {
    graphicsApi := ← r.withDefault 0 none (Json.nullable? GraphicsApi.ofJson?)
    resolution := ← r.withDefault 1 .default ResolutionMode.ofJson?
    resolutionMultiplier := ← r.withDefault 2 defaultMultiplier Json.single?
    downsampleMultiplier := ← r.withDefault 3 defaultOne Json.word32?
    msaaSamples := ← r.withDefault 4 defaultOne Json.word32?
    refreshRate := ← r.withDefault 5 .default RefreshRateMode.ofJson?
    refreshRateTarget := ← r.withDefault 6 defaultRefreshTarget Json.word32?
    frameInterpolation := ← r.withDefault 7 defaultOn Json.bool?
    idleWork := ← r.withDefault 8 defaultOn Json.bool?
    skipBuffering := ← r.withDefault 9 defaultOn Json.bool?
    workloadRingSize := ← r.withDefault 10 defaultRingSize Json.word64?
    presentRingSize := ← r.withDefault 11 defaultRingSize Json.word64? }

/-- The settings as a text, one to a line. -/
def text (c : Config) : String := c.toJson.pretty

/-- The settings that a text holds, in range or not. -/
def ofText? (s : String) : Option Config := do ofJson? (← Json.parse? s)

/-- The settings that a file holds, `none` if there is no file. -/
def load (file : Option String) : Except PipelineError Config := do
  let some s := file | throw .unreadableFile
  let some c := ofText? s | throw .malformedText
  c.validate
  return c

/-- The settings that a file holds, the defaults if that fails. -/
def loadOrDefault (file : Option String) : Config :=
  match load file with
  | .ok c => c
  | .error _ => default

end Config

end Scanout
