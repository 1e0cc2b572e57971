import Scanout.Decimal.Notation
import Scanout.Gpu.Command

/-!
# Errors

What can go wrong in the device, in a configuration and in the pipeline, and the sentence that
reports each case.
-/

namespace Scanout

/-- A refusal of the graphics device. -/
inductive DeviceError where
  | outOfMemory (width height : Nat)
  | unknownTexture (texture : TextureId)
  | deviceLost
  | backend (reason : String)
  deriving DecidableEq, Repr, Inhabited

def DeviceError.message : DeviceError → String
  | outOfMemory width height => s!"Out of GPU memory creating {width}x{height} texture"
  | unknownTexture texture => s!"Unknown texture handle TextureId({texture})"
  | deviceLost => "Device lost"
  | backend reason => s!"Backend error: {reason}"

/-- A setting that is out of range. -/
inductive InvalidSetting where
  | sampleCount (samples : Nat)
  | resolutionMultiplier (x : Single)
  | downsampleMultiplier (n : Nat)
  | refreshRateTarget (rate : Nat)
  | workloadRingSize (size : Nat)
  | presentRingSize (size : Nat)
  | tooManySamples (samples greatest : Nat)
  | other (reason : String)
  deriving DecidableEq, Repr, Inhabited

def InvalidSetting.message : InvalidSetting → String
  | sampleCount samples => s!"MSAA sample count {samples}"
  | resolutionMultiplier x =>
    let text := String.ofList (x.text Decimal.plain)
    s!"resolution multiplier {text}"
  | downsampleMultiplier n => s!"downsample multiplier {n}"
  | refreshRateTarget rate => s!"refresh rate target {rate}"
  | workloadRingSize size => s!"workload ring size {size}"
  | presentRingSize size => s!"present ring size {size}"
  | tooManySamples samples greatest =>
    s!"MSAA sample count {samples} exceeds device maximum {greatest}"
  | other reason => reason

/-- The two parties that work off what the producer submits. -/
inductive Worker where
  | render
  | present
  deriving DecidableEq, Repr, Inhabited

def Worker.name : Worker → String
  | render => "Render"
  | present => "Present"

/-- A failure of the pipeline. -/
inductive PipelineError where
  | unsupportedApi (api : GraphicsApi)
  | deviceCreation (cause : DeviceError)
  | swapChainCreation (cause : DeviceError)
  | resourceCreation (cause : DeviceError)
  | stopped
  | workerFaulted (worker : Worker)
  | invalidConfiguration (setting : InvalidSetting)
  | unreadableFile
  | malformedText
  deriving DecidableEq, Repr, Inhabited

def PipelineError.message : PipelineError → String
  | unsupportedApi api => s!"Graphics API {api.name} is not supported by this backend"
  | deviceCreation cause => s!"Device creation failed: {cause.message}"
  | swapChainCreation cause => s!"Swap chain creation failed: {cause.message}"
  | resourceCreation cause => s!"Resource creation failed: {cause.message}"
  | stopped => "Queue stopped"
  | workerFaulted worker => s!"{worker.name} thread panicked"
  | invalidConfiguration setting => s!"Invalid configuration: {setting.message}"
  | unreadableFile => "I/O error"
  | malformedText => "JSON error"

end Scanout
