import Scanout.Pipeline.State
import Scanout.Workload.Sync

/-!
# The pipeline: the producer

The producer starts the pipeline on a host, fills and submits workloads, reports screens, and
changes settings. A submission may have to wait for a free slot of its ring; it is then left
pending.
-/

namespace Scanout

/-- The host that the pipeline runs on. -/
structure Host where
  apis : List GraphicsApi
  refreshRate : Nat
  window : Nat × Nat
  limits : DeviceLimits
  failsDevice : Bool
  failsSwapChain : Bool
  deriving Inhabited

namespace Host

/-- A host that offers everything. -/
def default : Host := ⟨GraphicsApi.all, 60, (640, 480), ⟨16384, 8, false⟩, false, false⟩

def supports (h : Host) (api : GraphicsApi) : Bool := api ∈ h.apis

def createDevice (h : Host) : Except DeviceError Device :=
  if h.failsDevice then .error (.backend "adapter enumeration failed") else .ok (.new h.limits)

def createSwapChain (h : Host) : Except DeviceError SwapChain :=
  if h.failsSwapChain then .error (.backend "surface creation failed")
  else .ok (.new h.refreshRate h.window)

end Host

namespace Pipeline

/-- Start the pipeline with settings. -/
def start (h : Host) (config : Config) : Except PipelineError Pipeline := do
  config.validate
  if !h.supports config.api then throw (.unsupportedApi config.api)
  let device ← h.createDevice.mapError .deviceCreation
  config.validateFor device.limits.maxSamples
  let swapChain ← h.createSwapChain.mapError .swapChainCreation
  let renderer := Renderer.new device (config.targetConfig swapChain.size.2)
  let shared := Shared.new config swapChain.size renderer swapChain.refreshRate
  let shared := shared.note
    (.deviceChosen Device.name config.api swapChain.size.1 swapChain.size.2 swapChain.refreshRate)
  let shared := (shared.note (.workerStarted .present)).note (.workerStarted .render)
  return {
    shared
    workloads := .new config.workloadRingSize .empty
    presents := .new config.presentRingSize .empty
    swapChain
    producer := .new
    matcher := .new
    revision := 0
    render := .claim
    shownWorkloadId := 0
    present := .claim }

/-- What a call of the producer comes to. -/
inductive Reply where
  | accepted (id : Nat)
  /-- the call waits for a free slot -/
  | pending
  | refused (e : PipelineError)
  | fault (f : Fault)
  deriving DecidableEq, Repr, Inhabited

/-- The error that stopped the pipeline, or that it was stopped. -/
def stoppedError (p : Pipeline) : PipelineError × Pipeline :=
  let (error, shared) := p.shared.takeError
  (error.getD .stopped, { p with shared })

def refuse (p : Pipeline) : Reply × Pipeline :=
  let (e, p) := p.stoppedError
  (.refused e, p)

/-- The workload being filled. -/
def currentWorkload (p : Pipeline) : Workload := p.workloads.current?.getD .empty

/-- Change the workload being filled. -/
def modifyWorkload (p : Pipeline) (f : Workload → Workload) : Pipeline :=
  { p with workloads := p.workloads.modifyCurrent f }

/-- The producer's state after a workload was submitted. -/
def acceptWorkload (p : Pipeline) (id : Nat) : Pipeline :=
  { p.modifyWorkload .reset with
    producer := { p.producer with
      nextWorkloadId := p.producer.nextWorkloadId + 1, lastWorkloadId := id, pending := none } }

/-- The producer's state after a present was submitted. -/
def acceptPresent (p : Pipeline) (id : Nat) : Pipeline :=
  { p with producer := { p.producer with
      nextPresentId := p.producer.nextPresentId + 1, lastPresentId := id, pending := none } }

/-- Try to publish what is pending. -/
def tryPublish (p : Pipeline) : Pending → Reply × Pipeline
  | .workload id =>
    match p.workloads.advance with
    | (.done _, workloads) => (.accepted id, { p with workloads }.acceptWorkload id)
    | (.waiting, workloads) =>
      (.pending, { p with workloads, producer.pending := some (.workload id) })
    | (.stopped, workloads) => { p with workloads, producer.pending := none }.refuse
  | .present id =>
    match p.presents.advance with
    | (.done _, presents) => (.accepted id, { p with presents }.acceptPresent id)
    | (.waiting, presents) =>
      (.pending, { p with presents, producer.pending := some (.present id) })
    | (.stopped, presents) => { p with presents, producer.pending := none }.refuse

/-- Go on with a pending call, if it has not to wait any longer. -/
def producerStep (p : Pipeline) : Option (Reply × Pipeline) := do
  let pending ← p.producer.pending
  match p.tryPublish pending with
  | (.pending, _) => none
  | reply => some reply

/-- Mark the workload being filled for submission. -/
def stampWorkload (p : Pipeline) (gameRate : Nat) : Pipeline :=
  p.modifyWorkload fun w =>
    { w with
      id := p.producer.nextWorkloadId
      presentId := p.producer.lastPresentId
      paused := p.producer.paused
      submissionFrame := p.producer.nextPresentId - 1
      gameRate }

/-- Compare the workload being filled with memory and submit it. -/
def submitWorkload (p : Pipeline) (ram : ByteArray) (gameRate : Nat) : Reply × Pipeline :=
  if !p.shared.running then p.refuse
  else
    let p := p.stampWorkload gameRate
    match p.traced (p.currentWorkload.synchronize p.producer.table ram) with
    | (.error f, p) => (.fault f, p)
    | (.ok (stats, w, table), p) =>
      let p := { p.modifyWorkload (fun _ => w) with producer.table := table }
      let p := p.modifyStats fun s => { s with uploads := Stats.count s.uploads stats.uploads }
      p.tryPublish (.workload w.id)

/-- The bytes that a screen shows. -/
def storageOf (screen : Screen) (ram : ByteArray) : Except Fault ByteArray := do
  let first := min screen.address ram.size
  return ram.extract first (min (first + (← screen.byteCount)) ram.size)

/-- What a screen needs: uploads if its image is rendered, its bytes if not. -/
def prepareScreen (p : Pipeline) (screen : Screen) (ram : ByteArray) :
    Traced (List Operation × ByteArray × FramebufferTable) := do
  let table := p.producer.table
  if !screen.visible then return ([], ByteArray.empty, table)
  match table.find? screen.address with
  | some _ =>
    let (change, table) ← table.check screen.address ram
    return (change.toList.map (.upload .color), ByteArray.empty, table)
  | none => return ([], ← storageOf screen ram, table)

/-- Submit a screen. -/
def submitPresent (p : Pipeline) (screen : Screen) (ram : ByteArray) : Reply × Pipeline :=
  if !p.shared.running then p.refuse
  else
    match p.traced (p.prepareScreen screen ram) with
    | (.error f, p) => (.fault f, p)
    | (.ok (operations, storage, table), p) =>
      let id := p.producer.nextPresentId
      let workloadId := p.producer.lastWorkloadId
      let present : Present := ⟨id, screen, workloadId, operations, storage, false⟩
      { p with
        producer.table := table
        presents := p.presents.setCurrent present }.tryPublish (.present id)

/-- Submit that the last image is shown again. -/
def repeatLastPresent (p : Pipeline) : Reply × Pipeline :=
  if !p.shared.running then p.refuse
  else
    let id := p.producer.nextPresentId
    let present := Present.repeating id p.producer.lastWorkloadId
    { p with presents := p.presents.setCurrent present }.tryPublish (.present id)

/-- From now on workloads are, or are not, paused: shown without interpolation, and kept in their
slots until a later one is rendered. -/
def setPaused (p : Pipeline) (paused : Bool) : Pipeline := { p with producer.paused := paused }

/-- Forget all framebuffers. -/
def resetFramebuffers (p : Pipeline) : Pipeline :=
  match p.traced p.producer.table.reset with
  | (.ok table, p) => { p with producer.table := table }
  | (.error _, p) => p

/-- Change settings. If the render targets will be given up, so are the framebuffers, and the next
workload brings all images in again. -/
def reconfigure (p : Pipeline) (config : Config) (window : Nat × Nat) : Pipeline :=
  let before := p.shared.targetConfig
  let p := p.modifyShared (·.update config window)
  if p.shared.targetConfig.beq before then p
  else (p.note .framebuffersInvalidated).resetFramebuffers

/-- Use other settings of the user. -/
def updateConfig (p : Pipeline) (config : Config) : Except PipelineError Pipeline := do
  config.validateFor p.shared.renderer.device.limits.maxSamples
  return p.reconfigure config p.shared.window

/-- The window has another size. -/
def resize (p : Pipeline) (width height : Nat) : Pipeline :=
  p.reconfigure p.shared.config (width, height)

/-- Hand out the error that stopped the pipeline. -/
def takeError (p : Pipeline) : Option PipelineError × Pipeline :=
  let (error, shared) := p.shared.takeError
  (error, { p with shared })

end Pipeline

end Scanout
