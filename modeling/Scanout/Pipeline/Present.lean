import Scanout.Pipeline.State
import Scanout.Target.Record

/-!
# The pipeline: the present worker

The present worker takes presents from the ring. For each it waits until the workload before it has
a first image, brings in memory that the CPU has changed, and shows the screen: all images of a
workload the first time it is shown, its last image afterwards. An image is shown from its target
directly if its address was among the last ones shown, and through a scratch image otherwise.
-/

namespace Scanout

namespace Screen

/-- The region of the image that is visible. -/
def visibleRect (s : Screen) : Rect := ⟨0, 0, s.visibleWidth, s.height⟩

end Screen

namespace Shared

/-- How the image at an address was last written. -/
def encoding (s : Shared) (address : Nat) : TargetKind :=
  match s.renderer.writtenAs.lookup address with
  | some .depth => .depth
  | _ => .color

/-- The target that holds the image at an address for a slot. -/
def imageTarget? (s : Shared) (address : Nat) (slot : Slot) : Option Target :=
  (s.renderer.findByAddress? address (s.encoding address) slot).or
    (s.renderer.findByAddress? address (s.encoding address) .main)

end Shared

namespace Rendering

/-- Fill the scratch image with one command, and show it. -/
def throughScratch (screen : Screen) (command : TextureId → Command) : Rendering Shown := do
  let scratch ← Target.request .scratch .main screen.visibleWidth screen.height
  begin
  emit (command scratch.texture)
  submit
  return ⟨scratch.texture, screen.visibleRect⟩

/-- Perform the uploads of a present. -/
def upload (ops : List Operation) : Rendering Unit := do
  begin
  Operation.recordAll .main ops
  ops.forM fun
    | .upload type change => markWritten change.address type
    | _ => pure ()
  submit

end Rendering

namespace Shared

/-- Put together what a screen shows of a slot; nothing if its image was never seen. -/
def compose (s : Shared) (screen : Screen) (slot : Slot) (storage : ByteArray) :
    Except Stop (Option Shown) × Shared :=
  let rect := screen.visibleRect
  let seen := screen.address ∈ s.history
  let s := s.pushHistory screen.address
  match s.imageTarget? screen.address slot with
  | some target =>
    if target.key.kind = .color ∧ s.config.skipBuffering ∧ seen then
      (.ok (some ⟨target.texture, rect⟩), s)
    else
      let (shown, s) := s.render (Rendering.throughScratch screen fun scratch =>
        .copy target.texture scratch rect (target.key.kind = .depth))
      (shown.map some, s)
  | none =>
    if storage.isEmpty then (.ok none, s)
    else
      let (shown, s) := s.render (Rendering.throughScratch screen fun scratch =>
        .upload scratch rect (screen.size?.getD .bits16) storage)
      (shown.map some, s)

end Shared

namespace Operation

/-- The operation is an upload. -/
def isUpload : Operation → Bool
  | upload .. => true
  | _ => false

end Operation

namespace Pipeline

/-- The present worker has met an error. -/
def presentFailed (p : Pipeline) (id : Nat) (e : PipelineError) : Pipeline :=
  { (p.note (.presentFailed id e)).modifyShared (·.fail e) with present := .leave }

/-- The present worker is lost on account of a fault. -/
def presentLost (p : Pipeline) : Pipeline :=
  { p.modifyShared (·.losing .present) with presents := p.presents.stop, present := .lost }

/-- The present worker had to stop. -/
def presentStopped (p : Pipeline) (id : Nat) : Stop → Pipeline
  | .refused cause => p.presentFailed id (.resourceCreation cause)
  | .fault _ => p.presentLost

/-- Take a present out of the ring. -/
def takePresent (p : Pipeline) (place : Nat) : Pipeline :=
  { p with
    presents := p.presents.setSlot place .empty
    present := .await place ((p.presents.slot? place).getD .empty) }

/-- Look at the window, and keep its refresh rate. -/
def enterPresent (p : Pipeline) (place : Nat) (present : Present) : Pipeline :=
  let job : PresentJob := ⟨place, present, p.swapChain.valid, false, 1, 0⟩
  let p := p.modifyShared fun s => { s with displayRate := p.swapChain.refreshRate }
  { p with present := if present.again then .showAgain job else .upload job }

/-- Show an image in the window. -/
def showImage (p : Pipeline) (image : Shown) (valid : Bool) : Bool × Pipeline :=
  let p := p.modifyShared fun s => { s with lastShown := some image }
  if !valid then
    (valid, p.modifyStats fun s => { s with presentsSkipped := Stats.count s.presentsSkipped 1 })
  else match p.swapChain.present image with
    | .ok swapChain =>
      (valid, { p with swapChain }.modifyStats fun s =>
        { s with framesPresented := Stats.count s.framesPresented 1 })
    | .error e => (false, p.note (.showFailed e))

/-- Show the last image again. -/
def showLast (p : Pipeline) (job : PresentJob) : Pipeline :=
  let p := match p.shared.lastShown with
    | some image => (p.showImage image job.valid).2
    | none => p
  { p with present := .conclude job.place job.present.id }

/-- Bring in memory that the CPU has changed. -/
def uploadChanges (p : Pipeline) (job : PresentJob) : Pipeline :=
  let ops := job.present.operations
  if ops.isEmpty then { p with present := .inspect job }
  else match p.shared.render (Rendering.upload ops) with
    | (.ok (), shared) =>
      let p := { p with shared }.modifyStats fun s =>
        { s with uploads := Stats.count s.uploads (ops.countP Operation.isUpload) }
      { p with present := .inspect job }
    | (.error e, shared) => { p with shared }.presentStopped job.present.id e

/-- Find out how many images there are to show. -/
def inspectScreen (p : Pipeline) (job : PresentJob) : Pipeline :=
  if !job.present.screen.visible then
    let p := (p.note (.blankScreen job.present.id)).modifyStats fun s =>
      { s with presentsSkipped := Stats.count s.presentsSkipped 1 }
    { p with present := .conclude job.place job.present.id }
  else
    let first := job.present.workloadId ≠ p.shownWorkloadId
    let planned :=
      if p.shared.production.workloadId = job.present.workloadId then
        max p.shared.production.planned 1
      else 1
    { p with
      shownWorkloadId := job.present.workloadId
      present := .select { job with first, total := if first then planned else 1 } }

/-- The slot of the image in hand: `none` if it has to be waited for, `some none` if it was left
out. -/
def imageSlot (p : Pipeline) (job : PresentJob) : Option (Option Slot) :=
  if job.present.workloadId = 0 then some (some .main)
  else if !job.first then
    (p.shared.production.completion p.shared.running job.present.workloadId).map
      fun _ => some .main
  else
    (p.shared.production.image p.shared.running job.present.workloadId job.index).map fun slot? =>
      match slot? with
      | some slot => some slot
      | none => if job.index = 0 then some .main else none

/-- Wait for the image in hand. -/
def selectImage (p : Pipeline) (job : PresentJob) : Option Pipeline :=
  if job.total ≤ job.index then
    some { p with present := .conclude job.place job.present.id }
  else (p.imageSlot job).map fun slot? =>
    match slot? with
    | some slot => { p with present := .compose job slot }
    | none => { p with present := .conclude job.place job.present.id }

/-- Put together the image in hand. -/
def composeImage (p : Pipeline) (job : PresentJob) (slot : Slot) : Pipeline :=
  match p.shared.compose job.present.screen slot job.present.storage with
  | (.ok image, shared) => { p with shared, present := .settle job slot image }
  | (.error e, shared) => { p with shared }.presentStopped job.present.id e

/-- An intermediate image is no longer waiting to be shown. -/
def settleImage (p : Pipeline) (job : PresentJob) (slot : Slot) (image : Option Shown) : Pipeline :=
  let p := match slot with
    | .intermediate _ =>
      p.modifyShared (·.modifyProduction fun production =>
        { production with inFlight := production.inFlight - 1 })
    | .main => p
  { p with present := .show job image }

/-- Show the image in hand and go on to the next. -/
def showNext (p : Pipeline) (job : PresentJob) (image : Option Shown) : Pipeline :=
  let (valid, p) := match image with
    | some image => p.showImage image job.valid
    | none => (job.valid, p.note (.nothingToPresent job.present.screen.address))
  { p with present := .select { job with valid, index := job.index + 1 } }

/-- Count a present and tell that it is done. -/
def concludePresent (p : Pipeline) (place id : Nat) : Pipeline :=
  let p := p.modifyStats fun s =>
    { s with presentsProcessed := Stats.count s.presentsProcessed 1 }
  let p := p.modifyShared fun s => { s with presentSignal := s.presentSignal.advance id }
  { p with present := .finish place }

/-- One step of the present worker, if it has not to wait. -/
def presentStep (p : Pipeline) : Option Pipeline :=
  match p.present with
  | .claim =>
    match p.presents.claim with
    | .done place => some (p.takePresent place)
    | .waiting => none
    | .stopped => some { p with present := .leave }
  | .await place present =>
    match p.shared.workloadSignal.wait present.workloadId with
    | some true => some { p with present := .enter place present }
    | some false => some { p with present := .leave }
    | none => none
  | .enter place present => some (p.enterPresent place present)
  | .showAgain job => some (p.showLast job)
  | .upload job => some (p.uploadChanges job)
  | .inspect job => some (p.inspectScreen job)
  | .select job => p.selectImage job
  | .compose job slot => some (p.composeImage job slot)
  | .settle job slot image => some (p.settleImage job slot image)
  | .show job image => some (p.showNext job image)
  | .conclude place id => some (p.concludePresent place id)
  | .finish place =>
    match p.presents.finish place with
    | .ok presents => some { p with presents, present := .release place }
    | .error _ => some p.presentLost
  | .release place =>
    some { p with presents := p.presents.releaseThrough place, present := .claim }
  | .leave =>
    some { p.note (.workerStopped .present) with presents := p.presents.stop, present := .stopped }
  | .stopped => none
  | .lost => none

end Pipeline

end Scanout
