import Scanout.Pipeline.State
import Scanout.Target.Record

/-!
# The pipeline: the render worker

The render worker takes workloads from the ring. For each it waits until the presents before it are
done, plans the images, and renders them one by one: the last into the main targets, the others into
slots of their own. While the producer waits for a free slot it goes straight to the last image.
-/

namespace Scanout

/-- The image to render after another of `count`. While the producer is blocked it is the last. -/
def subFrameAfter (last : Option Nat) (count : Nat) (blocked : Bool) : Option Nat :=
  let candidate := last.elim 0 (· + 1)
  if count ≤ candidate then none
  else if blocked then some (count - 1)
  else some candidate

/-- The same for a last image that may be any word. -/
def subFrameAfterWord (last : Option Nat) (count : Nat) (blocked : Bool) :
    Except Fault (Option Nat) := do
  let _ ← word64 (last.elim 0 (· + 1))
  return subFrameAfter last count blocked

namespace Workload

/-- What a draw samples: the copy that serves its tile, or the texture memory. -/
def binding (w : Workload) (r : Renderer) (slot : Slot) (tile : Option Nat) :
    Option TextureBinding := do
  let place ← tile
  match w.tileCopies[place]?.join with
  | some copy =>
    let target ← (r.find? copy.key slot).or (r.find? copy.key .main)
    return .tileCopy target.texture
  | none =>
    let tile ← w.tiles[place]?
    return .textureMemory tile.memoryHash

/-- The matrix of the transform at a place, the identity beyond the table. -/
def blendedTransform (w : Workload) (m : Matcher) (s : SubFrame) (place : Nat) :
    Except Fault Matrix :=
  if place < w.transforms.length then m.transform w place s else return Matrix.identity

/-- Record a draw of a pair into a color and a depth target. -/
def recordCall (w : Workload) (m : Matcher) (s : SubFrame) (slot : Slot) (pair : Nat)
    (color : Target) (depth : Option Target) (call : Call) : Rendering Unit := do
  let draw ← fetch w.draws call.draw
  let transform ← w.blendedTransform m s draw.transform
  let projection ← m.projection w pair call.projection s
  let scroll ← m.scroll w call.draw s
  Rendering.emit (.draw {
    color := color.texture
    depth := depth.map Target.texture
    vertexCount := draw.vertexCount
    projection, transform
    texture := w.binding (← get) slot draw.tile
    scroll
    scissor := draw.scissor
    resolutionScale := color.scale
    misalignX := color.misalignX })

/-- The depth image that the draws of a pair write to. -/
def depthTarget? (p : Pair) (width : Nat) (slot : Slot) : Rendering (Option Target) :=
  match p.depthImage with
  | some address =>
    if p.depthRect.isEmpty then return none
    else do
      let key := TargetKey.ofImage address width .bits16 .depth
      return some (← Target.request key slot width p.drawHeight)
  | none => return none

/-- Record the draws of a pair. -/
def recordDraws (w : Workload) (m : Matcher) (s : SubFrame) (slot : Slot) (place : Nat) (p : Pair) :
    Rendering Unit := do
  let some image := p.colorImage | return
  if p.isEmpty then return
  let key := TargetKey.ofImage image.address image.width image.size .color
  let color ← Target.request key slot image.width p.drawHeight
  let depth ← depthTarget? p image.width slot
  let s := if p.blendable then s else .direct
  p.calls.forM (w.recordCall m s slot place color depth)
  Rendering.markWritten image.address .color
  match depth with
  | some target => Rendering.markWritten target.key.address .depth
  | none => return

/-- Record a pair: what has to be done before its draws, the draws, and what has to be done after.
-/
def recordPair (w : Workload) (m : Matcher) (s : SubFrame) (slot : Slot) (place : Nat) (p : Pair) :
    Rendering Unit := do
  Operation.recordAll slot p.before
  w.recordDraws m s slot place p
  Operation.recordAll slot p.after

/-- Record all pairs of a workload. -/
def recordPairs (w : Workload) (m : Matcher) (s : SubFrame) (slot : Slot) : Rendering Unit :=
  w.pairs.zipIdx.forM fun (p, place) => w.recordPair m s slot place p

/-- Render one image of a workload. -/
def renderImage (w : Workload) (m : Matcher) (s : SubFrame) (slot : Slot) : Rendering Unit := do
  Rendering.begin
  w.recordPairs m s slot
  Rendering.submit

end Workload

namespace RenderJob

/-- The slot that an image of the job is rendered into. -/
def slot (job : RenderJob) (index : Nat) : Slot :=
  if index + 1 = job.plan.size then .main else .intermediate index

/-- The images left out before the one at `index`. -/
def skipTo (job : RenderJob) (index : Nat) : Nat := index - job.last.elim 0 (· + 1)

/-- The job after an image was rendered. -/
def advance (job : RenderJob) (index : Nat) (s : SubFrame) : RenderJob :=
  { job with
    last := some index
    rendered := job.rendered ++ [s]
    skipped := job.skipped + job.skipTo index }

end RenderJob

namespace Pipeline

/-- The workload in a slot of the ring. -/
def workloadAt (p : Pipeline) (place : Nat) : Workload := (p.workloads.slot? place).getD .empty

/-- The render worker has met an error. -/
def renderFailed (p : Pipeline) (e : PipelineError) : Pipeline :=
  { (p.note (.renderingFailed e)).modifyShared (·.fail e) with render := .leave }

/-- The render worker is lost on account of a fault. -/
def renderLost (p : Pipeline) : Pipeline :=
  { p.modifyShared (·.losing .render) with workloads := p.workloads.stop, render := .lost }

/-- The render worker had to stop. -/
def renderStopped (p : Pipeline) : Stop → Pipeline
  | .refused cause => p.renderFailed (.resourceCreation cause)
  | .fault _ => p.renderLost

/-- Give up images that nobody will show. -/
def abandonImages (p : Pipeline) : Pipeline :=
  let production := p.shared.production
  p.modifyShared fun s =>
    (s.noteWhen (0 < production.inFlight)
      (.subFramesUnpresented production.workloadId production.inFlight)).modifyProduction
      ({ · with inFlight := 0 })

/-- Take over changed settings. Render targets are given up if theirs have changed. -/
def takeConfig (p : Pipeline) : Pipeline :=
  if p.shared.revision = p.revision then p
  else
    let p := { p with
      revision := p.shared.revision
      matcher := if p.shared.config.frameInterpolation then p.matcher else .new }
    let config := p.shared.targetConfig
    if p.shared.renderer.config.beq config then p
    else
      let (replaced, renderer) := p.shared.renderer.setConfig config
      p.modifyShared fun s =>
        { s.noteWhen (!s.production.drained s.running) .drainTimedOut with
          renderer, lastShown := if replaced then none else s.lastShown }

/-- Plan the images of a workload and make the plan known. -/
def planImages (p : Pipeline) (place : Nat) : Pipeline :=
  let w := p.workloadAt place
  let config := p.shared.config
  let target := config.targetRate w.gameRate p.shared.displayRate
  match p.traced (p.matcher.plan w target config.frameInterpolation) with
  | (.error _, p) => p.renderLost
  | (.ok (plan, matcher), p) =>
    let p := p.modifyShared fun s =>
      { s with production := .start w.id plan.size ⟨w.gameRate, target⟩ }
    let p := p.note (.subFramesPlanned w.id plan.size w.gameRate target plan.tickGap)
    { p with matcher, render := .draw ⟨place, plan, none, [], 0⟩ }

/-- Render the next image, or conclude if there is none. -/
def drawImage (p : Pipeline) (job : RenderJob) : Pipeline :=
  match subFrameAfter job.last job.plan.size p.workloads.blocked with
  | none => { p with render := .conclude job }
  | some index =>
    let s := job.plan.subFrames.getD index .direct
    let x := (p.workloadAt job.place).renderImage p.matcher s (job.slot index)
    match p.shared.render x with
    | (.ok (), shared) => { p with shared, render := .publish (job.advance index s) index }
    | (.error e, shared) => { p with shared }.renderStopped e

/-- Make known the image that was rendered last. -/
def publishImage (p : Pipeline) (job : RenderJob) (index : Nat) : Pipeline :=
  let p := p.modifyShared (·.modifyProduction fun production =>
    let production := production.produce (job.slot index)
    match job.slot index with
    | .main => production.finish (0 < job.skipped)
    | .intermediate _ => { production with inFlight := production.inFlight + 1 })
  { p with render := if job.rendered.length = 1 then .announce job else .draw job }

/-- Tell that the first image of a workload is rendered. -/
def announceWorkload (p : Pipeline) (job : RenderJob) : Pipeline :=
  let w := p.workloadAt job.place
  let p := p.modifyShared fun s => { s with workloadSignal := s.workloadSignal.advance w.id }
  { p with render := .draw job }

/-- Count a rendered workload and keep it for the next one. -/
def concludeWorkload (p : Pipeline) (job : RenderJob) : Pipeline :=
  let w := p.workloadAt job.place
  let p := if 0 < job.skipped then p.note (.subFramesSkipped w.id job.skipped job.plan.size) else p
  let p := p.modifyStats fun s =>
    { s with
      workloadsRendered := Stats.count s.workloadsRendered 1
      subFramesRendered := Stats.count s.subFramesRendered job.rendered.length
      subFramesSkipped := Stats.count s.subFramesSkipped job.skipped }
  let p := p.modifyStats (·.addFrame ⟨w.id, job.rendered, 0 < job.skipped, job.plan.matched⟩)
  { p with matcher := p.matcher.remember w, render := .finish job.place w.paused }

/-- One step of the render worker, if it has not to wait. -/
def renderStep (p : Pipeline) : Option Pipeline :=
  match p.render with
  | .claim =>
    match p.workloads.claim with
    | .done place => some { p with render := .await place }
    | .waiting => none
    | .stopped => some { p with render := .leave }
  | .await place =>
    match p.shared.presentSignal.wait (p.workloadAt place).presentId with
    | some true => some { p with render := .abandon place }
    | some false => some { p with render := .leave }
    | none => none
  | .abandon place => some { p.abandonImages with render := .configure place }
  | .configure place => some { p.takeConfig with render := .plan place }
  | .plan place => some (p.planImages place)
  | .draw job => some (p.drawImage job)
  | .publish job index => some (p.publishImage job index)
  | .announce job => some (p.announceWorkload job)
  | .conclude job => some (p.concludeWorkload job)
  | .finish place paused =>
    match p.workloads.finish place with
    | .ok workloads => some { p with workloads, render := .release place paused }
    | .error _ => some p.renderLost
  | .release place paused =>
    -- a paused workload keeps its slot until a later one is rendered
    let through := if paused then p.workloads.before place else place
    some { p with workloads := p.workloads.releaseThrough through, render := .claim }
  | .leave =>
    some { p.note (.workerStopped .render) with workloads := p.workloads.stop, render := .stopped }
  | .stopped => none
  | .lost => none

end Pipeline

end Scanout
