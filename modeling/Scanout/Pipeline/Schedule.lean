import Scanout.Pipeline.Present
import Scanout.Pipeline.Producer
import Scanout.Pipeline.Render

/-!
# The pipeline: schedules

The steps of the parties may follow each other in any order. `Pipeline.Step` is the relation of all
steps. `Pipeline.settle` takes one particular order: the render worker goes on until it has to wait,
then the present worker, and the producer goes on as soon as it can.
-/

namespace Scanout

namespace Pipeline

/-- One step of one of the workers, or of the producer's pending call. -/
inductive Step (p : Pipeline) : Pipeline → Prop where
  | render {q : Pipeline} (h : p.renderStep = some q) : Step p q
  | present {q : Pipeline} (h : p.presentStep = some q) : Step p q
  | producer {r : Reply} {q : Pipeline} (h : p.producerStep = some (r, q)) : Step p q

/-- The next step of a worker, the render worker's if it has one. -/
def workerStep (p : Pipeline) : Option Pipeline :=
  match p.renderStep with
  | some q => some q
  | none => p.presentStep

/-- The steps that are enough for any image: to render it and to show it. -/
def stepsForImage : Nat := 8

/-- The steps that are enough for a workload or a present, its images apart. -/
def stepsForItem : Nat := 16

/-- The workload that was planned last has no more images than this, and neither has any that is
planned under the settings in force. Those may have changed since, so both are counted. -/
def mostImages (p : Pipeline) : Nat :=
  max p.shared.production.planned
    (max (max p.shared.displayRate p.swapChain.refreshRate) p.shared.config.refreshRateTarget + 2)

/-- Enough steps to work off everything that was submitted. -/
def stepsToSettle (p : Pipeline) : Nat :=
  (p.workloads.size + p.presents.size) * (stepsForItem + stepsForImage * p.mostImages)

/-- Let the producer go on if it can. -/
def resume (p : Pipeline) (replies : List Reply) : List Reply × Pipeline :=
  match p.producerStep with
  | some (reply, q) => (reply :: replies, q)
  | none => (replies, p)

/-- Take steps until everybody waits, and collect the replies to pending calls, the latest first. -/
def settleFor (p : Pipeline) (replies : List Reply) : Nat → List Reply × Pipeline
  | 0 => (replies, p)
  | fuel + 1 =>
    match p.workerStep with
    | some q =>
      let (replies, q) := q.resume replies
      q.settleFor replies fuel
    | none => (replies, p)

/-- Take steps until everybody waits. -/
def settle (p : Pipeline) : List Reply × Pipeline := p.settleFor [] p.stepsToSettle

/-- Let the render worker take steps until it has drawn an image or has to wait. -/
def drawFirst (p : Pipeline) : Nat → Pipeline
  | 0 => p
  | fuel + 1 =>
    match p.render, p.renderStep with
    | .publish .., _ => p
    | _, some q => q.drawFirst fuel
    | _, none => p

/-- The frames of a burst, and what is submitted with them. -/
structure Burst where
  gameRate : Nat
  screen : Screen
  ram : ByteArray
  frames : List (Workload → Workload)

/-- Submit the frames of a burst, and the screen after each but the last. Meanwhile the render
worker draws the first image of the first frame. The replies are collected, the latest first. -/
def submitFrames (p : Pipeline) (b : Burst) (replies : List Reply) :
    List (Workload → Workload) → List Reply × Pipeline
  | [] => (replies, p)
  | f :: fs =>
    let (reply, p) := (p.modifyWorkload f).submitWorkload b.ram b.gameRate
    let p := p.drawFirst stepsForItem
    if fs.isEmpty then (reply :: replies, p)
    else
      let (reply', p) := p.submitPresent b.screen b.ram
      p.submitFrames b (reply' :: reply :: replies) fs

/-- Submit a burst without waiting for its images, then let everybody go on. The replies are in the
order of the calls. -/
def burst (p : Pipeline) (b : Burst) : List Reply × Pipeline :=
  let (replies, p) := p.submitFrames b [] b.frames
  let (late, p) := p.settle
  ((late ++ replies.filter (· ≠ .pending)).reverse, p)

/-- Let a worker that was told to stop do so. -/
def leaveFor (p : Pipeline) : Nat → Pipeline
  | 0 => p
  | fuel + 1 =>
    match p.workerStep with
    | some q => q.leaveFor fuel
    | none => p

/-- Note, once, that a worker was lost. -/
def noteLost (p : Pipeline) : Pipeline :=
  let p :=
    if p.render = .lost then { p.note (.workerLost .render) with render := .stopped } else p
  if p.present = .lost then { p.note (.workerLost .present) with present := .stopped } else p

/-- Stop the pipeline: no worker goes on. -/
def shutdown (p : Pipeline) : Pipeline :=
  let p := p.modifyShared (·.shutdown)
  let p := { p with workloads := p.workloads.stop, presents := p.presents.stop }
  (p.leaveFor p.stepsToSettle).noteLost

/-- Give up everything. -/
def close (p : Pipeline) : Pipeline :=
  p.shutdown.modifyShared fun s => { s with renderer := s.renderer.destroyAll }

end Pipeline

end Scanout
