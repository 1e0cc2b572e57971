import Scanout.Proofs.Pipeline.Run
import Scanout.Proofs.Ring

/-!
# What steers the pipeline

Which steps the parties may take does not depend on what they draw. `Control` is the part of the
state that decides it, and `Control.Move` says once what each step can do to it.
-/

namespace Scanout

/-- The part of the pipeline's state that decides which steps are possible. -/
structure Control where
  workloads : Ring Workload
  presents : Ring Present
  production : Production
  workloadSignal : Signal
  presentSignal : Signal
  running : Bool
  nextWorkloadId : Nat
  nextPresentId : Nat
  lastWorkloadId : Nat
  lastPresentId : Nat
  pending : Option Pending
  render : RenderPhase
  present : PresentPhase
  shownWorkloadId : Nat

def Pipeline.control (p : Pipeline) : Control where
  workloads := p.workloads
  presents := p.presents
  production := p.shared.production
  workloadSignal := p.shared.workloadSignal
  presentSignal := p.shared.presentSignal
  running := p.shared.running
  nextWorkloadId := p.producer.nextWorkloadId
  nextPresentId := p.producer.nextPresentId
  lastWorkloadId := p.producer.lastWorkloadId
  lastPresentId := p.producer.lastPresentId
  pending := p.producer.pending
  render := p.render
  present := p.present
  shownWorkloadId := p.shownWorkloadId

/-- An image is made known. -/
def Production.publish (production : Production) (slot : Slot) (skipped : Bool) : Production :=
  match slot with
  | .main => (production.produce slot).finish skipped
  | .intermediate _ => { production.produce slot with inFlight := production.inFlight + 1 }

/-- An image was put together for the screen. -/
def Production.settle (production : Production) : Slot → Production
  | .main => production
  | .intermediate _ => { production with inFlight := production.inFlight - 1 }

namespace Control

/-- The state that a pipeline starts in. -/
def start (workloadSlots presentSlots : Nat) : Control where
  workloads := .new workloadSlots .empty
  presents := .new presentSlots .empty
  production := .new
  workloadSignal := .new
  presentSignal := .new
  running := true
  nextWorkloadId := 1
  nextPresentId := 1
  lastWorkloadId := 0
  lastPresentId := 0
  pending := none
  render := .claim
  present := .claim
  shownWorkloadId := 0

/-- The workload in a slot of the ring. -/
def workloadAt (c : Control) (place : Nat) : Workload := (c.workloads.slot? place).getD .empty

/-- The slot of the image in hand: `none` if it has to be waited for, `some none` if it was left
out. -/
def imageSlot (c : Control) (job : PresentJob) : Option (Option Slot) :=
  if job.present.workloadId = 0 then some (some .main)
  else if !job.first then
    (c.production.completion c.running job.present.workloadId).map fun _ => some .main
  else
    (c.production.image c.running job.present.workloadId job.index).map fun slot? =>
      match slot? with
      | some slot => some slot
      | none => if job.index = 0 then some .main else none

/-- Everybody is told to stop. -/
def halted (c : Control) : Control :=
  { c with
    running := false
    workloadSignal := c.workloadSignal.stop
    presentSignal := c.presentSignal.stop }

/-- The render worker has met an error, or is lost. -/
def breakRender (c : Control) (lost : Bool) : Control :=
  if lost then { c.halted with workloads := c.workloads.stop, render := .lost }
  else { c.halted with render := .leave }

/-- The present worker has met an error, or is lost. -/
def breakPresent (c : Control) (lost : Bool) : Control :=
  if lost then { c.halted with presents := c.presents.stop, present := .lost }
  else { c.halted with present := .leave }

/-- What a step of the render worker can do. -/
inductive RenderMove (c : Control) : List Event → Control → Prop where
  | claim {place : Nat} (at_ : c.render = .claim) (got : c.workloads.claim = .done place) :
      RenderMove c [] { c with render := .await place }
  | close (at_ : c.render = .claim) (stopped : c.workloads.claim = .stopped) :
      RenderMove c [] { c with render := .leave }
  | pass {place : Nat} (at_ : c.render = .await place)
      (reached : (c.workloadAt place).presentId ≤ c.presentSignal.value) :
      RenderMove c [] { c with render := .abandon place }
  | giveUp {place : Nat} (at_ : c.render = .await place)
      (stopped : c.presentSignal.stopped = true) :
      RenderMove c [] { c with render := .leave }
  | abandon {place : Nat} (at_ : c.render = .abandon place) :
      RenderMove c []
        { c with production := { c.production with inFlight := 0 }, render := .configure place }
  | configure {place : Nat} (at_ : c.render = .configure place) :
      RenderMove c [.configured (c.workloadAt place).id] { c with render := .plan place }
  | plan {place : Nat} (at_ : c.render = .plan place) (plan : FramePlan) (rates : Rates)
      (images : 0 < plan.size) :
      RenderMove c []
        { c with
          production := .start (c.workloadAt place).id plan.size rates
          render := .draw ⟨place, plan, none, [], 0⟩ }
  | planLost {place : Nat} (at_ : c.render = .plan place) : RenderMove c [] (c.breakRender true)
  | draw {job : RenderJob} {index : Nat} (at_ : c.render = .draw job) (s : SubFrame)
      (image : subFrameAfter job.last job.plan.size c.workloads.blocked = some index) :
      RenderMove c [.recorded (c.workloadAt job.place).id (job.slot index)]
        { c with render := .publish (job.advance index s) index }
  | drawBroken {job : RenderJob} {index : Nat} (at_ : c.render = .draw job) (lost : Bool)
      (image : subFrameAfter job.last job.plan.size c.workloads.blocked = some index) :
      RenderMove c [.recorded (c.workloadAt job.place).id (job.slot index)] (c.breakRender lost)
  | exhaust {job : RenderJob} (at_ : c.render = .draw job)
      (image : subFrameAfter job.last job.plan.size c.workloads.blocked = none) :
      RenderMove c [] { c with render := .conclude job }
  | publish {job : RenderJob} {index : Nat} (at_ : c.render = .publish job index) :
      RenderMove c [.produced (c.workloadAt job.place).id (job.slot index)]
        { c with
          production := c.production.publish (job.slot index) (0 < job.skipped)
          render := if job.rendered.length = 1 then .announce job else .draw job }
  | announce {job : RenderJob} (at_ : c.render = .announce job) :
      RenderMove c []
        { c with
          workloadSignal := c.workloadSignal.advance (c.workloadAt job.place).id
          render := .draw job }
  | conclude {job : RenderJob} (at_ : c.render = .conclude job) :
      RenderMove c []
        { c with render := .finish job.place (c.workloadAt job.place).paused }
  | finish {place : Nat} {paused : Bool} {ring : Ring Workload}
      (at_ : c.render = .finish place paused)
      (done : c.workloads.finish place = .ok ring) :
      RenderMove c [.workloadConsumed] { c with workloads := ring, render := .release place paused }
  | finishLost {place : Nat} {paused : Bool} {f : Fault} (at_ : c.render = .finish place paused)
      (refused : c.workloads.finish place = .error f) :
      RenderMove c [.workloadConsumed] (c.breakRender true)
  | release {place : Nat} {paused : Bool} (at_ : c.render = .release place paused) :
      RenderMove c []
        { c with
          workloads :=
            c.workloads.releaseThrough (if paused then c.workloads.before place else place)
          render := .claim }
  | leave (at_ : c.render = .leave) :
      RenderMove c [] { c with workloads := c.workloads.stop, render := .stopped }

/-- What a step of the present worker can do. -/
inductive PresentMove (c : Control) : List Event → Control → Prop where
  | claim {place : Nat} (at_ : c.present = .claim) (got : c.presents.claim = .done place) :
      PresentMove c []
        { c with
          presents := c.presents.setSlot place .empty
          present := .await place ((c.presents.slot? place).getD .empty) }
  | close (at_ : c.present = .claim) (stopped : c.presents.claim = .stopped) :
      PresentMove c [] { c with present := .leave }
  | pass {place : Nat} {q : Present} (at_ : c.present = .await place q)
      (reached : q.workloadId ≤ c.workloadSignal.value) :
      PresentMove c [.entered q] { c with present := .enter place q }
  | giveUp {place : Nat} {q : Present} (at_ : c.present = .await place q)
      (stopped : c.workloadSignal.stopped = true) :
      PresentMove c [] { c with present := .leave }
  | enterAgain {place : Nat} {q : Present} (at_ : c.present = .enter place q)
      (again : q.again = true) (valid : Bool) :
      PresentMove c [] { c with present := .showAgain ⟨place, q, valid, false, 1, 0⟩ }
  | enter {place : Nat} {q : Present} (at_ : c.present = .enter place q)
      (again : q.again = false) (valid : Bool) :
      PresentMove c [] { c with present := .upload ⟨place, q, valid, false, 1, 0⟩ }
  | showAgain {job : PresentJob} (at_ : c.present = .showAgain job) :
      PresentMove c [] { c with present := .conclude job.place job.present.id }
  | upload {job : PresentJob} (at_ : c.present = .upload job) :
      PresentMove c [] { c with present := .inspect job }
  | uploadBroken {job : PresentJob} (at_ : c.present = .upload job) (lost : Bool) :
      PresentMove c [] (c.breakPresent lost)
  | blank {job : PresentJob} (at_ : c.present = .inspect job)
      (blank : job.present.screen.visible = false) :
      PresentMove c [] { c with present := .conclude job.place job.present.id }
  | inspect {job : PresentJob} (at_ : c.present = .inspect job)
      (visible : job.present.screen.visible = true) :
      PresentMove c []
        { c with
          shownWorkloadId := job.present.workloadId
          present := .select
            { job with
              first := job.present.workloadId ≠ c.shownWorkloadId
              total :=
                if job.present.workloadId ≠ c.shownWorkloadId ∧
                    c.production.workloadId = job.present.workloadId then
                  max c.production.planned 1
                else 1 } }
  | selectNone {job : PresentJob} (at_ : c.present = .select job)
      (none_left : job.total ≤ job.index ∨ c.imageSlot job = some none) :
      PresentMove c [] { c with present := .conclude job.place job.present.id }
  | select {job : PresentJob} {slot : Slot} (at_ : c.present = .select job)
      (left : job.index < job.total) (image : c.imageSlot job = some (some slot)) :
      PresentMove c [] { c with present := .compose job slot }
  | compose {job : PresentJob} {slot : Slot} (at_ : c.present = .compose job slot)
      (image : Option Shown) :
      PresentMove c [.composed job.present slot] { c with present := .settle job slot image }
  | composeBroken {job : PresentJob} {slot : Slot} (at_ : c.present = .compose job slot)
      (lost : Bool) : PresentMove c [.composed job.present slot] (c.breakPresent lost)
  | settle {job : PresentJob} {slot : Slot} {image : Option Shown}
      (at_ : c.present = .settle job slot image) :
      PresentMove c [] { c with production := c.production.settle slot, present := .show job image }
  | show {job : PresentJob} {image : Option Shown} (at_ : c.present = .show job image)
      (valid : Bool) :
      PresentMove c [] { c with present := .select { job with valid, index := job.index + 1 } }
  | conclude {place id : Nat} (at_ : c.present = .conclude place id) :
      PresentMove c [.done id]
        { c with presentSignal := c.presentSignal.advance id, present := .finish place }
  | finish {place : Nat} {ring : Ring Present} (at_ : c.present = .finish place)
      (done : c.presents.finish place = .ok ring) :
      PresentMove c [.presentConsumed] { c with presents := ring, present := .release place }
  | finishLost {place : Nat} {f : Fault} (at_ : c.present = .finish place)
      (refused : c.presents.finish place = .error f) :
      PresentMove c [.presentConsumed] (c.breakPresent true)
  | release {place : Nat} (at_ : c.present = .release place) :
      PresentMove c [] { c with presents := c.presents.releaseThrough place, present := .claim }
  | leave (at_ : c.present = .leave) :
      PresentMove c [] { c with presents := c.presents.stop, present := .stopped }

/-- The state has an item to publish: the pending one, or one that was just stamped. -/
inductive Offers (c : Control) : Pending → Control → Prop where
  | pending {item : Pending} (waits : c.pending = some item) : Offers c item c
  | workload (idle : c.pending = none) (w : Workload) (id : w.id = c.nextWorkloadId)
      (presentId : w.presentId = c.lastPresentId) :
      Offers c (.workload w.id) { c with workloads := c.workloads.modifyCurrent fun _ => w }
  | present (idle : c.pending = none) (q : Present) (id : q.id = c.nextPresentId)
      (workloadId : q.workloadId = c.lastWorkloadId) :
      Offers c (.present q.id) { c with presents := c.presents.setCurrent q }

/-- Try to publish an item. -/
def publish (c : Control) : Pending → List Event × Control
  | .workload id =>
    match c.workloads.advance with
    | (.done _, ring) =>
      ((c.workloads.current?.toList).map .submitted,
        { c with
          workloads := ring.modifyCurrent .reset
          nextWorkloadId := c.nextWorkloadId + 1
          lastWorkloadId := id
          pending := none })
    | (.waiting, ring) => ([], { c with workloads := ring, pending := some (.workload id) })
    | (.stopped, ring) => ([], { c with workloads := ring, pending := none })
  | .present id =>
    match c.presents.advance with
    | (.done _, ring) =>
      ((c.presents.current?.toList).map .requested,
        { c with
          presents := ring
          nextPresentId := c.nextPresentId + 1
          lastPresentId := id
          pending := none })
    | (.waiting, ring) => ([], { c with presents := ring, pending := some (.present id) })
    | (.stopped, ring) => ([], { c with presents := ring, pending := none })

/-- What the producer and the host can do. -/
inductive ProducerMove (c : Control) : List Event → Control → Prop where
  | stay : ProducerMove c [] c
  | fill (idle : c.pending = none) (f : Workload → Workload) :
      ProducerMove c [] { c with workloads := c.workloads.modifyCurrent f }
  | publish {item : Pending} {c₁ : Control} (offers : c.Offers item c₁) :
      ProducerMove c (c₁.publish item).1 (c₁.publish item).2
  | shutdown :
      ProducerMove c []
        { c.halted with workloads := c.workloads.stop, presents := c.presents.stop }

/-- What a step of any party can do. -/
inductive Move (c : Control) : List Event → Control → Prop where
  | render {events : List Event} {c' : Control} (move : c.RenderMove events c') : Move c events c'
  | present {events : List Event} {c' : Control} (move : c.PresentMove events c') : Move c events c'
  | producer {events : List Event} {c' : Control} (move : c.ProducerMove events c') :
      Move c events c'

end Control

end Scanout
