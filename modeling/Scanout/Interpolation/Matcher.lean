import Scanout.Interpolation.Ticks
import Scanout.Workload.Basic

/-!
# Matching frames

A workload is blended with the one before if both have the same shape. The matcher plans the images
of each workload and keeps what the next one is blended with: transforms by their identity,
projections by pair and place, and shifts of textures by the place of the draw.
-/

namespace Scanout

/-- What the next workload is blended with. -/
structure PreviousFrame where
  topology : Topology
  transforms : List Transform
  projections : List (List Projection)
  scrolls : List Scroll
  deriving DecidableEq, Repr, Inhabited

namespace PreviousFrame

def ofWorkload (w : Workload) : PreviousFrame where
  topology := w.topology
  transforms := w.transforms
  projections := w.pairs.map Pair.projections
  scrolls := w.draws.map Draw.scroll

/-- The matrix of a transform; of several with one identity, the last. -/
def transform? (p : PreviousFrame) (id : Nat) : Option Matrix :=
  (p.transforms.reverse.find? (·.id = id)).map Transform.matrix

def projection? (p : PreviousFrame) (pair place : Nat) : Option Projection :=
  p.projections[pair]?.bind (·[place]?)

end PreviousFrame

/-- The ticks, and the frame before. -/
structure Matcher where
  ticks : Ticks
  previous : Option PreviousFrame
  deriving DecidableEq, Repr

namespace Matcher

def new : Matcher := ⟨.zero, none⟩

instance : Inhabited Matcher := ⟨new⟩

/-- The workload has the shape of the frame before. -/
def matchesPrevious (m : Matcher) (w : Workload) : Bool :=
  m.previous.any (·.topology = w.topology)

/-- Plan the images of a workload. One that does not match is shown as it is, but its ticks count.
-/
def plan (m : Matcher) (w : Workload) (target : Nat) (enabled : Bool) :
    Traced (FramePlan × Matcher) := do
  let (plan, ticks) ← m.ticks.plan ⟨w.gameRate, target⟩ (enabled && !w.paused)
  let m := { m with ticks }
  if !plan.matched || m.matchesPrevious w then return (plan, m)
  .note (.topologyChanged w.id plan.size)
  return ({ plan with subFrames := [.direct], matched := false }, m)

/-- The frame before takes part in the image. -/
def blends (s : SubFrame) : Bool := (0 : Single).lt s.previousWeight

/-- The matrix of the transform at a place. -/
def transform (m : Matcher) (w : Workload) (place : Nat) (s : SubFrame) : Except Fault Matrix := do
  let current ← fetch w.transforms place
  return match m.previous.bind (·.transform? current.id) with
    | some previous =>
      if blends s then previous.blend current.matrix s.currentWeight else current.matrix
    | none => current.matrix

/-- The matrix of a projection of a pair; rectangles are never blended. -/
def projection (m : Matcher) (w : Workload) (pair place : Nat) (s : SubFrame) :
    Except Fault Matrix := do
  let current ← fetch (← fetch w.pairs pair).projections place
  if current.kind = .rectangle ∨ s.previousWeight.le 0 then return current.matrix
  return match m.previous.bind (·.projection? pair place) with
    | some previous =>
      if previous.kind = current.kind then previous.matrix.blend current.matrix s.currentWeight
      else current.matrix
    | none => current.matrix

/-- The shift of the texture of the draw at a place. -/
def scroll (m : Matcher) (w : Workload) (place : Nat) (s : SubFrame) : Except Fault Scroll := do
  let current := (← fetch w.draws place).scroll
  return match m.previous.bind (·.scrolls[place]?) with
    | some previous =>
      if blends s then
        ⟨Matrix.blendComponent s.currentWeight previous.x current.x,
          Matrix.blendComponent s.currentWeight previous.y current.y⟩
      else current
    | none => current

/-- Blend the next workload with this one. -/
def remember (m : Matcher) (w : Workload) : Matcher := { m with previous := some (.ofWorkload w) }

end Matcher

end Scanout
