import Scanout.Note

/-!
# Ticks

The console emits workloads at its own rate while the display runs faster. Two accumulators decide
how many sub-frames a workload is shown in: each workload moves the logical ticks on by the target
rate, and each sub-frame the display ticks by the game rate. A sub-frame blends the previous and
the current workload by the distance of its display tick from the logical one.
-/

namespace Scanout

/-- One image of a workload: its place, and the weights of the previous and the current frame. -/
structure SubFrame where
  index : Nat
  previousWeight : Single
  currentWeight : Single
  deriving DecidableEq, Repr

namespace SubFrame

/-- The current frame alone. -/
def direct : SubFrame := ⟨0, 0, 1⟩

instance : Inhabited SubFrame := ⟨direct⟩

def fieldNames : List String := ["index", "prev_weight", "cur_weight"]

def toJson (s : SubFrame) : Json :=
  .ofMembers (fieldNames.zip
    [.ofNat s.index, .ofSingle s.previousWeight, .ofSingle s.currentWeight])

def ofJson? (j : Json) : Option SubFrame := do
  let r ← j.record? fieldNames
  return {
    index := ← r.required 0 Json.word64?
    previousWeight := ← r.required 1 Json.single?
    currentWeight := ← r.required 2 Json.single? }

end SubFrame

/-- The images of a workload, and whether they may blend with the frame before. -/
structure FramePlan where
  subFrames : List SubFrame
  matched : Bool
  /-- the ticks outstanding when the workload came in -/
  tickGap : Nat
  deriving DecidableEq, Repr

namespace FramePlan

/-- The current frame alone. -/
def direct : FramePlan := ⟨[.direct], false, 0⟩

instance : Inhabited FramePlan := ⟨direct⟩

def size (p : FramePlan) : Nat := p.subFrames.length

def fieldNames : List String := ["sub_frames", "matched", "tick_gap"]

def toJson (p : FramePlan) : Json :=
  .ofMembers (fieldNames.zip
    [.array (p.subFrames.map SubFrame.toJson), .bool p.matched, .ofNat p.tickGap])

def ofJson? (j : Json) : Option FramePlan := do
  let r ← j.record? fieldNames
  return {
    subFrames := ← r.required 0 (Json.list? SubFrame.ofJson?)
    matched := ← r.required 1 Json.bool?
    tickGap := ← r.required 2 Json.word64? }

end FramePlan

/-- Two rates in frames a second. -/
structure Rates where
  game : Nat
  target : Nat
  deriving DecidableEq, Repr, Inhabited

/-- The accumulators, and the rates that they count in. -/
structure Ticks where
  logical : Nat
  display : Nat
  rates : Option Rates
  deriving DecidableEq, Repr

namespace Ticks

def zero : Ticks := ⟨0, 0, none⟩

instance : Inhabited Ticks := ⟨zero⟩

/-- The ticks outstanding. -/
def gap (t : Ticks) : Nat := t.logical - t.display

/-- The target rate is above that of the game, so there is something to blend. -/
def interpolates (r : Rates) : Bool := 0 < r.game && r.game < r.target

/-- Ticks of different rates do not mix. -/
def restarted (t : Ticks) (r : Rates) : Ticks := if t.rates = some r then t else ⟨0, 0, some r⟩

/-- One workload comes in. No more than one workload and one image stay outstanding. -/
def advance (t : Ticks) (r : Rates) : Except Fault Ticks := do
  let logical ← word64 (t.logical + r.target)
  let display := if r.target + r.game < logical - t.display then logical - r.target else t.display
  return { t with logical, display }

/-- The number of images for the ticks outstanding, at least one. -/
def imageCount (t : Ticks) (r : Rates) : Nat := max (t.gap / r.game) 1

/-- The ticks from the image at place `index` to the workload. -/
def ahead (t : Ticks) (r : Rates) (index : Nat) : Except Fault Nat := do
  let at_ ← word64 (t.display + (← word64 ((index + 1) * r.game)))
  return t.logical - at_

/-- The image that lies `ahead` ticks before the workload. -/
def imageAhead (r : Rates) (index ahead : Nat) : SubFrame :=
  let current := ((1 : Single) - Single.ofNat ahead / Single.ofNat r.target).clamp 0 1
  ⟨index, 1 - current, current⟩

def images (t : Ticks) (r : Rates) (count : Nat) : Except Fault (List SubFrame) :=
  (List.range count).mapM fun index => do
    return imageAhead r index (← t.ahead r index)

/-- The images have been planned. -/
def consume (t : Ticks) (r : Rates) (count : Nat) : Except Fault Ticks := do
  return { t with display := ← word64 (t.display + (← word64 (count * r.game))) }

/-- Plan the images of one more workload; without interpolation it is shown as it is. -/
def plan (t : Ticks) (r : Rates) (enabled : Bool) : Traced (FramePlan × Ticks) := do
  if !enabled || !interpolates r then return (.direct, zero)
  match t.rates with
  | some old => Traced.noteWhen (old ≠ r) (.ratesChanged old.game old.target r.game r.target)
  | none => pure ()
  let t ← (t.restarted r).advance r
  let count := t.imageCount r
  let subFrames ← t.images r count
  return (⟨subFrames, true, t.gap⟩, ← t.consume r count)

end Ticks

end Scanout
