import Scanout.Pipeline.Shared

/-!
# Trial runs: the report

The report of a trial run: the rates, the counters of the pipeline, and of every frame how it was
blended. It is written as a data text; the times in it are the caller's.
-/

namespace Scanout.Trial

/-- What was shown. -/
structure Report where
  gameRate : Nat
  targetRate : Nat
  stats : Stats
  deriving Inhabited

/-- The times of a trial run, in milliseconds: numbers of the 64-bit format, by their bits. -/
structure Timing where
  elapsed : Nat
  /-- the mean time between two images -/
  interval : Nat
  deriving DecidableEq, Repr, Inhabited

/-- A weight, in the 64-bit format. -/
def weightToJson (x : Single) : Json := .ofDouble (Binary.binary64.encode x.value)

/-- How a frame was blended. -/
def frameToJson (f : FrameRecord) : Json :=
  .ofMembers [("matched", .bool f.matched), ("skipped", .bool f.skipped),
    ("weights", .array (f.subFrames.map fun s =>
      .array [weightToJson s.previousWeight, weightToJson s.currentWeight])),
    ("workload_id", .ofNat f.workloadId)]

namespace Report

/-- The members stand in the order of their names. -/
def toJson (r : Report) (t : Timing) : Json :=
  let s := r.stats
  .ofMembers [("elapsed_ms", .ofDouble t.elapsed),
    ("frames", .array (s.frameLog.map frameToJson)),
    ("frames_presented", .ofNat s.framesPresented),
    ("mean_present_interval_ms", .ofDouble t.interval),
    ("original_rate", .ofNat r.gameRate),
    ("presents_processed", .ofNat s.presentsProcessed),
    ("presents_skipped", .ofNat s.presentsSkipped),
    ("sub_frames_rendered", .ofNat s.subFramesRendered),
    ("sub_frames_skipped", .ofNat s.subFramesSkipped),
    ("target_rate", .ofNat r.targetRate),
    ("uploads", .ofNat s.uploads),
    ("workloads_rendered", .ofNat s.workloadsRendered)]

end Report

end Scanout.Trial
