import Scanout.Fault

/-!
# Pacing

How long to wait after an image so that images follow each other at the target rate. Waits are whole
milliseconds, end half a millisecond early and leave at least one millisecond of the period.
-/

namespace Scanout.Pacing

/-- The greatest elapsed time that is told apart, in microseconds. -/
def longest : Nat := 0x7FFFFFFFFFFFFFFF

/-- The part of the period that is never slept through, in microseconds. -/
def margin : Int := 500

/-- A millisecond, in microseconds. -/
def millisecond : Int := 1000

/-- The time for one image, in microseconds. -/
def period (target : Nat) : Int := (1000000 / target : Nat)

/-- The longest wait, of at most the given milliseconds, that leaves a millisecond of `left`. -/
def shorten (left : Int) : Nat → Nat
  | 0 => 0
  | ms + 1 => if left - (ms + 1) * millisecond < millisecond then shorten left ms else ms + 1

/-- The milliseconds to wait after an image on which `elapsed` microseconds were spent; none if the
images are not interpolated or the time is up. -/
def delay (target game elapsed : Nat) : Except Fault (Option Nat) := do
  if target = 0 ∨ target ≤ game then return none
  let left ← signed64 (period target - min elapsed longest)
  let remaining ← signed64 (left - margin)
  if remaining < millisecond then return none
  let wait := shorten left (remaining / millisecond).toNat
  return if 1 ≤ wait then some wait else none

end Scanout.Pacing
