import Scanout.Proofs.Pacing

/-!
# The arithmetic of waits

The wait after an image, computed with a check of every operation: a divisor must not be zero, and
all numbers must fit signed words of 64 bits. One operation can fail. The greatest time spent on an
image leaves no room for the margin that is taken off what is left of the period, if that is shorter
than the margin.
-/

namespace Scanout.Pacing

variable {target game elapsed ms : Nat} {time spent i j : Int} {fault : Fault}

/-- The quotient of signed words, rounded toward zero. -/
def quotient64 (i j : Int) : Except Fault Int :=
  if j = 0 then .error .zeroDivisor else signed64 (i.tdiv j)

/-- Count down to the longest wait that leaves a millisecond of the time, with all checks. -/
def shortenChecked (time spent : Int) : Nat → Except Fault Nat
  | 0 => return 0
  | ms + 1 => do
    let left ← signed64 (time - spent)
    let slept ← signed64 ((ms + 1) * millisecond)
    let rest ← signed64 (left - slept)
    if rest < millisecond then
      let _ ← signed64 ((ms + 1) - 1)
      shortenChecked time spent ms
    else return ms + 1

/-- The milliseconds to wait after an image, with all checks. -/
def delayChecked (target game elapsed : Nat) : Except Fault (Option Nat) := do
  if target = 0 ∨ target ≤ game then return none
  let time ← quotient64 1000000 target
  let spent : Int := (min elapsed longest : Nat)
  let left ← signed64 (time - spent)
  let remaining ← signed64 (left - margin)
  if remaining < millisecond then return none
  let first ← quotient64 remaining millisecond
  let wait ← shortenChecked time spent first.toNat
  return if 1 ≤ wait then some wait else none

lemma signed64_of_small (hlow : -1000000 ≤ i) (hhigh : i ≤ 1000000) : signed64 i = .ok i :=
  signed64_eq_ok.mpr ⟨rfl, by omega, by omega⟩

lemma quotient64_of_small (hi : 0 ≤ i) (hhigh : i ≤ 1000000) (hj : 0 < j) :
    quotient64 i j = .ok (i / j) := by
  rw [quotient64, if_neg (Int.ne_of_gt hj), Int.tdiv_eq_ediv_of_nonneg hi]
  have hpos : 0 ≤ i / j := Int.ediv_nonneg hi (Int.le_of_lt hj)
  have hle : i / j ≤ i := Int.ediv_le_self j hi
  exact signed64_of_small (by omega) (Int.le_trans hle hhigh)

/-- With a second left at most, the counts down stay within their words. -/
lemma shortenChecked_eq_ok (hleft : 0 ≤ time - spent) (hsecond : time - spent ≤ 1000000)
    (hms : ms ≤ 1000) : shortenChecked time spent ms = .ok (shorten (time - spent) ms) := by
  have htime : signed64 (time - spent) = .ok (time - spent) :=
    signed64_of_small (by omega) (by omega)
  induction ms with
  | zero => rfl
  | succ ms ih =>
    have hslept : signed64 ((ms + 1) * millisecond) = .ok ((ms + 1) * millisecond) :=
      signed64_of_small (by rw [millisecond]; omega) (by rw [millisecond]; omega)
    have hrest : signed64 (time - spent - (ms + 1) * millisecond) =
        .ok (time - spent - (ms + 1) * millisecond) :=
      signed64_of_small (by rw [millisecond]; omega) (by rw [millisecond]; omega)
    have hshorter : signed64 ((ms + 1) - 1) = .ok ((ms + 1) - 1) :=
      signed64_of_small (by omega) (by omega)
    rw [shortenChecked, shorten]
    refine Except.bind_eq_ok_iff.mpr ⟨_, htime, ?_⟩
    refine Except.bind_eq_ok_iff.mpr ⟨_, hslept, ?_⟩
    refine Except.bind_eq_ok_iff.mpr ⟨_, hrest, ?_⟩
    by_cases hshort : time - spent - (ms + 1) * millisecond < millisecond
    · rw [if_pos hshort, if_pos hshort]
      exact Except.bind_eq_ok_iff.mpr ⟨_, hshorter, ih (by omega)⟩
    · rw [if_neg hshort, if_neg hshort]
      rfl

lemma quotient64_period (htarget : target ≠ 0) :
    quotient64 1000000 target = .ok (period target) := by
  rw [quotient64_of_small (by decide) (by decide) (by omega), period]
  rfl

/-- A second at most is left, so the milliseconds to start counting from fit their word. -/
lemma quotient64_remaining (hlong : ¬remaining target elapsed - margin < millisecond) :
    quotient64 (remaining target elapsed - margin) millisecond =
      .ok ((remaining target elapsed - margin) / millisecond) := by
  have hsecond : remaining target elapsed ≤ 1000000 := remaining_le
  rw [margin, millisecond] at hlong
  apply quotient64_of_small
  · rw [margin]
    omega
  · rw [margin]
    omega
  · decide

/-- The count down from there cannot fail either. -/
lemma shortenChecked_remaining (hlong : ¬remaining target elapsed - margin < millisecond) :
    shortenChecked (period target) (min elapsed longest : Nat)
        ((remaining target elapsed - margin) / millisecond).toNat =
      .ok (shorten (remaining target elapsed)
        ((remaining target elapsed - margin) / millisecond).toNat) := by
  have hsecond : remaining target elapsed ≤ 1000000 := remaining_le
  rw [margin, millisecond] at hlong
  apply shortenChecked_eq_ok
  · change 0 ≤ remaining target elapsed
    omega
  · exact hsecond
  · rw [margin, millisecond]
    omega

/-- Of all operations only the last difference can leave its word. -/
lemma delayChecked_eq_delay : delayChecked target game elapsed = delay target game elapsed := by
  rw [delayChecked, delay]
  by_cases hrate : target = 0 ∨ target ≤ game
  · rw [if_pos hrate, if_pos hrate]
  · have htarget : target ≠ 0 := fun h => hrate (.inl h)
    have hleft : signed64 (period target - (min elapsed longest : Nat)) =
        .ok (remaining target elapsed) := signed64_remaining
    rw [if_neg hrate, if_neg hrate, ← remaining, quotient64_period htarget]
    simp only [bind, Except.bind, hleft, signed64_remaining]
    cases hword : signed64 (remaining target elapsed - margin) with
    | error f => rfl
    | ok rest =>
      obtain ⟨rfl, -⟩ := signed64_eq_ok.mp hword
      dsimp only
      by_cases hshort : remaining target elapsed - margin < millisecond
      · rw [if_pos hshort, if_pos hshort]
      · rw [if_neg hshort, if_neg hshort]
        simp only [quotient64_remaining hshort, shortenChecked_remaining hshort]

/-- What is left leaves its word without the margin only if the period is shorter than the margin,
which it is from a rate of 2005, and after about 292 thousand years. -/
lemma remaining_lt_iff : remaining target elapsed - margin < -0x8000000000000000 ↔
    1000000 / target < 499 ∧ 0x8000000000000000 - 500 + 1000000 / target < elapsed := by
  rw [remaining, period, margin, longest]
  omega

lemma period_lt_iff (htarget : 0 < target) : 1000000 / target < 499 ↔ 2004 < target := by
  rw [Nat.div_lt_iff_lt_mul htarget]
  omega

/-- With all its operations checked, the wait is what it is without, and is refused for no other
reason than an overflow: of the last difference, at rates above 2004 and once so much time was spent
that the margin leads below the least word. -/
theorem delay_overflows_iff (target game elapsed : Nat) :
    delayChecked target game elapsed = delay target game elapsed ∧
    ∀ fault, delayChecked target game elapsed = .error fault ↔
      fault = .overflow ∧ game < target ∧ 2004 < target ∧
        0x8000000000000000 - 500 + 1000000 / target < elapsed := by
  refine ⟨delayChecked_eq_delay, fun fault => ?_⟩
  rw [delayChecked_eq_delay]
  by_cases hrate : game < target
  · have hpos : 0 < target := Nat.zero_lt_of_lt hrate
    rw [delay_of_lt hrate, and_iff_right hrate, ← period_lt_iff hpos, ← remaining_lt_iff]
    by_cases hlow : -0x8000000000000000 ≤ remaining target elapsed - margin
    · rw [if_pos hlow]
      exact iff_of_false nofun (fun h => Int.not_lt.mpr hlow h.2)
    · rw [if_neg hlow, and_iff_left (Int.not_le.mp hlow), Except.error.injEq, eq_comm]
  · rw [delay_of_le (Nat.le_of_not_lt hrate)]
    exact iff_of_false nofun (fun h => hrate h.2.1)

/-- At a rate of 3000 the margin does not fit below the longest time that is told apart. -/
theorem longest_time_overflows :
    delayChecked 3000 30 longest = .error .overflow ∧ delay 3000 30 longest = .error .overflow := by
  have hlow : remaining 3000 longest - margin < -0x8000000000000000 :=
    remaining_lt_iff.mpr (by decide)
  have hdelay : delay 3000 30 longest = .error .overflow := by
    rw [delay_of_lt (by decide), if_neg (Int.not_le.mpr hlow)]
  exact ⟨delayChecked_eq_delay.trans hdelay, hdelay⟩

end Scanout.Pacing
