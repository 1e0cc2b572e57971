import Scanout.Pacing
import Scanout.Proofs.Fault
import Scanout.Proofs.Traced

/-!
# Waits between images

The wait after an image is found by counting down whole milliseconds until one of the period is
left. It is one millisecond less than there are left, at every rate and however late it is, and
there is none if fewer than two are left.
-/

namespace Scanout.Pacing

variable {target game elapsed : Nat} {left : Int}

/-- What is left of the period, in microseconds. -/
def remaining (target elapsed : Nat) : Int := period target - min elapsed longest

/-- Counting down stops at the longest wait that leaves a millisecond, unless it starts below. -/
lemma shorten_eq_min (ms : Nat) : shorten left ms = min ms (left / millisecond - 1).toNat := by
  induction ms with
  | zero => rw [shorten, Nat.zero_min]
  | succ ms ih =>
    rw [shorten]
    by_cases hshort : left - (ms + 1) * millisecond < millisecond
    · have hle : (left / millisecond - 1).toNat ≤ ms := by
        simp only [millisecond] at hshort ⊢
        omega
      rw [if_pos hshort, ih, Nat.min_eq_right hle, Nat.min_eq_right (Nat.le_succ_of_le hle)]
    · have hle : ms + 1 ≤ (left / millisecond - 1).toNat := by
        simp only [millisecond] at hshort ⊢
        omega
      rw [if_neg hshort, Nat.min_eq_left hle]

/-- The count starts high enough, because the margin is below a millisecond. -/
lemma shorten_of_margin :
    shorten left ((left - margin) / millisecond).toNat = (left / millisecond - 1).toNat := by
  rw [shorten_eq_min]
  apply Nat.min_eq_right
  apply Int.toNat_le_toNat
  simp only [margin, millisecond]
  omega

lemma remaining_le : remaining target elapsed ≤ 1000000 :=
  calc remaining target elapsed ≤ period target := Int.sub_le_self _ (Int.natCast_nonneg _)
    _ ≤ 1000000 := Int.ofNat_le.mpr (Nat.div_le_self _ _)

lemma signed64_remaining :
    signed64 (remaining target elapsed) = .ok (remaining target elapsed) := by
  have hle : remaining target elapsed ≤ 1000000 := remaining_le
  have hpos : 0 ≤ period target := Int.natCast_nonneg _
  refine signed64_eq_ok.mpr ⟨rfl, ?_, by omega⟩
  simp only [remaining, longest]
  omega

/-- With two milliseconds left there is one to wait for, and the other way round. -/
lemma wait_eq :
    (if left - margin < millisecond then none
      else if 1 ≤ (left / millisecond - 1).toNat then some (left / millisecond - 1).toNat
      else none) =
    if 2000 ≤ left then some (left / 1000 - 1).toNat else none := by
  rw [margin, millisecond]
  by_cases hlong : 2000 ≤ left
  · have hmargin : ¬left - 500 < 1000 := by omega
    have hwait : 1 ≤ (left / 1000 - 1).toNat := by omega
    rw [if_neg hmargin, if_pos hwait, if_pos hlong]
  · have hwait : ¬1 ≤ (left / 1000 - 1).toNat := by omega
    rw [if_neg hwait, if_neg hlong, ite_self]

/-- The wait in one expression. What is left may leave its word without the margin, but only if the
period is shorter than the margin. -/
lemma delay_of_lt (hrate : game < target) :
    delay target game elapsed =
      if -0x8000000000000000 ≤ remaining target elapsed - margin then
        .ok (if 2000 ≤ remaining target elapsed then
          some (remaining target elapsed / 1000 - 1).toNat else none)
      else .error .overflow := by
  have hraised : ¬(target = 0 ∨ target ≤ game) := by omega
  rw [delay, if_neg hraised, ← remaining, signed64_remaining, ← wait_eq]
  by_cases hlow : -0x8000000000000000 ≤ remaining target elapsed - margin
  · have hhigh : remaining target elapsed - margin < 0x8000000000000000 := by
      have hle : remaining target elapsed ≤ 1000000 := remaining_le
      rw [margin]
      omega
    simp only [bind, Except.bind, signed64_eq_ok.mpr ⟨rfl, hlow, hhigh⟩, shorten_of_margin,
      if_pos hlow]
    split <;> rfl
  · have hword : signed64 (remaining target elapsed - margin) = .error .overflow :=
      if_neg (fun h => hlow h.1)
    simp only [bind, Except.bind, hword, if_neg hlow]

lemma delay_of_le (hrate : target ≤ game) : delay target game elapsed = .ok none := by
  rw [delay, if_pos (.inr hrate)]
  rfl

/-- Unless the time leaves its word, an image is waited for exactly if the rate is raised and two
milliseconds are left, and then for one millisecond less than are left. Such a wait is one
millisecond at least, and leaves one of the period but not two. -/
theorem delay_closed_form (h : delay target game elapsed ≠ .error .overflow) :
    ∃ wait, delay target game elapsed = .ok wait ∧
      ∀ n : Nat, (wait = some n ↔ game < target ∧ 2000 ≤ remaining target elapsed ∧
          (n : Int) = remaining target elapsed / 1000 - 1) ∧
        (wait = some n → 1 ≤ n ∧ 1000 ≤ remaining target elapsed - n * 1000 ∧
          remaining target elapsed - n * 1000 < 2000) := by
  by_cases hrate : game < target
  · rw [delay_of_lt hrate] at h ⊢
    have hlow : -0x8000000000000000 ≤ remaining target elapsed - margin := by
      by_contra hlow
      exact h (if_neg hlow)
    refine ⟨_, if_pos hlow, ?_⟩
    intro n
    by_cases hlong : 2000 ≤ remaining target elapsed
    · rw [if_pos hlong, Option.some_inj, and_iff_right hlong, and_iff_right hrate]
      omega
    · rw [if_neg hlong]
      exact ⟨iff_of_false (Option.some_ne_none n).symm (fun h => hlong h.2.1), nofun⟩
  · refine ⟨none, delay_of_le (Nat.le_of_not_lt hrate), ?_⟩
    intro n
    exact ⟨iff_of_false (Option.some_ne_none n).symm (fun h => hrate h.1), nofun⟩

/-- At 60 images a second, 5 of 16 milliseconds are used, and 10 are waited for. -/
theorem delay_at_sixty : delay 60 30 5000 = .ok (some 10) := by
  have hremaining : remaining 60 5000 = 11666 := by decide
  have hword : delay 60 30 5000 ≠ .error .overflow := by decide +kernel
  obtain ⟨wait, hdelay, hwait⟩ := delay_closed_form hword
  have hten : wait = some 10 := by
    rw [(hwait 10).1, hremaining]
    decide
  rw [hdelay, hten]

end Scanout.Pacing
