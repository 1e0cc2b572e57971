import Mathlib.Tactic.Lemma
import Scanout.Fault

/-!
# Words that fit

When a number fits a word, and what a word is when it is read as one of the other kind.
-/

namespace Scanout

/-- A number that is checked comes out as it is, if it does. -/
lemma checked_eq_ok {α : Type} {fits : Prop} [Decidable fits] {a b : α} :
    (if fits then .ok a else .error .overflow : Except Fault α) = .ok b ↔ a = b ∧ fits := by
  by_cases hfits : fits
  · rw [if_pos hfits, Except.ok.injEq, and_iff_left hfits]
  · rw [if_neg hfits]
    exact iff_of_false nofun (fun h => hfits h.2)

lemma word32_eq_ok {n m : Nat} : word32 n = .ok m ↔ n = m ∧ n < 0x100000000 :=
  checked_eq_ok

/-- A word is checked with one of two outcomes. -/
lemma word32_eq_or (n : Nat) : word32 n = .ok n ∨ word32 n = .error .overflow := by
  by_cases h : n < 0x100000000
  · exact .inl (if_pos h)
  · exact .inr (if_neg h)

lemma signed32_eq_ok {i j : Int} :
    signed32 i = .ok j ↔ i = j ∧ -0x80000000 ≤ i ∧ i < 0x80000000 :=
  checked_eq_ok

lemma signed64_eq_ok {i j : Int} :
    signed64 i = .ok j ↔ i = j ∧ -0x8000000000000000 ≤ i ∧ i < 0x8000000000000000 :=
  checked_eq_ok

lemma wrapSigned32_of_word {n : Nat} (h : n < 0x100000000) :
    wrapSigned32 n = if n < 0x80000000 then (n : Int) else n - 0x100000000 := by
  simp only [wrapSigned32, Int.bmod]
  split <;> split <;> omega

lemma wrapSigned32_of_lt {n : Nat} (h : n < 0x80000000) : wrapSigned32 n = n := by
  rw [wrapSigned32_of_word (by omega), if_pos h]

/-- A signed word is below half a word. -/
lemma wrapSigned32_lt {i : Int} : wrapSigned32 i < 0x80000000 := by
  simp only [wrapSigned32, Int.bmod]
  split <;> omega

/-- To be read as a signed word does not make a number greater. -/
lemma wrapSigned32_le {n : Nat} : wrapSigned32 n ≤ n := by
  simp only [wrapSigned32, Int.bmod]
  split <;> omega

lemma wrapSigned32_eq_self_iff {n : Nat} : wrapSigned32 n = n ↔ n < 0x80000000 := by
  constructor
  · intro h
    have hlt := wrapSigned32_lt (i := n)
    omega
  · exact wrapSigned32_of_lt

/-- A word that is positive as a signed one is below half a word. -/
lemma lt_of_wrapSigned32_pos {n : Nat} (h : n < 0x100000000) (hpos : 0 < wrapSigned32 n) :
    n < 0x80000000 := by
  rw [wrapSigned32_of_word h] at hpos
  split at hpos <;> omega

/-- A word that was read as a signed one is read back. -/
lemma wrap32_wrapSigned32 {n : Nat} (h : n < 0x100000000) : wrap32 (wrapSigned32 n) = n := by
  rw [wrapSigned32_of_word h, wrap32]
  split <;> omega

/-- Below half a word the two ways of reading a word agree. -/
lemma toNat_wrapSigned32 {n : Nat} (h : n < 0x80000000) :
    (wrapSigned32 n).toNat = wrap32 (wrapSigned32 n) := by
  rw [wrap32_wrapSigned32 (by omega), wrapSigned32_of_lt h, Int.toNat_natCast]

lemma wrap32_wrapSigned32_sub_one {n : Nat} (h : n < 0x100000000) (hpos : 0 < n) :
    wrap32 (wrapSigned32 n - 1) = n - 1 := by
  rw [wrapSigned32_of_word h, wrap32]
  split <;> omega

end Scanout
