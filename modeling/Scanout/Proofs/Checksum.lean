import Mathlib.Logic.Function.Iterate
import Mathlib.Tactic.NormNum
import Scanout.Checksum

/-!
# What the checksum tells apart

One bit of the division is linear in exclusive or and loses nothing, so registers that differ go on
differing as long as the same bytes come. Up to four bytes enter the register as one word, and
nothing of a word is lost. Therefore two runs of bytes of one length that differ only within four
consecutive bytes have different checksums.
-/

namespace Scanout.Checksum

section Bit

variable {a b r : UInt32}

lemma shift_eq : shift r = if r.toNat % 2 = 1 then (r >>> 1) ^^^ polynomial else r >>> 1 := by
  have hlow : r &&& 1 = 0 ↔ ¬r.toNat % 2 = 1 := by
    rw [← UInt32.toNat_inj, UInt32.toNat_and, Nat.mod_two_not_eq_one]
    exact (congrArg (· = 0) (Nat.and_one_is_mod _)).to_iff
  simp only [shift, hlow, ite_not]

lemma toNat_shiftRight_one : (r >>> 1).toNat = r.toNat / 2 := by
  rw [UInt32.toNat_shiftRight]
  exact Nat.shiftRight_eq_div_pow _ 1

lemma xor_xor_xor_self (p : UInt32) : (a ^^^ p) ^^^ (b ^^^ p) = a ^^^ b := by
  rw [UInt32.xor_comm b p, ← UInt32.xor_assoc, UInt32.xor_assoc a p p, UInt32.xor_self,
    UInt32.xor_zero]

lemma shift_xor : shift (a ^^^ b) = shift a ^^^ shift b := by
  simp only [shift_eq, UInt32.toNat_xor, Nat.xor_mod_two_eq_one, UInt32.shiftRight_xor]
  by_cases ha : a.toNat % 2 = 1 <;> by_cases hb : b.toNat % 2 = 1 <;>
    simp only [ha, hb, iff_true, iff_false, iff_self, not_true_eq_false, not_false_eq_true,
      if_true, if_false]
  · exact (xor_xor_xor_self polynomial).symm
  · ac_rfl
  · ac_rfl

/-- The polynomial sets the highest bit, which shows whether a bit was moved out. -/
lemma shift_injective : Function.Injective shift := by
  have hmixed (a b : UInt32) : a >>> 1 ≠ (b >>> 1) ^^^ polynomial := by
    intro h
    have hpolynomial : (a >>> 1) ^^^ (b >>> 1) = polynomial := by
      rw [h, UInt32.xor_comm, ← UInt32.xor_assoc, UInt32.xor_self, UInt32.zero_xor]
    have hlt : ((a >>> 1) ^^^ (b >>> 1)).toNat < 2 ^ 31 := by
      rw [UInt32.toNat_xor, toNat_shiftRight_one, toNat_shiftRight_one]
      have ha := a.toNat_lt
      have hb := b.toNat_lt
      exact Nat.xor_lt_two_pow (by omega) (by omega)
    rw [hpolynomial] at hlt
    exact absurd hlt (by decide)
  have hrest {a b : UInt32} (hparity : a.toNat % 2 = 1 ↔ b.toNat % 2 = 1)
      (h : a >>> 1 = b >>> 1) : a = b := by
    have hhalf := congrArg UInt32.toNat h
    rw [toNat_shiftRight_one, toNat_shiftRight_one] at hhalf
    exact UInt32.toNat_inj.mp (by omega)
  intro a b h
  rw [shift_eq, shift_eq] at h
  split at h <;> split at h <;> rename_i ha hb
  · exact hrest (by simp [ha, hb]) ((UInt32.xor_left_inj polynomial).mp h)
  · exact absurd h.symm (hmixed b a)
  · exact absurd h (hmixed a b)
  · exact hrest (by simp [ha, hb]) h

lemma iterate_shift_xor {n : Nat} : shift^[n] (a ^^^ b) = shift^[n] a ^^^ shift^[n] b := by
  induction n generalizing a b with
  | zero => rfl
  | succ n ih => rw [Function.iterate_succ_apply, shift_xor, ih, ← Function.iterate_succ_apply,
      ← Function.iterate_succ_apply]

/-- As long as only bits that are not set are moved out, the register is moved down. -/
lemma toNat_iterate_shift {n k : Nat} (h : r.toNat = 2 ^ n * k) : (shift^[n] r).toNat = k := by
  induction n generalizing r with
  | zero => rw [Function.iterate_zero_apply, h, Nat.pow_zero, Nat.one_mul]
  | succ n ih =>
    rw [Nat.pow_succ', Nat.mul_assoc] at h
    rw [Function.iterate_succ_apply]
    apply ih
    rw [shift_eq, if_neg (by omega), toNat_shiftRight_one]
    omega

end Bit

section Bytes

variable {r r' : UInt32} {bytes bytes' : List UInt8}

/-- The bytes as a word, the first one lowest. -/
def word : List UInt8 → UInt32
  | [] => 0
  | byte :: rest => byte.toUInt32 ^^^ word rest <<< 8

lemma step_eq {byte : UInt8} : step r byte = shift^[8] (r ^^^ byte.toUInt32) := rfl

lemma toNat_shiftLeft_eight {w : UInt32} (h : w.toNat < 2 ^ 24) :
    (w <<< 8).toNat = 2 ^ 8 * w.toNat := by
  rw [UInt32.toNat_shiftLeft]
  change (w.toNat <<< 8) % 2 ^ 32 = _
  rw [Nat.shiftLeft_eq]
  omega

lemma iterate_shift_shiftLeft {w : UInt32} (h : w.toNat < 2 ^ 24) : shift^[8] (w <<< 8) = w :=
  UInt32.toNat_inj.mp (toNat_iterate_shift (toNat_shiftLeft_eight h))

lemma toNat_word_lt (h : bytes.length ≤ 3) : (word bytes).toNat < 2 ^ 24 := by
  suffices hlt : (word bytes).toNat < 2 ^ (8 * bytes.length) from
    Nat.lt_of_lt_of_le hlt (Nat.pow_le_pow_right (by decide) (by omega))
  induction bytes with
  | nil => decide
  | cons byte bytes ih =>
    rw [List.length_cons] at h
    have hrest := ih (by omega)
    have hsmall : (word bytes).toNat < 2 ^ 24 :=
      Nat.lt_of_lt_of_le hrest (Nat.pow_le_pow_right (by decide) (by omega))
    have hbyte : byte.toUInt32.toNat < 2 ^ 8 := byte.toNat_lt
    have hpow : 2 ^ (8 * (bytes.length + 1)) = 2 ^ 8 * 2 ^ (8 * bytes.length) := by
      rw [← Nat.pow_add, Nat.mul_succ, Nat.add_comm]
    rw [List.length_cons, word, UInt32.toNat_xor, toNat_shiftLeft_eight hsmall]
    exact Nat.xor_lt_two_pow
      (Nat.lt_of_lt_of_le hbyte (Nat.pow_le_pow_right (by decide) (by omega)))
      (hpow ▸ Nat.mul_lt_mul_of_pos_left hrest (by decide))

/-- Up to four bytes enter the register as one word. -/
lemma foldl_step (h : bytes.length ≤ 4) :
    bytes.foldl step r = shift^[8 * bytes.length] (r ^^^ word bytes) := by
  induction bytes generalizing r with
  | nil => exact UInt32.xor_zero.symm
  | cons byte bytes ih =>
    rw [List.length_cons] at h
    calc (byte :: bytes).foldl step r
        = shift^[8 * bytes.length] (step r byte ^^^ word bytes) := ih (by omega)
      _ = shift^[8 * bytes.length] (shift^[8] (r ^^^ byte.toUInt32 ^^^ word bytes <<< 8)) := by
          rw [step_eq, iterate_shift_xor (b := word bytes <<< 8),
            iterate_shift_shiftLeft (toNat_word_lt (by omega))]
      _ = shift^[8 * (bytes.length + 1)] (r ^^^ word (byte :: bytes)) := by
          rw [← Function.iterate_add_apply, word, UInt32.xor_assoc, Nat.mul_succ]

/-- The first byte is the low byte of the word. -/
lemma toUInt8_word {byte : UInt8} : (word (byte :: bytes)).toUInt8 = byte := by
  have hlow : (word bytes <<< 8).toUInt8 = 0 := by
    rw [← UInt8.toNat_inj, UInt32.toNat_toUInt8, UInt32.toNat_shiftLeft]
    change (word bytes).toNat <<< 8 % 2 ^ 32 % 2 ^ 8 = 0
    rw [Nat.shiftLeft_eq]
    omega
  rw [word, UInt32.toUInt8_xor, hlow, UInt8.xor_zero, UInt8.toUInt8_toUInt32]

lemma eq_of_word_eq (h : bytes.length ≤ 4) (hlength : bytes.length = bytes'.length)
    (hword : word bytes = word bytes') : bytes = bytes' := by
  induction bytes generalizing bytes' with
  | nil => exact (List.length_eq_zero_iff.mp hlength.symm).symm
  | cons byte bytes ih =>
    obtain _ | ⟨byte', bytes'⟩ := bytes'
    · cases hlength
    · rw [List.length_cons] at h
      rw [List.length_cons, List.length_cons, Nat.succ_inj] at hlength
      have hbyte : byte = byte' := by
        have hlow := congrArg UInt32.toUInt8 hword
        rwa [toUInt8_word, toUInt8_word] at hlow
      subst hbyte
      rw [word, word, UInt32.xor_right_inj] at hword
      have hrest : word bytes = word bytes' := by
        have hlt : (word bytes).toNat < 2 ^ 24 := toNat_word_lt (by omega)
        have hlt' : (word bytes').toNat < 2 ^ 24 := toNat_word_lt (by omega)
        rw [← iterate_shift_shiftLeft hlt, hword, iterate_shift_shiftLeft hlt']
      rw [ih (by omega) hlength hrest]

/-- From one register no two runs of up to four bytes lead to the same one. -/
lemma eq_of_foldl_step_eq (h : bytes.length ≤ 4) (hlength : bytes.length = bytes'.length)
    (hsame : bytes.foldl step r = bytes'.foldl step r) : bytes = bytes' := by
  rw [foldl_step h, foldl_step (hlength ▸ h), ← hlength] at hsame
  exact eq_of_word_eq h hlength
    ((UInt32.xor_right_inj r).mp (shift_injective.iterate _ hsame))

/-- Registers that differ go on differing. -/
lemma foldl_step_injective : Function.Injective fun r => bytes.foldl step r := by
  induction bytes with
  | nil => exact fun _ _ h => h
  | cons byte bytes ih =>
    intro r r' h
    have hstep : step r byte = step r' byte := ih h
    exact (UInt32.xor_left_inj _).mp (shift_injective.iterate 8 hstep)

/-- Before and after the four bytes the two runs are the same, and between them not one byte can
differ without the register telling. -/
lemma eq_of_near {p : Nat} (hlength : bytes.length = bytes'.length)
    (hnear : ∀ i, bytes[i]? ≠ bytes'[i]? → p ≤ i ∧ i < p + 4)
    (hsame : bytes.foldl step r = bytes'.foldl step r) : bytes = bytes' := by
  have hsplit (l : List UInt8) : l = l.take p ++ ((l.drop p).take 4 ++ l.drop (p + 4)) := by
    rw [← List.drop_drop, List.take_append_drop, List.take_append_drop]
  have hbefore : bytes.take p = bytes'.take p := by
    apply List.ext_getElem?
    intro i
    rw [List.getElem?_take, List.getElem?_take]
    split
    · by_contra hne
      exact absurd (hnear i hne).1 (by omega)
    · rfl
  have hafter : bytes.drop (p + 4) = bytes'.drop (p + 4) := by
    apply List.ext_getElem?
    intro i
    rw [List.getElem?_drop, List.getElem?_drop]
    by_contra hne
    exact absurd (hnear _ hne).2 (by omega)
  rw [hsplit bytes, hsplit bytes', hbefore, hafter, List.foldl_append, List.foldl_append,
    List.foldl_append, List.foldl_append] at hsame
  have hwithin : (bytes.drop p).take 4 = (bytes'.drop p).take 4 := by
    apply eq_of_foldl_step_eq (List.length_take_le _ _) ?_ (foldl_step_injective hsame)
    rw [List.length_take, List.length_take, List.length_drop, List.length_drop, hlength]
  rw [hsplit bytes, hsplit bytes', hbefore, hwithin, hafter]

end Bytes

section Runs

variable {a b bytes : ByteArray}

lemma getElem?_data {i : Nat} : bytes.data.toList[i]? = bytes[i]? := by
  by_cases h : i < bytes.size
  · rw [getElem?_pos bytes i h, List.getElem?_eq_getElem (by simpa using h)]
    rfl
  · rw [getElem?_neg bytes i h, List.getElem?_eq_none (by simpa using h)]

lemma foldlM_loop {α : Type} {f : α → UInt8 → α} {x : α} {i place : Nat}
    (h : place + i = bytes.size) :
    ByteArray.foldlM.loop (m := Id) (fun x byte => pure (f x byte)) bytes bytes.size
      (Nat.le_refl _) i place x = pure ((bytes.data.toList.drop place).foldl f x) := by
  induction i generalizing place x with
  | zero =>
    rw [ByteArray.foldlM.loop, dif_neg (by omega), List.drop_of_length_le (by simp; omega)]
    rfl
  | succ i ih =>
    rw [ByteArray.foldlM.loop, dif_pos (by omega),
      List.drop_eq_getElem_cons (by simp; omega)]
    exact ih (by omega)

/-- The checksum goes through the bytes one after the other. -/
lemma crc32_eq : crc32 bytes = bytes.data.toList.foldl step 0xFFFFFFFF ^^^ 0xFFFFFFFF := by
  rw [crc32, ByteArray.foldl, ByteArray.foldlM, dif_pos (Nat.le_refl _)]
  exact congrArg (· ^^^ 0xFFFFFFFF) (foldlM_loop (Nat.zero_add _))

/-- Runs of bytes of one length that differ only within four consecutive bytes have different
checksums. -/
lemma eq_of_crc32_eq {p : Nat} (hsize : a.size = b.size)
    (hnear : ∀ i, a[i]? ≠ b[i]? → p ≤ i ∧ i < p + 4) (hsame : crc32 a = crc32 b) : a = b := by
  rw [crc32_eq, crc32_eq, UInt32.xor_left_inj] at hsame
  have hbytes : a.data.toList = b.data.toList := by
    apply eq_of_near (p := p) hsize ?_ hsame
    intro i hne
    rw [getElem?_data, getElem?_data] at hne
    exact hnear i hne
  exact ByteArray.ext (Array.toList_inj.mp hbytes)

end Runs

end Scanout.Checksum
