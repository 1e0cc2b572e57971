import Scanout.Proofs.Checksum
import Scanout.Proofs.Framebuffer.Rechecks

/-!
# Stores that checks find

A store of the CPU changes up to four consecutive bytes of memory. The checksum tells such a change
from the bytes last seen, wherever it lies and whatever is stored, so the next check of the image
hands out all rows that the store has changed.
-/

namespace Scanout

/-- The change hands out the row in which the byte at place `i` of the image lies, with this byte in
it. Rows are counted by the edges of the rectangle, read as words. -/
def MemoryChange.Brings (change : MemoryChange) (stride i : Nat) (byte : Option UInt8) : Prop :=
  wrap32 change.rect.top ≤ i / stride ∧ i / stride < wrap32 change.rect.bottom ∧
    change.data[i - wrap32 change.rect.top * stride]? = byte

namespace Framebuffer

/-- The framebuffers that the operations on framebuffers lead to. -/
inductive Reachable : Framebuffer → Prop
  | new (address : Nat) (size : PixelSize) (width height : Nat) :
      Reachable (new address size width height)
  | format {fb fb' : Framebuffer} (before : Reachable fb) (size : PixelSize) (width height : Nat)
      (formatted : (fb.reformat size width height).outcome = .ok fb') : Reachable fb'
  | forget {fb : Framebuffer} (before : Reachable fb) : Reachable fb.forget
  | recordWrite {fb : Framebuffer} (before : Reachable fb) (type : WriteType) (rect : Rect)
      (stamp : Nat) : Reachable (fb.recordWrite type rect stamp)
  | blend {fb : Framebuffer} (before : Reachable fb) (blendable : Bool) :
      Reachable { fb with blendable }
  | check {fb fb' : Framebuffer} {change : Option MemoryChange} (before : Reachable fb)
      (ram : ByteArray) (checked : (fb.check ram).outcome = .ok (change, fb')) : Reachable fb'

lemma Reachable.remembers {fb : Framebuffer} (h : fb.Reachable) : fb.Remembers := by
  induction h with
  | new address size width height => exact .new
  | format before size width height formatted ih =>
    rw [reformat_eq_ok] at formatted
    exact formatted ▸ ih.withFormat
  | forget before ih => exact .forget
  | recordWrite before type rect stamp ih => exact ih.recordWrite
  | blend before blendable ih =>
    exact ⟨ih.checksum, ih.unseen, ih.formatChanged, ih.readHeight, ih.size_le⟩
  | check before ram checked ih => exact ih.check checked

variable {fb seen fb' : Framebuffer} {ram ram' region : ByteArray} {change : Option MemoryChange}
  {stride p i : Nat}

/-- The byte at place `i` of the image is another one than was last seen. -/
def ByteDiffers (fb : Framebuffer) (ram : ByteArray) (i : Nat) : Prop :=
  i < fb.memory.size ∧ ram[fb.address + i]? ≠ fb.memory[i]?

lemma byteDiffers_iff (hregion : fb.region ram = .ok region)
    (hsize : region.size = fb.memory.size) :
    fb.ByteDiffers ram i ↔ region[i]? ≠ fb.memory[i]? := by
  by_cases hi : i < region.size
  · rw [ByteDiffers, getElem?_region hregion hi, ← hsize, and_iff_right hi]
  · have hi' : ¬i < fb.memory.size := hsize ▸ hi
    rw [ByteDiffers, getElem?_neg region i hi, getElem?_neg fb.memory i hi']
    exact iff_of_false (fun h => hi' h.1) (fun h => h rfl)

/-- Bytes that differ from those last seen, but only within four consecutive ones, are not taken for
them. -/
lemma not_recognizes_of_near (hfb : fb.Remembers) (hregion : fb.region ram = .ok region)
    (hsize : region.size = fb.memory.size)
    (hnear : ∀ i, fb.ByteDiffers ram i → p ≤ i ∧ i < p + 4) (hdiffers : fb.ByteDiffers ram i) :
    ¬fb.Recognizes region := by
  rintro ⟨-, hchecksum⟩
  have hsame : region = fb.memory := by
    apply Checksum.eq_of_crc32_eq (p := p) hsize ?_ (hfb.checksum _ hchecksum)
    intro i hi
    exact hnear i ((byteDiffers_iff hregion hsize).mpr hi)
  exact (byteDiffers_iff hregion hsize).mp hdiffers (congrArg (·[i]?) hsame)

lemma ByteDiffers.rowDiffers (h : fb.ByteDiffers ram i) (hregion : fb.region ram = .ok region)
    (hsize : region.size = fb.memory.size) (hrow : i < region.size / stride * stride) :
    fb.RowDiffers region stride (i / stride) := by
  have hpos : 0 < stride := Nat.pos_of_mul_pos_left (Nat.zero_lt_of_lt hrow)
  refine ⟨(Nat.div_lt_iff_lt_mul hpos).mpr hrow, i % stride, Nat.mod_lt i hpos, ?_⟩
  rw [Nat.div_add_mod']
  exact (byteDiffers_iff hregion hsize).mp h

lemma RowDiffers.mem_span {row : Nat} (h : fb.RowDiffers region stride row) :
    (fb.span region stride).1 ≤ row ∧ row < (fb.span region stride).2 := by
  by_contra hout
  obtain ⟨-, hsame⟩ := same_of_not_mem_span h.1 hout
  obtain ⟨-, column, hcolumn, hne⟩ := h
  exact hne (hsame column hcolumn)

/-- The rows that are handed out bring the bytes of the image. -/
lemma brings_changeOf {first last : Nat} (hregion : fb.region ram = .ok region) (hpos : 0 < stride)
    (hle : last ≤ region.size / stride) (hfirst : first ≤ i / stride) (hlast : i / stride < last) :
    (fb.changeOf region stride first last).Brings stride i ram[fb.address + i]? := by
  have hword : last < 0x100000000 := Nat.lt_of_le_of_lt hle (rows_lt hregion)
  have hbytes : last * stride ≤ region.size := (Nat.le_div_iff_mul_le hpos).mp hle
  have hstart : first * stride ≤ i := (Nat.le_div_iff_mul_le hpos).mp hfirst
  have hend : i < last * stride := (Nat.div_lt_iff_lt_mul hpos).mp hlast
  simp only [MemoryChange.Brings, changeOf, wrap32_wrapSigned32 hword,
    wrap32_wrapSigned32 (Nat.lt_of_le_of_lt hfirst (Nat.lt_trans hlast hword))]
  refine ⟨hfirst, hlast, ?_⟩
  rw [getElem?_extract (by omega), Nat.add_sub_cancel' hstart,
    getElem?_region hregion (by omega)]

/-- If a byte of a whole row differs, and only bytes near to it do, a check hands out the row of
each byte that differs. -/
lemma check_of_near (hfb : fb.Remembers) (hregion : fb.region ram = .ok region)
    (hread : fb.mustRead region = false) (hstride : fb.stride = .ok stride)
    (hnear : ∀ i, fb.ByteDiffers ram i → p ≤ i ∧ i < p + 4)
    (hstore : ∃ i < fb.readHeight * stride, fb.ByteDiffers ram i) :
    ∃ c fb'', (fb.check ram).outcome = .ok (some c, fb'') ∧
      ∀ i < fb.readHeight * stride, fb.ByteDiffers ram i →
        c.Brings stride i ram[fb.address + i]? ∧
        (fb.readHeight < 0x80000000 → c.rect.top ≤ (i / stride : Nat) ∧
          ((i / stride : Nat) : Int) < c.rect.bottom) := by
  obtain ⟨-, -, hsize⟩ := mustRead_eq_false_iff.mp hread
  have hheight : fb.readHeight = region.size / stride := by
    rw [hfb.readHeight stride hstride, hsize]
  rw [hheight] at hstore ⊢
  obtain ⟨place, hplace, hdiffers⟩ := hstore
  have hother := not_recognizes_of_near hfb hregion hsize.symm hnear hdiffers
  obtain ⟨change, fb'', hcheck⟩ := exists_check hregion
  obtain ⟨_, _, hregion', hstride', ⟨hrecognizes, -⟩ | ⟨-, hchange, -⟩⟩ := check_eq_ok hcheck <;>
    cases hregion.symm.trans hregion' <;> cases hstride.symm.trans hstride'
  · exact absurd hrecognizes hother
  · cases hrows : fb.changeFor region stride with
    | none =>
      rw [changeFor_eq_none_iff] at hrows
      rw [hrows, Nat.zero_mul] at hplace
      exact absurd hplace (Nat.not_lt_zero place)
    | some c =>
      refine ⟨c, fb'', by rw [hcheck, hchange, hrows], ?_⟩
      intro i hi hbyte
      obtain ⟨first, last, hspan, rfl, hpos, hlt, hle⟩ := exists_of_changeFor hrows
      have hrow := (hbyte.rowDiffers hregion hsize.symm hi).mem_span
      rw [hspan] at hrow
      refine ⟨brings_changeOf hregion hpos hle hrow.1 hrow.2, ?_⟩
      intro hfits
      simp only [changeOf, wrapSigned32_of_lt (Nat.lt_of_le_of_lt hle hfits),
        wrapSigned32_of_lt (Nat.lt_trans (Nat.lt_of_lt_of_le hlt hle) hfits)]
      exact ⟨Int.ofNat_le.mpr hrow.1, Int.ofNat_lt.mpr hrow.2⟩

/-- In memory of the same length the image is as long as before. -/
lemma exists_region (hregion : fb.region ram = .ok region) (hram : ram'.size = ram.size) :
    ∃ region', fb.region ram' = .ok region' ∧ region'.size = region.size := by
  obtain ⟨stop, hstop, rfl⟩ := region_eq_ok.mp hregion
  refine ⟨_, region_eq_ok.mpr ⟨stop, hstop, rfl⟩, ?_⟩
  rw [ByteArray.size_extract, ByteArray.size_extract, hram]

lemma SameMemory.remembers (h : fb.SameMemory fb') (hfb : fb.Remembers) : fb'.Remembers where
  checksum := by rw [h.checksum, h.memory]; exact hfb.checksum
  unseen := by rw [h.checksum, h.memory]; exact hfb.unseen
  formatChanged := by rw [h.formatChanged, h.checksum]; exact hfb.formatChanged
  readHeight := by rw [h.stride_eq, h.readHeight, h.memory]; exact hfb.readHeight
  size_le := by rw [h.stride_eq, h.memory, h.height]; exact hfb.size_le

lemma SameMemory.byteDiffers_iff (h : fb.SameMemory fb') :
    fb'.ByteDiffers ram i ↔ fb.ByteDiffers ram i := by
  rw [ByteDiffers, ByteDiffers, h.memory, h.address]

/-- No store is missed: after an image was checked, let memory of the same length differ from the
bytes last seen only within four consecutive ones, at least one of them in a whole row, while the
image keeps its format and height. Then the next check hands out a change, and it brings each byte
of a whole row that differs. -/
theorem stores_found (hfb : fb.Reachable) (hcheck : (fb.check ram).outcome = .ok (change, seen))
    (hquiet : seen.Quiet fb') (hram : ram'.size = ram.size) (hstride : seen.stride = .ok stride)
    (hnear : ∀ i, seen.ByteDiffers ram' i → p ≤ i ∧ i < p + 4)
    (hstore : ∃ i < seen.readHeight * stride, seen.ByteDiffers ram' i) :
    ∃ c fb'', (fb'.check ram').outcome = .ok (some c, fb'') ∧
      ∀ i < seen.readHeight * stride, seen.ByteDiffers ram' i →
        c.Brings stride i ram'[seen.address + i]? ∧
        (seen.readHeight < 0x80000000 → c.rect.top ≤ (i / stride : Nat) ∧
          ((i / stride : Nat) : Int) < c.rect.bottom) := by
  have hsame := SameMemory.of_quiet hquiet
  obtain ⟨region, hregion, hread, -⟩ := recognizes_of_check hcheck
  obtain ⟨region', hregion', hsize⟩ := exists_region hregion hram
  rw [mustRead_eq_false_iff, ← hsize, ← mustRead_eq_false_iff, ← hsame.mustRead_eq] at hread
  simp only [← hsame.byteDiffers_iff, ← hsame.readHeight, ← hsame.address] at hnear hstore ⊢
  exact check_of_near (hsame.remembers (hfb.remembers.check hcheck))
    (hsame.region_eq.trans hregion') hread (hsame.stride_eq.trans hstride) hnear hstore

/-- Memory before a store, with an image of two rows of two bytes from its second byte on. -/
def bytesBefore : ByteArray := ⟨#[9, 1, 2, 3, 4]⟩

/-- The store has changed the end of the first row and the beginning of the second. -/
def bytesAfter : ByteArray := ⟨#[9, 1, 8, 7, 4]⟩

theorem store_across_rows_found :
    ∃ seen c fb, ((new 1 .bits8 2 2).check bytesBefore).outcome = .ok (some c, seen) ∧
      ∃ c' : MemoryChange,
        ((seen.recordWrite .color ⟨0, 0, 2, 1⟩ 1).check bytesAfter).outcome = .ok (some c', fb) ∧
        c'.Brings 2 1 (some 8) ∧ c'.Brings 2 2 (some 7) := by
  have hcheck : ((new 1 .bits8 2 2).check bytesBefore).outcome =
      .ok (some ⟨1, .bits8, 2, ⟨0, 0, 2, 2⟩, ⟨#[1, 2, 3, 4]⟩⟩,
        (new 1 .bits8 2 2).seeing ⟨#[1, 2, 3, 4]⟩ 2) := by
    decide +kernel
  have hplaces : ∀ i < 4, bytesAfter[1 + i]? ≠ (#[1, 2, 3, 4] : Array UInt8)[i]? →
      1 ≤ i ∧ i < 1 + 4 := by
    decide +kernel
  have hsize : bytesAfter.size = bytesBefore.size := rfl
  obtain ⟨c, fb, hfound, hbrings⟩ := stores_found (.new 1 .bits8 2 2) hcheck
    (.single (.recordWrite _ .color ⟨0, 0, 2, 1⟩ 1)) hsize rfl (fun i hi => hplaces i hi.1 hi.2)
    ⟨1, by decide, by decide, by decide +kernel⟩
  exact ⟨_, _, _, hcheck, c, hfound, (hbrings 1 (by decide) ⟨by decide, by decide +kernel⟩).1,
    (hbrings 2 (by decide) ⟨by decide, by decide +kernel⟩).1⟩

end Framebuffer

end Scanout
