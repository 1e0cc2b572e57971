import Mathlib.Logic.Relation
import Scanout.Proofs.Framebuffer.Check

/-!
# Checks that find nothing new

Writing to a framebuffer, or asking for the format that it has, does not touch what it knows of its
memory, so a second check of the same memory finds nothing. The rows that a check does hand out are
no more than have to be: they begin and end with a row that differs, as long as any whole row does,
they lie in the image, and with them come exactly their bytes.
-/

namespace Scanout

namespace Framebuffer

variable {fb fb' : Framebuffer} {ram region : ByteArray} {change : Option MemoryChange}

/-- What is done to a framebuffer that is not about its memory: it is written to, the format that it
has is asked for with no greater height, or it may be blended or not. -/
inductive QuietStep : Framebuffer → Framebuffer → Prop
  | recordWrite (fb : Framebuffer) (type : WriteType) (rect : Rect) (stamp : Nat) :
      QuietStep fb (fb.recordWrite type rect stamp)
  | format {fb fb' : Framebuffer} {height : Nat} (low : height ≤ fb.height)
      (formatted : (fb.reformat fb.size fb.width height).outcome = .ok fb') : QuietStep fb fb'
  | blend (fb : Framebuffer) (blendable : Bool) : QuietStep fb { fb with blendable }

/-- Only such things are done, in any number. -/
def Quiet : Framebuffer → Framebuffer → Prop := Relation.ReflTransGen QuietStep

/-- The two are of one image, and know the same of its memory. -/
structure SameMemory (fb fb' : Framebuffer) : Prop where
  address : fb'.address = fb.address
  size : fb'.size = fb.size
  width : fb'.width = fb.width
  height : fb'.height = fb.height
  memory : fb'.memory = fb.memory
  checksum : fb'.checksum = fb.checksum
  readHeight : fb'.readHeight = fb.readHeight
  formatChanged : fb'.formatChanged = fb.formatChanged

namespace SameMemory

lemma refl : fb.SameMemory fb := ⟨rfl, rfl, rfl, rfl, rfl, rfl, rfl, rfl⟩

lemma trans {fb'' : Framebuffer} (h : fb.SameMemory fb') (h' : fb'.SameMemory fb'') :
    fb.SameMemory fb'' where
  address := h'.address.trans h.address
  size := h'.size.trans h.size
  width := h'.width.trans h.width
  height := h'.height.trans h.height
  memory := h'.memory.trans h.memory
  checksum := h'.checksum.trans h.checksum
  readHeight := h'.readHeight.trans h.readHeight
  formatChanged := h'.formatChanged.trans h.formatChanged

lemma of_quietStep (h : fb.QuietStep fb') : fb.SameMemory fb' := by
  cases h with
  | recordWrite type rect stamp => exact ⟨rfl, rfl, rfl, rfl, rfl, rfl, rfl, rfl⟩
  | @format _ height low formatted =>
    rw [reformat_eq_ok] at formatted
    have hsame : fb.differs fb.size fb.width = false := by simp [differs]
    rw [withFormat, hsame] at formatted
    subst formatted
    exact ⟨rfl, rfl, rfl, Nat.max_eq_left low, rfl, rfl, rfl, rfl⟩
  | blend blendable => exact ⟨rfl, rfl, rfl, rfl, rfl, rfl, rfl, rfl⟩

lemma of_quiet (h : fb.Quiet fb') : fb.SameMemory fb' := by
  induction h with
  | refl => exact refl
  | tail _ hstep ih => exact ih.trans (of_quietStep hstep)

lemma stride_eq (h : fb.SameMemory fb') : fb'.stride = fb.stride := by
  rw [stride, stride, h.size, h.width]

lemma region_eq (h : fb.SameMemory fb') : fb'.region ram = fb.region ram := by
  simp only [region, endAddress, byteCount, h.address, h.height, h.stride_eq]

lemma mustRead_eq (h : fb.SameMemory fb') : fb'.mustRead region = fb.mustRead region := by
  rw [mustRead, mustRead, h.formatChanged, h.checksum, h.memory]

lemma recognizes_iff (h : fb.SameMemory fb') : fb'.Recognizes region ↔ fb.Recognizes region := by
  rw [Recognizes, Recognizes, h.mustRead_eq, h.checksum]

end SameMemory

/-- Memory that is recognized is checked without a trace. -/
lemma check_of_recognizes (hregion : fb.region ram = .ok region) (h : fb.Recognizes region) :
    (fb.check ram).outcome = .ok (none, fb) := by
  obtain ⟨change, fb', hcheck⟩ := exists_check hregion
  obtain ⟨region', _, hregion', -, ⟨-, rfl, rfl⟩ | ⟨hother, -, -⟩⟩ := check_eq_ok hcheck
  · exact hcheck
  · cases hregion.symm.trans hregion'
    exact absurd h hother

/-- After a check memory is recognized. -/
lemma recognizes_of_check (h : (fb.check ram).outcome = .ok (change, fb')) :
    ∃ region, fb'.region ram = .ok region ∧ fb'.Recognizes region := by
  obtain ⟨region, stride, hregion, -, ⟨hrecognizes, -, rfl⟩ | ⟨-, -, rfl⟩⟩ := check_eq_ok h
  · exact ⟨region, hregion, hrecognizes⟩
  · exact ⟨region, hregion, mustRead_eq_false_iff.mpr ⟨rfl, rfl, rfl⟩, rfl⟩

/-- A whole row differs from the bytes last seen. -/
def RowDiffers (fb : Framebuffer) (region : ByteArray) (stride row : Nat) : Prop :=
  row < region.size / stride ∧
    ∃ column < stride, region[row * stride + column]? ≠ fb.memory[row * stride + column]?

/-- If any whole row differs, the rows that are handed out begin and end with one that does. -/
lemma rowDiffers_span {stride row : Nat} (hread : fb.mustRead region = false)
    (h : fb.RowDiffers region stride row) :
    fb.RowDiffers region stride (fb.span region stride).1 ∧
      fb.RowDiffers region stride ((fb.span region stride).2 - 1) := by
  have hne : dirtyRows region fb.memory stride (region.size / stride) ≠ [] :=
    List.ne_nil_of_mem (mem_dirtyRows.mpr h)
  have hspan : fb.span region stride = (List.head _ hne, List.getLast _ hne + 1) := by
    simp only [span, hread, Bool.false_eq_true, if_false, dirtySpan, List.head?_eq_some_head hne,
      List.getLast?_eq_some_getLast hne]
  rw [hspan]
  exact ⟨mem_dirtyRows.mp (List.head_mem hne), mem_dirtyRows.mp (List.getLast_mem hne)⟩

/-- The bytes of an image are those of memory from its address on. -/
lemma extract_region (start : Nat) {stop : Nat} (hregion : fb.region ram = .ok region)
    (hpos : 0 < stop) (hstop : stop ≤ region.size) :
    region.extract start stop = ram.extract (fb.address + start) (fb.address + stop) ∧
      fb.address + stop ≤ ram.size := by
  obtain ⟨end', -, rfl⟩ := region_eq_ok.mp hregion
  rw [ByteArray.size_extract] at hstop
  rw [ByteArray.extract_extract, Nat.min_eq_left (a := fb.address) (by omega),
    Nat.min_eq_left (by omega)]
  exact ⟨rfl, by omega⟩

lemma rect_changeOf {stride first last : Nat} (hfirst : first < 0x80000000)
    (hlast : last < 0x80000000) (hwidth : fb.width < 0x80000000) :
    (fb.changeOf region stride first last).rect = ⟨0, first, fb.width, last⟩ := by
  simp only [changeOf, wrapSigned32_of_lt hfirst, wrapSigned32_of_lt hlast,
    wrapSigned32_of_lt hwidth]

/-- Whatever was done to a framebuffer before, a second check of the same memory finds nothing and
changes nothing, as long as what is done in between is not about memory. If a check that does not
have to read all rows hands out rows while any whole row differs, the first and the last of them do.
Of an image whose width and height fit a signed word, at least one row is handed out, all in the
image, with exactly the bytes that memory holds there. -/
theorem checks_find_only_news (h : (fb.check ram).outcome = .ok (change, fb')) :
    (∀ fb'', fb'.Quiet fb'' →
      (fb''.check ram).outcome = .ok (none, fb'') ∧ fb'.SameMemory fb'') ∧
    ∀ c, change = some c → ∃ region stride, fb.region ram = .ok region ∧ fb.stride = .ok stride ∧
      (fb.mustRead region = false → (∃ row, fb.RowDiffers region stride row) →
        fb.RowDiffers region stride (wrap32 c.rect.top) ∧
        fb.RowDiffers region stride (wrap32 (c.rect.bottom - 1))) ∧
      (0 < fb.width → fb.width < 0x80000000 → fb.height < 0x80000000 →
        c.rect.isEmpty = false ∧ c.rect.left = 0 ∧ c.rect.right = fb.width ∧
        0 ≤ c.rect.top ∧ c.rect.bottom ≤ fb.height ∧
        c.data = ram.extract (fb.address + c.rect.top.toNat * stride)
          (fb.address + c.rect.bottom.toNat * stride) ∧
        fb.address + c.rect.bottom.toNat * stride ≤ ram.size) := by
  constructor
  · intro fb'' hquiet
    have hsame := SameMemory.of_quiet hquiet
    obtain ⟨region, hregion, hrecognizes⟩ := recognizes_of_check h
    exact ⟨check_of_recognizes (hsame.region_eq.trans hregion)
      (hsame.recognizes_iff.mpr hrecognizes), hsame⟩
  · rintro c rfl
    obtain ⟨region, stride, hregion, hstride, ⟨-, hnone, -⟩ | ⟨-, hchange, -⟩⟩ := check_eq_ok h
    · cases hnone
    obtain ⟨first, last, hspan, rfl, hpos, hlt, hle⟩ := exists_of_changeFor hchange.symm
    have hbytes : last * stride ≤ region.size := (Nat.le_div_iff_mul_le hpos).mp hle
    refine ⟨region, stride, hregion, hstride, ?_, ?_⟩
    · rintro hread ⟨row, hrow⟩
      have hends := rowDiffers_span hread hrow
      have hword : last < 0x100000000 := Nat.lt_of_le_of_lt hle (rows_lt hregion)
      rw [hspan] at hends
      simpa only [changeOf, wrap32_wrapSigned32 (Nat.lt_trans hlt hword),
        wrap32_wrapSigned32_sub_one hword (Nat.zero_lt_of_lt hlt)] using hends
    · intro hwidth_pos hwidth hheight
      have hrows : last ≤ fb.height :=
        Nat.le_trans hle (Nat.div_le_of_le_mul (size_region_le hregion hstride))
      obtain ⟨hdata, hend⟩ := extract_region (first * stride) hregion
        (Nat.mul_pos (Nat.zero_lt_of_lt hlt) hpos) hbytes
      rw [rect_changeOf (by omega) (by omega) hwidth]
      refine ⟨?_, rfl, rfl, Int.natCast_nonneg _, Int.ofNat_le.mpr hrows, hdata, hend⟩
      simp [Rect.isEmpty]
      omega

/-- Of an image of four rows three were read, and a part of the last one. -/
def partlyRead : Framebuffer := (new 1 .bits8 2 4).seeing ⟨#[1, 2, 3, 4, 5, 6, 7]⟩ 2

/-- The second row has changed, and the part of the last one. -/
def changedBytes : ByteArray := ⟨#[9, 1, 2, 3, 9, 5, 6, 9]⟩

theorem changed_row_found :
    ∃ c fb region, (partlyRead.check changedBytes).outcome = .ok (some c, fb) ∧
      c.rect = ⟨0, 1, 2, 2⟩ ∧ c.data = changedBytes.extract 3 5 ∧
      partlyRead.region changedBytes = .ok region ∧ partlyRead.mustRead region = false ∧
      partlyRead.RowDiffers region 2 1 ∧
      ((fb.recordWrite .color ⟨0, 0, 2, 1⟩ 1).check changedBytes).outcome =
        .ok (none, fb.recordWrite .color ⟨0, 0, 2, 1⟩ 1) := by
  have hcheck : (partlyRead.check changedBytes).outcome =
      .ok (some ⟨1, .bits8, 2, ⟨0, 1, 2, 2⟩, ⟨#[3, 9]⟩⟩,
        partlyRead.seeing ⟨#[1, 2, 3, 9, 5, 6, 9]⟩ 2) := by
    decide +kernel
  obtain ⟨hquiet, hnews⟩ := checks_find_only_news hcheck
  obtain ⟨region, stride, hregion, hstride, hends, hwithin⟩ := hnews _ rfl
  obtain rfl : ⟨#[1, 2, 3, 9, 5, 6, 9]⟩ = region := by
    have hbytes : partlyRead.region changedBytes = .ok ⟨#[1, 2, 3, 9, 5, 6, 9]⟩ := by
      decide +kernel
    exact Except.ok.inj (hbytes.symm.trans hregion)
  obtain rfl : 2 = stride := Except.ok.inj hstride
  have hread : partlyRead.mustRead ⟨#[1, 2, 3, 9, 5, 6, 9]⟩ = false := by decide +kernel
  have hrow : partlyRead.RowDiffers ⟨#[1, 2, 3, 9, 5, 6, 9]⟩ 2 1 :=
    mem_dirtyRows.mp (by decide +kernel)
  obtain ⟨-, -, -, -, -, hdata, -⟩ := hwithin (by decide) (by decide) (by decide)
  exact ⟨_, _, _, hcheck, rfl, hdata, hregion, hread, (hends hread ⟨1, hrow⟩).1,
    (hquiet _ (.single (.recordWrite _ _ _ _))).1⟩

end Framebuffer

end Scanout
