import Mathlib.Tactic.Ring
import Scanout.Proofs.Fault
import Scanout.Proofs.Rect
import Scanout.Proofs.Traced
import Scanout.Proofs.Workload.Words

/-!
# Copies of tiles

A region that is copied for a tile lies in the framebuffer, and as a part of the source image it was
loaded and covers all that is sampled. It is found by the distance of the two images, so many rows
down and so many columns to the right. A distance that is no multiple of the bytes of a pixel is
rounded down, and then the pixels copied are not those that the load would have read.
-/

namespace Scanout

namespace Rect

variable {a b r r' : Rect} {dx dy : Int}

/-- The rectangle moved to the right and down, whether or not its edges fit their words. -/
def moved (r : Rect) (dx dy : Int) : Rect :=
  ⟨r.left + dx, r.top + dy, r.right + dx, r.bottom + dy⟩

lemma eq_moved_of_shift (h : r.shift dx dy = .ok r') : r' = r.moved dx dy := by
  simp only [shift, Except.bind_eq_ok_iff, signed32_eq_ok] at h
  obtain ⟨_, ⟨rfl, -⟩, _, ⟨rfl, -⟩, _, ⟨rfl, -⟩, _, ⟨rfl, -⟩, h⟩ := h
  exact (Except.ok.inj h).symm

lemma intersection_eq_overlap (h : (a.intersection b).isEmpty = false) :
    a.intersection b = a.overlap b := by
  rw [intersection] at h ⊢
  split
  · rename_i hempty
    rw [if_pos hempty] at h
    cases h
  · rfl

/-- What overlaps something else has columns of its own. -/
lemma left_lt_right_of_overlap (h : (a.overlap b).isEmpty = false) : b.left < b.right :=
  calc b.left ≤ max a.left b.left := Int.le_max_right _ _
    _ < min a.right b.right := (isEmpty_eq_false_iff.mp h).1
    _ ≤ b.right := Int.min_le_right _ _

end Rect

namespace PixelSize

variable {size : PixelSize} {pixels stride : Nat}

/-- The bytes of a pixel; none if it has less than one. -/
def pixelBytes (size : PixelSize) : Nat := size.bits / 8

lemma bytesFor_two : size.bytesFor 2 = .ok (size.bits / 4) := by cases size <;> rfl

/-- Whole pixels fill a row without a rest. -/
lemma eq_mul_of_bytesFor (hpixel : 0 < size.pixelBytes) (h : size.bytesFor pixels = .ok stride) :
    stride = pixels * size.pixelBytes := by
  cases size with
  | bits4 => exact absurd hpixel (Nat.lt_irrefl 0)
  | bits8 =>
    obtain rfl := Except.ok.inj h
    exact (Nat.mul_one pixels).symm
  | bits16 => exact (word32_eq_ok.mp h).1.symm
  | bits32 => exact (word32_eq_ok.mp h).1.symm

end PixelSize

variable {tile : Tile} {fb : Framebuffer} {region : CopyRegion} {stride : Nat}

/-- The address of the pixel at column `x` of row `y` of an image. -/
def pixelAddress (address stride pixelBytes : Nat) (x y : Int) : Int :=
  address + y * stride + x * pixelBytes

/-- A distance is so many rows, so many pixels, and a rest of less than a pixel. -/
lemma distance_eq (distance : Nat) {pixelBytes : Nat} (h : pixelBytes ∣ stride) :
    (distance : Int) = (distance / stride : Nat) * stride +
      (distance % stride / pixelBytes : Nat) * pixelBytes + (distance % pixelBytes : Nat) := by
  have hrows := Nat.div_add_mod' distance stride
  have hpixels := Nat.div_add_mod' (distance % stride) pixelBytes
  rw [Nat.mod_mod_of_dvd distance h] at hpixels
  rw [← hpixels, ← Nat.add_assoc] at hrows
  exact_mod_cast hrows.symm

/-- The pixel that is found by the distance of two images is missed by the rest, and by the rows
that are not gone down. -/
lemma pixelAddress_eq (rows : Int) {base start pixelBytes : Nat} {x y : Int} (hle : base ≤ start)
    (h : pixelBytes ∣ stride) :
    pixelAddress start stride pixelBytes x y =
      pixelAddress base stride pixelBytes (x + ((start - base) % stride / pixelBytes : Nat))
        (y + rows) +
      ((((start - base) / stride : Nat) - rows) * stride +
        ((start - base) % pixelBytes : Nat)) := by
  have hstart : (start : Int) = base + (start - base : Nat) := by omega
  rw [pixelAddress, pixelAddress, hstart, distance_eq (start - base) h]
  ring

/-- Nothing is missed if there is no rest, and if the rows fit a signed word. -/
lemma missed_eq_zero_iff {rows rest : Nat} (hpos : 0 < stride) :
    ((rows : Int) - wrapSigned32 rows) * stride + rest = 0 ↔ rest = 0 ∧ rows < 2 ^ 31 := by
  have hle : wrapSigned32 rows ≤ rows := wrapSigned32_le
  have hmissed : 0 ≤ ((rows : Int) - wrapSigned32 rows) * stride :=
    Int.mul_nonneg (Int.sub_nonneg_of_le hle) (Int.natCast_nonneg stride)
  constructor
  · intro h
    have hrest : rest = 0 := by omega
    have hrows : ((rows : Int) - wrapSigned32 rows) * stride = 0 := by omega
    rcases Int.mul_eq_zero.mp hrows with hrows | hstride
    · exact ⟨hrest, wrapSigned32_eq_self_iff.mp (by omega)⟩
    · omega
  · rintro ⟨rfl, hrows⟩
    rw [wrapSigned32_of_lt hrows, Int.sub_self, Int.zero_mul]
    rfl

/-- The region lies in the framebuffer, and as a part of the source image it was loaded and covers
all that is sampled. -/
structure CopyRegion.Serves (region : CopyRegion) (tile : Tile) (fb : Framebuffer) : Prop where
  address : region.address = fb.address
  nonempty : region.fbRect.isEmpty = false
  left : 0 ≤ region.fbRect.left
  top : 0 ≤ region.fbRect.top
  right : region.fbRect.right ≤ fb.width
  bottom : region.fbRect.bottom ≤ fb.height
  width : region.tileRect.right - region.tileRect.left = region.fbRect.right - region.fbRect.left
  height : region.tileRect.bottom - region.tileRect.top = region.fbRect.bottom - region.fbRect.top
  loaded : tile.loadRect.contains region.tileRect = true
  sampled : region.tileRect.contains tile.sampleRect = true

lemma CopyRegion.Serves.isEmpty_tileRect (h : region.Serves tile fb) :
    region.tileRect.isEmpty = false := by
  have hnonempty := Rect.isEmpty_eq_false_iff.mp h.nonempty
  have hwidth := h.width
  have hheight := h.height
  rw [Rect.isEmpty_eq_false_iff]
  omega

namespace Tile

lemma fits_iff : tile.fits fb = true ↔ fb.wasWritten = true ∧ tile.size = fb.size ∧
    tile.width = fb.width ∧ fb.address ≤ tile.address := by
  simp only [fits, Bool.and_eq_true, decide_eq_true_iff, and_assoc]

/-- What is copied, in one piece. -/
lemma copyRegion?_eq_ok (h : (tile.copyRegion? fb).outcome = .ok (some region)) :
    tile.fits fb = true ∧ ∃ stride offset, fb.stride = .ok stride ∧ 0 < stride ∧
      0 < fb.size.pixelBytes ∧ offset = tile.offset fb stride fb.size.pixelBytes ∧
      region.address = fb.address ∧ region.fbRect.isEmpty = false ∧
      region.fbRect = (tile.loadRect.moved offset.1 offset.2).overlap fb.bounds ∧
      region.tileRect = region.fbRect.moved (-offset.1) (-offset.2) ∧
      region.tileRect.contains tile.sampleRect = true := by
  have hpixel : fb.size.bits / 4 / 2 = fb.size.pixelBytes := Nat.div_div_eq_div_mul _ 4 2
  simp only [copyRegion?, Bool.not_eq_true'] at h
  split at h
  · cases Traced.pure_eq_ok.mp h
  rename_i hfits
  simp only [Traced.bind_eq_ok, Traced.lift_eq_ok, PixelSize.bytesFor_two] at h
  obtain ⟨stride, hstride, _, hbytes, h⟩ := h
  obtain rfl := Except.ok.inj hbytes
  rw [hpixel] at h
  split at h
  · cases Traced.pure_eq_ok.mp h
  rename_i hpos
  rw [not_or] at hpos
  simp only [Traced.bind_eq_ok, Traced.lift_eq_ok] at h
  obtain ⟨loaded, hloaded, h⟩ := h
  split at h
  · cases Traced.pure_eq_ok.mp h
  rename_i hnonempty
  rw [Bool.not_eq_true] at hnonempty
  simp only [Traced.bind_eq_ok, Traced.lift_eq_ok] at h
  obtain ⟨tileRect, htileRect, h⟩ := h
  split at h
  · rename_i hsampled
    obtain rfl := Option.some.inj (Traced.pure_eq_ok.mp h)
    obtain rfl := Rect.eq_moved_of_shift hloaded
    exact ⟨Bool.eq_true_of_not_eq_false hfits, stride, _, hstride, Nat.pos_of_ne_zero hpos.1,
      Nat.pos_of_ne_zero hpos.2, rfl, rfl, hnonempty, Rect.intersection_eq_overlap hnonempty,
      Rect.eq_moved_of_shift htileRect, hsampled⟩
  · obtain ⟨_, -, h⟩ := Traced.bind_eq_ok.mp h
    cases Traced.pure_eq_ok.mp h

lemma serves_of_copyRegion? (h : (tile.copyRegion? fb).outcome = .ok (some region)) :
    region.Serves tile fb := by
  obtain ⟨-, stride, offset, -, -, -, -, haddress, hnonempty, hfbRect, htileRect, hsampled⟩ :=
    copyRegion?_eq_ok h
  have hwidth : wrapSigned32 fb.width ≤ fb.width := wrapSigned32_le
  have hheight : wrapSigned32 fb.height ≤ fb.height := wrapSigned32_le
  constructor
  case address => exact haddress
  case nonempty => exact hnonempty
  case sampled => exact hsampled
  case loaded =>
    simp only [Rect.contains, htileRect, hfbRect, Rect.moved, Rect.overlap, Bool.and_eq_true,
      decide_eq_true_iff]
    omega
  all_goals
    simp only [htileRect, hfbRect, Rect.moved, Rect.overlap, Framebuffer.bounds]
    omega

lemma offset_eq {pixelBytes : Nat} : tile.offset fb stride pixelBytes =
    (wrapSigned32 ((tile.address - fb.address) % stride / pixelBytes : Nat),
      wrapSigned32 ((tile.address - fb.address) / stride : Nat)) := by
  simp only [offset, Int.natCast_ediv, Int.natCast_emod]

/-- The columns between the two images fit a signed word, as the framebuffer has more of them. -/
lemma offset_fst_eq (htile : tile.InWords) (hfits : tile.fits fb = true)
    (hstride : fb.stride = .ok stride) (hpos : 0 < stride) (hpixel : 0 < fb.size.pixelBytes)
    (hwidth : 0 < wrapSigned32 fb.width) :
    (tile.offset fb stride fb.size.pixelBytes).1 =
      ((tile.address - fb.address) % stride / fb.size.pixelBytes : Nat) := by
  obtain ⟨-, -, hsame, -⟩ := fits_iff.mp hfits
  have hword : fb.width < 0x80000000 := lt_of_wrapSigned32_pos (hsame ▸ htile.2.1) hwidth
  simp only [offset_eq]
  apply wrapSigned32_of_lt (Nat.lt_trans ?_ hword)
  apply Nat.div_lt_of_lt_mul
  rw [Nat.mul_comm, ← PixelSize.eq_mul_of_bytesFor hpixel hstride]
  exact Nat.mod_lt _ hpos

/-- The region in the framebuffer is as many columns to the right and rows down as the tile begins
after the framebuffer, if the rows are read as a signed word. -/
lemma distance_of_copyRegion? (htile : tile.InWords)
    (h : (tile.copyRegion? fb).outcome = .ok (some region)) :
    ∃ stride, fb.stride = .ok stride ∧ 0 < stride ∧ fb.size.pixelBytes ∣ stride ∧
      region.fbRect.left - region.tileRect.left =
        ((tile.address - fb.address) % stride / fb.size.pixelBytes : Nat) ∧
      region.fbRect.top - region.tileRect.top =
        wrapSigned32 ((tile.address - fb.address) / stride : Nat) := by
  obtain ⟨hfits, stride, offset, hstride, hpos, hpixel, hoffset, -, hnonempty, hfbRect, htileRect,
    -⟩ := copyRegion?_eq_ok h
  have hwidth : 0 < wrapSigned32 fb.width := by
    have hbounds := Rect.left_lt_right_of_overlap (hfbRect ▸ hnonempty)
    simpa only [Framebuffer.bounds] using hbounds
  have hcolumns := offset_fst_eq htile hfits hstride hpos hpixel hwidth
  refine ⟨stride, hstride, hpos, ?_, ?_, ?_⟩
  · exact Dvd.intro_left _ (PixelSize.eq_mul_of_bytesFor hpixel hstride).symm
  · rw [← hcolumns, ← hoffset, htileRect, Rect.moved, sub_add_cancel_left, Int.neg_neg]
  · simp only [htileRect, Rect.moved, sub_add_cancel_left, Int.neg_neg, hoffset, offset_eq]

/-- A copy for a tile lies in the framebuffer, has the same size there as in the source image, was
loaded and covers all that is sampled. It shows the pixels that the load would have read exactly if
the tile begins at the start of a pixel of the framebuffer, and so near that the rows between fit a
signed word. -/
theorem copy_shows_load_iff (htile : tile.InWords)
    (h : (tile.copyRegion? fb).outcome = .ok (some region)) :
    region.Serves tile fb ∧ ∃ stride, fb.stride = .ok stride ∧
      tile.size.bytesFor tile.width = .ok stride ∧ fb.address ≤ tile.address ∧
      ((∀ x y, region.tileRect.Holds x y →
          pixelAddress tile.address stride tile.size.pixelBytes x y =
            pixelAddress fb.address stride fb.size.pixelBytes
              (x + (region.fbRect.left - region.tileRect.left))
              (y + (region.fbRect.top - region.tileRect.top))) ↔
        fb.size.pixelBytes ∣ tile.address - fb.address ∧
          (tile.address - fb.address) / stride < 2 ^ 31) := by
  have hserves := serves_of_copyRegion? h
  obtain ⟨stride, hstride, hpos, hdvd, hcolumns, hrows⟩ := distance_of_copyRegion? htile h
  obtain ⟨-, hsize, hwidth, hle⟩ := fits_iff.mp (copyRegion?_eq_ok h).1
  refine ⟨hserves, stride, hstride, by rw [hsize, hwidth]; exact hstride, hle, ?_⟩
  rw [hsize, hcolumns, hrows, Nat.dvd_iff_mod_eq_zero, ← missed_eq_zero_iff hpos]
  constructor
  · intro hsame
    have hcorner := hsame _ _ (Rect.holds_corner hserves.isEmpty_tileRect)
    rw [pixelAddress_eq _ hle hdvd] at hcorner
    exact add_eq_left.mp hcorner
  · intro hmissed x y _
    rw [pixelAddress_eq _ hle hdvd, hmissed, Int.add_zero]

/-- An image of two rows of four pixels that the device has written. -/
def writtenRows : Framebuffer := (Framebuffer.new 16 .bits16 4 2).recordWrite .color ⟨0, 0, 4, 2⟩ 1

/-- A tile at the third pixel of the second row, of which two pixels are in the image. -/
def inSecondRow : Tile := ⟨28, 4, .bits16, 0, ⟨0, 0, 4, 1⟩, ⟨0, 0, 2, 1⟩, 7⟩

theorem copy_in_second_row :
    ∃ region, (inSecondRow.copyRegion? writtenRows).outcome = .ok (some region) ∧
      region.fbRect = ⟨2, 1, 4, 2⟩ ∧ region.tileRect = ⟨0, 0, 2, 1⟩ ∧
      ∀ x y, region.tileRect.Holds x y →
        pixelAddress 28 8 2 x y = pixelAddress 16 8 2 (x + 2) (y + 1) := by
  have hcopy : (inSecondRow.copyRegion? writtenRows).outcome =
      .ok (some ⟨16, ⟨2, 1, 4, 2⟩, ⟨0, 0, 2, 1⟩⟩) := by
    decide +kernel
  obtain ⟨-, stride, hstride, -, -, hshows⟩ := copy_shows_load_iff (by decide) hcopy
  obtain rfl : 8 = stride := Except.ok.inj hstride
  exact ⟨_, hcopy, rfl, rfl, hshows.mpr (by decide)⟩

/-- An image of one row of two pixels that the device has written. -/
def writtenRow : Framebuffer := (Framebuffer.new 16 .bits16 2 1).recordWrite .color ⟨0, 0, 2, 1⟩ 1

/-- A tile that begins at the second byte of a pixel. -/
def betweenPixels : Tile := ⟨17, 2, .bits16, 0, ⟨0, 0, 1, 1⟩, ⟨0, 0, 1, 1⟩, 7⟩

/-- The pixel that is copied begins one byte before the texel. -/
theorem copy_between_pixels :
    ∃ region stride, (betweenPixels.copyRegion? writtenRow).outcome = .ok (some region) ∧
      writtenRow.stride = .ok stride ∧ region.tileRect.Holds 0 0 ∧
      pixelAddress betweenPixels.address stride betweenPixels.size.pixelBytes 0 0 ≠
        pixelAddress writtenRow.address stride writtenRow.size.pixelBytes
          (0 + (region.fbRect.left - region.tileRect.left))
          (0 + (region.fbRect.top - region.tileRect.top)) := by
  refine ⟨⟨16, ⟨0, 0, 1, 1⟩, ⟨0, 0, 1, 1⟩⟩, 4, ?_, rfl, ?_, ?_⟩
  · decide +kernel
  · decide
  · decide

end Tile

end Scanout
