import Scanout.Proofs.Fault
import Scanout.Proofs.Pipeline.Copying

/-!
# Uploads

An upload brings the rows of a rectangle. What a comparison with memory finds are whole rows of the
framebuffer, over its whole width. The bytes of a screen whose image was never rendered are whole
lines of the image, but the rectangle that they are uploaded to is as wide as the screen shows them.
-/

namespace Scanout

/-- The bytes are those of the rows of the rectangle. -/
def Rect.FilledBy (rect : Rect) (size : PixelSize) (data : ByteArray) : Prop :=
  ∃ width height row, rect.width = .ok width ∧ rect.height = .ok height ∧
    size.bytesFor width = .ok row ∧ data.size = height * row

/-- The bytes that the screen shows lie in memory. -/
def Screen.Inside (screen : Screen) (ram : ByteArray) : Prop :=
  ∀ count, screen.byteCount = .ok count → screen.address + count ≤ ram.size

/-- If a screen is submitted that shows an image, the image lies in memory. -/
def Action.ShowsInside : Action → Prop
  | .call (.submitPresent screen ram) => screen.visible = true → screen.Inside ram
  | _ => True

/-- The edges of the rectangle of a change are as they were found: the width is a word, and no edge
has become negative as a signed one. -/
def MemoryChange.Unwrapped (change : MemoryChange) : Prop :=
  change.width < 0x100000000 ∧ change.rect.isEmpty = false

namespace PixelSize

variable {size : PixelSize} {pixels bytes : Nat}

/-- Half a byte is rounded up; the other sizes take a number of bytes each. -/
lemma of_bytesFor (h : size.bytesFor pixels = .ok bytes) :
    size = .bits4 ∧ bytes = (pixels + 1) / 2 ∨ pixels ≤ bytes := by
  cases size with
  | bits4 => exact .inl ⟨rfl, (Except.ok.inj h).symm⟩
  | bits8 => exact .inr (Except.ok.inj h).le
  | bits16 | bits32 =>
    obtain ⟨rfl, -⟩ := word32_eq_ok.mp h
    exact .inr (by omega)

lemma bytesFor_zero : size.bytesFor 0 = .ok 0 := by cases size <;> rfl

end PixelSize

namespace Rect

variable {rect : Rect} {n : Nat}

lemma width_eq_ok : rect.width = .ok n ↔
    -0x80000000 ≤ rect.right - rect.left ∧ rect.right - rect.left < 0x80000000 ∧
      (rect.right - rect.left).toNat = n := by
  simp only [width, Except.bind_eq_ok_iff, signed32_eq_ok]
  constructor
  · rintro ⟨_, ⟨rfl, hlow, hhigh⟩, hn⟩
    exact ⟨hlow, hhigh, Except.ok.inj hn⟩
  · rintro ⟨hlow, hhigh, rfl⟩
    exact ⟨_, ⟨rfl, hlow, hhigh⟩, rfl⟩

lemma height_eq_ok : rect.height = .ok n ↔
    -0x80000000 ≤ rect.bottom - rect.top ∧ rect.bottom - rect.top < 0x80000000 ∧
      (rect.bottom - rect.top).toNat = n := by
  simp only [height, Except.bind_eq_ok_iff, signed32_eq_ok]
  constructor
  · rintro ⟨_, ⟨rfl, hlow, hhigh⟩, hn⟩
    exact ⟨hlow, hhigh, Except.ok.inj hn⟩
  · rintro ⟨hlow, hhigh, rfl⟩
    exact ⟨_, ⟨rfl, hlow, hhigh⟩, rfl⟩

end Rect

/-- What is found are whole rows of a framebuffer whose bytes have addresses. -/
lemma MemoryChange.Found.rows {change : MemoryChange} (h : change.Found) :
    ∃ stride first last : Nat, change.size.bytesFor change.width = .ok stride ∧ 0 < stride ∧
      first < last ∧ last * stride < 0x100000000 ∧
      change.rect = ⟨0, wrapSigned32 first, wrapSigned32 change.width, wrapSigned32 last⟩ ∧
      change.data.size = (last - first) * stride := by
  obtain ⟨fb, fb', ram, hcheck⟩ := h
  obtain ⟨region, stride, hregion, hstride, ⟨-, hnone, -⟩ | ⟨-, hchange, -⟩⟩ :=
    Framebuffer.check_eq_ok hcheck
  · cases hnone
  · obtain ⟨first, last, -, rfl, hpos, hlt, hle⟩ := Framebuffer.exists_of_changeFor hchange.symm
    have hlast : last * stride ≤ region.size := (Nat.le_div_iff_mul_le hpos).mp hle
    have hword := Framebuffer.address_add_size_region_lt hregion
    refine ⟨stride, first, last, hstride, hpos, hlt, by omega, rfl, ?_⟩
    simp only [Framebuffer.changeOf, ByteArray.size_extract]
    rw [Nat.min_eq_left hlast, Nat.sub_mul]

/-- A change fills its rectangle unless an edge was wrapped. -/
lemma MemoryChange.Found.filledBy_iff {change : MemoryChange} (h : change.Found) :
    change.rect.FilledBy change.size change.data ↔ change.Unwrapped := by
  obtain ⟨stride, first, last, hstride, hpos, hlt, hword, hrect, hdata⟩ := h.rows
  have hlast : last < 0x100000000 := (Nat.le_mul_of_pos_right last hpos).trans_lt hword
  have hfirst : first < 0x100000000 := hlt.trans hlast
  have hbytes : 0 < change.data.size := by
    rw [hdata]
    exact Nat.mul_pos (by omega) hpos
  simp only [Rect.FilledBy, Rect.width_eq_ok, Rect.height_eq_ok, Unwrapped, Rect.isEmpty, hrect,
    wrapSigned32_of_word hlast, wrapSigned32_of_word hfirst]
  constructor
  · rintro ⟨width, height, row, ⟨-, -, hwidth⟩, ⟨-, -, hheight⟩, hrow, hsize⟩
    -- neither the width nor the height is zero, as there are bytes
    have hrows : 0 < height * row := hsize ▸ hbytes
    have hheight_pos : 0 < height := Nat.pos_of_ne_zero (by rintro rfl; simp at hrows)
    have hwidth_pos : 0 < width := by
      refine Nat.pos_of_ne_zero ?_
      rintro rfl
      rw [PixelSize.bytesFor_zero] at hrow
      cases hrow
      exact Nat.lt_irrefl _ hrows
    have hshort : change.width < 0x100000000 := by
      by_contra hlong
      rcases PixelSize.of_bytesFor hstride with ⟨hsmall, hrounded⟩ | hle
      · -- a row of half a word is the only one, and longer than one of the wrapped width
        have hlast_le : last < 2 := by
          by_contra htwo
          have hlarge : 0x80000000 ≤ stride := by omega
          have hrows := Nat.mul_le_mul (not_lt.mp htwo) hlarge
          omega
        obtain rfl : last = 1 := by omega
        obtain rfl : first = 0 := by omega
        have hwrapped : wrapSigned32 change.width < 0x80000000 := wrapSigned32_lt
        rw [hsmall] at hrow
        cases hrow
        obtain rfl : 1 = height := by rw [← hheight]; rfl
        rw [hdata] at hsize
        omega
      · exact hlong (hle.trans_lt ((Nat.le_mul_of_pos_left stride (by omega)).trans_lt hword))
    refine ⟨hshort, ?_⟩
    simp only [Bool.or_eq_false_iff, decide_eq_false_iff_not, not_le]
    constructor
    · rw [← hwidth, Int.sub_zero, Int.lt_toNat] at hwidth_pos
      exact hwidth_pos
    · rw [← hheight, Int.lt_toNat] at hheight_pos
      exact Int.sub_pos.mp hheight_pos
  · rintro ⟨hwidth, hedges⟩
    rw [wrapSigned32_of_word hwidth] at hedges ⊢
    simp only [Bool.or_eq_false_iff, decide_eq_false_iff_not, not_le] at hedges
    refine ⟨change.width, last - first, stride, ?_, ?_, hstride, hdata⟩
    · split at hedges <;> split <;> omega
    · split at hedges <;> split <;> omega

namespace Screen

variable {screen : Screen}

lemma lineWidth_lt : screen.lineWidth < 0x1000 := Nat.mod_lt _ (by decide)

lemma visibleWidth_le : screen.visibleWidth ≤ screen.lineWidth := Nat.min_le_right _ _

lemma height_lt : screen.height < 0x800 := by
  have hspan : span screen.vStart < 0x400 := (Nat.sub_le _ _).trans_lt (Nat.mod_lt _ (by decide))
  have hscale : screen.yScale % 0x1000 < 0x1000 := Nat.mod_lt _ (by decide)
  have hproduct : span screen.vStart / 2 * (screen.yScale % 0x1000) ≤ 0x1FF * 0xFFF :=
    Nat.mul_le_mul (by omega) (by omega)
  rw [height]
  omega

lemma height_pos (visible : screen.visible = true) : 0 < screen.height := by
  simp only [Screen.visible, Bool.and_eq_true, decide_eq_true_iff] at visible
  exact visible.1.2

/-- The pixels of a visible screen take two or four bytes. -/
lemma bytesFor_of_visible (visible : screen.visible = true) :
    ∃ pixelBytes, 0 < pixelBytes ∧ pixelBytes ≤ 4 ∧ ∃ size, screen.size? = some size ∧
      ∀ pixels, pixels < 0x1000 * 0x800 → size.bytesFor pixels = .ok (pixels * pixelBytes) := by
  simp only [Screen.visible, Bool.and_eq_true] at visible
  obtain ⟨⟨⟨hsize, -⟩, -⟩, -⟩ := visible
  have hword : ∀ n, n < 0x100000000 → word32 n = .ok n := fun n hn => if_pos hn
  simp only [size?] at hsize ⊢
  split
  · exact ⟨2, by omega, by omega, .bits16, rfl, fun pixels hpixels => hword _ (by omega)⟩
  · exact ⟨4, by omega, by omega, .bits32, rfl, fun pixels hpixels => hword _ (by omega)⟩
  · simp_all

/-- The bytes of a screen fill the rectangle that it shows exactly if it shows its lines in full. -/
lemma filledBy_iff {ram storage : ByteArray} (visible : screen.visible = true)
    (inside : screen.Inside ram) (h : Pipeline.storageOf screen ram = .ok storage) :
    screen.visibleRect.FilledBy (screen.size?.getD .bits16) storage ↔
      screen.visibleWidth = screen.lineWidth := by
  obtain ⟨pixelBytes, hpos, hle, size, hsize, hbytes⟩ := bytesFor_of_visible visible
  have hline := screen.lineWidth_lt
  have hheight := screen.height_lt
  have hvisible := screen.visibleWidth_le
  have hpixels : screen.lineWidth * screen.height < 0x1000 * 0x800 :=
    Nat.mul_lt_mul_of_lt_of_lt hline hheight
  have hcount : screen.byteCount = .ok (screen.lineWidth * screen.height * pixelBytes) := by
    simp only [byteCount, hsize, word32]
    rw [if_pos (by omega)]
    exact hbytes _ hpixels
  have hstorage : storage.size = screen.lineWidth * screen.height * pixelBytes := by
    have hinside := inside _ hcount
    simp only [Pipeline.storageOf, hcount] at h
    cases h
    rw [ByteArray.size_extract]
    omega
  simp only [Rect.FilledBy, Rect.width_eq_ok, Rect.height_eq_ok, visibleRect, hsize,
    Option.getD_some, Int.sub_zero, Int.toNat_natCast]
  constructor
  · rintro ⟨_, _, row, ⟨-, -, rfl⟩, ⟨-, -, rfl⟩, hrow, hdata⟩
    rw [hbytes _ (by omega)] at hrow
    cases hrow
    rw [hstorage, Nat.mul_comm screen.lineWidth, Nat.mul_assoc] at hdata
    have hrows := Nat.eq_of_mul_eq_mul_left (height_pos visible) hdata
    exact (Nat.eq_of_mul_eq_mul_right hpos hrows).symm
  · intro hfull
    refine ⟨_, _, _, ⟨by omega, by omega, rfl⟩, ⟨by omega, by omega, rfl⟩, hbytes _ (by omega), ?_⟩
    rw [hstorage, hfull, Nat.mul_comm screen.lineWidth, Nat.mul_assoc]

end Screen

/-- The bytes of an upload were found changed in memory, or they are those of a screen. -/
inductive Brought (allowed : Action → Prop) : Rect → PixelSize → ByteArray → Prop where
  | change {change : MemoryChange} (found : change.Found) :
      Brought allowed change.rect change.size change.data
  | screen {screen : Screen} {ram storage : ByteArray}
      (submitted : allowed (.call (.submitPresent screen ram))) (visible : screen.visible = true)
      (read : Pipeline.storageOf screen ram = .ok storage) :
      Brought allowed screen.visibleRect (screen.size?.getD .bits16) storage

/-- What is uploaded was brought by the calls. -/
def Law.uploading (allowed : Action → Prop) : Law where
  Holds _
    | .upload _ rect size data => Brought allowed rect size data
    | _ => True
  mono {_ _ c} _ h := by cases c <;> exact h
  barrier _ _ := trivial
  draw _ _ := trivial

lemma Law.fits_uploading {allowed : Action → Prop} : (uploading allowed).Fits allowed where
  queued op hop := by
    cases hop with
    | upload found => exact fun _ _ => .change found
    | copyTile | reinterpret => exact fun _ _ _ _ _ => trivial
  bytes _ _ _ hallowed hvisible hread _ _ := .screen hallowed hvisible hread
  image _ _ _ _ _ _ _ := trivial

namespace Pipeline

/-- If every image that is shown lies in memory, each upload brings what was found changed in
memory, and fills its rectangle unless an edge was wrapped, or it brings the bytes of a screen, and
fills its rectangle exactly if the screen shows the lines of the image in full. -/
theorem uploads_filled_iff {host : Host} {config : Config} {start : Pipeline}
    {actions : List Action} (hstart : Pipeline.start host config = .ok start)
    (hbuilds : ∀ a ∈ actions, a.Builds) (hinside : ∀ a ∈ actions, a.ShowsInside) :
    ∀ commands ∈ (start.rendererAfter actions).lists, ∀ x rect size data,
      .upload x rect size data ∈ commands →
        (∃ change : MemoryChange, change.Found ∧ change.rect = rect ∧ change.size = size ∧
          change.data = data ∧ (rect.FilledBy size data ↔ change.Unwrapped)) ∨
        ∃ (screen : Screen) (ram : ByteArray), .call (.submitPresent screen ram) ∈ actions ∧
          screen.visible = true ∧ screen.visibleRect = rect ∧ screen.size? = some size ∧
          storageOf screen ram = .ok data ∧
          (rect.FilledBy size data ↔ screen.visibleWidth = screen.lineWidth) := by
  intro commands hcommands x rect size data hupload
  have hobeys := obeys_follow hstart hbuilds (fun a ha => And.intro ha (hinside a ha))
    Law.fits_uploading
  have hbrought : Brought _ rect size data := hobeys.lawful commands hcommands _ hupload
  cases hbrought with
  | change found => exact .inl ⟨_, found, rfl, rfl, rfl, found.filledBy_iff⟩
  | @screen screen ram _ submitted visible read =>
    obtain ⟨_, -, -, size, hsize, -⟩ := Screen.bytesFor_of_visible visible
    refine .inr ⟨screen, ram, submitted.1, visible, rfl, ?_, read,
      Screen.filledBy_iff visible (submitted.2 visible) read⟩
    rw [hsize]
    rfl

/-- A screen of one line at address 16 that shows one pixel of it. -/
def shortScreen (lineWidth : Nat) : Screen := ⟨2, 16, lineWidth, 0x6C006D, 0x250027, 0x400, 0x400⟩

/-- A screen is shown of which nothing was rendered. -/
def showing (screen : Screen) : List Action :=
  .call (.submitPresent screen blankRam) :: List.replicate 7 .present

lemma builds_showing (screen : Screen) : ∀ a ∈ showing screen, a.Builds := by
  intro a ha
  rcases List.mem_cons.mp ha with rfl | ha
  · trivial
  · rw [List.eq_of_mem_replicate ha]
    trivial

lemma showsInside_showing {screen : Screen} (h : screen.Inside blankRam) :
    ∀ a ∈ showing screen, a.ShowsInside := by
  intro a ha
  rcases List.mem_cons.mp ha with rfl | ha
  · exact fun _ => h
  · rw [List.eq_of_mem_replicate ha]
    trivial

/-- The bytes of a screen of full width. -/
theorem full_width_filled :
    .upload 1 ⟨0, 0, 1, 1⟩ .bits16 ⟨#[0, 0]⟩ ∈
        ((fresh .default).rendererAfter (showing (shortScreen 1))).commands ∧
      ((∃ change : MemoryChange, change.Found ∧ change.rect = ⟨0, 0, 1, 1⟩ ∧
          change.size = .bits16 ∧ change.data = ⟨#[0, 0]⟩ ∧
          (Rect.FilledBy ⟨0, 0, 1, 1⟩ .bits16 ⟨#[0, 0]⟩ ↔ change.Unwrapped)) ∨
        ∃ (screen : Screen) (ram : ByteArray),
          .call (.submitPresent screen ram) ∈ showing (shortScreen 1) ∧ screen.visible = true ∧
          screen.visibleRect = ⟨0, 0, 1, 1⟩ ∧ screen.size? = some .bits16 ∧
          storageOf screen ram = .ok ⟨#[0, 0]⟩ ∧
          (Rect.FilledBy ⟨0, 0, 1, 1⟩ .bits16 ⟨#[0, 0]⟩ ↔
            screen.visibleWidth = screen.lineWidth)) := by
  have hupload : .upload 1 ⟨0, 0, 1, 1⟩ .bits16 ⟨#[0, 0]⟩ ∈
      ((fresh .default).rendererAfter (showing (shortScreen 1))).commands := by decide +kernel
  have hinside : (shortScreen 1).Inside blankRam := by
    intro count hcount
    cases hcount
    decide
  exact ⟨hupload, uploads_filled_iff (start_fresh (by decide +kernel)) (builds_showing _)
    (showsInside_showing hinside) _ List.mem_cons_self _ _ _ _ hupload⟩

/-- The bytes of a screen that shows the first pixel of each line are more than its rectangle holds.
-/
theorem half_width_overfilled :
    (∀ a ∈ showing (shortScreen 2), a.Builds ∧ a.ShowsInside) ∧
      ((fresh .default).rendererAfter (showing (shortScreen 2))).device.submitted =
        [[.upload 1 ⟨0, 0, 1, 1⟩ .bits16 ⟨#[0, 0, 0, 0]⟩]] ∧
      ¬ Rect.FilledBy ⟨0, 0, 1, 1⟩ .bits16 ⟨#[0, 0, 0, 0]⟩ := by
  have hinside : (shortScreen 2).Inside blankRam := by
    intro count hcount
    cases hcount
    decide
  refine ⟨fun a ha => ⟨builds_showing _ a ha, showsInside_showing hinside a ha⟩,
    by decide +kernel, ?_⟩
  rintro ⟨width, height, row, hwidth, hheight, hrow, hsize⟩
  cases hwidth
  cases hheight
  cases hrow
  exact absurd hsize (by decide)

end Pipeline

end Scanout
