import Scanout.Proofs.Fault
import Scanout.Proofs.Video.Programming

/-!
# Unscaled screens

The ends of the columns and of the half-lines of a screen are read from ten bits. So an unscaled
screen is read as it was asked for up to 915 columns and 493 lines, and no larger one is.
-/

namespace Scanout.Screen

variable {origin width height start stop : Nat} {size : PixelSize}

/-- The registers of an unscaled screen, if they fit their words. -/
def ofSize (origin width height : Nat) (size : PixelSize) : Screen where
  status := statusOf size
  origin := origin
  width := width
  hStart := firstColumn * 0x10000 ||| (firstColumn + width)
  vStart := firstHalfLine * 0x10000 ||| (firstHalfLine + height * 2)
  xScale := unscaled
  yScale := unscaled

lemma simple_eq_ofSize (h : simple origin width height size ≠ .error .overflow) :
    simple origin width height size = .ok (ofSize origin width height size) := by
  rcases word32_eq_or (height * 2) with hdouble | hdouble
  · rcases word32_eq_or (firstHalfLine + height * 2) with hlines | hlines
    · rcases word32_eq_or (firstColumn + width) with hcolumns | hcolumns
      · simp only [simple, bind, Except.bind, hdouble, hlines, hcolumns]
        rfl
      · refine absurd ?_ h
        simp only [simple, bind, Except.bind, hdouble, hlines, hcolumns]
    · refine absurd ?_ h
      simp only [simple, bind, Except.bind, hdouble, hlines]
  · refine absurd ?_ h
    simp only [simple, bind, Except.bind, hdouble]

/-- A start and an end of sixteen bits do not meet in their register. -/
lemma span_or (hstart : start < 0x400) (hstop : stop < 0x10000) :
    span (start * 0x10000 ||| stop) = stop % 0x400 - start := by
  have hfields : start * 0x10000 ||| stop = 0x10000 * start + stop := by
    rw [Nat.mul_comm]
    exact (Nat.two_pow_add_eq_or_of_lt (i := 16) hstop start).symm
  rw [hfields, span]
  omega

lemma span_lt (register : Nat) : span register < 0x400 :=
  Nat.lt_of_le_of_lt (Nat.sub_le _ _) (Nat.mod_lt _ (by decide))

lemma height_ofSize : (ofSize origin width height size).height =
    span (firstHalfLine * 0x10000 ||| (firstHalfLine + height * 2)) / 2 := by
  have hscale : 0 < unscaled := by decide
  exact Nat.mul_div_cancel _ hscale

lemma visibleWidth_ofSize : (ofSize origin width height size).visibleWidth =
    min (span (firstColumn * 0x10000 ||| (firstColumn + width))) (width % 0x1000) := by
  have hscale : 0 < unscaled := by decide
  rw [visibleWidth]
  congr 1
  exact Nat.mul_div_cancel _ hscale

/-- The lines are read as they were asked for as long as the last half-line has ten bits. -/
lemma height_ofSize_iff : (ofSize origin width height size).height = height ↔ height ≤ 493 := by
  rw [height_ofSize]
  constructor
  · intro h
    have hspan := span_lt (firstHalfLine * 0x10000 ||| (firstHalfLine + height * 2))
    rw [span_or (by decide) (by rw [firstHalfLine]; omega), firstHalfLine] at h
    omega
  · intro h
    rw [span_or (by decide) (by rw [firstHalfLine]; omega), firstHalfLine]
    omega

/-- The columns are read as they were asked for as long as the last one has ten bits. -/
lemma columns_ofSize_iff :
    ((ofSize origin width height size).lineWidth = width ∧
      (ofSize origin width height size).visibleWidth = width) ↔ width ≤ 915 := by
  rw [visibleWidth_ofSize]
  change width % 0x1000 = width ∧ _ ↔ _
  constructor
  · rintro ⟨hline, hvisible⟩
    rw [span_or (by decide) (by rw [firstColumn]; omega), firstColumn] at hvisible
    omega
  · intro h
    rw [span_or (by decide) (by rw [firstColumn]; omega), firstColumn]
    omega

lemma size?_ofSize : (ofSize origin width height size).size? =
    some (if size = .bits32 then .bits32 else .bits16) := by
  cases size <;> rfl

/-- An unscaled screen whose registers fit their words is read as it was asked for exactly if it
has at most 915 columns and 493 lines. Then it shows the image at the low 24 bits of the origin, in
the larger two pixel sizes as they are, and is visible if it has pixels. Whatever a video interface
held before, it shows the same after it was programmed with the screen, in any order. -/
theorem simple_reads_iff (h : simple origin width height size ≠ .error .overflow) :
    ∃ s, simple origin width height size = .ok s ∧
      (s.lineWidth = width ∧ s.visibleWidth = width ∧ s.height = height ↔
        width ≤ 915 ∧ height ≤ 493) ∧
      (width ≤ 915 ∧ height ≤ 493 →
        s.address = origin % 0x1000000 ∧
        (size = .bits16 ∨ size = .bits32 → s.size? = some size) ∧
        (s.visible = true ↔ 0 < width ∧ 0 < height)) ∧
      ∀ v : VideoInterface,
        (∃ v', (v.program s).outcome = .ok v' ∧ v'.snapshot.reading = s.reading) ∧
        ∀ writes, writes.Perm (VideoInterface.settings s) →
          ∃ v', (v.writeAll writes).outcome = .ok v' ∧ v'.snapshot.reading = s.reading := by
  refine ⟨_, simple_eq_ofSize h, ?_, ?_, ?_⟩
  · rw [← and_assoc, columns_ofSize_iff, height_ofSize_iff]
  · rintro ⟨hcolumns, hlines⟩
    obtain ⟨hline, hvisible⟩ : (ofSize origin width height size).lineWidth = width ∧
      (ofSize origin width height size).visibleWidth = width := columns_ofSize_iff.mpr hcolumns
    have hheight : (ofSize origin width height size).height = height := height_ofSize_iff.mpr hlines
    refine ⟨rfl, ?_, ?_⟩
    · rintro (rfl | rfl) <;> rw [size?_ofSize] <;> rfl
    · simp only [visible, hline, hvisible, hheight, size?_ofSize, Option.isSome_some, Bool.true_and,
        Bool.and_eq_true, decide_eq_true_eq]
      omega
  · intro v
    refine ⟨?_, fun writes hwrites => VideoInterface.reading_of_writeAll hwrites⟩
    rw [VideoInterface.program_eq_writeAll]
    exact VideoInterface.reading_of_writeAll (List.Perm.refl _)

/-- The largest screen that is read as it was asked for, at an origin with bits above the lowest
24. -/
theorem largest_screen_read :
    ∃ s, simple 0x80100010 915 493 .bits32 = .ok s ∧
      s.lineWidth = 915 ∧ s.visibleWidth = 915 ∧ s.height = 493 ∧
      s.address = 0x100010 ∧ s.size? = some .bits32 ∧ s.visible = true ∧
      ∃ v', (VideoInterface.new.program s).outcome = .ok v' ∧
        v'.snapshot.reading = s.reading := by
  have hword : simple 0x80100010 915 493 .bits32 ≠ .error .overflow := by decide +kernel
  obtain ⟨s, hs, hreads, hsmall, hprogrammed⟩ := simple_reads_iff hword
  obtain ⟨hline, hvisible, hheight⟩ := hreads.mpr ⟨by decide, by decide⟩
  obtain ⟨haddress, hsize, hshown⟩ := hsmall ⟨by decide, by decide⟩
  refine ⟨s, hs, hline, hvisible, hheight, haddress, hsize (.inr rfl), ?_, ?_⟩
  · exact hshown.mpr ⟨by decide, by decide⟩
  · exact (hprogrammed VideoInterface.new).1

end Scanout.Screen
