import Mathlib.Data.List.Nodup
import Scanout.Proofs.Traced
import Scanout.Video.Interface

/-!
# Programming the video interface

A write to the video interface changes one register. After writes to different registers each of
them holds what was written to it, cut to its bits, in whatever order they were written. The bits
that are cut off are not read off a screen either, so an interface that was programmed with a screen
shows just that screen.
-/

namespace Scanout

/-- All that is read off a screen. -/
structure Reading where
  address : Nat
  lineWidth : Nat
  size? : Option PixelSize
  height : Nat
  visibleWidth : Nat
  visible : Bool
  byteCount : Except Fault Nat

namespace Screen

variable {s s' : Screen} {register : Nat}

def reading (s : Screen) : Reading where
  address := s.address
  lineWidth := s.lineWidth
  size? := s.size?
  height := s.height
  visibleWidth := s.visibleWidth
  visible := s.visible
  byteCount := s.byteCount

/-- The screen with the bits only that the registers of the video interface keep. -/
def kept (s : Screen) : Screen where
  status := s.status % VideoRegister.status.capacity
  origin := s.origin % VideoRegister.origin.capacity
  width := s.width % VideoRegister.width.capacity
  hStart := s.hStart % VideoRegister.hStart.capacity
  vStart := s.vStart % VideoRegister.vStart.capacity
  xScale := s.xScale % VideoRegister.xScale.capacity
  yScale := s.yScale % VideoRegister.yScale.capacity

/-- Whether a screen is visible, and how many bytes it takes, follows from the rest. -/
lemma reading_congr (haddress : s.address = s'.address) (hline : s.lineWidth = s'.lineWidth)
    (hsize : s.size? = s'.size?) (hheight : s.height = s'.height)
    (hvisible : s.visibleWidth = s'.visibleWidth) : s.reading = s'.reading := by
  simp only [reading, visible, byteCount, haddress, hline, hsize, hheight, hvisible]

lemma span_mod_word : span (register % 0x100000000) = span register := by
  simp only [span]
  omega

lemma size?_kept : s.kept.size? = s.size? := by
  have hstatus : s.kept.status % 4 = s.status % 4 := Nat.mod_mod_of_dvd _ (by decide)
  simp only [size?, hstatus]

lemma height_kept : s.kept.height = s.height := by
  have hspan : span s.kept.vStart = span s.vStart := span_mod_word
  have hscale : s.kept.yScale % 0x1000 = s.yScale % 0x1000 := Nat.mod_mod _ _
  simp only [height, hspan, hscale]

lemma visibleWidth_kept : s.kept.visibleWidth = s.visibleWidth := by
  have hspan : span s.kept.hStart = span s.hStart := span_mod_word
  have hscale : s.kept.xScale % 0x1000 = s.xScale % 0x1000 := Nat.mod_mod _ _
  have hline : s.kept.lineWidth = s.lineWidth := Nat.mod_mod _ _
  simp only [visibleWidth, hspan, hscale, hline]

/-- The bits that the registers do not keep are not read. -/
lemma reading_kept : s.kept.reading = s.reading :=
  reading_congr (Nat.mod_mod _ _) (Nat.mod_mod _ _) size?_kept height_kept visibleWidth_kept

end Screen

namespace VideoRegister

lemma ofOffset?_offset (r : VideoRegister) : ofOffset? r.offset = some r := by
  cases r <;> rfl

end VideoRegister

namespace VideoInterface

variable {v : VideoInterface} {r r' : VideoRegister} {value : Nat}
  {writes : List (VideoRegister × Nat)} {s : Screen}

/-- A write changes one register, and cuts the value to its bits. -/
lemma contents_write : (v.write r.offset value).contents r' =
    if r' = r then value % r.capacity else v.contents r' := by
  simp only [write, VideoRegister.ofOffset?_offset]

/-- Write several registers, one after the other. -/
def writeAll (v : VideoInterface) (writes : List (VideoRegister × Nat)) : Traced VideoInterface :=
  writes.foldlM (fun v (r, value) => v.writeTraced r.offset value) v

/-- The interface after several writes. -/
def written (v : VideoInterface) (writes : List (VideoRegister × Nat)) : VideoInterface :=
  writes.foldl (fun v (r, value) => v.write r.offset value) v

lemma program_eq_writeAll : v.program s = v.writeAll (settings s) := rfl

/-- Writes never fail. -/
lemma outcome_writeAll : (v.writeAll writes).outcome = .ok (v.written writes) := by
  induction writes generalizing v with
  | nil => rfl
  | cons w writes ih =>
    rw [writeAll, List.foldlM_cons, Traced.bind_eq_ok]
    exact ⟨v.write w.1.offset w.2, rfl, ih⟩

/-- A register that is not written keeps what it holds. -/
lemma contents_written_of_other (h : ∀ w ∈ writes, w.1 ≠ r) :
    (v.written writes).contents r = v.contents r := by
  induction writes generalizing v with
  | nil => rfl
  | cons w writes ih =>
    obtain ⟨hother, h⟩ := List.forall_mem_cons.mp h
    change ((v.write w.1.offset w.2).written writes).contents r = _
    rw [ih h, contents_write, if_neg hother.symm]

/-- A register that is written once holds the value, cut to its bits. -/
lemma contents_written (hdistinct : (writes.map (·.1)).Nodup) (h : (r, value) ∈ writes) :
    (v.written writes).contents r = value % r.capacity := by
  induction writes generalizing v with
  | nil => cases h
  | cons w writes ih =>
    rw [List.map_cons, List.nodup_cons] at hdistinct
    change ((v.write w.1.offset w.2).written writes).contents r = _
    rcases List.mem_cons.mp h with rfl | h
    · have hother : ∀ w ∈ writes, w.1 ≠ r := by
        intro w hw hr
        exact hdistinct.1 (List.mem_map.mpr ⟨w, hw, hr⟩)
      rw [contents_written_of_other hother, contents_write, if_pos rfl]
    · exact ih hdistinct.2 h

/-- A screen sets each of its registers once. -/
lemma nodup_settings : ((settings s).map (·.1)).Nodup := by
  change [VideoRegister.status, .origin, .width, .hStart, .vStart, .xScale, .yScale].Nodup
  decide

/-- An interface that was programmed with a screen, in whatever order, keeps that screen. -/
lemma snapshot_written (h : writes.Perm (settings s)) : (v.written writes).snapshot = s.kept := by
  have hdistinct : (writes.map (·.1)).Nodup := (h.map _).nodup_iff.mpr nodup_settings
  have hholds : ∀ w ∈ settings s, (v.written writes).contents w.1 = w.2 % w.1.capacity :=
    fun w hw => contents_written hdistinct (h.mem_iff.mpr hw)
  simp only [settings, List.forall_mem_cons] at hholds
  obtain ⟨hstatus, horigin, hwidth, hhStart, hvStart, hxScale, hyScale, -⟩ := hholds
  simp only [snapshot, Screen.kept, hstatus, horigin, hwidth, hhStart, hvStart, hxScale, hyScale]

/-- What is read off an interface that was programmed with a screen is what is read off the screen,
whatever the interface held before and whatever the order of the writes. -/
lemma reading_of_writeAll (h : writes.Perm (settings s)) :
    ∃ v', (v.writeAll writes).outcome = .ok v' ∧ v'.snapshot.reading = s.reading :=
  ⟨_, outcome_writeAll, by rw [snapshot_written h, Screen.reading_kept]⟩

end VideoInterface

end Scanout
