import Mathlib.Data.List.Basic
import Mathlib.Data.Nat.Init
import Scanout.Framebuffer.Basic
import Scanout.Proofs.Fault
import Scanout.Proofs.Traced

/-!
# Checks of framebuffers

What a check of a framebuffer against memory finds. The rows that it hands out take in every row
that differs from the bytes last seen, and what the framebuffer remembers of its memory always
belongs together: the checksum to the bytes, and the number of rows to the format.
-/

namespace Scanout

lemma getElem?_extract {bytes : ByteArray} {start stop i : Nat} (h : start + i < stop) :
    (bytes.extract start stop)[i]? = bytes[start + i]? := by
  by_cases hsize : start + i < bytes.size
  · have hi : i < (bytes.extract start stop).size := by
      rw [ByteArray.size_extract]
      omega
    rw [getElem?_pos (bytes.extract start stop) i hi, getElem?_pos bytes (start + i) hsize,
      ByteArray.getElem_extract]
  · have hi : ¬i < (bytes.extract start stop).size := by
      rw [ByteArray.size_extract]
      omega
    rw [getElem?_neg (bytes.extract start stop) i hi, getElem?_neg bytes (start + i) hsize]

namespace Framebuffer

section Rows

variable {a b : ByteArray} {start stride rows row : Nat}

/-- The bytes of a row lie before the rows after it. -/
lemma place_lt {column : Nat} (hrow : row < rows) (hcolumn : column < stride) :
    row * stride + column < rows * stride := by
  rw [Nat.mul_comm row stride]
  exact Nat.mul_add_lt_mul_of_lt_of_lt hrow hcolumn

lemma sameBytes_iff {count : Nat} :
    sameBytes a b start count = true ↔ ∀ i < count, a[start + i]? = b[start + i]? := by
  induction count generalizing start with
  | zero => simp [sameBytes]
  | succ count ih =>
    rw [sameBytes, Bool.and_eq_true, decide_eq_true_iff, ih]
    constructor
    · rintro ⟨hfirst, hrest⟩ i hi
      cases i with
      | zero => exact hfirst
      | succ i =>
        have h := hrest i (Nat.lt_of_succ_lt_succ hi)
        rwa [Nat.add_right_comm] at h
    · intro h
      refine ⟨h 0 (Nat.zero_lt_succ _), ?_⟩
      intro i hi
      have h := h (i + 1) (Nat.succ_lt_succ hi)
      rwa [← Nat.add_assoc, Nat.add_right_comm] at h

lemma mem_dirtyRows :
    row ∈ dirtyRows a b stride rows ↔
      row < rows ∧ ∃ column < stride, a[row * stride + column]? ≠ b[row * stride + column]? := by
  rw [dirtyRows, List.mem_filter, List.mem_range, Bool.not_eq_true', ← Bool.not_eq_true,
    sameBytes_iff]
  push Not
  rfl

lemma pairwise_dirtyRows : (dirtyRows a b stride rows).Pairwise (· < ·) :=
  List.pairwise_lt_range.filter _

lemma dirtySpan_of_dirtyRows_eq_nil (h : dirtyRows a b stride rows = []) :
    dirtySpan a b stride rows = (rows - 1, rows) := by
  simp only [dirtySpan, h]
  rfl

/-- The span of the dirty rows takes in all of them. -/
lemma mem_dirtySpan (h : row ∈ dirtyRows a b stride rows) :
    (dirtySpan a b stride rows).1 ≤ row ∧ row < (dirtySpan a b stride rows).2 := by
  have hsorted : (dirtyRows a b stride rows).Pairwise (· < ·) := pairwise_dirtyRows
  simp only [dirtySpan]
  cases hhead : (dirtyRows a b stride rows).head? with
  | none =>
    rw [List.head?_eq_none_iff] at hhead
    simp [hhead] at h
  | some first =>
    cases hlast : (dirtyRows a b stride rows).getLast? with
    | none =>
      rw [List.getLast?_eq_none_iff] at hlast
      simp [hlast] at h
    | some last =>
      constructor
      · obtain ⟨rest, hrest⟩ := List.head?_eq_some_iff.mp hhead
        rw [hrest] at h hsorted
        rcases List.mem_cons.mp h with rfl | h
        · exact Nat.le_refl row
        · exact Nat.le_of_lt (List.rel_of_pairwise_cons hsorted h)
      · obtain ⟨init, hinit⟩ := List.getLast?_eq_some_iff.mp hlast
        rw [hinit] at h hsorted
        rcases List.mem_append.mp h with h | h
        · exact Nat.lt_succ_of_lt
            ((List.pairwise_append.mp hsorted).2.2 row h last (List.mem_singleton_self last))
        · rw [List.mem_singleton.mp h]
          exact Nat.lt_succ_self last

end Rows

variable {fb fb' : Framebuffer} {ram region : ByteArray} {change : Option MemoryChange}

/-- The rows, from the first to before the second, that a check hands out. -/
def span (fb : Framebuffer) (region : ByteArray) (stride : Nat) : Nat × Nat :=
  if fb.mustRead region then (0, region.size / stride)
  else dirtySpan region fb.memory stride (region.size / stride)

/-- The framebuffer after these bytes were seen. -/
def seeing (fb : Framebuffer) (region : ByteArray) (stride : Nat) : Framebuffer :=
  { fb with
    memory := region
    checksum := some (Checksum.crc32 region)
    readHeight := region.size / stride
    formatChanged := false }

/-- The bytes are taken for those last seen. -/
def Recognizes (fb : Framebuffer) (region : ByteArray) : Prop :=
  fb.mustRead region = false ∧ fb.checksum = some (Checksum.crc32 region)

/-- The rows that are handed out for these bytes, if there are any. -/
def changeFor (fb : Framebuffer) (region : ByteArray) (stride : Nat) : Option MemoryChange :=
  if (fb.span region stride).2 ≤ (fb.span region stride).1 then none
  else some (fb.changeOf region stride (fb.span region stride).1 (fb.span region stride).2)

lemma reformat_eq_ok {size : PixelSize} {width height : Nat} :
    (fb.reformat size width height).outcome = .ok fb' ↔ fb.withFormat size width height = fb' := by
  rw [reformat, Traced.bind_eq_ok]
  constructor
  · rintro ⟨_, -, h⟩
    exact Traced.pure_eq_ok.mp h
  · intro h
    refine ⟨(), ?_, Traced.pure_eq_ok.mpr h⟩
    rw [Traced.noteWhen]
    split <;> rfl

@[simp] lemma address_withFormat {size : PixelSize} {width height : Nat} :
    (fb.withFormat size width height).address = fb.address := by
  rw [withFormat]
  split <;> rfl

lemma region_eq_ok : fb.region ram = .ok region ↔
    ∃ stop, fb.endAddress = .ok stop ∧
      ram.extract (min fb.address ram.size) (min stop ram.size) = region := by
  simp only [Framebuffer.region, Except.bind_eq_ok_iff]
  constructor
  · rintro ⟨stop, hstop, h⟩
    exact ⟨stop, hstop, Except.ok.inj h⟩
  · rintro ⟨stop, hstop, rfl⟩
    exact ⟨stop, hstop, rfl⟩

lemma endAddress_eq_ok {stop : Nat} : fb.endAddress = .ok stop ↔
    ∃ stride, fb.stride = .ok stride ∧ fb.address + stride * fb.height = stop ∧
      stop < 0x100000000 := by
  simp only [endAddress, byteCount, Except.bind_eq_ok_iff, word32]
  constructor
  · rintro ⟨count, ⟨stride, hstride, hcount⟩, hstop⟩
    split at hcount
    · cases hcount
      split at hstop
      · rename_i hlt
        cases hstop
        exact ⟨stride, hstride, rfl, hlt⟩
      · cases hstop
    · cases hcount
  · rintro ⟨stride, hstride, rfl, hlt⟩
    exact ⟨stride * fb.height, ⟨stride, hstride, if_pos (by omega)⟩, if_pos hlt⟩

lemma exists_stride (h : fb.region ram = .ok region) : ∃ stride, fb.stride = .ok stride := by
  obtain ⟨stop, hstop, -⟩ := region_eq_ok.mp h
  obtain ⟨stride, hstride, -⟩ := endAddress_eq_ok.mp hstop
  exact ⟨stride, hstride⟩

/-- A check finds the bytes last seen, or remembers new ones and hands out rows of them. -/
lemma check_eq_ok (h : (fb.check ram).outcome = .ok (change, fb')) :
    ∃ region stride, fb.region ram = .ok region ∧ fb.stride = .ok stride ∧
      ((fb.Recognizes region ∧ change = none ∧ fb' = fb) ∨
        (¬fb.Recognizes region ∧ change = fb.changeFor region stride ∧
          fb' = fb.seeing region stride)) := by
  simp only [check, Traced.bind_eq_ok, Traced.lift_eq_ok] at h
  obtain ⟨region, hregion, h⟩ := h
  obtain ⟨stride, hstride⟩ := exists_stride hregion
  refine ⟨region, stride, hregion, hstride, ?_⟩
  have hrows : (if stride = 0 then 0 else region.size / stride) = region.size / stride := by
    split
    · rename_i hzero
      rw [hzero, Nat.div_zero]
    · rfl
  split at h
  · rename_i hsame
    cases Traced.pure_eq_ok.mp h
    rw [Bool.and_eq_true, Bool.not_eq_true', decide_eq_true_iff] at hsame
    exact .inl ⟨hsame, rfl, rfl⟩
  · rename_i hsame
    rw [Bool.and_eq_true, Bool.not_eq_true', decide_eq_true_iff] at hsame
    refine .inr ⟨hsame, ?_⟩
    simp only [Traced.bind_eq_ok, Traced.lift_eq_ok] at h
    obtain ⟨stride', hstride', h⟩ := h
    cases hstride.symm.trans hstride'
    simp only [hrows] at h
    rw [← span] at h
    simp only [changeFor, seeing]
    split at h
    · rename_i hle
      cases Traced.pure_eq_ok.mp h
      exact ⟨(if_pos hle).symm, rfl⟩
    · rename_i hle
      obtain ⟨_, -, h⟩ := Traced.bind_eq_ok.mp h
      cases Traced.pure_eq_ok.mp h
      exact ⟨(if_neg hle).symm, rfl⟩

lemma address_of_check (h : (fb.check ram).outcome = .ok (change, fb')) :
    fb'.address = fb.address := by
  obtain ⟨_, _, -, -, ⟨-, -, rfl⟩ | ⟨-, -, rfl⟩⟩ := check_eq_ok h
  · rfl
  · rfl

lemma address_of_change {change : MemoryChange}
    (h : (fb.check ram).outcome = .ok (some change, fb')) : change.address = fb.address := by
  obtain ⟨region, stride, -, -, ⟨-, hnone, -⟩ | ⟨-, hchange, -⟩⟩ := check_eq_ok h
  · cases hnone
  · rw [changeFor] at hchange
    split at hchange
    · cases hchange
    · cases hchange
      rfl

lemma wasWritten_of_check (h : (fb.check ram).outcome = .ok (change, fb')) :
    fb'.wasWritten = fb.wasWritten := by
  obtain ⟨_, _, -, -, ⟨-, -, rfl⟩ | ⟨-, -, rfl⟩⟩ := check_eq_ok h
  · rfl
  · rfl

lemma mustRead_eq_false_iff : fb.mustRead region = false ↔
    fb.formatChanged = false ∧ fb.checksum.isSome = true ∧ fb.memory.size = region.size := by
  simp [mustRead, and_assoc, Option.isSome_iff_ne_none]

/-- The bytes of a row that is not handed out are those last seen. -/
lemma same_of_not_mem_span {stride row : Nat} (hrow : row < region.size / stride)
    (hout : ¬((fb.span region stride).1 ≤ row ∧ row < (fb.span region stride).2)) :
    fb.mustRead region = false ∧
      ∀ column < stride, region[row * stride + column]? = fb.memory[row * stride + column]? := by
  by_cases hread : fb.mustRead region = true
  · rw [span, if_pos hread] at hout
    exact absurd ⟨Nat.zero_le row, hrow⟩ hout
  · rw [span, if_neg hread] at hout
    refine ⟨Bool.eq_false_iff.mpr hread, ?_⟩
    intro column hcolumn
    by_contra hne
    exact hout (mem_dirtySpan (mem_dirtyRows.mpr ⟨hrow, column, hcolumn, hne⟩))

lemma span_le {stride : Nat} : (fb.span region stride).2 ≤ region.size / stride := by
  rw [span]
  split
  · exact Nat.le_refl _
  · cases hdirty : dirtyRows region fb.memory stride (region.size / stride) with
    | nil =>
      exact Nat.le_of_eq (congrArg Prod.snd (dirtySpan_of_dirtyRows_eq_nil hdirty))
    | cons first rest =>
      have hlast : (first :: rest).getLast (List.cons_ne_nil first rest) ∈
          dirtyRows region fb.memory stride (region.size / stride) := by
        rw [hdirty]
        exact List.getLast_mem _
      simp only [dirtySpan, hdirty, List.head?_cons,
        List.getLast?_eq_some_getLast (List.cons_ne_nil first rest)]
      exact (mem_dirtyRows.mp hlast).1

/-- Rows are handed out if there are any. -/
lemma changeFor_eq_none_iff {stride : Nat} :
    fb.changeFor region stride = none ↔ region.size / stride = 0 := by
  have hspan : (fb.span region stride).2 ≤ (fb.span region stride).1 ↔
      region.size / stride = 0 := by
    rw [span]
    split
    · exact Nat.le_zero
    · cases hdirty : dirtyRows region fb.memory stride (region.size / stride) with
      | nil =>
        rw [dirtySpan_of_dirtyRows_eq_nil hdirty]
        generalize region.size / stride = rows
        dsimp only
        omega
      | cons row rows =>
        have hrow : row ∈ dirtyRows region fb.memory stride (region.size / stride) := by
          rw [hdirty]
          exact List.mem_cons_self
        obtain ⟨hfirst, hlast⟩ := mem_dirtySpan hrow
        have hcount := (mem_dirtyRows.mp hrow).1
        omega
  rw [changeFor, ← hspan]
  split <;> simp_all

/-- The bytes of an image lie at its address. -/
lemma getElem?_region {i : Nat} (hregion : fb.region ram = .ok region) (hi : i < region.size) :
    region[i]? = ram[fb.address + i]? := by
  obtain ⟨stop, -, rfl⟩ := region_eq_ok.mp hregion
  rw [ByteArray.size_extract] at hi
  rw [getElem?_extract (by omega), Nat.min_eq_left (by omega)]

/-- What is handed out are whole rows, at least one. -/
lemma exists_of_changeFor {stride : Nat} {change : MemoryChange}
    (h : fb.changeFor region stride = some change) :
    ∃ first last, fb.span region stride = (first, last) ∧
      change = fb.changeOf region stride first last ∧ 0 < stride ∧ first < last ∧
      last ≤ region.size / stride := by
  rw [changeFor] at h
  split at h
  · cases h
  · rename_i hspan
    have hlast : (fb.span region stride).2 ≤ region.size / stride := span_le
    refine ⟨_, _, rfl, (Option.some.inj h).symm, ?_, Nat.not_le.mp hspan, hlast⟩
    apply Nat.pos_of_ne_zero
    rintro rfl
    rw [Nat.div_zero] at hlast
    exact hspan (Nat.le_trans hlast (Nat.zero_le _))

/-- What a framebuffer remembers of its memory belongs together. -/
structure Remembers (fb : Framebuffer) : Prop where
  checksum : ∀ c, fb.checksum = some c → c = Checksum.crc32 fb.memory
  unseen : fb.checksum = none → fb.memory.size = 0
  formatChanged : fb.formatChanged = true → fb.checksum = none
  readHeight : ∀ stride, fb.stride = .ok stride → fb.readHeight = fb.memory.size / stride
  size_le : ∀ stride, fb.stride = .ok stride → fb.memory.size ≤ stride * fb.height

namespace Remembers

lemma new {address width height : Nat} {size : PixelSize} :
    (Framebuffer.new address size width height).Remembers where
  checksum _ hc := by cases hc
  unseen _ := rfl
  formatChanged _ := rfl
  readHeight _ _ := (Nat.zero_div _).symm
  size_le _ _ := Nat.zero_le _

lemma forget : fb.forget.Remembers where
  checksum _ hc := by cases hc
  unseen _ := rfl
  formatChanged _ := rfl
  readHeight _ _ := (Nat.zero_div _).symm
  size_le _ _ := Nat.zero_le _

lemma recordWrite (h : fb.Remembers) {type : WriteType} {rect : Rect} {stamp : Nat} :
    (fb.recordWrite type rect stamp).Remembers :=
  ⟨h.checksum, h.unseen, h.formatChanged, h.readHeight, h.size_le⟩

lemma withFormat (h : fb.Remembers) {size : PixelSize} {width height : Nat} :
    (fb.withFormat size width height).Remembers := by
  rw [Framebuffer.withFormat]
  split
  · constructor
    · intro c hc
      cases hc
    · intro _
      rfl
    · intro _
      rfl
    · intro stride _
      exact (Nat.zero_div stride).symm
    · intro stride _
      exact Nat.zero_le _
  · refine ⟨h.checksum, h.unseen, h.formatChanged, h.readHeight, ?_⟩
    intro stride hstride
    exact Nat.le_trans (h.size_le stride hstride)
      (Nat.mul_le_mul_left stride (Nat.le_max_left fb.height height))

end Remembers

/-- The bytes of an image are no more than its rows hold. -/
lemma size_region_le {stride : Nat} (hregion : fb.region ram = .ok region)
    (hstride : fb.stride = .ok stride) : region.size ≤ stride * fb.height := by
  obtain ⟨stop, hstop, rfl⟩ := region_eq_ok.mp hregion
  obtain ⟨stride', hstride', rfl, -⟩ := endAddress_eq_ok.mp hstop
  cases hstride.symm.trans hstride'
  rw [ByteArray.size_extract]
  omega

/-- The addresses of the bytes are words. -/
lemma address_add_size_region_lt (hregion : fb.region ram = .ok region) :
    fb.address + region.size < 0x100000000 := by
  obtain ⟨stop, hstop, rfl⟩ := region_eq_ok.mp hregion
  obtain ⟨stride, hstride, rfl, hlt⟩ := endAddress_eq_ok.mp hstop
  have hsize := size_region_le hregion hstride
  omega

/-- The numbers of the rows are words. -/
lemma rows_lt {stride : Nat} (hregion : fb.region ram = .ok region) :
    region.size / stride < 0x100000000 := by
  have hword := address_add_size_region_lt hregion
  have hrows : region.size / stride ≤ region.size := Nat.div_le_self region.size stride
  omega

/-- A check of an image that has an end ends. -/
lemma exists_check (hregion : fb.region ram = .ok region) :
    ∃ change fb', (fb.check ram).outcome = .ok (change, fb') := by
  obtain ⟨stride, hstride⟩ := exists_stride hregion
  simp only [check, Traced.bind_eq_ok, Traced.lift_eq_ok, hregion, Except.ok.injEq,
    exists_eq_left']
  split
  · exact ⟨none, fb, Traced.pure_eq_ok.mpr rfl⟩
  · simp only [Traced.bind_eq_ok, Traced.lift_eq_ok, hstride, Except.ok.injEq, exists_eq_left']
    generalize (if fb.mustRead region = true then _ else _) = rows
    split
    · exact ⟨none, _, Traced.pure_eq_ok.mpr rfl⟩
    · exact ⟨some _, _, Traced.bind_eq_ok.mpr ⟨(), rfl, Traced.pure_eq_ok.mpr rfl⟩⟩

lemma Remembers.seeing {stride : Nat} (hregion : fb.region ram = .ok region)
    (hstride : fb.stride = .ok stride) : (fb.seeing region stride).Remembers where
  checksum _ hc := (Option.some.inj hc).symm
  unseen h := by cases h
  formatChanged h := by cases h
  readHeight stride' hstride' := by
    cases hstride.symm.trans hstride'
    rfl
  size_le stride' hstride' := by
    cases hstride.symm.trans hstride'
    exact size_region_le hregion hstride

lemma Remembers.check (h : fb.Remembers) (hcheck : (fb.check ram).outcome = .ok (change, fb')) :
    fb'.Remembers := by
  obtain ⟨region, stride, hregion, hstride, ⟨-, -, rfl⟩ | ⟨-, -, rfl⟩⟩ := check_eq_ok hcheck
  · exact h
  · exact .seeing hregion hstride

end Framebuffer

end Scanout
