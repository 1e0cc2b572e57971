import Scanout.Proofs.Workload.Copies

/-!
# Rows that are tracked

The table tracks an image in one format, down to the lowest row that was drawn to. As long as format
and height stay the same, synchronizing uploads at most the rows that have changed; whenever one of
them changes, all rows are uploaded. This holds of images that only colors are drawn to, and that
memory reaches to the end of.
-/

namespace Scanout

/-- The pixels of the image exist, and memory reaches to the end of the rows. -/
def ImageUse.Fits (memory : Nat) (use : ImageUse) : Prop :=
  ∃ stride, use.size.bytesFor use.width = .ok stride ∧ 0 < stride ∧
    use.address + stride * use.height ≤ memory

namespace MemoryChange

/-- The target that the rows are uploaded to when colors are drawn to the image. -/
def key (change : MemoryChange) : TargetKey :=
  .ofImage change.address change.width change.size .color

/-- The change takes in the first rows of the image. -/
def covers (change : MemoryChange) (rows : Nat) : Bool :=
  change.rect.top = 0 && rows ≤ change.rect.bottom

end MemoryChange

/-- The operation brings in memory of the image at the address, or converts the image. -/
def Operation.concerns (address : Nat) : Operation → Bool
  | .upload _ change => change.address = address
  | .reinterpret address' .. => address' = address
  | _ => false

/-- The target that a pair colors. -/
def ColorImage.key (image : ColorImage) : TargetKey :=
  .ofImage image.address image.width image.size .color

namespace Framebuffer

variable {fb fb' : Framebuffer} {ram region : ByteArray} {memory stride : Nat}
  {change : Option MemoryChange}

/-- All rows were read, and only colors were drawn. -/
structure Whole (memory : Nat) (fb : Framebuffer) : Prop where
  height_pos : 0 < fb.height
  colored : fb.lastWriteType = .color
  sameFormat : fb.formatChanged = false
  checksum : fb.checksum.isSome = true
  read : ∃ stride, fb.stride = .ok stride ∧ 0 < stride ∧ fb.memory.size = stride * fb.height ∧
    fb.address + stride * fb.height ≤ memory

lemma Whole.recordWrite (h : fb.Whole memory) {rect : Rect} {stamp : Nat} :
    (fb.recordWrite .color rect stamp).Whole memory :=
  ⟨h.height_pos, rfl, h.sameFormat, h.checksum, h.read⟩

/-- Nothing of the image is cut off. -/
lemma size_region_of_fits (hregion : fb.region ram = .ok region) (hstride : fb.stride = .ok stride)
    (hfits : fb.address + stride * fb.height ≤ ram.size) :
    region.size = stride * fb.height := by
  obtain ⟨stop, hstop, rfl⟩ := region_eq_ok.mp hregion
  obtain ⟨stride', hstride', rfl, -⟩ := endAddress_eq_ok.mp hstop
  cases hstride.symm.trans hstride'
  rw [ByteArray.size_extract]
  omega

/-- The rows that a check hands out are all rows, if all have to be read, and otherwise some. -/
lemma check_of_fits (hcheck : (fb.check ram).outcome = .ok (change, fb'))
    (hcolored : fb.lastWriteType = .color) (hheight : 0 < fb.height)
    (hstride : fb.stride = .ok stride) (hpos : 0 < stride)
    (hfits : fb.address + stride * fb.height ≤ ram.size) (hram : ram.size < 0x80000000) :
    fb'.Whole ram.size ∧ fb'.height = fb.height ∧ fb'.size = fb.size ∧ fb'.width = fb.width ∧
      ((∃ c, change = some c ∧ c.key = .ofImage fb.address fb.width fb.size .color ∧
          c.rect.bottom ≤ (fb.height : Int) ∧ (c.covers fb.height = true ∨ fb.Whole ram.size)) ∨
        (change = none ∧ fb.Whole ram.size)) := by
  obtain ⟨region, stride', hregion, hstride', hcases⟩ := check_eq_ok hcheck
  cases hstride.symm.trans hstride'
  have hsize := size_region_of_fits hregion hstride hfits
  have hrows : region.size / stride = fb.height := by
    rw [hsize, Nat.mul_div_cancel_left _ hpos]
  have hsmall : fb.height < 0x80000000 := by
    have : fb.height ≤ stride * fb.height := Nat.le_mul_of_pos_left _ hpos
    omega
  have hseeing : (fb.seeing region stride).Whole ram.size :=
    ⟨hheight, hcolored, rfl, rfl, stride, hstride, hpos, hsize, hfits⟩
  have hwhole : fb.mustRead region = false → fb.Whole ram.size := by
    intro hread
    obtain ⟨hformat, hchecksum, hmemory⟩ := mustRead_eq_false_iff.mp hread
    exact ⟨hheight, hcolored, hformat, hchecksum, stride, hstride, hpos, hmemory.trans hsize,
      hfits⟩
  rcases hcases with ⟨hrecognizes, rfl, rfl⟩ | ⟨-, rfl, rfl⟩
  · exact ⟨hwhole hrecognizes.1, rfl, rfl, rfl, .inr ⟨rfl, hwhole hrecognizes.1⟩⟩
  · refine ⟨hseeing, rfl, rfl, rfl, ?_⟩
    have hlast : (fb.span region stride).2 ≤ fb.height := hrows ▸ span_le
    rw [changeFor]
    cases hread : fb.mustRead region with
    | true =>
      have hspan : fb.span region stride = (0, fb.height) := by rw [span, if_pos hread, hrows]
      rw [hspan, if_neg (Nat.not_le.mpr hheight)]
      refine .inl ⟨_, rfl, rfl, ?_, .inl ?_⟩
      · simp [changeOf, wrapSigned32_of_lt hsmall]
      · have hzero : wrapSigned32 0 = 0 := rfl
        simp [MemoryChange.covers, changeOf, wrapSigned32_of_lt hsmall, hzero]
    | false =>
      split
      · exact .inr ⟨rfl, hwhole hread⟩
      · refine .inl ⟨_, rfl, rfl, ?_, .inr (hwhole hread)⟩
        simp only [changeOf, wrapSigned32_of_lt (Nat.lt_of_le_of_lt hlast hsmall)]
        exact Int.ofNat_le.mpr hlast

end Framebuffer

namespace FramebufferTable

variable {t t' : FramebufferTable} {address other memory : Nat} {ram : ByteArray}
  {change : Option MemoryChange}

/-- The target and the height that the image at an address is tracked with. -/
def tracked (t : FramebufferTable) (address : Nat) : Option (TargetKey × Nat) :=
  (t.find? address).map fun fb => (.ofImage address fb.width fb.size .color, fb.height)

/-- If the image at the address is in the table, all its rows were read. -/
def Reads (t : FramebufferTable) (memory address : Nat) : Prop :=
  ∀ fb, t.find? address = some fb → fb.Whole memory

/-- A framebuffer that is asked for is as high as asked for or as tracked. If it needs no read of
all rows, it is tracked in this format and height. -/
lemma Reads.requested (h : t.Reads memory address) (ht : t.Sound) {size : PixelSize}
    {width height stride : Nat} (hstride : size.bytesFor width = .ok stride)
    (hfits : address + stride * height ≤ memory) :
    ∃ fb, t.requested address size width height = fb ∧ fb.address = address ∧ fb.size = size ∧
      fb.width = width ∧ height ≤ fb.height ∧ address + stride * fb.height ≤ memory ∧
      fb.lastWriteType = .color ∧
      (fb.Whole memory →
        t.tracked address = some (.ofImage address width size .color, fb.height)) := by
  refine ⟨_, rfl, ht.requested.1, ?_⟩
  rw [FramebufferTable.requested]
  cases hfind : t.find? address with
  | none =>
    refine ⟨rfl, rfl, Nat.le_refl _, hfits, rfl, fun hwhole => ?_⟩
    cases hwhole.checksum
  | some known =>
    have hknown := h known hfind
    simp only [Framebuffer.withFormat]
    cases hdiffers : known.differs size width with
    | true =>
      refine ⟨rfl, rfl, Nat.le_refl _, hfits, hknown.colored, fun hwhole => ?_⟩
      cases hwhole.sameFormat
    | false =>
      obtain ⟨rfl, rfl⟩ : known.size = size ∧ known.width = width := by
        simpa [Framebuffer.differs] using hdiffers
      obtain ⟨stride', hstride', hpos, hread, hend⟩ := hknown.read
      cases hstride.symm.trans hstride'
      rw [(ht address known hfind).1] at hend
      refine ⟨rfl, rfl, Nat.le_max_right _ _, ?_, hknown.colored, fun hwhole => ?_⟩
      · simp only [Bool.false_eq_true, if_false]
        rcases Nat.le_total known.height height with hle | hle
        · rwa [Nat.max_eq_right hle]
        · rwa [Nat.max_eq_left hle]
      · obtain ⟨stride', hstride', -, hsize, -⟩ := hwhole.read
        cases hstride.symm.trans hstride'
        -- the bytes that were read are those of the rows asked for
        have hheight : known.height = max known.height height :=
          Nat.eq_of_mul_eq_mul_left hpos (hread.symm.trans hsize)
        simp only [tracked, hfind, Option.map_some, Bool.false_eq_true, if_false]
        rw [← hheight]

/-- A check keeps what is tracked, and hands out rows that are tracked. -/
lemma Reads.check (h : t.Reads ram.size address) (ht : t.Sound) (hram : ram.size < 0x80000000)
    (hcheck : (t.check other ram).outcome = .ok (change, t')) :
    t'.Reads ram.size address ∧ t'.tracked address = t.tracked address ∧
      ∀ c, change = some c → c.address = address →
        ∃ rows : Nat, t.tracked address = some (c.key, rows) ∧ 0 < rows ∧
          c.rect.bottom ≤ (rows : Int) := by
  rcases check_eq_ok hcheck with ⟨fb, fb', hfind, hfound, rfl⟩ | ⟨rfl, rfl⟩
  · obtain ⟨rfl, -⟩ := ht other fb hfind
    by_cases haddress : fb.address = address
    · subst haddress
      have hfb := h fb hfind
      obtain ⟨stride, hstride, hpos, -, hfits⟩ := hfb.read
      obtain ⟨hfb', hheight, hsize, hwidth, hcases⟩ := Framebuffer.check_of_fits hfound hfb.colored
        hfb.height_pos hstride hpos hfits hram
      refine ⟨?_, ?_, ?_⟩
      · intro known hknown
        rw [find?_insert_self] at hknown
        exact Option.some.inj hknown ▸ hfb'
      · simp only [tracked, find?_insert_self, hfind, Option.map_some, hheight, hsize, hwidth]
      · rintro c rfl -
        rcases hcases with ⟨c', hc', hkey, hbottom, -⟩ | ⟨hnone, -⟩
        · cases hc'
          exact ⟨fb.height, by rw [tracked, hfind, Option.map_some, hkey], hfb.height_pos, hbottom⟩
        · cases hnone
    · have hsame : (t.insert fb.address fb').find? address = t.find? address :=
        find?_insert_of_ne (Ne.symm haddress)
      refine ⟨?_, by rw [tracked, tracked, hsame], ?_⟩
      · rw [Reads, hsame]
        exact h
      · rintro c rfl hc
        exact absurd ((Framebuffer.address_of_change hfound).symm.trans hc) haddress
  · refine ⟨h, rfl, ?_⟩
    intro c hc
    cases hc

end FramebufferTable

namespace Sync

variable {s s' : Sync} {ram : ByteArray} {address : Nat} {use : ImageUse}

/-- A use of another image does not concern this one. -/
lemma other_of_syncUse (hs : s.table.Sound) (hother : use.address ≠ address)
    (h : (s.syncUse ram use).outcome = .ok s') :
    s'.table.find? address = s.table.find? address ∧
      s'.queued.filter (·.concerns address) = s.queued.filter (·.concerns address) ∧
      s'.done = s.done := by
  obtain ⟨change, fb, hcheck, htable, hqueued, hdone⟩ := syncUse_eq_ok h
  refine ⟨?_, ?_, hdone⟩
  · rw [htable, FramebufferTable.find?_insert_of_ne hother.symm,
      FramebufferTable.find?_insert_of_ne hother.symm]
  · have hnone : (operationFor fb use change).toList.filter (·.concerns address) = [] := by
      cases change with
      | some change =>
        have haddress : change.address = use.address :=
          (Framebuffer.address_of_change hcheck).trans hs.requested.1
        simp [operationFor, Operation.concerns, haddress, hother]
      | none =>
        rw [operationFor]
        split
        · simp [Operation.concerns, hother]
        · rfl
    rw [hqueued, List.filter_append, hnone, List.append_nil]

/-- Colors are drawn to the image: all its rows are uploaded, unless it was tracked already with the
same format and height. -/
lemma tracked_of_syncUse {memory : Nat} (hs : s.table.Sound) (hreads : s.table.Reads memory address)
    (haddress : use.address = address) (htype : use.type = .color) (hheight : 0 < use.height)
    (hfits : use.Fits memory) (hram : ram.size = memory) (hmemory : memory < 0x80000000)
    (h : (s.syncUse ram use).outcome = .ok s') :
    s'.table.Reads memory address ∧ s'.done = s.done ∧
    ∃ rows, s'.table.tracked address = some (use.key, rows) ∧ use.height ≤ rows ∧
      ((∃ change, s'.queued = s.queued ++ [.upload .color change] ∧ change.key = use.key ∧
          change.rect.bottom ≤ (rows : Int) ∧
          (change.covers rows = true ∨ s.table.tracked address = some (use.key, rows))) ∨
        (s'.queued = s.queued ∧ s.table.tracked address = some (use.key, rows))) := by
  subst hram haddress
  obtain ⟨change, fb, hcheck, htable, hqueued, hdone⟩ := syncUse_eq_ok h
  obtain ⟨stride, hstride, hpos, hend⟩ := hfits
  obtain ⟨used, hused, haddress, hsize, hwidth, hle, hend, hcolored, htracked⟩ :=
    hreads.requested hs hstride hend
  rw [usedFramebuffer, hused] at hcheck htable
  have hkey : use.key = .ofImage used.address used.width used.size .color := by
    rw [ImageUse.key, haddress, hsize, hwidth, htype]
  have hkey' : use.key = .ofImage use.address use.width use.size .color := by
    rw [ImageUse.key, htype]
  obtain ⟨hwhole, hheight', hsize', hwidth', hcases⟩ := Framebuffer.check_of_fits hcheck hcolored
    (Nat.lt_of_lt_of_le hheight hle) (by rw [Framebuffer.stride, hsize, hwidth]; exact hstride)
    hpos (haddress ▸ hend) hmemory
  have hfind : s'.table.find? use.address =
      some { fb with blendable := change.isNone || !fb.wasWritten } := by
    rw [htable, FramebufferTable.find?_insert_self]
  refine ⟨?_, hdone, used.height, ?_, hle, ?_⟩
  · intro known hknown
    cases hfind.symm.trans hknown
    exact ⟨hwhole.height_pos, hwhole.colored, hwhole.sameFormat, hwhole.checksum, hwhole.read⟩
  · rw [FramebufferTable.tracked, hfind, hkey]
    simp [haddress, hsize', hwidth', hheight']
  · rcases hcases with ⟨c, rfl, hc, hbottom, hcovers⟩ | ⟨rfl, hsame⟩
    · refine .inl ⟨c, ?_, hc.trans hkey.symm, hbottom, hcovers.imp_right fun hsame => ?_⟩
      · rw [hqueued, operationFor, htype]
        rfl
      · rw [htracked hsame, hkey']
    · refine .inr ⟨?_, by rw [htracked hsame, hkey']⟩
      have hnone : operationFor fb use none = none := by
        rw [operationFor, htype, hwhole.colored]
        simp
      rw [hqueued, hnone]
      exact List.append_nil _

/-- Colors that are drawn change nothing of what is tracked. -/
lemma tracked_recorded (stamp : Nat) {memory : Nat} {table : FramebufferTable}
    {writes : List (Nat × WriteType × Rect)} (hreads : table.Reads memory address)
    (hcolors : ∀ write ∈ writes, write.1 = address → write.2.1 = .color) :
    (recorded stamp table writes).Reads memory address ∧
      (recorded stamp table writes).tracked address = table.tracked address := by
  induction writes generalizing table with
  | nil => exact ⟨hreads, rfl⟩
  | cons write writes ih =>
    obtain ⟨hwrite, hwrites⟩ := List.forall_mem_cons.mp hcolors
    have hstep : (table.recordWrite write.1 write.2.1 write.2.2 stamp).Reads memory address ∧
        (table.recordWrite write.1 write.2.1 write.2.2 stamp).tracked address =
          table.tracked address := by
      by_cases haddress : write.1 = address
      · rw [hwrite haddress, haddress, FramebufferTable.recordWrite]
        cases hfind : table.find? address with
        | none =>
          rw [FramebufferTable.modify_of_find?_eq_none hfind]
          exact ⟨hreads, rfl⟩
        | some fb =>
          rw [FramebufferTable.modify_of_find?_eq_some hfind]
          refine ⟨?_, ?_⟩
          · intro fb' hfb'
            rw [FramebufferTable.find?_insert_self] at hfb'
            cases hfb'
            exact (hreads fb hfind).recordWrite
          · rw [FramebufferTable.tracked, FramebufferTable.tracked,
              FramebufferTable.find?_insert_self, hfind]
            rfl
      · have hfind : (table.recordWrite write.1 write.2.1 write.2.2 stamp).find? address =
            table.find? address := FramebufferTable.find?_modify_of_ne (Ne.symm haddress)
        rw [FramebufferTable.Reads, FramebufferTable.tracked, hfind]
        exact ⟨hreads, rfl⟩
    obtain ⟨hreads', htracked⟩ := ih hstep.1 hwrites
    exact ⟨hreads', htracked.trans hstep.2⟩

end Sync

/-- What a pair does to an image that only colors are drawn to, and to what is tracked of it. -/
inductive Pair.Tracks (address : Nat) (p : Pair) :
    Option (TargetKey × Nat) → Option (TargetKey × Nat) → Prop where
  /-- the pair does not draw to the image -/
  | aside {known : Option (TargetKey × Nat)} (other : ∀ use ∈ p.imageUses, use.address ≠ address)
      (nothing : p.before.filter (·.concerns address) = []) : Tracks address p known known
  /-- rows are uploaded; all of them, unless the image was tracked in the same way -/
  | uploaded {known : Option (TargetKey × Nat)} {image : ColorImage} {rows : Nat}
      {change : MemoryChange} (isColor : p.colorImage = some image)
      (same : image.address = address) (height : p.drawHeight ≤ rows)
      (upload : p.before.filter (·.concerns address) = [.upload .color change])
      (key : change.key = image.key) (bottom : change.rect.bottom ≤ (rows : Int))
      (covers : change.covers rows = true ∨ known = some (image.key, rows)) :
      Tracks address p known (some (image.key, rows))
  /-- nothing has to be uploaded -/
  | unchanged {image : ColorImage} {rows : Nat} (isColor : p.colorImage = some image)
      (same : image.address = address) (height : p.drawHeight ≤ rows)
      (nothing : p.before.filter (·.concerns address) = []) :
      Tracks address p (some (image.key, rows)) (some (image.key, rows))

/-- What several pairs do to what is tracked of an image, the latest pair first. -/
def TracksAll (address : Nat) (start : Option (TargetKey × Nat)) :
    List Pair → Option (TargetKey × Nat) → Prop
  | [], known => known = start
  | p :: earlier, known =>
    ∃ before, TracksAll address start earlier before ∧ p.Tracks address before known

/-- Only colors are drawn to the image at the address. -/
def Workload.ColorsOnly (w : Workload) (address : Nat) : Prop :=
  ∀ p ∈ w.pairs, ∀ use ∈ p.imageUses, use.address = address → use.type = .color

/-- Memory reaches to the end of all images drawn to. -/
def Workload.Fits (w : Workload) (memory : Nat) : Prop :=
  ∀ p ∈ w.pairs, ∀ use ∈ p.imageUses, use.Fits memory

namespace Sync

variable {s s' : Sync} {ram : ByteArray} {address memory : Nat} {p p' : Pair} {w : Workload}
  {pairs pairs' : List Pair} {start known known' : Option (TargetKey × Nat)}

lemma tracks_unmarked : p.unmarked.Tracks address known known' ↔ p.Tracks address known known' := by
  constructor
  · intro h
    cases h with
    | aside other nothing => exact .aside other nothing
    | uploaded isColor same height upload key bottom covers =>
      exact .uploaded isColor same height upload key bottom covers
    | unchanged isColor same height nothing => exact .unchanged isColor same height nothing
  · intro h
    cases h with
    | aside other nothing => exact .aside other nothing
    | uploaded isColor same height upload key bottom covers =>
      exact .uploaded isColor same height upload key bottom covers
    | unchanged isColor same height nothing => exact .unchanged isColor same height nothing

lemma tracksAll_congr (h : pairs'.map Pair.unmarked = pairs.map Pair.unmarked) :
    TracksAll address start pairs' known ↔ TracksAll address start pairs known := by
  induction pairs generalizing pairs' known with
  | nil =>
    rw [List.map_nil, List.map_eq_nil_iff] at h
    rw [h]
  | cons p pairs ih =>
    obtain ⟨p', pairs', rfl, hp, hpairs⟩ := List.map_eq_cons_iff.mp h
    simp only [TracksAll, ih hpairs]
    refine exists_congr fun before => and_congr_right fun _ => ?_
    rw [← tracks_unmarked, hp, tracks_unmarked]

/-- The table is sound, all rows of the image were read, and the pairs done have tracked it. -/
structure Follows (memory address : Nat) (start : Option (TargetKey × Nat)) (s : Sync) : Prop where
  sound : s.table.Sound
  reads : s.table.Reads memory address
  tracks : TracksAll address start s.done (s.table.tracked address)

/-- Uses of other images do not concern this one. -/
lemma others_of_uses {uses : List ImageUse} (hs : s.table.Sound)
    (hother : ∀ use ∈ uses, use.address ≠ address)
    (h : (uses.foldlM (syncUse ram) s).outcome = .ok s') :
    s'.table.Sound ∧ s'.table.find? address = s.table.find? address ∧
      s'.queued.filter (·.concerns address) = s.queued.filter (·.concerns address) ∧
      s'.done = s.done := by
  refine Traced.foldlM_induct (motive := fun s' => s'.table.Sound ∧
    s'.table.find? address = s.table.find? address ∧
    s'.queued.filter (·.concerns address) = s.queued.filter (·.concerns address) ∧
    s'.done = s.done) h ⟨hs, rfl, rfl, rfl⟩ ?_
  rintro use huse s₁ s₂ ⟨hs₁, hfind, hqueued, hdone⟩ h
  obtain ⟨hfind', hqueued', hdone'⟩ := other_of_syncUse hs₁ (hother use huse) h
  exact ⟨sound_of_syncUse hs₁ h, hfind'.trans hfind, hqueued'.trans hqueued, hdone'.trans hdone⟩

/-- The draws of a pair write only colors to the image. -/
lemma color_of_writes (hcolors : ∀ use ∈ p.imageUses, use.address = address → use.type = .color) :
    ∀ write ∈ p.writes, write.1 = address → write.2.1 = .color := by
  rintro write hwrite rfl
  rw [Pair.writes] at hwrite
  cases himage : p.colorImage with
  | none =>
    rw [himage] at hwrite
    cases hwrite
  | some image =>
    simp only [himage, List.mem_append] at hwrite
    rcases hwrite with hwrite | hwrite
    · split at hwrite
      · cases hwrite
      · rw [List.mem_singleton.mp hwrite]
    · obtain ⟨depth, hdepth, rfl⟩ := List.mem_map.mp hwrite
      have huse : ⟨depth, .bits16, image.width, p.drawHeight, .depth⟩ ∈ p.imageUses := by
        simp [Pair.imageUses, himage, Option.mem_toList.mp hdepth]
      exact (hcolors _ huse rfl).symm ▸ rfl

/-- A pair either draws to other images only, or first of all colors the image. -/
lemma imageUses_cases
    (hcolors : ∀ use ∈ p.imageUses, use.address = address → use.type = .color) :
    (∀ use ∈ p.imageUses, use.address ≠ address) ∨
      ∃ image rest, p.colorImage = some image ∧ image.address = address ∧
        p.imageUses = ⟨image.address, image.size, image.width, p.drawHeight, .color⟩ :: rest ∧
        ∀ use ∈ rest, use.address ≠ address := by
  cases himage : p.colorImage with
  | none =>
    left
    simp [Pair.imageUses, himage]
  | some image =>
    have huses : p.imageUses = ⟨image.address, image.size, image.width, p.drawHeight, .color⟩ ::
        (Sync.writtenDepth p).toList.map (⟨·, .bits16, image.width, p.drawHeight, .depth⟩) := by
      simp only [Pair.imageUses, himage]
    have hrest : ∀ use ∈ (Sync.writtenDepth p).toList.map
        (⟨·, .bits16, image.width, p.drawHeight, .depth⟩ : Nat → ImageUse),
        use.address ≠ address := by
      intro use huse haddress
      have htype := hcolors use (by rw [huses]; exact List.mem_cons_of_mem _ huse) haddress
      obtain ⟨depth, -, rfl⟩ := List.mem_map.mp huse
      cases htype
    by_cases haddress : image.address = address
    · exact .inr ⟨image, _, rfl, haddress, huses, hrest⟩
    · left
      rw [huses]
      exact List.forall_mem_cons.mpr ⟨haddress, hrest⟩

/-- A pair keeps track of the image. -/
lemma Follows.pair (h : s.Follows memory address start) (hp : p.Plain)
    (hcolors : ∀ use ∈ p.imageUses, use.address = address → use.type = .color)
    (hfits : ∀ use ∈ p.imageUses, use.Fits memory) (hram : ram.size = memory)
    (hmemory : memory < 0x80000000) (hx : (syncPair ram w s p).outcome = .ok s') :
    s'.Follows memory address start := by
  obtain ⟨s₁, s₂, blendable, htiles, huses, -, rfl⟩ := exists_steps hx
  have hsamples : Samples { s with queued := [] } s₁ := .of_tiles htiles
  have htable : s₁.table = s.table := hsamples.table
  have hs₁ : s₁.table.Sound := htable ▸ h.sound
  have hreads₁ : s₁.table.Reads memory address := htable ▸ h.reads
  have hqueued₁ : s₁.queued.filter (·.concerns address) = [] := by
    obtain ⟨copies, hcopies⟩ := hsamples.queued
    rw [hcopies]
    simp [Operation.concerns]
  -- once the images are checked, it is left to record what was drawn
  have close : s₂.table.Sound → s₂.table.Reads memory address → s₂.done = s₁.done →
      Pair.Tracks address { p with blendable, before := p.before ++ s₂.queued }
        (s.table.tracked address) (s₂.table.tracked address) →
      Follows memory address start { s₂ with
        table := recorded w.id s₂.table p.writes
        done := { p with blendable, before := p.before ++ s₂.queued } :: s₂.done
        queued := [] } := by
    intro hs₂ hreads₂ hdone₂ htracks
    obtain ⟨hreads, htracked⟩ := tracked_recorded w.id hreads₂ (color_of_writes hcolors)
    refine ⟨sound_recorded hs₂, hreads, s.table.tracked address, ?_, ?_⟩
    · rw [hdone₂]
      exact (tracksAll_congr hsamples.done).mpr h.tracks
    · rw [htracked]
      exact htracks
  rcases imageUses_cases hcolors with hother | ⟨image, rest, himage, haddress, hlist, hother⟩
  · obtain ⟨hs₂, hfind, hqueued, hdone⟩ := others_of_uses hs₁ hother huses
    rw [hqueued₁] at hqueued
    refine close hs₂ ?_ hdone ?_
    · rw [FramebufferTable.Reads, hfind]
      exact hreads₁
    · have htracked : s₂.table.tracked address = s.table.tracked address := by
        rw [FramebufferTable.tracked, hfind, htable]
        rfl
      rw [htracked]
      exact .aside hother (by rw [hp.before]; exact hqueued)
  · have huse : ⟨image.address, image.size, image.width, p.drawHeight, .color⟩ ∈ p.imageUses := by
      rw [hlist]
      exact List.mem_cons_self
    rw [hlist, List.foldlM_cons, Traced.bind_eq_ok] at huses
    obtain ⟨s₃, hcolor, huses⟩ := huses
    have hheight : 0 < p.drawHeight := by
      simp only [Pair.drawHeight]
      omega
    obtain ⟨hreads₃, hdone₃, rows, htracked, hle, hcases⟩ := tracked_of_syncUse hs₁ hreads₁ haddress
      rfl hheight (hfits _ huse) hram hmemory hcolor
    obtain ⟨hs₂, hfind, hqueued, hdone⟩ :=
      others_of_uses (sound_of_syncUse hs₁ hcolor) hother huses
    refine close hs₂ ?_ (hdone.trans hdone₃) ?_
    · rw [FramebufferTable.Reads, hfind]
      exact hreads₃
    · have htracked₂ : s₂.table.tracked address = some (image.key, rows) := by
        rw [FramebufferTable.tracked, hfind]
        exact htracked
      rw [htracked₂]
      rcases hcases with ⟨change, hchange, hkey, hbottom, hcovers⟩ | ⟨hnone, hsame⟩
      · have haddress' : change.address = address := by
          have := congrArg TargetKey.address hkey
          exact this.trans haddress
        refine .uploaded himage haddress hle ?_ hkey hbottom ?_
        · rw [hp.before]
          change s₂.queued.filter _ = _
          rw [hqueued, hchange, List.filter_append, hqueued₁]
          simp [Operation.concerns, haddress']
        · rw [htable] at hcovers
          exact hcovers
      · rw [htable] at hsame
        rw [hsame]
        refine .unchanged himage haddress hle ?_
        rw [hp.before]
        change s₂.queued.filter _ = _
        rw [hqueued, hnone, hqueued₁]

/-- Synchronizing pairs leaves only marks on those that were done before. -/
lemma exists_done (h : (pairs.foldlM (syncPair ram w) s).outcome = .ok s') :
    ∃ synced : List Pair, s'.done.map Pair.unmarked = (synced ++ s.done).map Pair.unmarked ∧
      synced.length = pairs.length ∧
      synced.reverse.map Pair.imageUses = pairs.map Pair.imageUses := by
  induction pairs generalizing s with
  | nil =>
    rw [List.foldlM_nil, Traced.pure_eq_ok] at h
    exact ⟨[], by rw [h]; rfl, rfl, rfl⟩
  | cons p pairs ih =>
    rw [List.foldlM_cons, Traced.bind_eq_ok] at h
    obtain ⟨s₁, hpair, h⟩ := h
    obtain ⟨s₂, s₃, blendable, htiles, huses, -, rfl⟩ := exists_steps hpair
    obtain ⟨synced, hdone, hlength, himages⟩ := ih h
    have hdone₃ : s₃.done.map Pair.unmarked = s.done.map Pair.unmarked := by
      refine Eq.trans ?_ (Samples.of_tiles htiles).done
      refine Traced.foldlM_induct (motive := fun s' => s'.done.map Pair.unmarked =
        s₂.done.map Pair.unmarked) huses rfl ?_
      rintro use - s₄ s₅ h₄ h₅
      obtain ⟨_, _, -, -, -, hsame⟩ := syncUse_eq_ok h₅
      rw [hsame, h₄]
    refine ⟨synced ++ [{ p with blendable, before := p.before ++ s₃.queued }], ?_, ?_, ?_⟩
    · rw [hdone]
      simp [hdone₃]
    · simp [hlength]
    · rw [List.reverse_append, List.reverse_singleton, List.map_append, himages]
      rfl

end Sync

namespace Workload

/-- The table once the first pairs of a workload are synchronized. -/
def tableAfter? (w : Workload) (table : FramebufferTable) (ram : ByteArray) (count : Nat) :
    Option FramebufferTable :=
  match ((w.pairs.take count).foldlM (Sync.syncPair ram w) (w.syncStart table)).outcome with
  | .ok s => some s.table
  | .error _ => none

/-- The height of the image at an address, as it is tracked when the pair at a place is
synchronized. -/
def rowsAt? (w : Workload) (table : FramebufferTable) (ram : ByteArray) (place address : Nat) :
    Option Nat :=
  ((w.tableAfter? table ram (place + 1)).bind (·.find? address)).map Framebuffer.height

variable {w w' : Workload} {table table' : FramebufferTable} {ram : ByteArray} {stats : SyncStats}
  {address memory : Nat}

lemma colorsOnly_congr (h : w'.pairs.map Pair.imageUses = w.pairs.map Pair.imageUses) :
    w'.ColorsOnly address ↔ w.ColorsOnly address := by
  have hmap : ∀ w : Workload, w.ColorsOnly address ↔
      ∀ uses ∈ w.pairs.map Pair.imageUses, ∀ use ∈ uses, use.address = address →
        use.type = .color := by
    intro w
    rw [List.forall_mem_map]
    rfl
  rw [hmap, hmap, h]

/-- The pairs of a synchronized workload write to the same images. -/
lemma imageUses_of_synchronize (h : (w.synchronize table ram).outcome = .ok (stats, w', table')) :
    w'.pairs.map Pair.imageUses = w.pairs.map Pair.imageUses := by
  obtain ⟨s, hs, rfl, -⟩ := exists_synced h
  obtain ⟨synced, hdone, -, himages⟩ := Sync.exists_done hs
  have hunmarked : ∀ pairs : List Pair,
      (pairs.map Pair.unmarked).map Pair.imageUses = pairs.map Pair.imageUses := by
    intro pairs
    rw [List.map_map]
    rfl
  rw [← himages, List.map_reverse, ← hunmarked s.done, hdone, hunmarked, ← List.map_reverse]
  simp [syncStart]

/-- The first pairs of a workload have tracked the image. -/
lemma exists_tableAfter? (hw : w.Built) (ht : table.Sound) (hreads : table.Reads memory address)
    (hcolors : w.ColorsOnly address) (hfits : w.Fits memory) (hram : ram.size = memory)
    (hmemory : memory < 0x80000000)
    (h : (w.synchronize table ram).outcome = .ok (stats, w', table')) (count : Nat) :
    ∃ t, w.tableAfter? table ram count = some t ∧ t.Sound ∧ t.Reads memory address ∧
      TracksAll address (table.tracked address) (w'.pairs.take count).reverse
        (t.tracked address) := by
  obtain ⟨s', hs', rfl, -⟩ := exists_synced h
  rw [← List.take_append_drop count w.pairs, Traced.foldlM_append_eq_ok] at hs'
  obtain ⟨s, hs, hrest⟩ := hs'
  have hfollows : s.Follows memory address (table.tracked address) := by
    refine Traced.foldlM_induct hs ⟨ht, hreads, rfl⟩ ?_
    intro p hp s₁ s₂ h₁ h₂
    have hmem := List.mem_of_mem_take hp
    exact h₁.pair (hw.plain p hmem) (hcolors p hmem) (hfits p hmem) hram hmemory h₂
  refine ⟨s.table, by rw [tableAfter?, hs], hfollows.sound, hfollows.reads, ?_⟩
  obtain ⟨synced, hdone, hlength, -⟩ := Sync.exists_done hs
  obtain ⟨synced', hdone', hlength', -⟩ := Sync.exists_done hrest
  refine (Sync.tracksAll_congr ?_).mpr hfollows.tracks
  have hlater : s'.done.length - count = (synced'.map Pair.unmarked).length := by
    have hlength₁ : s.done.length = synced.length := by
      simpa [syncStart] using congrArg List.length hdone
    have hlength₂ : s'.done.length = synced'.length + s.done.length := by
      simpa using congrArg List.length hdone'
    rw [hlength₁, hlength, hlength', List.length_take, List.length_drop] at hlength₂
    rw [List.length_map, hlength', List.length_drop]
    omega
  rw [List.take_reverse, List.reverse_reverse, List.map_drop, hdone', List.map_append, hlater,
    List.drop_left]

end Workload

end Scanout
