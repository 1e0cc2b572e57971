import Scanout.Proofs.Workload.Synchronizing

/-!
# Images that memory leaves alone

If no row of an image that was seen before has changed in memory, synchronizing a workload should
leave these rows alone. Whether it does is decided by the bytes of the whole image at the height that
the workload asks for: with another length or checksum, rows are uploaded that were known already.
-/

namespace Scanout

/-- An upload to the image at an address touches one of its first rows. -/
def Operation.Touches (address rows : Nat) : Operation → Prop
  | .upload _ change =>
    change.address = address ∧
      ∃ row : Nat, row < rows ∧ change.rect.top ≤ row ∧ (row : Int) < change.rect.bottom
  | _ => False

/-- The pair leaves the first rows of an image alone, and what it draws there may be blended. -/
structure Pair.Spares (p : Pair) (address rows : Nat) : Prop where
  before : ∀ op ∈ p.before, ¬op.Touches address rows
  blendable : ∀ image, p.colorImage = some image → image.address = address → p.blendable = true

lemma Pair.spares_congr {p q : Pair} {address rows : Nat} (h : p.settled = q.settled) :
    p.Spares address rows ↔ q.Spares address rows := by
  obtain ⟨hcolor, h⟩ := Prod.mk.inj h
  obtain ⟨hblendable, hbefore⟩ := Prod.mk.inj h
  constructor
  · intro hp
    exact ⟨hbefore ▸ hp.before, hcolor ▸ hblendable ▸ hp.blendable⟩
  · intro hq
    exact ⟨hbefore ▸ hq.before, hcolor ▸ hblendable ▸ hq.blendable⟩

namespace Framebuffer

variable {fb fb' : Framebuffer} {ram region : ByteArray} {stride height height' : Nat}

/-- The rows last seen are the same in `ram`. -/
def SameRows (fb : Framebuffer) (ram : ByteArray) : Prop :=
  ∀ stride, fb.stride = .ok stride → ∀ i < fb.readHeight * stride,
    ram[fb.address + i]? = fb.memory[i]?

/-- With this height the image in `ram` has the length and the checksum of the bytes last seen. -/
def Seen (fb : Framebuffer) (ram : ByteArray) (height : Nat) : Prop :=
  ∃ region, { fb with height }.region ram = .ok region ∧ region.size = fb.memory.size ∧
    Checksum.crc32 region = Checksum.crc32 fb.memory

/-- A lower image is seen too, as long as it holds all bytes last seen. -/
lemma Seen.mono (hfb : fb.Remembers) (hlow : fb.height ≤ height) (hle : height ≤ height')
    (h : fb.Seen ram height') : fb.Seen ram height := by
  obtain ⟨region, hregion, hsize, hchecksum⟩ := h
  obtain ⟨stop, hstop, rfl⟩ := region_eq_ok.mp hregion
  obtain ⟨stride, hstride, rfl, hword⟩ := endAddress_eq_ok.mp hstop
  have hmemory : fb.memory.size ≤ stride * height :=
    Nat.le_trans (hfb.size_le stride hstride) (Nat.mul_le_mul_left stride hlow)
  have hheight : stride * height ≤ stride * height' := Nat.mul_le_mul_left stride hle
  refine ⟨_, region_eq_ok.mpr ⟨_, endAddress_eq_ok.mpr ⟨stride, hstride, rfl, ?_⟩, rfl⟩, ?_⟩
  · dsimp only at hword ⊢
    omega
  have hend : min (fb.address + stride * height) ram.size =
      min (fb.address + stride * height') ram.size := by
    rw [ByteArray.size_extract] at hsize
    dsimp only at hsize
    omega
  rw [hend]
  exact ⟨hsize, hchecksum⟩

/-- Rows of the image were seen, and are the same in `ram`. -/
structure Undisturbed (fb : Framebuffer) (ram : ByteArray) : Prop where
  remembers : fb.Remembers
  known : 0 < fb.readHeight
  sameRows : fb.SameRows ram
  fits : ram.size < 0x80000000

lemma Undisturbed.stride_pos (hfb : fb.Undisturbed ram) (hstride : fb.stride = .ok stride) :
    0 < stride := by
  apply Nat.pos_of_ne_zero
  rintro rfl
  have hknown := hfb.known
  rw [hfb.remembers.readHeight 0 hstride, Nat.div_zero] at hknown
  exact Nat.lt_irrefl 0 hknown

/-- Rows that are remembered came with a checksum. -/
lemma Undisturbed.checksum_eq (hfb : fb.Undisturbed ram) (hstride : fb.stride = .ok stride) :
    fb.checksum = some (Checksum.crc32 fb.memory) := by
  cases hchecksum : fb.checksum with
  | some c => rw [hfb.remembers.checksum c hchecksum]
  | none =>
    have hknown := hfb.known
    rw [hfb.remembers.readHeight stride hstride, hfb.remembers.unseen hchecksum,
      Nat.zero_div] at hknown
    exact absurd hknown (Nat.lt_irrefl 0)

/-- The framebuffer is of the same image, and remembers the same of it. -/
structure Like (fb fb' : Framebuffer) : Prop where
  address : fb'.address = fb.address
  size : fb'.size = fb.size
  width : fb'.width = fb.width
  memory : fb'.memory = fb.memory
  checksum : fb'.checksum = fb.checksum
  formatChanged : fb'.formatChanged = fb.formatChanged
  height_le : fb.height ≤ fb'.height

namespace Like

lemma stride_eq (h : fb.Like fb') : fb'.stride = fb.stride := by
  rw [stride, stride, h.size, h.width]

lemma region_eq (h : fb.Like fb') :
    fb'.region ram = { fb with height := fb'.height }.region ram := by
  simp only [region, endAddress, byteCount, stride, h.address, h.size, h.width]

lemma grow (h : fb.Like fb') : fb.Like { fb' with height := max fb'.height height } :=
  ⟨h.address, h.size, h.width, h.memory, h.checksum, h.formatChanged,
    Nat.le_trans h.height_le (Nat.le_max_left _ _)⟩

lemma withFormat (h : fb.Like fb') : fb'.withFormat fb.size fb.width height =
    { fb' with height := max fb'.height height } := by
  simp [Framebuffer.withFormat, differs, h.size, h.width]

/-- The image in `ram` is recognized if it was seen. -/
lemma recognizes_iff (h : fb.Like fb') (hfb : fb.Undisturbed ram)
    (hregion : fb'.region ram = .ok region) :
    fb'.Recognizes region ↔ fb.Seen ram fb'.height := by
  obtain ⟨stride, hstride⟩ := exists_stride hregion
  rw [h.stride_eq] at hstride
  have hchecksum := hfb.checksum_eq hstride
  have hformat : fb.formatChanged = false := by
    by_contra hchanged
    rw [hfb.remembers.formatChanged (eq_true_of_ne_false hchanged)] at hchecksum
    cases hchecksum
  rw [h.region_eq] at hregion
  rw [Recognizes, mustRead_eq_false_iff, h.formatChanged, h.checksum, h.memory, hchecksum]
  constructor
  · rintro ⟨⟨-, -, hsize⟩, hsame⟩
    exact ⟨region, hregion, hsize.symm, (Option.some.inj hsame).symm⟩
  · rintro ⟨_, hseen, hsize, hsame⟩
    cases hregion.symm.trans hseen
    exact ⟨⟨hformat, rfl, hsize.symm⟩, congrArg some hsame.symm⟩

/-- The rows last seen are still the first ones of the image in `ram`. -/
lemma rows_eq (h : fb.Like fb') (hfb : fb.Undisturbed ram)
    (hregion : fb'.region ram = .ok region) (hstride : fb'.stride = .ok stride) :
    fb.readHeight * stride ≤ region.size ∧ region.size ≤ ram.size ∧
      ∀ i < fb.readHeight * stride, region[i]? = fb.memory[i]? := by
  obtain ⟨stop, hstop, rfl⟩ := region_eq_ok.mp hregion
  obtain ⟨stride', hstride', rfl, -⟩ := endAddress_eq_ok.mp hstop
  cases hstride.symm.trans hstride'
  rw [h.stride_eq] at hstride
  have hheight := hfb.remembers.readHeight stride hstride
  have hsame := hfb.sameRows stride hstride
  have hmemory : fb.readHeight * stride ≤ fb.memory.size := by
    rw [hheight]
    exact Nat.div_mul_le_self _ _
  have hsize : fb.memory.size ≤ stride * fb'.height :=
    Nat.le_trans (hfb.remembers.size_le stride hstride)
      (Nat.mul_le_mul_left stride h.height_le)
  have hpos : 0 < fb.readHeight * stride := Nat.mul_pos hfb.known (hfb.stride_pos hstride)
  -- the last byte of these rows is still there
  have hlast : fb.address + (fb.readHeight * stride - 1) < ram.size := by
    by_contra hge
    have hbyte := hsame (fb.readHeight * stride - 1) (by omega)
    rw [getElem?_neg ram _ hge, getElem?_pos fb.memory _ (by omega)] at hbyte
    cases hbyte
  rw [h.address, ByteArray.size_extract]
  refine ⟨by omega, by omega, ?_⟩
  intro i hi
  rw [getElem?_extract (by omega), ← hsame i hi, Nat.min_eq_left (by omega)]

/-- If the image in `ram` is not recognized, one of the rows last seen is handed out again. -/
lemma touches_changeFor (h : fb.Like fb') (hfb : fb.Undisturbed ram)
    (hregion : fb'.region ram = .ok region) (hstride : fb'.stride = .ok stride)
    (type : WriteType) :
    ∃ change, fb'.changeFor region stride = some change ∧
      (Operation.upload type change).Touches fb.address fb.readHeight := by
  obtain ⟨hsize, hle, hbytes⟩ := h.rows_eq hfb hregion hstride
  rw [h.stride_eq] at hstride
  have hheight := hfb.remembers.readHeight stride hstride
  have hpos := hfb.stride_pos hstride
  have hrows := hfb.known
  have hknown : fb.readHeight ≤ region.size / stride := (Nat.le_div_iff_mul_le hpos).mpr hsize
  have hlast : region.size / stride < 0x80000000 :=
    Nat.lt_of_le_of_lt (Nat.le_trans (Nat.div_le_self _ _) hle) hfb.fits
  obtain ⟨first, hspan, hfirst⟩ : ∃ first,
      fb'.span region stride = (first, region.size / stride) ∧ first < fb.readHeight := by
    by_cases hread : fb'.mustRead region = true
    · exact ⟨0, if_pos hread, hrows⟩
    · obtain ⟨-, -, hmemory⟩ := mustRead_eq_false_iff.mp (eq_false_of_ne_true hread)
      rw [h.memory] at hmemory
      have hclean : dirtyRows region fb'.memory stride (region.size / stride) = [] := by
        rw [List.eq_nil_iff_forall_not_mem]
        intro row hrow
        obtain ⟨hrow, column, hcolumn, hne⟩ := mem_dirtyRows.mp hrow
        apply hne
        rw [h.memory]
        apply hbytes
        rw [hheight, hmemory]
        exact place_lt hrow hcolumn
      refine ⟨region.size / stride - 1, ?_, ?_⟩
      · rw [span, if_neg hread, dirtySpan_of_dirtyRows_eq_nil hclean]
      · rw [hheight, hmemory] at hrows ⊢
        omega
  refine ⟨fb'.changeOf region stride first (region.size / stride), ?_, h.address, first, hfirst, ?_⟩
  · rw [changeFor, hspan, if_neg (by omega)]
  · simp only [changeOf, wrapSigned32_of_lt hlast,
      wrapSigned32_of_lt (Nat.lt_trans (Nat.lt_of_lt_of_le hfirst hknown) hlast)]
    exact ⟨Int.le_refl _, Int.ofNat_lt.mpr (Nat.lt_of_lt_of_le hfirst hknown)⟩

end Like

/-- The framebuffer is still of the same image, and what it has grown by was seen. -/
structure Lasts (ram : ByteArray) (fb fb' : Framebuffer) : Prop extends fb.Like fb' where
  seen : fb'.height = fb.height ∨ fb.Seen ram fb'.height

namespace Lasts

lemma refl : fb.Lasts ram fb := ⟨⟨rfl, rfl, rfl, rfl, rfl, rfl, Nat.le_refl _⟩, .inl rfl⟩

/-- Whether the image was seen does not depend on what it has grown by. -/
lemma seen_max_iff (h : fb.Lasts ram fb') (hfb : fb.Undisturbed ram) :
    fb.Seen ram (max fb'.height height) ↔ fb.Seen ram (max fb.height height) := by
  have hlow := h.height_le
  constructor
  · intro hseen
    exact hseen.mono hfb.remembers (by omega) (by omega)
  · intro hseen
    by_cases hle : height ≤ fb'.height
    · rw [Nat.max_eq_left hle]
      rcases h.seen with hheight | hgrown
      · rw [hheight] at hle ⊢
        rwa [Nat.max_eq_left hle] at hseen
      · exact hgrown
    · rw [Nat.max_eq_right (by omega)] at hseen ⊢
      exact hseen

lemma recordWrite (h : fb.Lasts ram fb') (type : WriteType) (rect : Rect) (stamp : Nat) :
    fb.Lasts ram (fb'.recordWrite type rect stamp) :=
  ⟨⟨h.address, h.size, h.width, h.memory, h.checksum, h.formatChanged, h.height_le⟩, h.seen⟩

end Lasts

end Framebuffer

namespace Sync

variable {fb : Framebuffer} {ram : ByteArray} {s s' : Sync} {use : ImageUse}

/-- The table still has the framebuffer. -/
def Keeps (s : Sync) (ram : ByteArray) (fb : Framebuffer) : Prop :=
  s.table.Sound ∧ ∃ fb', s.table.find? fb.address = some fb' ∧ fb.Lasts ram fb'

/-- If this is a use of the image, its format is the same. -/
def KeepsFormat (fb : Framebuffer) (use : ImageUse) : Prop :=
  use.address = fb.address → use.size = fb.size ∧ use.width = fb.width

/-- If this is a use of the image, it was seen with the height of the use. -/
def SeenFor (fb : Framebuffer) (ram : ByteArray) (use : ImageUse) : Prop :=
  use.address = fb.address → fb.Seen ram (max fb.height use.height)

/-- Nothing that is queued touches the rows last seen. -/
def Calm (s : Sync) (fb : Framebuffer) : Prop :=
  ∀ op ∈ s.queued, ¬op.Touches fb.address fb.readHeight

lemma calm_of_append {ops : List Operation} (hqueued : s'.queued = s.queued ++ ops)
    (h : s'.Calm fb) : s.Calm fb := by
  intro op hop
  apply h
  rw [hqueued]
  exact List.mem_append_left ops hop

lemma calm_append {op? : Option Operation} (hqueued : s'.queued = s.queued ++ op?.toList)
    (h : s.Calm fb) (hop? : ∀ op, op? = some op → ¬op.Touches fb.address fb.readHeight) :
    s'.Calm fb := by
  intro op hop
  rw [hqueued] at hop
  rcases List.mem_append.mp hop with hop | hop
  · exact h op hop
  · exact hop? op (Option.mem_toList.mp hop)

/-- No operation but an upload touches rows. -/
lemma not_touches_operationFor {known : Framebuffer} {op : Operation}
    (h : operationFor known use none = some op) : ¬op.Touches fb.address fb.readHeight := by
  rw [operationFor] at h
  split at h
  · cases h
    exact id
  · cases h

/-- A use of another image leaves this one alone. -/
lemma Keeps.other (hs : s.Keeps ram fb) (hother : use.address ≠ fb.address)
    (h : (s.syncUse ram use).outcome = .ok s') :
    s'.Keeps ram fb ∧ (s.Calm fb → s'.Calm fb) ∧
      s'.blendable fb.address = s.blendable fb.address := by
  obtain ⟨change, known, hcheck, htable, hqueued, -⟩ := syncUse_eq_ok h
  obtain ⟨hsound, fb', hfind, hlasts⟩ := hs
  have hfind' : s'.table.find? fb.address = s.table.find? fb.address := by
    rw [htable, FramebufferTable.find?_insert_of_ne hother.symm,
      FramebufferTable.find?_insert_of_ne hother.symm]
  refine ⟨⟨sound_of_syncUse hsound h, fb', hfind'.trans hfind, hlasts⟩, ?_, ?_⟩
  · intro hcalm
    apply calm_append hqueued hcalm
    intro op hop
    cases change with
    | none => exact not_touches_operationFor hop
    | some change =>
      cases hop
      rintro ⟨haddress, -⟩
      rw [Framebuffer.address_of_change hcheck] at haddress
      exact hother (hsound.requested.1.symm.trans haddress)
  · rw [blendable, blendable, hfind']

/-- The framebuffer that is checked for a use of the image. -/
lemma usedFramebuffer_of_find? {fb' : Framebuffer} (hfind : s.table.find? fb.address = some fb')
    (hlike : fb.Like fb') (hformat : KeepsFormat fb use) (haddress : use.address = fb.address) :
    s.usedFramebuffer use = { fb' with height := max fb'.height use.height } := by
  obtain ⟨hsize, hwidth⟩ := hformat haddress
  rw [usedFramebuffer, FramebufferTable.requested, haddress, hfind, hsize, hwidth]
  exact hlike.withFormat

/-- A use of the image with a height with which it was seen leaves it alone. -/
lemma Keeps.seen (hs : s.Keeps ram fb) (hfb : fb.Undisturbed ram) (hformat : KeepsFormat fb use)
    (haddress : use.address = fb.address) (hseen : fb.Seen ram (max fb.height use.height))
    (h : (s.syncUse ram use).outcome = .ok s') :
    s'.Keeps ram fb ∧ (s.Calm fb → s'.Calm fb) ∧ s'.blendable fb.address = true := by
  have hsound := sound_of_syncUse hs.1 h
  obtain ⟨change, known, hcheck, htable, hqueued, -⟩ := syncUse_eq_ok h
  obtain ⟨-, fb', hfind, hlasts⟩ := hs
  have hlike : fb.Like { fb' with height := max fb'.height use.height } := hlasts.toLike.grow
  rw [usedFramebuffer_of_find? hfind hlasts.toLike hformat haddress] at hcheck
  obtain ⟨region, stride, hregion, -, hcases⟩ := Framebuffer.check_eq_ok hcheck
  have hgrown : fb.Seen ram (max fb'.height use.height) := (hlasts.seen_max_iff hfb).mpr hseen
  rcases hcases with ⟨-, rfl, rfl⟩ | ⟨hnew, -⟩
  · have hentry : s'.table.find? fb.address = some
        { fb' with height := max fb'.height use.height, blendable := true } := by
      rw [htable, haddress, FramebufferTable.find?_insert_self]
      rfl
    refine ⟨⟨hsound, _, hentry, ⟨?_, .inr hgrown⟩⟩, ?_, ?_⟩
    · exact ⟨hlike.address, hlike.size, hlike.width, hlike.memory, hlike.checksum,
        hlike.formatChanged, hlike.height_le⟩
    · intro hcalm
      exact calm_append hqueued hcalm fun op hop => not_touches_operationFor hop
    · rw [blendable, hentry]
      rfl
  · exact absurd ((hlike.recognizes_iff hfb hregion).mpr hgrown) hnew

/-- A use of the image with another height uploads rows of it again. -/
lemma Keeps.unseen (hs : s.Keeps ram fb) (hfb : fb.Undisturbed ram) (hformat : KeepsFormat fb use)
    (haddress : use.address = fb.address) (hseen : ¬fb.Seen ram (max fb.height use.height))
    (h : (s.syncUse ram use).outcome = .ok s') : ¬s'.Calm fb := by
  obtain ⟨change, known, hcheck, -, hqueued, -⟩ := syncUse_eq_ok h
  obtain ⟨-, fb', hfind, hlasts⟩ := hs
  have hlike : fb.Like { fb' with height := max fb'.height use.height } := hlasts.toLike.grow
  rw [usedFramebuffer_of_find? hfind hlasts.toLike hformat haddress] at hcheck
  obtain ⟨region, stride, hregion, hstride, hcases⟩ := Framebuffer.check_eq_ok hcheck
  rcases hcases with ⟨hknown, -⟩ | ⟨-, hchange, -⟩
  · exact absurd ((hlasts.seen_max_iff hfb).mp ((hlike.recognizes_iff hfb hregion).mp hknown)) hseen
  · obtain ⟨change, hsome, htouches⟩ := hlike.touches_changeFor hfb hregion hstride use.type
    rw [hsome] at hchange
    subst hchange
    intro hcalm
    apply hcalm _ _ htouches
    rw [hqueued]
    exact List.mem_append_right _ (List.mem_singleton_self _)

lemma Keeps.step (hs : s.Keeps ram fb) (hfb : fb.Undisturbed ram) (hformat : KeepsFormat fb use)
    (hseen : SeenFor fb ram use) (h : (s.syncUse ram use).outcome = .ok s') :
    s'.Keeps ram fb ∧ (s.Calm fb → s'.Calm fb) ∧
      (use.address = fb.address ∨ s.blendable fb.address = true →
        s'.blendable fb.address = true) := by
  by_cases haddress : use.address = fb.address
  · obtain ⟨hs', hcalm, hblendable⟩ := hs.seen hfb hformat haddress (hseen haddress) h
    exact ⟨hs', hcalm, fun _ => hblendable⟩
  · obtain ⟨hs', hcalm, hblendable⟩ := hs.other haddress h
    refine ⟨hs', hcalm, ?_⟩
    rintro (hsame | hblend)
    · exact absurd hsame haddress
    · rw [hblendable]
      exact hblend

/-- Uses with heights with which the image was seen leave it alone. -/
lemma Keeps.uses {uses : List ImageUse} (hs : s.Keeps ram fb) (hfb : fb.Undisturbed ram)
    (hformat : ∀ use ∈ uses, KeepsFormat fb use) (hseen : ∀ use ∈ uses, SeenFor fb ram use)
    (h : (uses.foldlM (syncUse ram) s).outcome = .ok s') :
    s'.Keeps ram fb ∧ (s.Calm fb → s'.Calm fb) ∧
      ((∃ use ∈ uses, use.address = fb.address) ∨ s.blendable fb.address = true →
        s'.blendable fb.address = true) := by
  induction uses generalizing s with
  | nil =>
    rw [List.foldlM_nil, Traced.pure_eq_ok] at h
    subst h
    refine ⟨hs, id, ?_⟩
    rintro (⟨use, hmem, -⟩ | hblend)
    · cases hmem
    · exact hblend
  | cons use uses ih =>
    rw [List.foldlM_cons, Traced.bind_eq_ok] at h
    obtain ⟨s₁, huse, h⟩ := h
    rw [List.forall_mem_cons] at hformat hseen
    obtain ⟨hs₁, hcalm₁, hblend₁⟩ := hs.step hfb hformat.1 hseen.1 huse
    obtain ⟨hs', hcalm', hblend'⟩ := ih hs₁ hformat.2 hseen.2 h
    refine ⟨hs', fun hcalm => hcalm' (hcalm₁ hcalm), ?_⟩
    intro hblend
    apply hblend'
    rcases hblend with ⟨other, hmem, haddress⟩ | hblend
    · rcases List.mem_cons.mp hmem with rfl | hmem
      · exact .inr (hblend₁ (.inl haddress))
      · exact .inl ⟨other, hmem, haddress⟩
    · exact .inr (hblend₁ (.inr hblend))

lemma calm_of_uses {uses : List ImageUse} (h : (uses.foldlM (syncUse ram) s).outcome = .ok s')
    (hcalm : s'.Calm fb) : s.Calm fb := by
  induction uses generalizing s with
  | nil =>
    rw [List.foldlM_nil, Traced.pure_eq_ok] at h
    exact h ▸ hcalm
  | cons use uses ih =>
    rw [List.foldlM_cons, Traced.bind_eq_ok] at h
    obtain ⟨s₁, huse, h⟩ := h
    obtain ⟨_, _, -, -, hqueued, -⟩ := syncUse_eq_ok huse
    exact calm_of_append hqueued (ih h)

/-- If the image is left alone, it was seen with the heights of all uses. -/
lemma Keeps.seen_of_calm {uses : List ImageUse} (hs : s.Keeps ram fb) (hfb : fb.Undisturbed ram)
    (hformat : ∀ use ∈ uses, KeepsFormat fb use)
    (h : (uses.foldlM (syncUse ram) s).outcome = .ok s') (hcalm : s'.Calm fb) :
    ∀ use ∈ uses, SeenFor fb ram use := by
  induction uses generalizing s with
  | nil =>
    intro use hmem
    cases hmem
  | cons use uses ih =>
    rw [List.foldlM_cons, Traced.bind_eq_ok] at h
    obtain ⟨s₁, huse, h⟩ := h
    rw [List.forall_mem_cons] at hformat ⊢
    have hseen : SeenFor fb ram use := by
      intro haddress
      by_contra hunseen
      exact hs.unseen hfb hformat.1 haddress hunseen huse (calm_of_uses h hcalm)
    exact ⟨hseen, ih (hs.step hfb hformat.1 hseen huse).1 hformat.2 h⟩

lemma done_of_uses {uses : List ImageUse}
    (h : (uses.foldlM (syncUse ram) s).outcome = .ok s') : s'.done = s.done := by
  refine Traced.foldlM_induct (motive := fun s' => s'.done = s.done) h rfl ?_
  intro use _ s₁ s₂ hs₁ hs₂
  obtain ⟨_, _, -, -, -, hdone⟩ := syncUse_eq_ok hs₂
  exact hdone.trans hs₁

/-- Recording writes leaves what is remembered alone. -/
lemma Keeps.recorded {stamp : Nat} {writes : List (Nat × WriteType × Rect)}
    (hs : s.Keeps ram fb) (htable : s'.table = recorded stamp s.table writes) :
    s'.Keeps ram fb := by
  obtain ⟨hsound, fb', hfind, hlasts⟩ := hs
  refine ⟨htable ▸ sound_recorded hsound, ?_⟩
  rw [htable]
  clear htable hsound
  generalize s.table = table at hfind
  induction writes generalizing table fb' with
  | nil => exact ⟨fb', hfind, hlasts⟩
  | cons write writes ih =>
    by_cases haddress : fb.address = write.1
    · refine ih _ (hlasts.recordWrite write.2.1 write.2.2 stamp) _ ?_
      change (table.modify write.1 _).find? _ = _
      rw [← haddress, FramebufferTable.modify_of_find?_eq_some hfind,
        FramebufferTable.find?_insert_self]
    · refine ih _ hlasts _ ?_
      change (table.modify write.1 _).find? _ = _
      rw [FramebufferTable.find?_modify_of_ne haddress, hfind]

/-- A pair leaves the image alone if it was seen with the heights of all its uses. -/
lemma Keeps.pair {w : Workload} {p : Pair} (hs : s.Keeps ram fb) (hfb : fb.Undisturbed ram)
    (hbefore : p.before = []) (hformat : ∀ use ∈ p.imageUses, KeepsFormat fb use)
    (h : (syncPair ram w s p).outcome = .ok s') :
    ∃ p' done, s'.done = p' :: done ∧ done.map Pair.settled = s.done.map Pair.settled ∧
      (p'.Spares fb.address fb.readHeight ↔ ∀ use ∈ p.imageUses, SeenFor fb ram use) ∧
      ((∀ use ∈ p.imageUses, SeenFor fb ram use) → s'.Keeps ram fb) := by
  obtain ⟨s₁, s₂, p', writes, hsamples, huses, hcolor, hqueue, hblendable, hdone, htable⟩ :=
    syncPair_eq_ok h
  rw [hbefore, List.nil_append] at hqueue
  have hs₁ : s₁.Keeps ram fb := by
    rw [Keeps, hsamples.table]
    exact hs
  have hcalm₁ : s₁.Calm fb := by
    obtain ⟨copies, hcopies⟩ := hsamples.queued
    intro op hop
    rw [hcopies] at hop
    obtain ⟨copy, -, rfl⟩ := List.mem_map.mp hop
    exact id
  refine ⟨p', s₂.done, hdone, ?_, ?_, ?_⟩
  · rw [done_of_uses huses]
    exact hsamples.settled
  · constructor
    · intro hspares
      apply hs₁.seen_of_calm hfb hformat huses
      intro op hop
      exact hspares.before op (hqueue ▸ hop)
    · intro hseen
      obtain ⟨-, hcalm, hblend⟩ := hs₁.uses hfb hformat hseen huses
      refine ⟨?_, ?_⟩
      · rw [hqueue]
        exact hcalm hcalm₁
      · intro image himage haddress
        rw [hcolor] at himage
        rw [hblendable image himage, haddress]
        apply hblend
        left
        refine ⟨⟨image.address, image.size, image.width, p.drawHeight, .color⟩, ?_, haddress⟩
        rw [Pair.imageUses, himage]
        exact List.mem_cons_self
  · intro hseen
    exact (hs₁.uses hfb hformat hseen huses).1.recorded htable

lemma spares_congr {pairs pairs' : List Pair} {address rows : Nat}
    (h : pairs.map Pair.settled = pairs'.map Pair.settled) :
    (∀ p ∈ pairs, p.Spares address rows) ↔ ∀ p ∈ pairs', p.Spares address rows := by
  induction pairs generalizing pairs' with
  | nil =>
    rw [List.map_nil, eq_comm, List.map_eq_nil_iff] at h
    rw [h]
  | cons p pairs ih =>
    obtain ⟨p', pairs', rfl, hp, hpairs⟩ := List.map_eq_cons_iff.mp h.symm
    rw [List.forall_mem_cons, List.forall_mem_cons, Pair.spares_congr hp, ih hpairs.symm]

/-- A pair that did not leave an image alone stays one of the pairs done. -/
lemma spares_of_pairs {w : Workload} {pairs : List Pair} {address rows : Nat}
    (h : (pairs.foldlM (syncPair ram w) s).outcome = .ok s')
    (hspares : ∀ p ∈ s'.done, p.Spares address rows) : ∀ p ∈ s.done, p.Spares address rows := by
  revert hspares
  refine Traced.foldlM_induct (motive := fun s' =>
    (∀ p ∈ s'.done, p.Spares address rows) → ∀ p ∈ s.done, p.Spares address rows) h id ?_
  intro p _ s₁ s₂ hs₁ hs₂ hspares
  obtain ⟨s₃, s₄, p', _, hsamples, huses, -, -, -, hdone, -⟩ := syncPair_eq_ok hs₂
  rw [hdone, List.forall_mem_cons, done_of_uses huses] at hspares
  exact hs₁ ((spares_congr hsamples.settled).mp hspares.2)

/-- The pairs leave the image alone if it was seen with the heights of all their uses. -/
lemma Keeps.pairs {w : Workload} {pairs : List Pair} (hs : s.Keeps ram fb)
    (hfb : fb.Undisturbed ram) (hbefore : ∀ p ∈ pairs, p.before = [])
    (hformat : ∀ p ∈ pairs, ∀ use ∈ p.imageUses, KeepsFormat fb use)
    (h : (pairs.foldlM (syncPair ram w) s).outcome = .ok s') :
    (∀ p ∈ s'.done, p.Spares fb.address fb.readHeight) ↔
      (∀ p ∈ s.done, p.Spares fb.address fb.readHeight) ∧
        ∀ p ∈ pairs, ∀ use ∈ p.imageUses, SeenFor fb ram use := by
  induction pairs generalizing s with
  | nil =>
    rw [List.foldlM_nil, Traced.pure_eq_ok] at h
    subst h
    exact ⟨fun hspares => ⟨hspares, by simp⟩, And.left⟩
  | cons p pairs ih =>
    rw [List.foldlM_cons, Traced.bind_eq_ok] at h
    obtain ⟨s₁, hpair, h⟩ := h
    rw [List.forall_mem_cons] at hbefore hformat ⊢
    obtain ⟨p', done, hdone, hsettled, hspares, hkeeps⟩ := hs.pair hfb hbefore.1 hformat.1 hpair
    by_cases hseen : ∀ use ∈ p.imageUses, SeenFor fb ram use
    · rw [ih (hkeeps hseen) hbefore.2 hformat.2 h, hdone, List.forall_mem_cons,
        spares_congr hsettled]
      exact ⟨fun ⟨⟨_, hs⟩, hrest⟩ => ⟨hs, hseen, hrest⟩,
        fun ⟨hs, _, hrest⟩ => ⟨⟨hspares.mpr hseen, hs⟩, hrest⟩⟩
    · constructor
      · intro hall
        have hall₁ := spares_of_pairs h hall
        rw [hdone, List.forall_mem_cons] at hall₁
        exact absurd (hspares.mp hall₁.1) hseen
      · rintro ⟨-, hall, -⟩
        exact absurd hall hseen

end Sync

/-- Suppose that the rows of an image that were seen are the same in memory, and that a workload
keeps the format of the image. Then the workload uploads none of these rows, and what it draws to the
image may be blended, exactly if with the height of each of its uses the image has the length and the
checksum that it had when it was last seen. -/
theorem Workload.synced_rows_spared_iff {t t' : FramebufferTable} {w w' : Workload}
    {stats : SyncStats} {ram : ByteArray} {address : Nat} {fb : Framebuffer} (ht : t.Reachable)
    (hw : w.Built) (hfind : t.find? address = some fb) (hknown : 0 < fb.readHeight)
    (hrows : fb.SameRows ram) (hram : ram.size < 0x80000000)
    (hformat : ∀ p ∈ w.pairs, ∀ use ∈ p.imageUses, use.address = address →
      use.size = fb.size ∧ use.width = fb.width)
    (hsync : (w.synchronize t ram).outcome = .ok (stats, w', t')) :
    (∀ p ∈ w'.pairs, p.Spares address fb.readHeight) ↔
      ∀ p ∈ w.pairs, ∀ use ∈ p.imageUses, use.address = address →
        fb.Seen ram (max fb.height use.height) := by
  obtain ⟨rfl, hfb⟩ := ht.sound address fb hfind
  obtain ⟨s, hs, hpairs, -⟩ := synchronize_eq_ok hsync
  have hstart : (w.syncStart t).Keeps ram fb := ⟨ht.sound, fb, hfind, .refl⟩
  have h := hstart.pairs ⟨hfb, hknown, hrows, hram⟩ hw.unsynchronized hformat hs
  rw [hpairs]
  simp only [List.mem_reverse]
  rw [h]
  exact and_iff_right (by simp [syncStart])

namespace Workload

/-- What synchronizing a workload leads to. -/
def synced (w : Workload) (t : FramebufferTable) (ram : ByteArray) :
    SyncStats × Workload × FramebufferTable :=
  match (w.synchronize t ram).outcome with
  | .ok result => result
  | .error _ => (.zero, w, t)

lemma synchronize_eq_synced {w : Workload} {t : FramebufferTable} {ram : ByteArray}
    (h : (w.synchronize t ram).outcome.isOk = true) :
    (w.synchronize t ram).outcome =
      .ok ((w.synced t ram).1, (w.synced t ram).2.1, (w.synced t ram).2.2) := by
  simp only [synced]
  cases hresult : (w.synchronize t ram).outcome with
  | ok result => rfl
  | error fault =>
    rw [hresult] at h
    cases h

/-- A frame that draws some rows of one image. -/
def singleImage (rows : Nat) : Workload :=
  (({ empty with id := 1 } : Workload).setColorImage 0 .bits8 1).addDraw
    ⟨0, 3, none, ⟨0, 0, 1, rows⟩, .zero, false⟩

lemma built_singleImage {rows : Nat} : (singleImage rows).Built :=
  ((Built.empty.stamp 1 0 0 0 false).setColorImage 0 .bits8 1).addDraw _

/-- Memory that does not change. -/
def steadyMemory : ByteArray := ⟨#[5, 6, 7, 8]⟩

/-- The table after the first row was drawn. -/
def firstRowTable : FramebufferTable := ((singleImage 1).synced .empty steadyMemory).2.2

/-- The image of which the first row was drawn. -/
def firstRow : Framebuffer :=
  { Framebuffer.new 0 .bits8 1 1 with
    lastWriteRect := ⟨0, 0, 1, 1⟩
    lastWriteStamp := 1
    memory := ⟨#[5]⟩
    checksum := some (Checksum.crc32 ⟨#[5]⟩)
    readHeight := 1 }

lemma reachable_firstRowTable : firstRowTable.Reachable :=
  .synchronize .empty built_singleImage steadyMemory
    (synchronize_eq_synced (w := singleImage 1) (by decide +kernel))

lemma find?_firstRowTable : firstRowTable.find? 0 = some firstRow := by decide +kernel

lemma sameRows_firstRow : firstRow.SameRows steadyMemory := by
  intro stride hstride i hi
  cases hstride
  obtain rfl : i = 0 := Nat.lt_one_iff.mp hi
  rfl

/-- The frame uses its image once. -/
lemma eq_of_mem_imageUses {rows : Nat} {p : Pair} (hp : p ∈ (singleImage rows).pairs)
    {use : ImageUse} (huse : use ∈ p.imageUses) :
    use = ⟨0, .bits8, 1, (max (max (rows : Int) 0) 1).toNat, .color⟩ := by
  obtain rfl := List.mem_singleton.mp (show p ∈ [_] from hp)
  exact List.mem_singleton.mp (show use ∈ [_] from huse)

lemma format_singleImage {rows : Nat} : ∀ p ∈ (singleImage rows).pairs, ∀ use ∈ p.imageUses,
    use.address = 0 → use.size = firstRow.size ∧ use.width = firstRow.width := by
  intro p hp use huse _
  obtain rfl := eq_of_mem_imageUses hp huse
  exact ⟨rfl, rfl⟩

/-- Drawing the same row again uploads nothing. -/
theorem same_row_spared :
    firstRow.SameRows steadyMemory ∧
      ∀ p ∈ ((singleImage 1).synced firstRowTable steadyMemory).2.1.pairs, p.Spares 0 1 := by
  refine ⟨sameRows_firstRow, ?_⟩
  apply (synced_rows_spared_iff reachable_firstRowTable built_singleImage find?_firstRowTable
    (by decide) sameRows_firstRow (by decide) format_singleImage
    (synchronize_eq_synced (by decide +kernel))).mpr
  intro p hp use huse _
  obtain rfl := eq_of_mem_imageUses hp huse
  exact ⟨⟨#[5]⟩, rfl, rfl, rfl⟩

/-- Drawing a second row uploads the first again, and it is not blended. -/
theorem taller_image_uploaded_again :
    firstRowTable.Reachable ∧ (singleImage 2).Built ∧ firstRowTable.find? 0 = some firstRow ∧
      0 < firstRow.readHeight ∧ firstRow.SameRows steadyMemory ∧ steadyMemory.size < 0x80000000 ∧
      (∀ p ∈ (singleImage 2).pairs, ∀ use ∈ p.imageUses, use.address = 0 →
        use.size = firstRow.size ∧ use.width = firstRow.width) ∧
      (∃ stats t', ((singleImage 2).synchronize firstRowTable steadyMemory).outcome =
        .ok (stats, ((singleImage 2).synced firstRowTable steadyMemory).2.1, t')) ∧
      ∃ p ∈ ((singleImage 2).synced firstRowTable steadyMemory).2.1.pairs,
        (∃ op ∈ p.before, op.Touches 0 firstRow.readHeight) ∧
          p.colorImage = some ⟨0, .bits8, 1⟩ ∧ p.blendable = false := by
  refine ⟨reachable_firstRowTable, built_singleImage, find?_firstRowTable, by decide,
    sameRows_firstRow, by decide, format_singleImage,
    ⟨_, _, synchronize_eq_synced (by decide +kernel)⟩, ?_⟩
  have hpair : (((singleImage 2).synced firstRowTable steadyMemory).2.1.pairs.any fun p =>
      p.before = [.upload .color ⟨0, .bits8, 1, ⟨0, 0, 1, 2⟩, ⟨#[5, 6]⟩⟩] &&
        p.colorImage = some ⟨0, .bits8, 1⟩ && !p.blendable) = true := by decide +kernel
  obtain ⟨p, hp, h⟩ := List.any_eq_true.mp hpair
  simp only [Bool.and_eq_true, decide_eq_true_eq, Bool.not_eq_true'] at h
  obtain ⟨⟨hbefore, hcolor⟩, hblendable⟩ := h
  refine ⟨p, hp, ⟨_, by rw [hbefore]; exact List.mem_singleton_self _, ?_⟩, hcolor, hblendable⟩
  exact ⟨rfl, 0, by decide, by decide, by decide⟩

end Workload

end Scanout
