import Scanout.Proofs.Workload.Supplies

/-!
# Textures that are kept up to date

Workloads are compared with memory once, and rendered in several slots. A draw goes to a texture
that has all rows of its image, and all changes since, if and only if either the workload itself
uploads all rows, or its slot was kept up: no workload with changes was left out there, and the
targets were not given up in between.
-/

namespace Scanout

/-- What happened to the table and the targets since they were empty. Frames and what is shown
follow each other in any order; each frame is rendered in any slots, though not twice in the same
one. -/
inductive Journal (limits : DeviceLimits) (memory : Nat) :
    List Occurrence → FramebufferTable → Renderer → Prop where
  | start (config : TargetConfig) : Journal limits memory [] .empty (.new (.new limits) config)
  | frame {past : List Occurrence} {table table' : FramebufferTable} {r r' : Renderer}
      {w w' : Workload} {stats : SyncStats} {images : List RenderedImage} {ram : ByteArray}
      (before : Journal limits memory past table r) (built : w.Built) (size : ram.size = memory)
      (fits : w.Fits memory) (synced : (w.synchronize table ram).outcome = .ok (stats, w', table'))
      (rendered : w'.Renders images r r') (slots : (images.map RenderedImage.slot).Nodup) :
      Journal limits memory (.frame w' images :: past) table' r'
  | check {past : List Occurrence} {table table' : FramebufferTable} {r : Renderer} {other : Nat}
      {ram : ByteArray} (before : Journal limits memory past table r) (size : ram.size = memory)
      (checked : (table.check other ram).outcome = .ok (none, table')) :
      Journal limits memory past table' r
  | upload {past : List Occurrence} {table table' : FramebufferTable} {r r' : Renderer}
      {other : Nat} {ram : ByteArray} {change : MemoryChange}
      (before : Journal limits memory past table r) (size : ram.size = memory)
      (checked : (table.check other ram).outcome = .ok (some change, table'))
      (uploaded : Rendering.upload [.upload .color change] r = .ok () r') :
      Journal limits memory past table' r'
  | fill {past : List Occurrence} {table : FramebufferTable} {r r' : Renderer} {screen : Screen}
      {command : TextureId → Command} {shown : Shown} (before : Journal limits memory past table r)
      (filled : Rendering.throughScratch screen command r = .ok shown r') :
      Journal limits memory past table r'
  | reset {past : List Occurrence} {table : FramebufferTable} {r : Renderer}
      (before : Journal limits memory past table r) : Journal limits memory past .empty r
  | configured {past : List Occurrence} {table : FramebufferTable} {r : Renderer}
      {config : TargetConfig} (before : Journal limits memory past table r)
      (replaced : (r.setConfig config).1 = true) :
      Journal limits memory (.configured :: past) table (r.setConfig config).2

namespace Renderer

variable {r r' : Renderer} {x : TextureId} {slot : Slot} {past : List Occurrence}
  {touched : TargetKey → Prop} {t : Target}

/-- The texture was made, and if it is that of a target, then of one in the slot. -/
def Belongs (r : Renderer) (x : TextureId) (slot : Slot) : Prop :=
  x < r.device.nextTexture ∧ ∀ t ∈ r.targets, t.texture = x → t.slot = slot

lemma Sound.belongs (h : r.Sound) (ht : t ∈ r.targets) : r.Belongs t.texture t.slot := by
  refine ⟨h.texture_lt ht, fun t' ht' he => ?_⟩
  rw [List.inj_on_of_nodup_map h.textures ht' ht he]

lemma Belongs.survives (h : r.Belongs x slot) (hr : r.Survives touched r') :
    r'.Belongs x slot := by
  refine ⟨Nat.lt_of_lt_of_le h.1 hr.next_le, ?_⟩
  rintro t ht rfl
  rcases hr.origin t ht with ht | hnew
  · exact h.2 t ht rfl
  · exact absurd h.1 (Nat.not_lt.mpr hnew)

/-- Only textures that were made are supplied, and if they are those of targets, then the slot was
kept up. -/
structure Attests (r : Renderer) (past : List Occurrence) : Prop where
  made : ∀ x key rows, Supplied x key rows past → x < r.device.nextTexture
  kept : ∀ t ∈ r.targets, ∀ key rows, Supplied t.texture key rows past →
    keptUp t.slot key rows past = true

lemma Attests.survives (h : r.Attests past) (hr : r.Survives touched r') : r'.Attests past where
  made x key rows hsupplied := Nat.lt_of_lt_of_le (h.made x key rows hsupplied) hr.next_le
  kept t ht key rows hsupplied := by
    rcases hr.origin t ht with ht | hnew
    · exact h.kept t ht key rows hsupplied
    · exact absurd (h.made t.texture key rows hsupplied) (Nat.not_lt.mpr hnew)

end Renderer

namespace Workload

variable {w w' : Workload} {slot slot' : Slot} {e : ImageEvent} {events : List ImageEvent}
  {r r' r₁ : Renderer} {past : List Occurrence} {images : List RenderedImage} {key : TargetKey}
  {m : Matcher} {s : SubFrame} {address rows memory : Nat} {start known : Option (TargetKey × Nat)}
  {pairs : List Pair} {table table' : FramebufferTable} {stats : SyncStats} {ram : ByteArray}

/-- An upload goes to the texture of a target in the slot at hand. -/
lemma Performed.of_upload (h : w.Performed slot e r r') {x : TextureId} {rect : Rect}
    {size : PixelSize} {data : ByteArray} (hmem : .upload x rect size data ∈ r'.commands) :
    .upload x rect size data ∈ r.commands ∨ ∃ t ∈ r'.targets, t.texture = x ∧ t.slot = slot := by
  have other : ∀ {r₁ : Renderer} {c : Command}, r₁.commands = r.commands →
      .upload x rect size data ∈ (r₁.add c).commands → c ≠ .upload x rect size data →
      .upload x rect size data ∈ r.commands := by
    intro r₁ c hcommands hmem hne
    rw [Renderer.commands_add, hcommands] at hmem
    exact (List.mem_append.mp hmem).resolve_right fun hc => hne (List.mem_singleton.mp hc).symm
  cases h with
  | operation recorded =>
    cases recorded with
    | upload requested =>
      rw [Renderer.commands_add, Renderer.commands_of_requested requested] at hmem
      refine (List.mem_append.mp hmem).imp_right fun hc => ?_
      obtain ⟨rfl, -⟩ := Command.upload.inj (List.mem_singleton.mp hc)
      exact ⟨_, requested.mem.1, rfl, requested.mem.2.2⟩
    | copyTile found requested =>
      exact .inl (other (Renderer.commands_of_requested requested) hmem (by simp))
    | reinterpret isFound kind requested =>
      exact .inl (other (Renderer.commands_of_requested requested) hmem (by simp))
    | copyNothing | reinterpretNothing | synchronizeNothing => exact .inl hmem
    | synchronize => exact .inl (other rfl hmem (by simp))
  | demand requested => exact .inl (Renderer.commands_of_requested requested ▸ hmem)
  | draw => exact .inl (other rfl hmem (by simp))
  | mark targets device commands => exact .inl (commands ▸ hmem)

/-- The uploads in the list of an image go to textures of its slot. -/
lemma belongs_of_image (hr : r.Sound) (h : w.recordImage m s slot r = .ok () r₁) {x : TextureId}
    {rect : Rect} {size : PixelSize} {data : ByteArray}
    (hmem : .upload x rect size data ∈ r₁.commands) : r₁.Belongs x slot := by
  have hperforms := performs_recordImage hr h
  refine (hperforms.induct (motive := fun r₁ => r₁.Sound ∧ ∀ x rect size data,
    .upload x rect size data ∈ r₁.commands → r₁.Belongs x slot) ⟨hr.congr rfl rfl rfl, ?_⟩ ?_).2
    x rect size data hmem
  · intro x rect size data hmem
    cases hmem
  · rintro e - r₂ r₃ ⟨hr₂, hbelongs⟩ hperformed
    have hr₃ := hperformed.enlarges.sound hr₂
    refine ⟨hr₃, fun x rect size data hmem => ?_⟩
    rcases hperformed.of_upload hmem with hmem | ⟨t, ht, rfl, rfl⟩
    · exact (hbelongs x rect size data hmem).survives hperformed.enlarges.toSurvives
    · exact hr₃.belongs ht

/-- A target in another slot is not touched. -/
lemma Performed.find?_other (h : w.Performed slot e r r') (hr : r.Sound) (hne : slot' ≠ slot) :
    r'.find? key slot' = r.find? key slot' := by
  have other : ∀ {key' : TargetKey} {width height : Nat} {r₁ : Renderer} {t : Target},
      Target.Requested key' slot width height r t r₁ → r₁.find? key slot' = r.find? key slot' :=
    fun hrequested => hrequested.find?_of_ne hr fun hplace => hne (congrArg Prod.snd hplace)
  cases h with
  | operation recorded =>
    cases recorded with
    | upload requested | copyTile _ requested | reinterpret _ _ requested =>
      rw [Renderer.find?_add]
      exact other requested
    | copyNothing | reinterpretNothing | synchronize | synchronizeNothing => rfl
  | demand requested => exact other requested
  | draw => rfl
  | mark targets => exact Renderer.find?_congr targets

lemma Performs.find?_other (h : w.Performs slot events r r') (hr : r.Sound) (hne : slot' ≠ slot) :
    r'.find? key slot' = r.find? key slot' := by
  refine (h.induct (motive := fun r' => r'.Sound ∧ r'.find? key slot' = r.find? key slot')
    ⟨hr, rfl⟩ ?_).2
  rintro e - r₁ r₂ ⟨hr₁, hsame⟩ hperformed
  exact ⟨hperformed.enlarges.sound hr₁, (hperformed.find?_other hr₁ hne).trans hsame⟩

lemma find?_submit (hsubmit : Rendering.submit r = .ok () r') :
    r'.find? key slot = r.find? key slot := by
  rw [Rendering.of_submit hsubmit]
  rfl

lemma find?_other_of_image (hr : r.Sound) (h : w.recordImage m s slot r = .ok () r₁)
    (hsubmit : Rendering.submit r₁ = .ok () r') (hne : slot' ≠ slot) :
    r'.find? key slot' = r.find? key slot' := by
  rw [find?_submit hsubmit, (performs_recordImage hr h).find?_other (hr.congr rfl rfl rfl) hne]
  rfl

namespace Renders

/-- The uploads in the lists of images go to textures of their slots. -/
lemma belongs (h : w.Renders images r r') (hr : r.Sound) {image : RenderedImage}
    (himage : image ∈ images) {x : TextureId} {rect : Rect} {size : PixelSize} {data : ByteArray}
    (hmem : .upload x rect size data ∈ image.commands) : r'.Belongs x image.slot := by
  induction h with
  | nil => cases himage
  | image before recorded submitted ih =>
    have hr₁ := (before.enlarges hr).sound hr
    rcases List.mem_append.mp himage with himage | himage
    · exact (ih hr himage).survives (enlarges_of_image hr₁ recorded submitted).1.toSurvives
    · obtain rfl := List.mem_singleton.mp himage
      have hbelongs := belongs_of_image hr₁ recorded hmem
      rw [Rendering.of_submit submitted]
      exact hbelongs

/-- Targets in slots that nothing is rendered in are not touched. -/
lemma find?_other (h : w.Renders images r r') (hr : r.Sound)
    (hslot : slot ∉ images.map RenderedImage.slot) : r'.find? key slot = r.find? key slot := by
  induction h with
  | nil => rfl
  | image before recorded submitted ih =>
    rw [List.map_append, List.mem_append, not_or] at hslot
    have hne : slot ≠ _ := fun h => hslot.2 (List.mem_singleton.mpr h)
    have hr₁ := (before.enlarges hr).sound hr
    exact (find?_other_of_image hr₁ recorded submitted hne).trans (ih hr hslot.1)

/-- Before an image of its slot is recorded, a target is as it was before the other images. -/
lemma still_serves (h : w.Renders images r r') (hr : r.Sound)
    (hslot : slot ∉ images.map RenderedImage.slot)
    (hserves : r.Serves slot past [] (fun _ => []) start) :
    Renderer.Serves { r' with commands := [] } slot past [⟨slot, []⟩] (fun _ => []) start := by
  refine hserves.of_nothing.keep ?_ fun image himage => ⟨image, himage, List.Subset.refl _⟩
  rintro key rows t - ht -
  exact (h.find?_other hr hslot).trans ht

/-- An image supplies the target of its slot, and the images after it leave that alone. -/
lemma serves (h : w.Renders images r r') (hr : r.Sound)
    (hpairs : TracksAll address start w.pairs.reverse known) (hstart : Tracked address start)
    (hmarks : ∀ p ∈ w.pairs, ∀ op ∈ p.after, op.IsMark)
    (hslots : (images.map RenderedImage.slot).Nodup)
    (hslot : slot ∈ images.map RenderedImage.slot)
    (hserves : r.Serves slot past [] (fun _ => []) start) :
    r'.Serves slot past images w.changesFor known := by
  induction h with
  | nil => cases hslot
  | @image images r r₁ r₂ r' m s slot' before recorded submitted ih =>
    have hr₁ := (before.enlarges hr).sound hr
    rw [List.map_append, List.nodup_append] at hslots
    by_cases hmem : slot ∈ images.map RenderedImage.slot
    · have hne : slot ≠ slot' := hslots.2.2 slot hmem slot' (List.mem_singleton_self _)
      refine (ih hr hslots.1 hmem hserves).keep ?_ ?_
      · rintro key rows t - ht -
        rw [find?_other_of_image hr₁ recorded submitted hne, ht]
      · exact fun image himage =>
          ⟨image, List.mem_append_left _ himage, List.Subset.refl _⟩
    · obtain rfl : slot = slot' := by simpa [hmem] using hslot
      have hstill := before.still_serves hr hmem hserves
      have hperforms := performs_recordImage hr₁ recorded
      refine (hperforms.serves_pairs (hr₁.congr rfl rfl rfl) hpairs hstart hmarks hstill).keep ?_ ?_
      · rintro key rows t - ht -
        exact (find?_submit submitted).trans ht
      · intro image himage
        exact ⟨image, List.mem_append_right _ himage, List.Subset.refl _⟩

end Renders

/-- If no change is for the target that is tracked, then it was tracked before. -/
lemma tracked_of_no_changes (hpairs : TracksAll address start pairs (some (key, rows)))
    (hnone : ∀ p ∈ pairs, p.changesFor key = []) : start = some (key, rows) := by
  induction pairs with
  | nil => exact hpairs.symm
  | cons p pairs ih =>
    obtain ⟨hp, hearlier⟩ := List.forall_mem_cons.mp hnone
    obtain ⟨before, hpairs, htracks⟩ := hpairs
    cases htracks with
    | aside => exact ih hpairs hearlier
    | unchanged => exact ih hpairs hearlier
    | @uploaded _ image _ change isColor same height upload hkey =>
      have haddress : change.address = address := (congrArg TargetKey.address hkey).trans same
      rw [← hkey, changesFor_of_upload upload haddress] at hp
      cases hp

/-- What the workload has tracked when all its pairs are synchronized. -/
lemma tracksAll_of_synchronize (hw : w.Built) (ht : table.Sound)
    (hreads : table.Reads memory address) (hcolors : w'.ColorsOnly address) (hfits : w.Fits memory)
    (hram : ram.size = memory) (hmemory : memory < 0x80000000)
    (h : (w.synchronize table ram).outcome = .ok (stats, w', table')) :
    table'.Reads memory address ∧
      TracksAll address (table.tracked address) w'.pairs.reverse (table'.tracked address) := by
  have himages := imageUses_of_synchronize h
  obtain ⟨t, hafter, -, hreads', htracks⟩ := exists_tableAfter? hw ht hreads
    ((colorsOnly_congr himages).mp hcolors) hfits hram hmemory h w.pairs.length
  have hlength : w'.pairs.length = w.pairs.length := by simpa using congrArg List.length himages
  rw [List.take_of_length_le hlength.le] at htracks
  obtain ⟨s, hs, -, rfl⟩ := exists_synced h
  rw [tableAfter?, List.take_length, hs] at hafter
  cases hafter
  exact ⟨hreads', htracks⟩

end Workload

namespace Journal

variable {limits : DeviceLimits} {memory address : Nat} {past : List Occurrence}
  {table table' : FramebufferTable} {r r' : Renderer} {w : Workload} {images : List RenderedImage}

lemma sound (h : Journal limits memory past table r) : table.Sound ∧ r.Sound := by
  induction h with
  | start config => exact ⟨.empty, .new⟩
  | frame before built size fits synced rendered slots ih =>
    exact ⟨(built.accounts ih.1 synced).2.1, (rendered.enlarges ih.2).sound ih.2⟩
  | check before size checked ih => exact ⟨ih.1.check checked, ih.2⟩
  | upload before size checked uploaded ih =>
    exact ⟨ih.1.check checked, (Rendering.confined_upload.enlarges uploaded).sound ih.2⟩
  | fill before filled ih =>
    exact ⟨ih.1, (Rendering.confined_throughScratch.enlarges filled).sound ih.2⟩
  | reset before ih => exact ⟨.empty, ih.2⟩
  | configured before replaced ih => exact ⟨ih.1, ih.2.setConfig⟩

/-- A texture that a frame supplies belongs to a slot that the frame was rendered in. -/
lemma attests_frame (h : r.Attests past) (hr : r.Sound) (hrendered : w.Renders images r r') :
    r'.Attests (.frame w images :: past) := by
  have hsurvives := (hrendered.enlarges hr).toSurvives
  have huploaded : ∀ {x changes c}, Uploaded x images changes → c ∈ changes →
      ∃ image ∈ images, r'.Belongs x image.slot := by
    intro x changes c huploaded hc
    obtain ⟨image, himage, hmem⟩ := huploaded c hc
    exact ⟨image, himage, hrendered.belongs hr himage hmem⟩
  have h' := h.survives hsurvives
  constructor
  · intro x key rows hsupplied
    rcases hsupplied with ⟨-, hearlier⟩ | ⟨before, c, after, -, -, hup⟩
    · exact h'.made x key rows hearlier
    · obtain ⟨image, -, hbelongs⟩ := huploaded hup List.mem_cons_self
      exact hbelongs.1
  · intro t ht key rows hsupplied
    have hslot : ∀ {changes c}, Uploaded t.texture images changes → c ∈ changes →
        t.slot ∈ images.map RenderedImage.slot := by
      intro changes c hup hc
      obtain ⟨image, himage, hbelongs⟩ := huploaded hup hc
      exact List.mem_map.mpr ⟨image, himage, (hbelongs.2 t ht rfl).symm⟩
    rw [keptUp]
    rcases hsupplied with ⟨hup, hearlier⟩ | ⟨before, c, after, hchanges, hcovers, hup⟩
    · have hkept := h'.kept t ht key rows hearlier
      cases hlist : w.changesFor key with
      | nil => simpa using hkept
      | cons c changes =>
        have := hslot hup (hlist ▸ List.mem_cons_self)
        simp [hkept, this]
    · have := hslot hup List.mem_cons_self
      simp [hchanges, this, hcovers]

lemma attests (h : Journal limits memory past table r) : r.Attests past := by
  induction h with
  | start config =>
    constructor
    · intro x key rows h
      exact h.elim
    · intro t ht
      cases ht
  | frame before built size fits synced rendered slots ih =>
    exact attests_frame ih before.sound.2 rendered
  | check before size checked ih => exact ih
  | upload before size checked uploaded ih =>
    exact ih.survives (Rendering.confined_upload.enlarges uploaded).toSurvives
  | fill before filled ih =>
    exact ih.survives (Rendering.confined_throughScratch.enlarges filled).toSurvives
  | reset before ih => exact ih
  | @configured _ _ r config before replaced ih =>
    rcases r.setConfig_cases config with hsame | ⟨-, htargets, hsurvives⟩
    · rw [hsame] at replaced
      cases replaced
    · refine ⟨(ih.survives hsurvives).made, fun t ht => ?_⟩
      rw [htargets] at ht
      cases ht

/-- A frame supplies the targets in the slots that it is rendered in, and leaves all others alone.
-/
lemma serves_frame {start known : Option (TargetKey × Nat)} {slot : Slot}
    (hr : r.Sound) (hrendered : w.Renders images r r')
    (hpairs : TracksAll address start w.pairs.reverse known) (hstart : Tracked address start)
    (hmarks : ∀ p ∈ w.pairs, ∀ op ∈ p.after, op.IsMark)
    (hslots : (images.map RenderedImage.slot).Nodup)
    (hserves : r.Serves slot past [] (fun _ => []) start) :
    r'.Serves slot (.frame w images :: past) [] (fun _ => []) known := by
  intro key rows hknown hcondition
  have hkept : keptUp slot key rows (.frame w images :: past) = true := by simpa using hcondition
  rw [keptUp] at hkept
  by_cases hslot : slot ∈ images.map RenderedImage.slot
  · obtain ⟨t, ht, hcovers, hsupplied⟩ := hrendered.serves hr hpairs hstart hmarks hslots hslot
      hserves key rows hknown (by
        cases hlist : w.changesFor key with
        | nil => simpa [hlist] using hkept
        | cons c changes => simpa [hlist, hslot] using hkept)
    exact ⟨t, ht, hcovers, .of_nothing hsupplied⟩
  · have hnothing : w.changesFor key = [] := by
      cases hlist : w.changesFor key with
      | nil => rfl
      | cons c changes => simp [hlist, hslot] at hkept
    have hbefore : start = some (key, rows) := by
      refine Workload.tracked_of_no_changes (hknown ▸ hpairs) fun p hp => ?_
      exact List.flatMap_eq_nil_iff.mp hnothing p (List.mem_reverse.mp hp)
    obtain ⟨t, ht, hcovers, hsupplied⟩ := hserves key rows hbefore (by
      simpa [hnothing] using hkept)
    refine ⟨t, (hrendered.find?_other hr hslot).trans ht, hcovers, .of_nothing ?_⟩
    rw [Supplied, hnothing]
    exact .of_nothing (hsupplied.covered_or.resolve_left (by simp))

/-- An upload of rows that are tracked replaces no target that is tracked. -/
lemma find?_of_upload {change : MemoryChange} {key : TargetKey} {rows : Nat} {slot : Slot}
    {t : Target} (hr : r.Sound)
    (huploaded : Rendering.upload [.upload .color change] r = .ok () r')
    (hwithin : change.key = key → 0 < rows ∧ change.rect.bottom ≤ (rows : Int))
    (ht : r.find? key slot = some t) (hcovers : t.covers key.width rows = true) :
    r'.find? key slot = some t := by
  simp only [Rendering.upload, Operation.recordAll, Rendering.bind_eq_ok] at huploaded
  obtain ⟨_, r₁, hbegin, _, r₂, hrecord, _, r₃, hmark, hsubmit⟩ := huploaded
  obtain rfl := Rendering.modify_eq_ok.mp hbegin
  obtain ⟨_, hrecorded, hnil⟩ := Rendering.forM_cons_eq_ok.mp hrecord
  obtain rfl := Rendering.forM_nil_eq_ok.mp hnil
  obtain ⟨_, hmarked, hnil⟩ := Rendering.forM_cons_eq_ok.mp hmark
  obtain rfl := Rendering.forM_nil_eq_ok.mp hnil
  obtain rfl := Rendering.modify_eq_ok.mp hmarked
  rw [Workload.find?_submit hsubmit]
  cases Operation.Recorded.of_record hrecorded with
  | upload requested =>
    refine requested.find?_of_covers (hr.congr rfl rfl rfl) ht ?_
    rintro rfl
    obtain ⟨hpos, hbottom⟩ := hwithin rfl
    simp only [Target.covers, Bool.and_eq_true, decide_eq_true_eq] at hcovers ⊢
    refine ⟨hcovers.1, Nat.le_trans ?_ hcovers.2⟩
    simp only [Operation.rowsDownTo]
    omega

/-- What is tracked of an image that only colors are drawn to is supplied where the slot was kept
up. -/
lemma serves (h : Journal limits memory past table r) (hmemory : memory < 0x80000000)
    (hcolors : ∀ w images, .frame w images ∈ past → w.ColorsOnly address) :
    table.Reads memory address ∧
      ∀ slot, r.Serves slot past [] (fun _ => []) (table.tracked address) := by
  induction h with
  | start config =>
    refine ⟨?_, ?_⟩
    · intro fb hfb
      cases hfb
    · intro slot key rows hknown
      cases hknown
  | frame before built size fits synced rendered slots ih =>
    obtain ⟨hreads, hserves⟩ :=
      ih fun w images hmem => hcolors w images (List.mem_cons_of_mem _ hmem)
    obtain ⟨hreads', htracks⟩ := Workload.tracksAll_of_synchronize built before.sound.1 hreads
      (hcolors _ _ List.mem_cons_self) fits size hmemory synced
    have hmarks := (built.accounts before.sound.1 synced).1.marks
    exact ⟨hreads', fun slot => serves_frame before.sound.2 rendered htracks .of_table hmarks slots
      (hserves slot)⟩
  | check before size checked ih =>
    subst size
    obtain ⟨hreads, hserves⟩ := ih hcolors
    obtain ⟨hreads', htracked, -⟩ := hreads.check before.sound.1 hmemory checked
    rw [htracked]
    exact ⟨hreads', hserves⟩
  | upload before size checked uploaded ih =>
    subst size
    obtain ⟨hreads, hserves⟩ := ih hcolors
    obtain ⟨hreads', htracked, hrows⟩ := hreads.check before.sound.1 hmemory checked
    rw [htracked]
    refine ⟨hreads', fun slot => (hserves slot).keep ?_ fun _ himage => ⟨_, himage, fun _ h => h⟩⟩
    intro key rows t hknown ht hcovers
    refine find?_of_upload before.sound.2 uploaded ?_ ht hcovers
    rintro rfl
    obtain ⟨rows', htracked', hpos, hbottom⟩ := hrows _ rfl (Tracked.of_table _ _ hknown).1
    obtain ⟨-, rfl⟩ := Prod.mk.inj (Option.some.inj (htracked'.symm.trans hknown))
    exact ⟨hpos, hbottom⟩
  | @fill _ _ r _ _ _ _ before filled ih =>
    obtain ⟨hreads, hserves⟩ := ih hcolors
    refine ⟨hreads, fun slot => (hserves slot).keep ?_ fun _ himage => ⟨_, himage, fun _ h => h⟩⟩
    intro key rows t hknown ht hcovers
    have henlarges := Rendering.confined_throughScratch.enlarges filled
    rw [(henlarges.sound before.sound.2).find?_eq_some_iff]
    obtain ⟨hmem, hkey, hslot⟩ := Renderer.mem_of_find? ht
    refine ⟨henlarges.kept t hmem ?_, hkey, hslot⟩
    rintro hscratch
    rw [hkey] at hscratch
    have hkind := (Tracked.of_table _ _ hknown).2
    rw [hscratch] at hkind
    cases hkind
  | reset before ih =>
    refine ⟨?_, ?_⟩
    · intro fb hfb
      cases hfb
    · intro slot key rows hknown
      cases hknown
  | configured before replaced ih =>
    refine ⟨(ih fun w images hmem => hcolors w images (List.mem_cons_of_mem _ hmem)).1, ?_⟩
    intro slot key rows hknown hcondition
    simp [keptUp] at hcondition

end Journal

/-- A pair that colors the image tracks it in the format of the pair. -/
lemma Pair.Tracks.of_color {p : Pair} {address : Nat} {known known' : Option (TargetKey × Nat)}
    (h : p.Tracks address known known') {image : ColorImage} (himage : p.colorImage = some image)
    (haddress : image.address = address) : ∃ rows, known' = some (image.key, rows) := by
  cases h with
  | aside other =>
    have huse : ⟨image.address, image.size, image.width, p.drawHeight, .color⟩ ∈ p.imageUses := by
      simp [Pair.imageUses, himage]
    exact absurd haddress (other _ huse)
  | @uploaded _ image' rows _ isColor =>
    cases himage.symm.trans isColor
    exact ⟨rows, rfl⟩
  | @unchanged image' rows isColor =>
    cases himage.symm.trans isColor
    exact ⟨rows, rfl⟩

namespace Workload

variable {limits : DeviceLimits} {memory : Nat} {past : List Occurrence}
  {table table' : FramebufferTable} {r r₁ r₂ : Renderer} {w₀ w : Workload}
  {images : List RenderedImage} {stats : SyncStats} {ram : ByteArray} {slot : Slot} {m : Matcher}
  {s : SubFrame} {before after : List Command} {d : DrawCommand}

/-- The texture that a draw goes to has all rows of its image as they are tracked then, and all
changes queued since, if and only if the workload uploads all rows before the draw, or the slot was
kept up. This holds of images that only colors are drawn to, and that memory reaches to the end of.
-/
theorem draw_supplied_iff (journal : Journal limits memory past table r)
    (limited : memory < 0x80000000) (built : w₀.Built) (size : ram.size = memory)
    (fits : w₀.Fits memory) (synced : (w₀.synchronize table ram).outcome = .ok (stats, w, table'))
    (rendered : w.Renders images r r₁) (unrendered : slot ∉ images.map RenderedImage.slot)
    (recorded : w.recordImage m s slot r₁ = .ok () r₂)
    (split : r₂.commands = before ++ .draw d :: after) :
    ∃ place call p image, w.drawnCalls[before.countP Command.isDraw]? = some (place, call) ∧
      w.pairs[place]? = some p ∧ p.colorImage = some image ∧
      (w.ColorsOnly image.address →
        (∀ w' images', .frame w' images' ∈ past → w'.ColorsOnly image.address) →
        ∃ rows, w₀.rowsAt? table ram place image.address = some rows ∧
          (SuppliedBy d.color rows [⟨slot, before⟩] (w.changesUpTo image.key place)
              (Supplied d.color image.key rows past) ↔
            ((w.changesUpTo image.key place).any (·.covers rows) ||
              keptUp slot image.key rows past) = true)) := by
  obtain ⟨hsound, hr⟩ := journal.sound
  have hr₁ := (rendered.enlarges hr).sound hr
  obtain ⟨done, place, p, call, rest, r₃, hcall, hevents, hdone, rfl, hdraw, -⟩ :=
    exists_drawn hr₁ recorded split
  obtain ⟨image, color, draw, himage, hfound, -, hcolor, -⟩ := hdraw.of_draw
  obtain ⟨earlier, q, later, done', rest', hpairs, hq, rfl⟩ := exists_pair hevents
  obtain ⟨rfl, rfl, -⟩ : place = earlier.length ∧ p = q ∧ call ∈ q.calls :=
    Pair.of_draw_mem_events (by simp [hq])
  refine ⟨earlier.length, call, p, image, hcall, by simp [hpairs], himage, ?_⟩
  intro hcolors hpast
  have htake : w.pairs.take (earlier.length + 1) = earlier ++ [p] := by
    rw [hpairs, List.append_cons]
    exact List.take_left' (by simp)
  -- what was tracked when the pair was synchronized
  obtain ⟨hreads, hserves⟩ := journal.serves limited hpast
  obtain ⟨t, hafter, -, -, htracks⟩ := exists_tableAfter? built hsound hreads
    ((colorsOnly_congr (imageUses_of_synchronize synced)).mp hcolors) fits size limited synced
    (earlier.length + 1)
  rw [htake, List.reverse_append, List.reverse_singleton, List.singleton_append] at htracks
  obtain ⟨known, hearlier, hp⟩ := htracks
  obtain ⟨rows, hrows⟩ := hp.of_color himage rfl
  have hheight : w₀.rowsAt? table ram earlier.length image.address = some rows := by
    obtain ⟨fb, hfb, heq⟩ := Option.map_eq_some_iff.mp hrows
    rw [rowsAt?, hafter, Option.bind_some, hfb, ← (Prod.mk.inj heq).2]
    rfl
  refine ⟨rows, hheight, ?_⟩
  rw [changesUpTo, htake]
  constructor
  · intro hsupplied
    rcases hsupplied.covered_or with hcovered | hearlier
    · rw [hcovered, Bool.true_or]
    · have hbegun : r₁.Enlarges (fun _ => True) { r₁ with commands := [] } := .begin
      have hsurvives := ((rendered.enlarges hr).trans (hbegun.trans hdone.enlarges)).toSurvives
      obtain ⟨hmem, -, rfl⟩ := Renderer.mem_of_find? hfound
      rw [hcolor] at hearlier
      have hkept := (journal.attests.survives hsurvives).kept color hmem image.key rows hearlier
      rw [hkept, Bool.or_true]
  · intro hcondition
    obtain ⟨r₄, hbefore, hlast⟩ := hdone.of_append
    have hmarks := (built.accounts hsound synced).1.marks
    have hmem : ∀ q ∈ earlier ++ [p], q ∈ w.pairs := by
      intro q hq
      rw [hpairs, List.append_cons]
      exact List.mem_append_left _ hq
    have hstart := rendered.still_serves hr unrendered (hserves slot)
    have hserves₄ := hbefore.serves_pairs (hr₁.congr rfl rfl rfl) hearlier .of_table
      (fun q hq => hmarks q (hmem q (List.mem_append_left _ hq))) hstart
    obtain ⟨more, rfl, hmore⟩ := Pair.exists_of_draw hq
    have hserves₃ := hlast.serves_pair (hbefore.sound (hr₁.congr rfl rfl rfl)) hp
      (Tracked.of_table.all hearlier) (hmarks p (hmem p (by simp))) hmore hserves₄
    obtain ⟨t', ht', -, hsupplied⟩ := hserves₃ image.key rows hrows (by simpa using hcondition)
    obtain rfl : t' = color := Option.some.inj (ht'.symm.trans hfound)
    rw [hcolor]
    simpa using hsupplied

/-- A frame that draws one pixel. -/
def dotted : Workload :=
  (({ empty with id := 1 } : Workload).setColorImage 16 .bits8 1).addDraw (drawDown 1)

def dotImage : ColorImage := ⟨16, .bits8, 1⟩

/-- What is known of memory after the frame. -/
def dotTable : FramebufferTable :=
  match (dotted.synchronize .empty blankMemory).outcome with
  | .ok (_, _, table) => table
  | .error _ => .empty

/-- The renderer after the frame was rendered in the main slot. -/
def dotRenderer : Renderer :=
  match dotted.synchronized.renderImage .new .direct .main freshRenderer with
  | .ok _ r => r
  | .error _ r => r

def dotPast : List Occurrence := [.frame dotted.synchronized [⟨.main, dotRenderer.commands⟩]]

/-- The same frame once more. -/
def dottedAgain : Workload :=
  match (dotted.synchronize dotTable blankMemory).outcome with
  | .ok (_, w, _) => w
  | .error _ => dotted

/-- In a slot the frame is drawn to the texture once more, without anything before. -/
def redraws (slot : Slot) (x : TextureId) : Bool :=
  match dottedAgain.recordImage .new .direct slot dotRenderer with
  | .ok _ r =>
    match r.commands with
    | [.draw d] => d.color = x
    | _ => false
  | .error .. => false

lemma of_redraws {x : TextureId} (h : redraws slot x = true) :
    ∃ r d, dottedAgain.recordImage .new .direct slot dotRenderer = .ok () r ∧
      r.commands = [.draw d] ∧ d.color = x := by
  simp only [redraws] at h
  split at h
  · rename_i r hr
    split at h
    · rename_i d hd
      exact ⟨r, d, hr, hd, by simpa using h⟩
    · cases h
  · cases h

def uploadsTo (x : TextureId) : Command → Bool
  | .upload y _ _ _ => y = x
  | _ => false

lemma built_dotted : dotted.Built :=
  (Built.setColorImage (.stamp .empty 1 0 0 0 false) _ _ _).addDraw _

lemma fits_dotted : dotted.Fits 64 := by
  intro p hp use huse
  have huses : dotted.pairs.flatMap Pair.imageUses = [⟨16, .bits8, 1, 1, .color⟩] := by
    decide +kernel
  have hmem : use ∈ dotted.pairs.flatMap Pair.imageUses := List.mem_flatMap.mpr ⟨p, hp, huse⟩
  rw [huses, List.mem_singleton] at hmem
  subst hmem
  exact ⟨1, by decide +kernel⟩

lemma journal_dot : Journal default 64 dotPast dotTable dotRenderer := by
  have hsync : ∃ stats, (dotted.synchronize .empty blankMemory).outcome =
      .ok (stats, dotted.synchronized, dotTable) := by
    obtain ⟨stats, table, h⟩ := synchronize_outcome (w := dotted) (by decide +kernel)
    refine ⟨stats, ?_⟩
    rw [dotTable, h]
  have hrender : dotted.synchronized.renderImage .new .direct .main freshRenderer =
      .ok () dotRenderer := by
    have hok : (match dotted.synchronized.renderImage .new .direct .main freshRenderer with
      | .ok _ _ => true
      | .error _ _ => false) = true := by decide +kernel
    rw [dotRenderer]
    split at hok
    · rename_i r hr
      rw [hr]
    · cases hok
  obtain ⟨stats, hsync⟩ := hsync
  obtain ⟨r, hrecord, hsubmit⟩ := recordImage_of_renderImage hrender
  have hcommands : dotRenderer.commands = r.commands := by rw [Rendering.of_submit hsubmit]
  rw [dotPast, hcommands]
  exact .frame (.start default) built_dotted (by decide +kernel) fits_dotted hsync
    (.image .nil hrecord hsubmit) (by simp)

lemma synchronize_dottedAgain : ∃ stats table,
    (dotted.synchronize dotTable blankMemory).outcome = .ok (stats, dottedAgain, table) := by
  have hok : (dotted.synchronize dotTable blankMemory).outcome.isOk = true := by decide +kernel
  rw [dottedAgain]
  cases hx : (dotted.synchronize dotTable blankMemory).outcome with
  | ok x => exact ⟨x.1, x.2.2, rfl⟩
  | error f => simp [hx, Except.isOk, Except.toBool] at hok

/-- In the slot of the first frame, the second one goes to a texture that has all rows. -/
theorem dot_supplied_in_place :
    ∃ r d, dottedAgain.recordImage .new .direct .main dotRenderer = .ok () r ∧
      r.commands = [.draw d] ∧
      SuppliedBy d.color 1 [⟨.main, []⟩] (dottedAgain.changesUpTo dotImage.key 0)
        (Supplied d.color dotImage.key 1 dotPast) := by
  have hredraws : redraws .main 1 = true := by decide +kernel
  obtain ⟨r, d, hrecord, hcommands, -⟩ := of_redraws hredraws
  have hsplit : r.commands = [] ++ .draw d :: [] := hcommands
  obtain ⟨stats, table, hsync⟩ := synchronize_dottedAgain
  obtain ⟨place, call, p, image, hcall, hp, himage, hsupplied⟩ :=
    draw_supplied_iff journal_dot (by decide) built_dotted (by decide +kernel) fits_dotted hsync
      .nil (by simp) hrecord hsplit
  have hdrawn : dottedAgain.drawnCalls[List.countP Command.isDraw []]? = some (0, ⟨0, 0⟩) := by
    decide +kernel
  obtain ⟨rfl, rfl⟩ := Prod.mk.inj (Option.some.inj (hdrawn.symm.trans hcall))
  have hcolored : (dottedAgain.pairs[0]?).bind Pair.colorImage = some dotImage := by decide +kernel
  rw [hp, Option.bind_some, himage] at hcolored
  obtain rfl := Option.some.inj hcolored
  have hcolors : dottedAgain.ColorsOnly dotImage.address := by
    unfold ColorsOnly
    decide +kernel
  have hpast : dotted.synchronized.ColorsOnly dotImage.address := by
    unfold ColorsOnly
    decide +kernel
  obtain ⟨rows, hrows, hiff⟩ := hsupplied hcolors (by
    intro w images hmem
    obtain ⟨hw, -⟩ := Occurrence.frame.inj (List.mem_singleton.mp hmem)
    exact hw ▸ hpast)
  have hone : dotted.rowsAt? dotTable blankMemory 0 dotImage.address = some 1 := by decide +kernel
  obtain rfl := Option.some.inj (hone.symm.trans hrows)
  exact ⟨r, d, hrecord, hcommands, hiff.mpr (by decide +kernel)⟩

/-- In another slot it goes to a new texture, and nothing is uploaded: memory has not changed since
the first frame. -/
theorem dot_not_supplied_elsewhere :
    Journal default 64 dotPast dotTable dotRenderer ∧ dotted.Built ∧ dotted.Fits 64 ∧
    (∃ stats table, (dotted.synchronize dotTable blankMemory).outcome =
      .ok (stats, dottedAgain, table)) ∧
    dotted.rowsAt? dotTable blankMemory 0 dotImage.address = some 1 ∧
    ∃ r d, dottedAgain.recordImage .new .direct (.intermediate 0) dotRenderer = .ok () r ∧
      r.commands = [.draw d] ∧
      ¬ SuppliedBy d.color 1 [⟨.intermediate 0, []⟩] (dottedAgain.changesUpTo dotImage.key 0)
        (Supplied d.color dotImage.key 1 dotPast) := by
  have hredraws : redraws (.intermediate 0) 2 = true := by decide +kernel
  obtain ⟨r, d, hrecord, hcommands, hcolor⟩ := of_redraws hredraws
  refine ⟨journal_dot, built_dotted, fits_dotted, synchronize_dottedAgain, by decide +kernel, r, d,
    hrecord, hcommands, ?_⟩
  have huploads : dotRenderer.commands.any (uploadsTo 2) = false := by decide +kernel
  have hnothing : dottedAgain.changesUpTo dotImage.key 0 = [] := by decide +kernel
  rw [hnothing, hcolor]
  intro hsupplied
  have hearlier := hsupplied.covered_or.resolve_left (by simp)
  rw [dotPast, Supplied, Supplied] at hearlier
  rcases hearlier with ⟨-, hnever⟩ | ⟨_, c, _, -, -, huploaded⟩
  · exact hnever
  · obtain ⟨image, himage, hmem⟩ := huploaded c List.mem_cons_self
    have himage : image = ⟨.main, dotRenderer.commands⟩ := List.mem_singleton.mp himage
    simp only [himage] at hmem
    have hnone := List.any_eq_false.mp huploads _ hmem
    simp [uploadsTo] at hnone

end Workload

end Scanout
