import Scanout.Proofs.Workload.Copies
import Scanout.Proofs.Workload.Events

/-!
# Written images have targets

The table of framebuffers runs ahead of the renderer: it tells which images were written, as
workloads are synchronized, and the renderer has a target for each of them once the workloads are
rendered. A change of settings gives up all targets, and the table is emptied with it.
-/

namespace Scanout

/-- An image as it was handed to the device. -/
structure RenderedImage where
  slot : Slot
  commands : List Command

/-- Images of a workload are rendered one after another. -/
inductive Workload.Renders (w : Workload) : List RenderedImage → Renderer → Renderer → Prop where
  | nil {r : Renderer} : Renders w [] r r
  | image {images : List RenderedImage} {r r₁ r₂ r' : Renderer} {m : Matcher} {s : SubFrame}
      {slot : Slot} (before : Renders w images r r₁) (recorded : w.recordImage m s slot r₁ = .ok () r₂)
      (submitted : Rendering.submit r₂ = .ok () r') :
      Renders w (images ++ [⟨slot, r₂.commands⟩]) r r'

/-- The tables and renderers that come of the same frames. Each frame is rendered in the main slot,
and may be rendered in others. Images of workloads that were synchronized before the table was
emptied, and what is shown, may come in between. -/
inductive InStep (limits : DeviceLimits) : FramebufferTable → Renderer → Prop where
  | start (config : TargetConfig) : InStep limits .empty (.new (.new limits) config)
  | frame {table table' : FramebufferTable} {r r' : Renderer} {w w' : Workload} {stats : SyncStats}
      {images : List RenderedImage} {ram : ByteArray} (before : InStep limits table r)
      (built : w.Built) (synced : (w.synchronize table ram).outcome = .ok (stats, w', table'))
      (rendered : w'.Renders images r r') (final : .main ∈ images.map RenderedImage.slot) :
      InStep limits table' r'
  | image {table : FramebufferTable} {r r' : Renderer} {w : Workload} {m : Matcher} {s : SubFrame}
      {slot : Slot} (before : InStep limits table r)
      (rendered : w.renderImage m s slot r = .ok () r') : InStep limits table r'
  | check {table table' : FramebufferTable} {r : Renderer} {address : Nat} {ram : ByteArray}
      {change : Option MemoryChange} (before : InStep limits table r)
      (checked : (table.check address ram).outcome = .ok (change, table')) : InStep limits table' r
  | upload {table : FramebufferTable} {r r' : Renderer} {ops : List Operation}
      (before : InStep limits table r) (uploaded : Rendering.upload ops r = .ok () r') :
      InStep limits table r'
  | fill {table : FramebufferTable} {r r' : Renderer} {screen : Screen}
      {command : TextureId → Command} {shown : Shown} (before : InStep limits table r)
      (filled : Rendering.throughScratch screen command r = .ok shown r') : InStep limits table r'
  | reset {table : FramebufferTable} {r : Renderer} (before : InStep limits table r) :
      InStep limits .empty r
  | configured {table : FramebufferTable} {r : Renderer} (before : InStep limits table r)
      (config : TargetConfig) : InStep limits .empty (r.setConfig config).2

namespace Renderer

variable {r r' : Renderer} {address : Nat} {slot : Slot} {touched : TargetKey → Prop}

/-- There is a target in the slot that the image at the address is drawn to. -/
def HasDrawn (r : Renderer) (address : Nat) (slot : Slot) : Prop :=
  ∃ t ∈ r.targets, t.key.address = address ∧ t.slot = slot ∧ t.key.kind.isDrawn = true

lemma HasDrawn.enlarges (h : r.HasDrawn address slot) (hr : r.Sound)
    (henlarges : r.Enlarges touched r') : r'.HasDrawn address slot := by
  obtain ⟨t, ht, rfl, rfl, hdrawn⟩ := h
  have hplace := henlarges.places_subset hr (List.mem_map_of_mem ht)
  obtain ⟨t', ht', hplace⟩ := List.mem_map.mp hplace
  obtain ⟨hkey, hslot⟩ := Prod.mk.inj hplace
  exact ⟨t', ht', by rw [hkey], hslot, by rw [hkey]; exact hdrawn⟩

/-- A region of an image that is drawn to is found. -/
lemma HasDrawn.exists_found (h : r.HasDrawn address slot) (kind : TargetKind) :
    ∃ t, r.findByAddress? address kind slot = some t := by
  obtain ⟨t, ht, hdrawn⟩ := h
  rw [← Option.isSome_iff_exists, findByAddress?, Option.isSome_or, Bool.or_eq_true]
  right
  rw [List.find?_isSome]
  refine ⟨t, ?_, hdrawn.2.2⟩
  simp [ht, hdrawn.1, hdrawn.2.1]

lemma HasDrawn.exists_copySource (h : r.HasDrawn address slot ∨ r.HasDrawn address .main) :
    ∃ t, Operation.copySource? r address slot = some t := by
  rw [← Option.isSome_iff_exists, Operation.copySource?, Option.isSome_or, Bool.or_eq_true]
  rcases h with h | h
  · obtain ⟨t, ht⟩ := h.exists_found .color
    exact .inl (Option.isSome_of_eq_some ht)
  · obtain ⟨t, ht⟩ := h.exists_found .color
    exact .inr (Option.isSome_of_eq_some ht)

end Renderer

/-- A pair that draws to an image demands a target for it. -/
lemma Pair.DrawsTo.exists_demand {p : Pair} {address : Nat} (h : p.DrawsTo address) (place : Nat) :
    ∃ use : ImageUse, use.address = address ∧ .demand use ∈ p.drawEvents place := by
  obtain ⟨hnonempty, use, huse, rfl⟩ := h
  refine ⟨use, rfl, ?_⟩
  cases himage : p.colorImage with
  | none => simp [imageUses, himage] at huse
  | some image =>
    have hevents : p.drawEvents place =
        p.imageUses.map .demand ++ p.calls.map (.draw place p) ++ [.mark] := by
      simp [drawEvents, himage, hnonempty]
    rw [hevents]
    refine List.mem_append_left _ (List.mem_append_left _ ?_)
    exact List.mem_map.mpr ⟨use, huse, rfl⟩

lemma ImageUse.isDrawn_key {use : ImageUse} : use.key.kind.isDrawn = true := by
  cases htype : use.type <;>
    simp [key, TargetKey.ofImage, TargetKind.ofWrite, TargetKind.isDrawn, htype]

namespace Workload

variable {w : Workload} {r r' : Renderer} {slot : Slot} {events : List ImageEvent}
  {images : List RenderedImage}

/-- When the events of a pair are done, the images that it draws to have targets. -/
lemma Performs.hasDrawn (h : w.Performs slot events r r') (hr : r.Sound) {p : Pair} {place : Nat}
    {address : Nat} (hp : p.DrawsTo address) (hevents : p.events place ⊆ events) :
    r'.HasDrawn address slot := by
  obtain ⟨use, rfl, hdemand⟩ := hp.exists_demand place
  have hmem : .demand use ∈ p.events place :=
    List.mem_append_left _ (List.mem_append_right _ hdemand)
  obtain ⟨t, ht, hkey, hslot⟩ := h.exists_demanded hr (hevents hmem)
  exact ⟨t, ht, by rw [hkey]; rfl, hslot, by rw [hkey]; exact ImageUse.isDrawn_key⟩

lemma subset_events {p : Pair} {place : Nat} (hp : (p, place) ∈ w.pairs.zipIdx) :
    p.events place ⊆ w.events :=
  fun _ he => List.mem_flatMap.mpr ⟨_, hp, he⟩

/-- Rendering an image makes and enlarges targets only, and afterwards the images drawn to have
targets in its slot. -/
lemma enlarges_of_image {m : Matcher} {s : SubFrame} {r₁ : Renderer} (hr : r.Sound)
    (h : w.recordImage m s slot r = .ok () r₁) (hsubmit : Rendering.submit r₁ = .ok () r') :
    r.Enlarges (fun _ => True) r' ∧
      ∀ p ∈ w.pairs, ∀ address, p.DrawsTo address → r'.HasDrawn address slot := by
  have hperforms := performs_recordImage hr h
  have hstart : r.Enlarges (fun _ => True) { r with commands := [] } := .begin
  have hend : r₁.Enlarges (fun _ => True) r' := by
    rw [Rendering.of_submit hsubmit]
    exact .of_eq rfl rfl rfl
  refine ⟨(hstart.trans hperforms.enlarges).trans hend, ?_⟩
  intro p hp address hdraws
  obtain ⟨place, hplace⟩ := List.mem_iff_getElem?.mp hp
  have hevents := subset_events (List.mk_mem_zipIdx_iff_getElem?.mpr hplace)
  have hdrawn := hperforms.hasDrawn (hstart.sound hr) hdraws hevents
  exact hdrawn.enlarges (hperforms.sound (hstart.sound hr)) hend

lemma Renders.enlarges (h : w.Renders images r r') (hr : r.Sound) :
    r.Enlarges (fun _ => True) r' := by
  induction h with
  | nil => exact .refl
  | image before recorded submitted ih =>
    exact (ih hr).trans (enlarges_of_image ((ih hr).sound hr) recorded submitted).1

/-- The images that a workload draws to have targets in every slot that it was rendered in. -/
lemma Renders.hasDrawn (h : w.Renders images r r') (hr : r.Sound)
    (hslot : slot ∈ images.map RenderedImage.slot) {p : Pair} (hp : p ∈ w.pairs) {address : Nat}
    (hdraws : p.DrawsTo address) : r'.HasDrawn address slot := by
  induction h with
  | nil => cases hslot
  | image before recorded submitted ih =>
    have hr₁ := (before.enlarges hr).sound hr
    obtain ⟨henlarges, hdrawn⟩ := enlarges_of_image hr₁ recorded submitted
    rw [List.map_append, List.mem_append] at hslot
    rcases hslot with hslot | hslot
    · exact (ih hr hslot).enlarges hr₁ henlarges
    · rw [List.mem_singleton.mp hslot]
      exact hdrawn p hp address hdraws

end Workload

namespace InStep

variable {limits : DeviceLimits} {table : FramebufferTable} {r r' : Renderer}

/-- What holds of tables and renderers that come of the same frames: an image that was written
according to the table has a target in the main slot. -/
structure Backed (table : FramebufferTable) (r : Renderer) : Prop where
  sound_table : table.Sound
  sound : r.Sound
  drawn : ∀ address, table.Wrote address → r.HasDrawn address .main

lemma Backed.enlarges (h : Backed table r) {touched : TargetKey → Prop}
    (henlarges : r.Enlarges touched r') : Backed table r' where
  sound_table := h.sound_table
  sound := henlarges.sound h.sound
  drawn address hwrote := (h.drawn address hwrote).enlarges h.sound henlarges

lemma Backed.of_empty (hr : r.Sound) : Backed .empty r where
  sound_table := .empty
  sound := hr
  drawn address hwrote := by
    obtain ⟨fb, hmem, -⟩ := hwrote
    cases hmem

lemma backed (h : InStep limits table r) : Backed table r := by
  induction h with
  | start config => exact .of_empty .new
  | frame before built synced rendered final ih =>
    obtain ⟨-, htable, hwrote⟩ := built.accounts ih.sound_table synced
    have henlarged := ih.enlarges (rendered.enlarges ih.sound)
    refine ⟨htable, henlarged.sound, fun address ha => ?_⟩
    rcases hwrote address ha with ha | ⟨p, hp, hdraws⟩
    · exact henlarged.drawn address ha
    · exact rendered.hasDrawn ih.sound final hp hdraws
  | image before rendered ih =>
    obtain ⟨r₁, hrecord, hsubmit⟩ := Workload.recordImage_of_renderImage rendered
    exact ih.enlarges (Workload.enlarges_of_image ih.sound hrecord hsubmit).1
  | check before checked ih =>
    exact ⟨ih.sound_table.check checked, ih.sound, fun address ha =>
      ih.drawn address (ha.of_check checked)⟩
  | upload before uploaded ih => exact ih.enlarges (Rendering.confined_upload.enlarges uploaded)
  | fill before filled ih => exact ih.enlarges (Rendering.confined_throughScratch.enlarges filled)
  | reset before ih => exact .of_empty ih.sound
  | configured before config ih => exact .of_empty ih.sound.setConfig

end InStep

end Scanout
