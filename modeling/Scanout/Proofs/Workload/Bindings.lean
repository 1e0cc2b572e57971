import Scanout.Proofs.Workload.Backing

/-!
# Draws that sample copies

A copy is bound to a tile, and so to all draws with the tile, but it is made before the draws of the
pair that asks for it first. Draws of earlier pairs sample what was left under the same key by the
images before, if anything.
-/

namespace Scanout

namespace ImageEvent

/-- The copy that an event makes for a tile. -/
def copy? : ImageEvent → Option TileCopy
  | .operation op => op.copy?
  | _ => none

@[simp] lemma copy?_eq_some_iff {e : ImageEvent} {copy : TileCopy} :
    e.copy? = some copy ↔ e = .operation (.copyTile copy) := by
  cases e <;> simp [copy?]

end ImageEvent

namespace Workload

/-- The copy that is bound to the tile of a draw. -/
def boundCopy? (w : Workload) (call : Call) : Option TileCopy := do
  let draw ← w.draws[call.draw]?
  let tile ← draw.tile
  w.tileCopies[tile]?.join

/-- The copy is made before the draws of the pair at a place, for that pair or an earlier one. -/
def copiesBy (w : Workload) (copy : TileCopy) (place : Nat) : Bool :=
  (w.pairs.take (place + 1)).any fun p => .copyTile copy ∈ p.before

end Workload

/-- The draw samples the texture of the target for the copy, and the region was copied to it before
in the same list. -/
def DrawCommand.Samples (d : DrawCommand) (before : List Command) (r : Renderer) (slot : Slot)
    (copy : TileCopy) : Prop :=
  ∃ t source, r.find? copy.key slot = some t ∧ d.texture = some (.tileCopy t.texture) ∧
    .copy source t.texture copy.fbRect false ∈ before

/-- What a draw samples if no copy was made in its list: what is left in the slot or, failing that,
among the final images. -/
def Renderer.leftover (r : Renderer) (slot : Slot) (copy : TileCopy) : Option TextureBinding :=
  ((r.find? copy.key slot).or (r.find? copy.key .main)).map (.tileCopy ·.texture)

namespace Renderer

variable {r r' r₁ : Renderer} {slot : Slot} {key key' : TargetKey} {width height : Nat}
  {t : Target} {copy : TileCopy}

/-- The targets under a key are the same, and nothing was copied to them since. -/
structure Spares (r : Renderer) (key : TargetKey) (r' : Renderer) : Prop where
  find? : ∀ slot, r'.find? key slot = r.find? key slot
  commands : r.commands ⊆ r'.commands
  copies : ∀ slot t, r.find? key slot = some t → ∀ source rect reinterpret,
    .copy source t.texture rect reinterpret ∈ r'.commands →
    .copy source t.texture rect reinterpret ∈ r.commands

lemma Spares.of_eq (htargets : r'.targets = r.targets) (hcommands : r'.commands = r.commands) :
    r.Spares key r' where
  find? _ := find?_congr htargets
  commands := hcommands ▸ List.Subset.refl _
  copies _ _ _ _ _ _ hmem := hcommands ▸ hmem

lemma Spares.trans (h : r.Spares key r₁) (h' : r₁.Spares key r') : r.Spares key r' where
  find? slot := (h'.find? slot).trans (h.find? slot)
  commands := List.Subset.trans h.commands h'.commands
  copies slot t ht _ _ _ hmem :=
    h.copies slot t ht _ _ _ (h'.copies slot t ((h.find? slot).trans ht) _ _ _ hmem)

/-- A request under another key changes no target under this one. -/
lemma Spares.of_requested (hr : r.Sound) (h : Target.Requested key' slot width height r t r')
    (hne : key ≠ key') : r.Spares key r' where
  find? _ := h.find?_of_ne hr fun hplace => hne (congrArg Prod.fst hplace)
  commands := commands_of_requested h ▸ List.Subset.refl _
  copies _ _ _ _ _ _ hmem := commands_of_requested h ▸ hmem

/-- A command that copies to no target under the key. -/
lemma Spares.add {c : Command} (h : ∀ slot t, r.find? key slot = some t →
    ∀ source rect reinterpret, c ≠ .copy source t.texture rect reinterpret) :
    r.Spares key (r.add c) where
  find? _ := rfl
  commands := List.subset_append_left _ _
  copies slot t ht source rect reinterpret hmem := by
    rcases List.mem_append.mp hmem with hmem | hmem
    · exact hmem
    · exact absurd (List.mem_singleton.mp hmem).symm (h slot t ht _ _ _)

/-- A copy to a target under another key. -/
lemma Spares.of_copied (hr : r.Sound) (h : Target.Requested key' slot width height r t r')
    (hne : key ≠ key') {source : TextureId} {rect : Rect} {reinterpret : Bool} :
    r.Spares key (r'.add (.copy source t.texture rect reinterpret)) := by
  refine (Spares.of_requested hr h hne).trans (.add ?_)
  rintro slot' s hs source' rect' reinterpret' he
  obtain ⟨-, htexture, -, -⟩ := Command.copy.inj he
  obtain ⟨hmem, rfl, rfl⟩ := mem_of_find? hs
  obtain ⟨ht, hkey, -⟩ := h.mem
  have hsame : t = s := List.inj_on_of_nodup_map (hr.requested h).textures ht hmem htexture
  exact hne (hsame ▸ hkey)

/-- The region was copied to the target for the copy. -/
def Copied (r : Renderer) (slot : Slot) (copy : TileCopy) : Prop :=
  ∃ t source, r.find? copy.key slot = some t ∧
    .copy source t.texture copy.fbRect false ∈ r.commands

lemma Copied.spares (h : r.Copied slot copy) (hspares : r.Spares copy.key r') :
    r'.Copied slot copy := by
  obtain ⟨t, source, ht, hmem⟩ := h
  exact ⟨t, source, (hspares.find? slot).trans ht, hspares.commands hmem⟩

end Renderer

namespace Workload

variable {w : Workload} {slot : Slot} {e : ImageEvent} {events done rest : List ImageEvent}
  {r r' r₁ : Renderer} {copy : TileCopy} {table : FramebufferTable}

/-- An event that makes no copy under a key spares the targets under it. -/
lemma Performed.spares (h : w.Performed slot e r r') (hr : r.Sound)
    (hother : ∀ c, e.copy? = some c → c.key ≠ copy.key) : r.Spares copy.key r' := by
  cases h with
  | operation recorded =>
    cases recorded with
    | upload requested =>
      refine (Renderer.Spares.of_requested hr requested copy_key_ne).trans (.add ?_)
      intro _ _ _ _ _ _ he
      cases he
    | copyTile found requested => exact .of_copied hr requested (hother _ rfl).symm
    | copyNothing => exact .of_eq rfl rfl
    | reinterpret isFound kind requested => exact .of_copied hr requested copy_key_ne
    | reinterpretNothing => exact .of_eq rfl rfl
    | synchronize found =>
      refine .add ?_
      intro _ _ _ _ _ _ he
      cases he
    | synchronizeNothing => exact .of_eq rfl rfl
  | demand requested => exact .of_requested hr requested copy_key_ne
  | draw =>
    refine .add ?_
    intro _ _ _ _ _ _ he
    cases he
  | mark targets device commands => exact .of_eq targets commands

/-- A region is copied if a target that it can be taken from is found. -/
lemma Performed.copied_of_found (h : w.Performed slot (.operation (.copyTile copy)) r r')
    (hsource : ∃ t, Operation.copySource? r copy.address slot = some t) : r'.Copied slot copy := by
  obtain ⟨t, ht⟩ := hsource
  cases h with
  | operation recorded =>
    cases recorded with
    | copyTile found requested =>
      have hfound := Renderer.find?_self_of_requested requested
      exact ⟨_, _, hfound, List.mem_append_right _ (List.mem_singleton_self _)⟩
    | copyNothing absent =>
      rw [ht] at absent
      cases absent

/-- A region that was copied stays so, unless the target is used for another copy. -/
lemma Performed.copied (h : w.Performed slot e r r') (hr : r.Sound)
    (hsame : ∀ c, e.copy? = some c → c.key = copy.key → c = copy) (hcopied : r.Copied slot copy) :
    r'.Copied slot copy := by
  by_cases hother : ∀ c, e.copy? = some c → c.key ≠ copy.key
  · exact hcopied.spares (h.spares hr hother)
  · push Not at hother
    obtain ⟨c, hc, hkey⟩ := hother
    obtain rfl := hsame c hc hkey
    obtain rfl := ImageEvent.copy?_eq_some_iff.mp hc
    cases hsource : Operation.copySource? r c.address slot with
    | some t => exact h.copied_of_found ⟨t, hsource⟩
    | none =>
      refine hcopied.spares ?_
      cases h with
      | operation recorded =>
        cases recorded with
        | copyTile found =>
          rw [hsource] at found
          cases found
        | copyNothing => exact .of_eq rfl rfl

namespace Performs

lemma spares (h : w.Performs slot events r r') (hr : r.Sound)
    (hother : ∀ e ∈ events, ∀ c, e.copy? = some c → c.key ≠ copy.key) :
    r.Spares copy.key r' := by
  refine (h.induct (motive := fun r' => r'.Sound ∧ r.Spares copy.key r') ⟨hr, .of_eq rfl rfl⟩ ?_).2
  rintro e he r₁ r₂ ⟨hr₁, hspares⟩ h
  exact ⟨h.enlarges.sound hr₁, hspares.trans (h.spares hr₁ (hother e he))⟩

lemma copied (h : w.Performs slot events r r') (hr : r.Sound)
    (hsame : ∀ e ∈ events, ∀ c, e.copy? = some c → c.key = copy.key → c = copy)
    (hcopied : r.Copied slot copy) : r'.Copied slot copy := by
  refine (h.induct (motive := fun r' => r'.Sound ∧ r'.Copied slot copy) ⟨hr, hcopied⟩ ?_).2
  rintro e he r₁ r₂ ⟨hr₁, hcopied⟩ h
  exact ⟨h.enlarges.sound hr₁, h.copied hr₁ (hsame e he) hcopied⟩

end Performs

namespace Accounted

variable {p : Pair} {place : Nat}

/-- Copies are made before the draws of a pair. -/
lemma mem_before (hw : w.Accounted table) (hp : p ∈ w.pairs)
    (h : .operation (.copyTile copy) ∈ p.events place) : .copyTile copy ∈ p.before := by
  rcases List.mem_append.mp h with h | h
  · rcases List.mem_append.mp h with h | h
    · obtain ⟨op, hop, he⟩ := List.mem_map.mp h
      exact ImageEvent.operation.inj he ▸ hop
    · rw [Pair.drawEvents] at h
      split at h
      · cases h
      · simp at h
  · obtain ⟨op, hop, he⟩ := List.mem_map.mp h
    have hmark := hw.marks p hp op hop
    rw [ImageEvent.operation.inj he] at hmark
    exact hmark.elim

lemma filterMap_copy?_events (hw : w.Accounted table) :
    w.events.filterMap ImageEvent.copy? = w.copies := by
  have hpair : ∀ p ∈ w.pairs, ∀ place,
      (p.events place).filterMap ImageEvent.copy? = p.copies := by
    intro p hp place
    have hdraws : (p.drawEvents place).filterMap ImageEvent.copy? = [] := by
      rw [Pair.drawEvents]
      split
      · rfl
      · simp [List.filterMap_map, ImageEvent.copy?]
    have hafter : (p.after.map ImageEvent.operation).filterMap ImageEvent.copy? = [] := by
      rw [List.filterMap_map, List.filterMap_eq_nil_iff]
      exact fun op hop => (hw.marks p hp op hop).copy?_eq_none
    rw [Pair.events, List.filterMap_append, List.filterMap_append, hdraws, hafter, List.append_nil,
      List.append_nil, List.filterMap_map]
    rfl
  have hfst : w.pairs.zipIdx.map Prod.fst = w.pairs := List.zipIdx_map_fst _ _
  calc w.events.filterMap ImageEvent.copy?
      = w.pairs.zipIdx.flatMap fun x => (x.1.events x.2).filterMap ImageEvent.copy? :=
        List.filterMap_flatMap
    _ = w.pairs.zipIdx.flatMap fun x => x.1.copies :=
        List.flatMap_congr fun x hx => hpair x.1 (List.fst_mem_of_mem_zipIdx hx) x.2
    _ = w.copies := by rw [copies, ← List.flatMap_map Prod.fst Pair.copies, hfst]

/-- A key belongs to one copy only. -/
lemma eq_of_key (hw : w.Accounted table) {c : TileCopy} (hc : c ∈ w.copies)
    (hcopy : copy ∈ w.copies) (h : c.key = copy.key) : c = copy :=
  List.inj_on_of_nodup_map hw.indices hc hcopy (congrArg TargetKey.modifier h)

lemma mem_copies_of_event (hw : w.Accounted table) (he : e ∈ w.events) {c : TileCopy}
    (hc : e.copy? = some c) : c ∈ w.copies := by
  rw [← hw.filterMap_copy?_events]
  exact List.mem_filterMap.mpr ⟨e, he, hc⟩

/-- The copies made before a draw are those of its pair and the pairs before. -/
lemma copiesBy_iff (hw : w.Accounted table) {call : Call}
    (hevents : w.events = done ++ .draw place p call :: rest) :
    w.copiesBy copy place = true ↔ .operation (.copyTile copy) ∈ done := by
  obtain ⟨earlier, q, later, done', rest', hpairs, hq, rfl⟩ := exists_pair hevents
  obtain ⟨hplace, -, -⟩ : place = earlier.length ∧ p = q ∧ call ∈ q.calls :=
    Pair.of_draw_mem_events (by simp [hq])
  have htake : w.pairs.take (place + 1) = earlier ++ [q] := by
    rw [hpairs, List.append_cons]
    exact List.take_left' (by simp [hplace])
  simp only [copiesBy, htake, List.any_eq_true, decide_eq_true_eq]
  constructor
  · rintro ⟨q', hq', hcopy⟩
    rw [List.mem_append, List.mem_singleton] at hq'
    rcases hq' with hq' | rfl
    · obtain ⟨i, hi⟩ := List.mem_iff_getElem?.mp hq'
      have hevent : .operation (.copyTile copy) ∈ q'.events i :=
        List.mem_append_left _ (List.mem_append_left _ (List.mem_map_of_mem hcopy))
      refine List.mem_append_left _ (List.mem_flatMap.mpr ⟨(q', i), ?_, hevent⟩)
      exact List.mk_mem_zipIdx_iff_getElem?.mpr hi
    · exact List.mem_append_right _ (Pair.operation_mem_of_draw hq hcopy)
  · intro hdone
    rcases List.mem_append.mp hdone with hdone | hdone
    · obtain ⟨⟨q', i⟩, hq', hevent⟩ := List.mem_flatMap.mp hdone
      have hmem : q' ∈ earlier := List.fst_mem_of_mem_zipIdx hq'
      refine ⟨q', List.mem_append_left _ hmem, hw.mem_before ?_ hevent⟩
      rw [hpairs]
      exact List.mem_append_left _ hmem
    · refine ⟨q, List.mem_append_right _ (List.mem_singleton_self q), ?_⟩
      have hevent : .operation (.copyTile copy) ∈ q.events earlier.length := by
        rw [hq]
        exact List.mem_append_left _ hdone
      exact hw.mem_before (by simp [hpairs]) hevent

/-- When a copy is to be made, the region that it is taken from has a target. -/
lemma exists_copySource (hw : w.Accounted table) (hbacked : InStep.Backed table r)
    (hevents : w.events = done ++ .operation (.copyTile copy) :: rest)
    (h : w.Performs slot done r r') :
    ∃ t, Operation.copySource? r' copy.address slot = some t := by
  obtain ⟨earlier, q, later, done', rest', hpairs, hq, rfl⟩ := exists_pair hevents
  have hqmem : q ∈ w.pairs := by simp [hpairs]
  have hevent : .operation (.copyTile copy) ∈ q.events earlier.length := by simp [hq]
  have hcopy : copy ∈ q.copies := Pair.mem_copies.mpr (hw.mem_before hqmem hevent)
  apply Renderer.HasDrawn.exists_copySource
  rcases hw.sources earlier q later hpairs copy hcopy with hwrote | ⟨q', hq', hdraws⟩
  · exact .inr ((hbacked.drawn _ hwrote).enlarges hbacked.sound h.enlarges)
  · obtain ⟨i, hi⟩ := List.mem_iff_getElem?.mp hq'
    refine .inl (h.hasDrawn hbacked.sound hdraws fun e (he : e ∈ q'.events i) => ?_)
    refine List.mem_append_left _ (List.mem_flatMap.mpr ⟨(q', i), ?_, he⟩)
    exact List.mk_mem_zipIdx_iff_getElem?.mpr hi

/-- A copy that was to be made has been made. -/
lemma copied_of_mem (hw : w.Accounted table) (hbacked : InStep.Backed table r)
    (hevents : w.events = done ++ rest) (h : w.Performs slot done r r')
    (hmade : .operation (.copyTile copy) ∈ done) : r'.Copied slot copy := by
  have hmem : copy ∈ w.copies :=
    hw.mem_copies_of_event (hevents ▸ List.mem_append_left _ hmade) rfl
  obtain ⟨done₁, done₂, rfl⟩ := List.append_of_mem hmade
  obtain ⟨r₁, hdone₁, hdone₂⟩ := h.of_append
  have hr₁ := hdone₁.sound hbacked.sound
  have hsource := hw.exists_copySource hbacked (by rw [hevents, List.append_assoc]; rfl) hdone₁
  cases hdone₂ with
  | cons first later =>
    refine later.copied (first.enlarges.sound hr₁) (fun e he c hc hkey => ?_)
      (first.copied_of_found hsource)
    exact hw.eq_of_key (hw.mem_copies_of_event (by simp [hevents, he]) hc) hmem hkey

/-- Before a copy is made, nothing is copied to the target for it. -/
lemma spares_of_not_mem (hw : w.Accounted table) (hr : r.Sound) (hevents : w.events = done ++ rest)
    (h : w.Performs slot done r r') (hmem : copy ∈ w.copies)
    (hmade : .operation (.copyTile copy) ∉ done) : r.Spares copy.key r' := by
  refine h.spares hr fun e he c hc hkey => hmade ?_
  obtain rfl := hw.eq_of_key
    (hw.mem_copies_of_event (by rw [hevents]; exact List.mem_append_left _ he) hc) hmem hkey
  exact ImageEvent.copy?_eq_some_iff.mp hc ▸ he

/-- A copy is made only once. -/
lemma not_mem_of_mem (hw : w.Accounted table) (hevents : w.events = done ++ e :: rest)
    (hmade : .operation (.copyTile copy) ∈ done) : .operation (.copyTile copy) ∉ rest := by
  intro hagain
  have hnodup := hw.indices.of_map
  rw [← hw.filterMap_copy?_events, hevents, List.filterMap_append, List.nodup_append] at hnodup
  exact hnodup.2.2 copy (List.mem_filterMap.mpr ⟨_, hmade, rfl⟩) copy
    (List.mem_filterMap.mpr ⟨_, List.mem_cons_of_mem _ hagain, rfl⟩) rfl

end Accounted

/-- A draw whose tile has a copy samples the target for the copy, or that of the main slot. -/
lemma binding_of_boundCopy? {call : Call} {draw : Draw} (hdraw : w.draws[call.draw]? = some draw)
    (hcopy : w.boundCopy? call = some copy) :
    w.binding r slot draw.tile = r.leftover slot copy := by
  simp only [boundCopy?, hdraw, Option.bind_eq_bind, Option.bind_some] at hcopy
  obtain ⟨tile, htile, hcopy⟩ := Option.bind_eq_some_iff.mp hcopy
  simp only [binding, htile, hcopy, Renderer.leftover, Option.bind_eq_bind, Option.bind_some]
  cases (r.find? copy.key slot).or (r.find? copy.key .main) <;> rfl

variable {w₀ : Workload} {table' : FramebufferTable} {r₂ : Renderer} {stats : SyncStats}
  {ram : ByteArray} {images : List RenderedImage} {m : Matcher} {s : SubFrame}
  {limits : DeviceLimits} {before after : List Command} {d : DrawCommand}

/-- A draw whose tile has a copy samples what was copied before in the same list, exactly if the
copy is made for the pair of the draw or an earlier one. Otherwise the draw samples what the images
before have left under the key of the copy. -/
theorem copy_sampled_iff (history : InStep limits table r) (built : w₀.Built)
    (synced : (w₀.synchronize table ram).outcome = .ok (stats, w, table'))
    (rendered : w.Renders images r r₁) (recorded : w.recordImage m s slot r₁ = .ok () r₂)
    (split : r₂.commands = before ++ .draw d :: after) :
    ∃ place call, w.drawnCalls[before.countP Command.isDraw]? = some (place, call) ∧
      ∀ copy, w.boundCopy? call = some copy →
        (d.Samples before r₂ slot copy ↔ w.copiesBy copy place = true) ∧
        (w.copiesBy copy place = false → d.texture = r₁.leftover slot copy) := by
  have hbacked := history.backed
  have hw := (built.accounts hbacked.sound_table synced).1
  have hbacked₁ := hbacked.enlarges (rendered.enlarges hbacked.sound)
  have hbegun : r₁.Enlarges (fun _ => True) { r₁ with commands := [] } := .begin
  have hstart := hbacked₁.enlarges hbegun
  obtain ⟨done, place, p, call, rest, r₃, hcall, hevents, hdone, rfl, hdraw, hrest⟩ :=
    exists_drawn hbacked₁.sound recorded split
  have hr₃ := hdone.sound hstart.sound
  refine ⟨place, call, hcall, fun copy hcopy => ?_⟩
  have hmem : copy ∈ w.copies := by
    apply hw.bound
    obtain ⟨draw, -, hcopy⟩ := Option.bind_eq_some_iff.mp hcopy
    obtain ⟨tile, -, hcopy⟩ := Option.bind_eq_some_iff.mp hcopy
    exact List.mem_of_getElem? (Option.join_eq_some_iff.mp hcopy)
  -- a draw in the list samples what is found when it is recorded
  have hsampled : d.texture = r₃.leftover slot copy := by
    obtain ⟨_, _, draw, -, -, hisDraw, -, hsampled⟩ := hdraw.of_draw
    exact hsampled.trans (binding_of_boundCopy? hisDraw hcopy)
  rw [hw.copiesBy_iff hevents]
  by_cases hmade : .operation (.copyTile copy) ∈ done
  · have hspares : (r₃.add (.draw d)).Spares copy.key r₂ := by
      refine hrest.spares (hdraw.enlarges.sound hr₃) fun e he c hc hkey => ?_
      obtain rfl := hw.eq_of_key (hw.mem_copies_of_event (by simp [hevents, he]) hc) hmem hkey
      exact hw.not_mem_of_mem hevents hmade (ImageEvent.copy?_eq_some_iff.mp hc ▸ he)
    obtain ⟨t, source, ht, hcopied⟩ := hw.copied_of_mem hstart hevents hdone hmade
    refine ⟨⟨fun _ => hmade, fun _ => ⟨t, source, (hspares.find? slot).trans ht, ?_, hcopied⟩⟩, ?_⟩
    · simp [hsampled, Renderer.leftover, ht]
    · intro hnot
      rw [(hw.copiesBy_iff hevents).mpr hmade] at hnot
      cases hnot
  · have hspares : Renderer.Spares { r₁ with commands := [] } copy.key r₃ :=
      hw.spares_of_not_mem hstart.sound hevents hdone hmem hmade
    have hleft : r₃.leftover slot copy = r₁.leftover slot copy := by
      rw [Renderer.leftover, hspares.find?, hspares.find?]
      rfl
    refine ⟨⟨?_, fun h => absurd h hmade⟩, fun _ => hsampled.trans hleft⟩
    rintro ⟨t, source, -, htexture, hcopied⟩
    rw [hsampled, Renderer.leftover, hspares.find?, hspares.find?] at htexture
    obtain ⟨t', ht', he⟩ := Option.map_eq_some_iff.mp htexture
    rw [← TextureBinding.tileCopy.inj he] at hcopied
    obtain ⟨slot', ht'⟩ : ∃ slot', Renderer.find? { r₁ with commands := [] } copy.key slot' =
        some t' := by
      rcases Option.or_eq_some_iff.mp ht' with ht' | ⟨-, ht'⟩
      · exact ⟨slot, ht'⟩
      · exact ⟨.main, ht'⟩
    exact absurd (hspares.copies _ _ ht' _ _ _ hcopied) List.not_mem_nil

/-- A frame with a tile that is sampled before the image of the tile is drawn, and once more after
that. -/
def sampledTwice : Workload :=
  let tiled := ({ empty with id := 1 } : Workload).addTile
    ⟨16, 1, .bits8, 0, ⟨0, 0, 1, 1⟩, ⟨0, 0, 1, 1⟩, 7⟩
  let early := (tiled.setColorImage 0 .bits8 1).addDraw { drawDown 1 with tile := some 0 }
  let drawn := (early.setColorImage 16 .bits8 1).addDraw (drawDown 1)
  (drawn.setColorImage 0 .bits8 1).addDraw { drawDown 1 with tile := some 0 }

lemma built_sampledTwice : sampledTwice.Built := by
  have hstamp : Built { empty with id := 1 } := .stamp .empty 1 0 0 0 false
  exact ((((((hstamp.addTile _).setColorImage _ _ _).addDraw _).setColorImage _ _ _).addDraw
    _).setColorImage _ _ _).addDraw _

/-- The list of the frame: the copy is made before the last draw. -/
def copiesLate : List Command → Bool
  | [.upload .., .draw _, .upload .., .draw _, .barrier _, .copy .., .draw _] => true
  | _ => false

/-- The draw after the image of the tile samples the copy that is made for it. -/
theorem late_draw_samples_copy :
    ∃ r before d copy, sampledTwice.synchronized.recordImage .new .direct .main freshRenderer =
      .ok () r ∧ r.commands = before ++ [.draw d] ∧ before.countP Command.isDraw = 2 ∧
      d.Samples before r .main copy := by
  have hcheck : sampledTwice.synchronized.recordsWith (fun r => copiesLate r.commands) = true := by
    decide +kernel
  obtain ⟨r, hrecord, hlist⟩ := of_recordsWith hcheck
  simp only [copiesLate] at hlist
  obtain ⟨stats, table, hsync⟩ := synchronize_outcome (w := sampledTwice) (by decide +kernel)
  split at hlist
  · rename_i x₁ rect₁ size₁ data₁ d₁ x₂ rect₂ size₂ data₂ d₂ x₃ x₄ x₅ rect₃ b d₃ hcommands
    have hsplit : r.commands = [.upload x₁ rect₁ size₁ data₁, .draw d₁,
        .upload x₂ rect₂ size₂ data₂, .draw d₂, .barrier x₃, .copy x₄ x₅ rect₃ b] ++
          .draw d₃ :: [] := hcommands
    obtain ⟨place, call, hcall, hcopies⟩ := copy_sampled_iff (.start default) built_sampledTwice
      hsync .nil hrecord hsplit
    have hcount : List.countP Command.isDraw [.upload x₁ rect₁ size₁ data₁, .draw d₁,
        .upload x₂ rect₂ size₂ data₂, .draw d₂, .barrier x₃, .copy x₄ x₅ rect₃ b] = 2 := rfl
    rw [hcount] at hcall
    have hknown : ∃ copy, sampledTwice.synchronized.drawnCalls[2]? = some (2, ⟨0, 2⟩) ∧
        sampledTwice.synchronized.boundCopy? ⟨0, 2⟩ = some copy ∧
        sampledTwice.synchronized.copiesBy copy 2 = true :=
      ⟨⟨16, .bits8, 1, 0, ⟨0, 0, 1, 1⟩, ⟨0, 0, 1, 1⟩⟩, by decide +kernel⟩
    obtain ⟨copy, hdrawn, hbound, hmade⟩ := hknown
    rw [hdrawn] at hcall
    obtain ⟨rfl, rfl⟩ := Prod.mk.inj (Option.some.inj hcall)
    exact ⟨r, _, d₃, copy, hrecord, hcommands, hcount, (hcopies copy hbound).1.mpr hmade⟩
  · cases hlist

/-- The first draw of a list samples nothing. -/
def bareFirst : List Command → Bool
  | .upload .. :: .draw d :: _ => d.texture.isNone
  | _ => false

/-- The draw before the image of the tile has a copy bound to its tile all the same, and samples
nothing. -/
theorem early_draw_samples_nothing :
    (∃ stats table, (sampledTwice.synchronize .empty blankMemory).outcome =
      .ok (stats, sampledTwice.synchronized, table)) ∧
    ∃ r before d after copy, sampledTwice.synchronized.recordImage .new .direct .main
        freshRenderer = .ok () r ∧
      r.commands = before ++ .draw d :: after ∧ before.countP Command.isDraw = 0 ∧
      sampledTwice.synchronized.drawnCalls[0]? = some (0, ⟨0, 0⟩) ∧
      sampledTwice.synchronized.boundCopy? ⟨0, 0⟩ = some copy ∧ d.texture = none ∧
      ¬ d.Samples before r .main copy := by
  have hcheck : sampledTwice.synchronized.recordsWith (fun r => bareFirst r.commands) = true := by
    decide +kernel
  obtain ⟨r, hrecord, hlist⟩ := of_recordsWith hcheck
  simp only [bareFirst] at hlist
  refine ⟨synchronize_outcome (by decide +kernel), ?_⟩
  split at hlist
  · rename_i x rect size data d after hcommands
    have htexture : d.texture = none := by simpa using hlist
    refine ⟨r, [.upload x rect size data], d, after, ⟨16, .bits8, 1, 0, ⟨0, 0, 1, 1⟩, ⟨0, 0, 1, 1⟩⟩,
      hrecord, hcommands, rfl, by decide +kernel, by decide +kernel, htexture, ?_⟩
    rintro ⟨t, source, -, hsampled, -⟩
    rw [htexture] at hsampled
    cases hsampled
  · cases hlist

end Workload

end Scanout
