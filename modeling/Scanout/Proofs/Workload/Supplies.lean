import Mathlib.Data.List.Induction
import Scanout.Proofs.Workload.Backing
import Scanout.Proofs.Workload.Tracking

/-!
# Changes that reach a texture

What is known of memory is the same for all slots, and so are the changes that are queued for the
colored image at an address. They reach the textures of those slots only that the workload is
rendered in. While one image is recorded, the changes of its pairs reach the target that they are
drawn to, one pair after the other.
-/

namespace Scanout

/-- The change that an operation brings to the colored target under a key. -/
def Operation.changeFor? (key : TargetKey) : Operation → Option MemoryChange
  | .upload .color change => if change.key = key then some change else none
  | _ => none

/-- The changes for a colored target that are queued before the draws of a pair. -/
def Pair.changesFor (p : Pair) (key : TargetKey) : List MemoryChange :=
  p.before.filterMap (Operation.changeFor? key)

namespace Workload

/-- The changes for a colored target that are queued in a workload. -/
def changesFor (w : Workload) (key : TargetKey) : List MemoryChange :=
  w.pairs.flatMap (·.changesFor key)

/-- Those that are queued up to the draws of the pair at a place. -/
def changesUpTo (w : Workload) (key : TargetKey) (place : Nat) : List MemoryChange :=
  (w.pairs.take (place + 1)).flatMap (·.changesFor key)

end Workload

/-- The changes were uploaded to a texture in some of the images. -/
def Uploaded (x : TextureId) (images : List RenderedImage) (changes : List MemoryChange) : Prop :=
  ∀ c ∈ changes, ∃ image ∈ images, .upload x c.rect c.size c.data ∈ image.commands

/-- Changes for the first rows of an image were uploaded to a texture, all of them if the texture
had all rows earlier, and otherwise all since one that took in all rows. -/
def SuppliedBy (x : TextureId) (rows : Nat) (images : List RenderedImage)
    (changes : List MemoryChange) (earlier : Prop) : Prop :=
  (Uploaded x images changes ∧ earlier) ∨
    ∃ before c after, changes = before ++ c :: after ∧ c.covers rows = true ∧
      Uploaded x images (c :: after)

/-- What happens to the targets. -/
inductive Occurrence where
  /-- images of a workload are rendered -/
  | frame (w : Workload) (images : List RenderedImage)
  /-- all targets are given up for other settings -/
  | configured

/-- An upload of all rows, and all changes after it, have reached the texture. What happened last
comes first. -/
def Supplied (x : TextureId) (key : TargetKey) (rows : Nat) : List Occurrence → Prop
  | [] => False
  | .frame w images :: past =>
    SuppliedBy x rows images (w.changesFor key) (Supplied x key rows past)
  | .configured :: past => Supplied x key rows past

/-- Since an upload of all rows, every workload with changes was rendered in the slot, and the
targets were not given up. -/
def keptUp (slot : Slot) (key : TargetKey) (rows : Nat) : List Occurrence → Bool
  | [] => false
  | .frame w images :: past =>
    if (w.changesFor key).isEmpty then keptUp slot key rows past
    else slot ∈ images.map RenderedImage.slot &&
      ((w.changesFor key).any (·.covers rows) || keptUp slot key rows past)
  | .configured :: _ => false

section Lists

variable {x : TextureId} {key : TargetKey} {rows : Nat} {images images' : List RenderedImage}
  {changes : List MemoryChange} {c : MemoryChange} {earlier : Prop} {p : Pair}

/-- All commands of the images are among those of others. -/
def Within (images images' : List RenderedImage) : Prop :=
  ∀ image ∈ images, ∃ image' ∈ images', image.commands ⊆ image'.commands

lemma Uploaded.within (h : Uploaded x images changes) (hwithin : Within images images') :
    Uploaded x images' changes := by
  intro c hc
  obtain ⟨image, himage, hupload⟩ := h c hc
  obtain ⟨image', himage', hsub⟩ := hwithin image himage
  exact ⟨image', himage', hsub hupload⟩

lemma Uploaded.append {changes' : List MemoryChange} (h : Uploaded x images changes)
    (h' : Uploaded x images changes') : Uploaded x images (changes ++ changes') :=
  List.forall_mem_append.mpr ⟨h, h'⟩

namespace SuppliedBy

lemma within (h : SuppliedBy x rows images changes earlier) (hwithin : Within images images') :
    SuppliedBy x rows images' changes earlier := by
  rcases h with ⟨huploaded, hearlier⟩ | ⟨before, c, after, rfl, hcovers, huploaded⟩
  · exact .inl ⟨huploaded.within hwithin, hearlier⟩
  · exact .inr ⟨before, c, after, rfl, hcovers, huploaded.within hwithin⟩

/-- One more change is uploaded. -/
lemma snoc (h : SuppliedBy x rows images changes earlier) (hc : Uploaded x images [c]) :
    SuppliedBy x rows images (changes ++ [c]) earlier := by
  rcases h with ⟨huploaded, hearlier⟩ | ⟨before, c', after, rfl, hcovers, huploaded⟩
  · exact .inl ⟨huploaded.append hc, hearlier⟩
  · exact .inr ⟨before, c', after ++ [c], by simp, hcovers, huploaded.append hc⟩

/-- One more change is uploaded, and it takes in all rows. -/
lemma of_covers (hcovers : c.covers rows = true) (hc : Uploaded x images [c]) :
    SuppliedBy x rows images (changes ++ [c]) earlier :=
  .inr ⟨changes, c, [], rfl, hcovers, hc⟩

lemma of_nothing (h : earlier) : SuppliedBy x rows images [] earlier :=
  .inl ⟨fun _ hc => (List.not_mem_nil hc).elim, h⟩

/-- Either one of the changes takes in all rows, or the texture had all rows earlier. -/
lemma covered_or (h : SuppliedBy x rows images changes earlier) :
    changes.any (·.covers rows) = true ∨ earlier := by
  rcases h with ⟨-, hearlier⟩ | ⟨before, c, after, rfl, hcovers, -⟩
  · exact .inr hearlier
  · exact .inl (by simp [hcovers])

end SuppliedBy

/-- A change for a target concerns its image. -/
lemma Operation.concerns_of_changeFor? {op : Operation} (h : op.changeFor? key = some c) :
    op.concerns key.address = true := by
  cases op with
  | upload type change =>
    cases type with
    | color =>
      simp only [changeFor?, Option.ite_none_right_eq_some] at h
      simp [concerns, ← h.1, MemoryChange.key, TargetKey.ofImage]
    | depth => cases h
  | copyTile | reinterpret | synchronize => cases h

lemma Pair.changesFor_eq :
    p.changesFor key =
      (p.before.filter (·.concerns key.address)).filterMap (Operation.changeFor? key) := by
  rw [changesFor, List.filterMap_filter]
  refine List.filterMap_congr fun op _ => ?_
  cases hchange : op.changeFor? key with
  | none => simp
  | some c => rw [if_pos (Operation.concerns_of_changeFor? hchange)]

end Lists

/-- What is tracked, if anything, is the colored image at the address. -/
def Tracked (address : Nat) (known : Option (TargetKey × Nat)) : Prop :=
  ∀ key rows, known = some (key, rows) → key.address = address ∧ key.kind = .color

namespace Tracked

variable {address : Nat} {known known' start : Option (TargetKey × Nat)} {p : Pair}
  {pairs : List Pair}

lemma of_table {t : FramebufferTable} : Tracked address (t.tracked address) := by
  intro key rows h
  obtain ⟨fb, -, hkey⟩ := Option.map_eq_some_iff.mp h
  rw [← (Prod.mk.inj hkey).1]
  exact ⟨rfl, rfl⟩

lemma of_color {image : ColorImage} {rows : Nat} (h : image.address = address) :
    Tracked address (some (image.key, rows)) := by
  rintro _ _ ⟨⟩
  exact ⟨h, rfl⟩

lemma step (h : Tracked address known) (hp : p.Tracks address known known') :
    Tracked address known' := by
  cases hp with
  | aside => exact h
  | uploaded isColor same => exact of_color same
  | unchanged => exact h

lemma all (h : Tracked address start) (hpairs : TracksAll address start pairs known) :
    Tracked address known := by
  induction pairs generalizing known with
  | nil =>
    rw [TracksAll] at hpairs
    exact hpairs ▸ h
  | cons p pairs ih =>
    obtain ⟨before, hpairs, hp⟩ := hpairs
    exact (ih hpairs).step hp

end Tracked

/-- The event leaves a target of so many rows in its place. -/
def ImageEvent.Leaves (key : TargetKey) (rows : Nat) : ImageEvent → Prop
  | .operation op => op.concerns key.address = false
  | .demand use => use.key = key → use.height ≤ rows
  | _ => True

namespace Renderer

variable {r r' : Renderer} {slot : Slot} {past : List Occurrence}
  {images images' : List RenderedImage} {changes changes' : TargetKey → List MemoryChange}
  {known : Option (TargetKey × Nat)}

/-- The target that is tracked is as large as tracked and supplied, if one of the changes takes in
all rows, or the slot was kept up before. -/
def Serves (r : Renderer) (slot : Slot) (past : List Occurrence) (images : List RenderedImage)
    (changes : TargetKey → List MemoryChange) (known : Option (TargetKey × Nat)) : Prop :=
  ∀ key rows, known = some (key, rows) →
    ((changes key).any (·.covers rows) || keptUp slot key rows past) = true →
    ∃ t, r.find? key slot = some t ∧ t.covers key.width rows = true ∧
      SuppliedBy t.texture rows images (changes key) (Supplied t.texture key rows past)

namespace Serves

/-- The target stays, and there may be more commands. -/
lemma keep (h : r.Serves slot past images changes known)
    (hfind : ∀ key rows t, known = some (key, rows) → r.find? key slot = some t →
      t.covers key.width rows = true → r'.find? key slot = some t)
    (hwithin : Within images images') : r'.Serves slot past images' changes known := by
  intro key rows hknown hcondition
  obtain ⟨t, ht, hcovers, hsupplied⟩ := h key rows hknown hcondition
  exact ⟨t, hfind key rows t hknown ht hcovers, hcovers, hsupplied.within hwithin⟩

/-- Changes for other targets do not matter. -/
lemma congr (h : r.Serves slot past images changes known)
    (hchanges : ∀ key rows, known = some (key, rows) → changes' key = changes key) :
    r.Serves slot past images changes' known := by
  intro key rows hknown
  rw [hchanges key rows hknown]
  exact h key rows hknown

/-- As long as there are no changes, the images do not matter. -/
lemma of_nothing (h : r.Serves slot past images (fun _ => []) known) :
    r.Serves slot past images' (fun _ => []) known := by
  intro key rows hknown hcondition
  obtain ⟨t, ht, hcovers, hsupplied⟩ := h key rows hknown hcondition
  refine ⟨t, ht, hcovers, .of_nothing (hsupplied.covered_or.resolve_left ?_)⟩
  simp

end Serves

end Renderer

lemma within_commands {slot : Slot} {commands commands' : List Command}
    (h : commands ⊆ commands') : Within [⟨slot, commands⟩] [⟨slot, commands'⟩] := by
  intro image himage
  rw [List.mem_singleton.mp himage]
  exact ⟨_, List.mem_singleton_self _, h⟩

namespace Workload

variable {w : Workload} {slot : Slot} {e : ImageEvent} {events more : List ImageEvent}
  {r r' : Renderer} {past : List Occurrence} {key : TargetKey} {rows address place : Nat}
  {changes changes' : TargetKey → List MemoryChange}
  {start known known' : Option (TargetKey × Nat)} {p : Pair} {pairs : List Pair}

/-- A target is not replaced by events that leave it. -/
lemma Performed.find?_of_leaves (h : w.Performed slot e r r') (hr : r.Sound)
    (he : e.Leaves key rows) (hkind : key.kind = .color) {t : Target}
    (ht : r.find? key slot = some t) (hcovers : t.covers key.width rows = true) :
    r'.find? key slot = some t := by
  have other : ∀ {key' : TargetKey} {width height : Nat} {r₁ : Renderer} {t' : Target},
      Target.Requested key' slot width height r t' r₁ → key ≠ key' →
      r₁.find? key slot = some t :=
    fun hrequested hne => hrequested.find?_of_covers hr ht fun hkey => absurd hkey hne
  have byAddress : ∀ {a width : Nat} {size : PixelSize} {type : WriteType},
      a ≠ key.address → key ≠ .ofImage a width size type := by
    rintro a width size type hne rfl
    exact hne rfl
  cases h with
  | operation recorded =>
    cases recorded with
    | upload requested =>
      simp only [ImageEvent.Leaves, Operation.concerns, decide_eq_false_iff_not] at he
      rw [Renderer.find?_add]
      exact other requested (byAddress he)
    | copyTile found requested =>
      rw [Renderer.find?_add]
      refine other requested ?_
      rintro rfl
      cases hkind
    | reinterpret isFound kind requested =>
      simp only [ImageEvent.Leaves, Operation.concerns, decide_eq_false_iff_not] at he
      rw [Renderer.find?_add]
      exact other requested (byAddress he)
    | copyNothing | reinterpretNothing | synchronize | synchronizeNothing => exact ht
  | @demand use _ _ _ requested =>
    refine requested.find?_of_covers hr ht ?_
    rintro rfl
    simp only [Target.covers, Bool.and_eq_true, decide_eq_true_eq] at hcovers ⊢
    exact ⟨hcovers.1, (he rfl).trans hcovers.2⟩
  | draw => exact ht
  | mark targets => rw [Renderer.find?_congr targets, ht]

/-- Events that leave the target change nothing of what it was supplied with. -/
lemma Performs.serves (h : w.Performs slot events r r') (hr : r.Sound)
    (hserves : r.Serves slot past [⟨slot, r.commands⟩] changes known)
    (hknown : Tracked address known)
    (hleaves : ∀ e ∈ events, ∀ key rows, known = some (key, rows) → e.Leaves key rows) :
    r'.Serves slot past [⟨slot, r'.commands⟩] changes known := by
  refine hserves.keep ?_ (within_commands ?_)
  · intro key rows t hkey ht hcovers
    refine (h.induct (motive := fun r' => r'.Sound ∧ r'.find? key slot = some t) ⟨hr, ht⟩ ?_).2
    rintro e he r₁ r₂ ⟨hr₁, ht₁⟩ hperformed
    have ht₂ := hperformed.find?_of_leaves hr₁ (hleaves e he key rows hkey) (hknown key rows hkey).2
      ht₁ hcovers
    exact ⟨hperformed.enlarges.sound hr₁, ht₂⟩
  · obtain ⟨added, hadded⟩ := h.exists_commands
    rw [hadded]
    exact List.subset_append_left _ _

/-- An upload that takes in all rows supplies the target, and any other upload keeps it supplied. -/
lemma Performed.serves_of_upload {change : MemoryChange}
    (h : w.Performed slot (.operation (.upload .color change)) r r') (hr : r.Sound)
    (hserves : r.Serves slot past [⟨slot, r.commands⟩] changes known)
    (hpos : 0 < rows) (hbottom : change.rect.bottom ≤ (rows : Int))
    (hcovers : change.covers rows = true ∨ known = some (change.key, rows))
    (hchanges : changes' change.key = changes change.key ++ [change]) :
    r'.Serves slot past [⟨slot, r'.commands⟩] changes' (some (change.key, rows)) := by
  rintro key rows' ⟨⟩ hcondition
  cases h with
  | operation recorded =>
    cases recorded with
    | @upload _ _ _ r₁ t requested =>
      have hfound := Renderer.find?_self_of_requested requested
      have huploaded : Uploaded t.texture
          [⟨slot, (r₁.add (.upload t.texture change.rect change.size change.data)).commands⟩]
          [change] := by
        intro c hc
        rw [List.mem_singleton.mp hc]
        exact ⟨_, List.mem_singleton_self _, List.mem_append_right _ (List.mem_singleton_self _)⟩
      rw [hchanges] at hcondition ⊢
      refine ⟨t, hfound, ?_⟩
      by_cases hall : change.covers rows = true
      · refine ⟨?_, .of_covers hall huploaded⟩
        have hlarge := requested.covers
        simp only [Target.covers, Bool.and_eq_true, decide_eq_true_eq] at hlarge ⊢
        simp only [MemoryChange.covers, Bool.and_eq_true, decide_eq_true_eq] at hall
        refine ⟨hlarge.1, Nat.le_trans ?_ hlarge.2⟩
        simp only [Operation.rowsDownTo]
        omega
      · -- the target was as large before, so it was not replaced
        have hknown := hcovers.resolve_left hall
        have hcondition : ((changes change.key).any (·.covers rows) ||
            keptUp slot change.key rows past) = true := by
          simpa [hall] using hcondition
        obtain ⟨t', ht', hlarge, hsupplied⟩ := hserves change.key rows hknown hcondition
        have hkept : ((r.find? change.key slot).any
            (·.covers change.width (Operation.rowsDownTo change.rect))) = true := by
          simp only [Target.covers, Bool.and_eq_true, decide_eq_true_eq] at hlarge
          simp only [ht', Option.any_some, Target.covers, Bool.and_eq_true, decide_eq_true_eq]
          refine ⟨hlarge.1, Nat.le_trans ?_ hlarge.2⟩
          simp only [Operation.rowsDownTo]
          omega
        obtain rfl : r₁ = r := by
          rcases requested.renewed hr with ⟨-, rfl⟩ | ⟨hsmall, -⟩
          · rfl
          · exact absurd hkept (ne_true_of_eq_false hsmall)
        obtain rfl : t' = t := Option.some.inj (ht'.symm.trans hfound)
        refine ⟨hlarge, (hsupplied.within ?_).snoc huploaded⟩
        exact within_commands (List.subset_append_left _ _)

/-- If there is one operation that concerns the image, an upload, it is the one change. -/
lemma changesFor_of_upload {change : MemoryChange} (h : p.before.filter (·.concerns address) =
    [.upload .color change]) (haddress : change.address = address) :
    p.changesFor change.key = [change] := by
  subst haddress
  rw [Pair.changesFor_eq]
  change (p.before.filter (·.concerns change.address)).filterMap _ = _
  rw [h]
  simp [Operation.changeFor?]

/-- The operations before the draws of a pair supply the target that is tracked then. -/
lemma Performs.serves_before (h : w.Performs slot (p.before.map .operation) r r') (hr : r.Sound)
    (hp : p.Tracks address known known') (hknown : Tracked address known)
    (hserves : r.Serves slot past [⟨slot, r.commands⟩] changes known) :
    r'.Serves slot past [⟨slot, r'.commands⟩] (fun key => changes key ++ p.changesFor key)
      known' := by
  have leaves : ∀ {ops : List Operation} {known : Option (TargetKey × Nat)},
      (∀ op ∈ ops, op.concerns address = false) → Tracked address known →
      ∀ e ∈ ops.map ImageEvent.operation, ∀ key rows, known = some (key, rows) →
        e.Leaves key rows := by
    intro ops known hops hknown e he key rows hkey
    obtain ⟨op, hop, rfl⟩ := List.mem_map.mp he
    rw [ImageEvent.Leaves, (hknown key rows hkey).1]
    exact hops op hop
  have nothing : p.before.filter (·.concerns address) = [] →
      r'.Serves slot past [⟨slot, r'.commands⟩] (fun key => changes key ++ p.changesFor key)
        known := by
    intro hnothing
    have hops : ∀ op ∈ p.before, op.concerns address = false := by simpa using hnothing
    refine (h.serves hr hserves hknown (leaves hops hknown)).congr fun key rows hkey => ?_
    rw [Pair.changesFor_eq, (hknown key rows hkey).1, hnothing]
    exact List.append_nil _
  cases hp with
  | aside other hnothing => exact nothing hnothing
  | unchanged isColor same height hnothing => exact nothing hnothing
  | @uploaded _ image rows change isColor same height upload key bottom covers =>
    have hchanges : p.changesFor change.key = [change] :=
      changesFor_of_upload upload ((congrArg TargetKey.address key).trans same)
    obtain ⟨before, after, hbefore, hother, -, hafter⟩ := List.filter_eq_cons_iff.mp upload
    have hother : ∀ op ∈ before, op.concerns address = false := by simpa using hother
    have hafter : ∀ op ∈ after, op.concerns address = false := by simpa using hafter
    rw [hbefore, List.map_append, List.map_cons] at h
    obtain ⟨r₁, hfirst, hrest⟩ := h.of_append
    cases hrest with
    | @cons _ _ _ r₂ _ hupload hlast =>
      have hr₁ := hfirst.sound hr
      have hserves₁ := hfirst.serves hr hserves hknown (leaves hother hknown)
      rw [← key] at covers ⊢
      have hpos : 0 < rows := by
        simp only [Pair.drawHeight] at height
        omega
      have hserves₂ : r₂.Serves slot past [⟨slot, r₂.commands⟩]
          (fun key => changes key ++ p.changesFor key) (some (change.key, rows)) :=
        hupload.serves_of_upload hr₁ hserves₁ hpos bottom covers (by rw [hchanges])
      have hknown' : Tracked address (some (change.key, rows)) := key ▸ .of_color same
      exact hlast.serves (hupload.enlarges.sound hr₁) hserves₂ hknown' (leaves hafter hknown')

/-- The draws of a pair leave the target that is tracked, and so does what follows them. -/
lemma leaves_of_tracks (hp : p.Tracks address known known') (hknown : Tracked address known')
    (hmarks : ∀ op ∈ p.after, op.IsMark)
    (he : e ∈ p.drawEvents place ++ p.after.map .operation) (key : TargetKey) (rows : Nat)
    (hkey : known' = some (key, rows)) : e.Leaves key rows := by
  obtain ⟨rfl, hkind⟩ := hknown key rows hkey
  rcases List.mem_append.mp he with he | he
  · rw [Pair.drawEvents] at he
    split at he
    · cases he
    · simp only [List.mem_append, List.mem_map, List.mem_singleton] at he
      rcases he with (⟨use, huse, rfl⟩ | ⟨call, -, rfl⟩) | rfl
      · rintro rfl
        have height : ∀ {image : ColorImage} {rows : Nat}, p.colorImage = some image →
            p.drawHeight ≤ rows → use.height ≤ rows := by
          intro image rows himage hle
          simp only [Pair.imageUses, himage, List.mem_cons, List.mem_map] at huse
          rcases huse with rfl | ⟨_, -, rfl⟩
          · exact hle
          · cases hkind
        cases hp with
        | aside other => exact absurd rfl (other use huse)
        | uploaded isColor same hle =>
          obtain ⟨-, rfl⟩ := Prod.mk.inj (Option.some.inj hkey)
          exact height isColor hle
        | unchanged isColor same hle =>
          obtain ⟨-, rfl⟩ := Prod.mk.inj (Option.some.inj hkey)
          exact height isColor hle
      · trivial
      · trivial
  · obtain ⟨op, hop, rfl⟩ := List.mem_map.mp he
    have hmark := hmarks op hop
    cases op with
    | synchronize => rfl
    | upload | copyTile | reinterpret => exact hmark.elim

/-- The first events of a pair supply the target that is tracked, once its operations are done. -/
lemma Performs.serves_pair (h : w.Performs slot (p.before.map .operation ++ more) r r')
    (hr : r.Sound) (hp : p.Tracks address known known') (hknown : Tracked address known)
    (hmarks : ∀ op ∈ p.after, op.IsMark)
    (hmore : more ⊆ p.drawEvents place ++ p.after.map .operation)
    (hserves : r.Serves slot past [⟨slot, r.commands⟩] changes known) :
    r'.Serves slot past [⟨slot, r'.commands⟩] (fun key => changes key ++ p.changesFor key)
      known' := by
  obtain ⟨r₁, hbefore, hrest⟩ := h.of_append
  have hknown' := hknown.step hp
  refine hrest.serves (hbefore.sound hr) (hbefore.serves_before hr hp hknown hserves) hknown' ?_
  intro e he
  exact leaves_of_tracks hp hknown' hmarks (hmore he)

/-- The events of pairs supply the target that is tracked after them. -/
lemma Performs.serves_pairs
    (h : w.Performs slot (pairs.zipIdx.flatMap fun (p, place) => p.events place) r r')
    (hr : r.Sound) (hpairs : TracksAll address start pairs.reverse known)
    (hstart : Tracked address start)
    (hmarks : ∀ p ∈ pairs, ∀ op ∈ p.after, op.IsMark)
    (hserves : r.Serves slot past [⟨slot, r.commands⟩] (fun _ => []) start) :
    r'.Serves slot past [⟨slot, r'.commands⟩] (fun key => pairs.flatMap (·.changesFor key))
      known := by
  induction pairs using List.reverseRecOn generalizing known r' with
  | nil =>
    obtain rfl : known = start := hpairs
    cases h
    exact hserves
  | append_singleton earlier p ih =>
    rw [List.reverse_append, List.reverse_singleton, List.singleton_append] at hpairs
    obtain ⟨before, hearlier, hp⟩ := hpairs
    rw [List.zipIdx_append, List.flatMap_append, List.zipIdx_singleton, List.flatMap_singleton] at h
    obtain ⟨r₁, hfirst, hlast⟩ := h.of_append
    have hserves₁ := ih hfirst hearlier fun q hq => hmarks q (List.mem_append_left _ hq)
    have hmem : p ∈ earlier ++ [p] := List.mem_append_right _ (List.mem_singleton_self p)
    change w.Performs slot (p.events _) r₁ r' at hlast
    rw [Pair.events, List.append_assoc] at hlast
    simp only [List.flatMap_append, List.flatMap_singleton]
    exact hlast.serves_pair (hfirst.sound hr) hp (hstart.all hearlier) (hmarks p hmem)
      (List.Subset.refl _) hserves₁

end Workload

end Scanout
