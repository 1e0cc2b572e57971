import Scanout.Proofs.Target.Request

/-!
# Uses of render targets

While a command list is recorded, each target that it uses in the slot at hand is named by a command
under the texture that it has then. The list stays valid as long as no target is outgrown: used
before and then demanded larger than it is. A dry run finds this out from the sizes of the targets
alone. `Renderer.Tracks` is what recording preserves beside it: either a target was outgrown and the
list names a texture that is gone for good, or each texture named is that of a target.
-/

namespace Scanout

/-- The targets without their textures, in the order in which they were made. -/
abbrev Layout := List Extent

def Extent.covers (e : Extent) (width height : Nat) : Bool := width ≤ e.width && height ≤ e.height

namespace Layout

def find? (l : Layout) (key : TargetKey) (slot : Slot) : Option Extent :=
  List.find? (fun e => e.key = key && e.slot = slot) l

/-- The target of an image of the given kind, or failing that any drawn target at the address. -/
def findByAddress? (l : Layout) (address : Nat) (kind : TargetKind) (slot : Slot) : Option Extent :=
  let here := l.filter fun e => e.key.address = address && e.slot = slot
  (here.find? (·.key.kind = kind)).or (here.reverse.find? (·.key.kind.isDrawn))

/-- Make a target large enough. -/
def demand (l : Layout) (key : TargetKey) (slot : Slot) (width height : Nat) : Layout :=
  match l.find? key slot with
  | some e =>
    if e.covers width height then l
    else (l.filter fun e => e.key ≠ key || e.slot ≠ slot) ++
      [⟨key, slot, max e.width width, max e.height height⟩]
  | none => l ++ [⟨key, slot, max width 1, max height 1⟩]

end Layout

/-- A use of a target in the slot at hand. -/
inductive Use where
  /-- the target has to hold an image of this size -/
  | demand (key : TargetKey) (width height : Nat)
  /-- the target is named as it is -/
  | mention (key : TargetKey)
  deriving DecidableEq, Repr

/-- How far the uses of an image were gone through. -/
structure DryRun where
  layout : Layout
  /-- the targets of the slot at hand that were used -/
  used : List TargetKey
  /-- a target was used before and then demanded larger than it was -/
  outgrown : Bool
  deriving DecidableEq, Repr

namespace DryRun

def use (slot : Slot) (d : DryRun) : Use → DryRun
  | .demand key width height =>
    ⟨d.layout.demand key slot width height, key :: d.used,
      d.outgrown ||
        decide (key ∈ d.used) && (d.layout.find? key slot).any fun e => !e.covers width height⟩
  | .mention key => { d with used := key :: d.used }

end DryRun

namespace Renderer

def layout (r : Renderer) : Layout := r.targets.map Target.extent

/-- A texture that is named is gone, and will not come back. -/
def Broken (r : Renderer) (named : List TextureId) : Prop :=
  ∃ x ∈ named, x ∉ r.device.live ∧ x < r.device.nextTexture

/-- The textures that are named are those of targets, of the slot at hand exactly those used. -/
structure Accounted (r : Renderer) (slot : Slot) (named : List TextureId) (used : List TargetKey) :
    Prop where
  named_target : ∀ x ∈ named, ∃ t ∈ r.targets, t.texture = x ∧ (t.slot = slot → t.key ∈ used)
  used_named : ∀ k ∈ used, ∃ t, r.find? k slot = some t ∧ t.texture ∈ named

/-- The renderer has got as far as the dry run, and the textures named fit in with it. -/
structure Tracks (r : Renderer) (slot : Slot) (named : List TextureId) (d : DryRun) : Prop where
  sound : r.Sound
  layout : r.layout = d.layout
  state : if d.outgrown then r.Broken named else r.Accounted slot named d.used

variable {r r' : Renderer} {slot : Slot} {named : List TextureId} {used : List TargetKey}
  {d : DryRun} {key : TargetKey} {width height : Nat} {t : Target}

lemma find?_congr (h : r'.targets = r.targets) : r'.find? key slot = r.find? key slot := by
  simp [find?, h]

/-- Targets are found by what the layout tells of them. -/
lemma find?_layout : r.layout.find? key slot = (r.find? key slot).map Target.extent := by
  simp only [layout, Layout.find?, List.find?_map]
  rfl

lemma findByAddress?_layout {address : Nat} {kind : TargetKind} :
    r.layout.findByAddress? address kind slot =
      (r.findByAddress? address kind slot).map Target.extent := by
  simp only [layout, Layout.findByAddress?, findByAddress?, List.filter_map, ← List.map_reverse,
    List.find?_map, Option.map_or]
  rfl

/-- A request makes the target that it is for large enough, and changes no other. -/
lemma layout_of_requested (h : Target.Requested key slot width height r t r') :
    r'.layout = r.layout.demand key slot width height := by
  simp only [Layout.demand]
  rw [find?_layout]
  cases h with
  | kept found large =>
    have : t.extent.covers width height = true := large
    simp [found, this]
  | made absent new extent => simp [absent, layout, new.targets, extent]
  | @grown old _ _ found small new extent =>
    have : old.extent.covers width height = false := small
    obtain ⟨-, rfl, rfl⟩ := mem_of_find? found
    simp only [found, Option.map_some, this, Bool.false_eq_true, if_false, layout, new.targets,
      List.map_append, List.map_cons, List.map_nil, extent, remove, List.filter_map]
    rfl

/-- A request concerns the target under its own key alone. -/
lemma find?_of_requested (hr : r.Sound) (h : Target.Requested key slot width height r t r')
    {k : TargetKey} (hk : k ≠ key) : r'.find? k slot = r.find? k slot := by
  have hr' := hr.requested h
  ext s
  rw [hr'.find?_eq_some_iff, hr.find?_eq_some_iff]
  cases h with
  | kept => rfl
  | made absent new extent =>
    have htk : t.key = key := congrArg Extent.key extent
    simp only [new.targets, List.mem_append, List.mem_singleton]
    constructor
    · rintro ⟨hs | rfl, rfl, rfl⟩
      · exact ⟨hs, rfl, rfl⟩
      · exact absurd htk hk
    · rintro ⟨hs, rfl, rfl⟩
      exact ⟨.inl hs, rfl, rfl⟩
  | @grown old _ _ found small new extent =>
    have htk : t.key = key := congrArg Extent.key extent
    obtain ⟨hold, hok, hos⟩ := mem_of_find? found
    simp only [new.targets, List.mem_append, List.mem_singleton, hr.mem_remove hold]
    constructor
    · rintro ⟨⟨hs, -⟩ | rfl, rfl, rfl⟩
      · exact ⟨hs, rfl, rfl⟩
      · exact absurd htk hk
    · rintro ⟨hs, rfl, rfl⟩
      refine ⟨.inl ⟨hs, ?_⟩, rfl, rfl⟩
      rintro rfl
      exact hk hok

/-- A target kept as the latest is found if there was none in its place. -/
lemma find?_of_adds (h : r.Adds t r') (hfree : r.find? t.key t.slot = none) :
    r'.find? t.key t.slot = some t := by
  simp only [find?] at hfree
  simp [find?, h.targets, List.find?_append, hfree]

/-- A target that is given up is no longer found. -/
lemma find?_remove : (r.remove t).find? t.key t.slot = none := by
  simp only [find?, remove, List.find?_eq_none, List.mem_filter]
  rintro s ⟨-, hs⟩ hsame
  simp only [Bool.and_eq_true, decide_eq_true_eq] at hsame
  simp [hsame] at hs

/-- The target that a request answers with is found afterwards. -/
lemma find?_self_of_requested (h : Target.Requested key slot width height r t r') :
    r'.find? key slot = some t := by
  cases h with
  | kept found => exact found
  | made absent new extent =>
    obtain ⟨rfl, rfl⟩ := Prod.mk.inj (Target.place_of_extent extent)
    exact find?_of_adds new absent
  | @grown old _ _ found small new extent =>
    obtain ⟨rfl, rfl⟩ := Prod.mk.inj (Target.place_of_extent extent)
    obtain ⟨-, hkey, hslot⟩ := mem_of_find? found
    refine find?_of_adds new ?_
    rw [← hkey, ← hslot]
    exact find?_remove

/-- A target is lost in a request only if it is the one to be enlarged. -/
lemma mem_of_requested (hr : r.Sound) (h : Target.Requested key slot width height r t r')
    {s : Target} (hs : s ∈ r.targets) (hp : s.place ≠ (key, slot)) : s ∈ r'.targets := by
  cases h with
  | kept => exact hs
  | made absent new => simp [new.targets, hs]
  | @grown old _ _ found small new =>
    obtain ⟨hold, hok, hos⟩ := mem_of_find? found
    rw [new.targets, List.mem_append]
    refine .inl ((hr.mem_remove hold).mpr ⟨hs, ?_⟩)
    rintro rfl
    exact hp (by simp [Target.place, hok, hos])

lemma live_remove {x : TextureId} :
    x ∈ (r.remove t).device.live ↔ x ∈ r.device.live ∧ x ≠ t.texture :=
  Device.mem_live_destroy

@[simp] lemma nextTexture_remove : (r.remove t).device.nextTexture = r.device.nextTexture :=
  Device.nextTexture_destroy

/-- A texture that is gone stays so in a request. -/
lemma not_live_of_requested (h : Target.Requested key slot width height r t r') {x : TextureId}
    (hx : x ∉ r.device.live) (hlt : x < r.device.nextTexture) :
    x ∉ r'.device.live ∧ x < r'.device.nextTexture := by
  cases h with
  | kept => exact ⟨hx, hlt⟩
  | made absent new =>
    rw [new.live, new.next, new.texture]
    simp only [List.mem_append, List.mem_singleton, not_or]
    exact ⟨⟨hx, Nat.ne_of_lt hlt⟩, Nat.lt_succ_of_lt hlt⟩
  | grown found small new =>
    rw [new.live, new.next, new.texture, nextTexture_remove]
    simp only [List.mem_append, List.mem_singleton, not_or, live_remove]
    exact ⟨⟨fun h => hx h.1, Nat.ne_of_lt hlt⟩, Nat.lt_succ_of_lt hlt⟩

namespace Broken

lemma requested (h : r.Broken named) (hreq : Target.Requested key slot width height r t r') :
    r'.Broken named := by
  obtain ⟨x, hx, hgone, hlt⟩ := h
  exact ⟨x, hx, not_live_of_requested hreq hgone hlt⟩

lemma mono (h : r.Broken named) {named' : List TextureId} (hsub : named ⊆ named') :
    r.Broken named' := by
  obtain ⟨x, hx, hgone⟩ := h
  exact ⟨x, hsub hx, hgone⟩

end Broken

namespace Accounted

lemma requested_fresh (hr : r.Sound) (h : r.Accounted slot named used)
    (hreq : Target.Requested key slot width height r t r') (hk : key ∉ used ∨ r' = r) :
    r'.Accounted slot (t.texture :: named) (key :: used) where
  named_target x hx := by
    obtain ⟨hmem, htk, hts⟩ := mem_of_find? (find?_self_of_requested hreq)
    rcases List.mem_cons.mp hx with rfl | hx
    · exact ⟨t, hmem, rfl, fun _ => htk ▸ List.mem_cons_self⟩
    · obtain ⟨s, hs, rfl, hused⟩ := h.named_target x hx
      refine ⟨s, ?_, rfl, fun hl => List.mem_cons_of_mem _ (hused hl)⟩
      rcases hk with hk | rfl
      · apply mem_of_requested hr hreq hs
        intro hp
        simp only [Target.place, Prod.mk.injEq] at hp
        exact hk (hp.1 ▸ hused hp.2)
      · exact hs
  used_named k hk' := by
    by_cases he : k = key
    · subst he
      exact ⟨t, find?_self_of_requested hreq, List.mem_cons_self⟩
    · obtain ⟨s, hs, hx⟩ := h.used_named k ((List.mem_cons.mp hk').resolve_left he)
      exact ⟨s, find?_of_requested hr hreq he ▸ hs, List.mem_cons_of_mem _ hx⟩

/-- Demanding more of a target that was used before than it holds breaks the list. -/
lemma broken_of_outgrown (hr : r.Sound) (h : r.Accounted slot named used)
    (hreq : Target.Requested key slot width height r t r') (hk : key ∈ used)
    (hsmall : (r.find? key slot).any fun t => !t.covers width height) : r'.Broken named := by
  obtain ⟨s, hs, hx⟩ := h.used_named key hk
  rw [hs, Option.any_some, Bool.not_eq_true'] at hsmall
  cases hreq with
  | kept found large => simp_all
  | made absent => simp_all
  | @grown old _ _ found small new =>
    obtain rfl : old = s := by simpa [found] using hs
    have hlt := hr.texture_lt (mem_of_find? found).1
    refine ⟨old.texture, hx, ?_, ?_⟩
    · rw [new.live, new.texture, nextTexture_remove]
      simp only [List.mem_append, List.mem_singleton, not_or, live_remove]
      exact ⟨fun h => h.2 rfl, Nat.ne_of_lt hlt⟩
    · rw [new.next, nextTexture_remove]
      exact Nat.lt_succ_of_lt hlt

end Accounted

namespace Tracks

lemma state_cases (h : r.Tracks slot named d) :
    (d.outgrown = true ∧ r.Broken named) ∨
      (d.outgrown = false ∧ r.Accounted slot named d.used) := by
  have hstate := h.state
  split at hstate
  · rename_i hd
    exact .inl ⟨hd, hstate⟩
  · rename_i hd
    exact .inr ⟨Bool.not_eq_true _ ▸ hd, hstate⟩

/-- A demand keeps step with the dry run, which tells whether it outgrew a target. -/
lemma requested (h : r.Tracks slot named d)
    (hreq : Target.Requested key slot width height r t r') :
    r'.Tracks slot (t.texture :: named) (d.use slot (.demand key width height)) where
  sound := h.sound.requested hreq
  layout := by
    rw [layout_of_requested hreq, h.layout]
    rfl
  state := by
    have hsmall : (d.layout.find? key slot).any (fun e => !e.covers width height) =
        (r.find? key slot).any fun t => !t.covers width height := by
      rw [← h.layout, find?_layout, Option.any_map]
      rfl
    simp only [DryRun.use, hsmall]
    rcases h.state_cases with ⟨hd, hbroken⟩ | ⟨hd, hacc⟩
    · rw [hd]
      exact (hbroken.requested hreq).mono (List.subset_cons_self _ _)
    · rw [hd, Bool.false_or]
      by_cases hk : key ∈ d.used
      · cases hout : (r.find? key slot).any fun t => !t.covers width height with
        | true =>
          simp only [hk, decide_true, Bool.and_self, if_true]
          exact (hacc.broken_of_outgrown h.sound hreq hk hout).mono (List.subset_cons_self _ _)
        | false =>
          simp only [Bool.and_false, Bool.false_eq_true, if_false]
          refine hacc.requested_fresh h.sound hreq (.inr ?_)
          obtain ⟨s, hs, -⟩ := hacc.used_named key hk
          rw [hs, Option.any_some, Bool.not_eq_false'] at hout
          cases hreq with
          | kept => rfl
          | made absent => simp_all
          | grown found small => simp_all
      · simp only [hk, decide_false, Bool.false_and, Bool.false_eq_true, if_false]
        exact hacc.requested_fresh h.sound hreq (.inl hk)

/-- Naming a target of the slot at hand as it is keeps step. -/
lemma mention (h : r.Tracks slot named d) (hf : r.find? key slot = some t) :
    r.Tracks slot (t.texture :: named) (d.use slot (.mention key)) where
  sound := h.sound
  layout := h.layout
  state := by
    change if d.outgrown then _ else r.Accounted slot (t.texture :: named) (key :: d.used)
    rcases h.state_cases with ⟨hd, hbroken⟩ | ⟨hd, hacc⟩
    · rw [if_pos hd]
      exact hbroken.mono (List.subset_cons_self _ _)
    · rw [hd, if_neg Bool.false_ne_true]
      have hreq : Target.Requested key slot t.width t.height r t r :=
        .kept hf (by simp [Target.covers])
      exact hacc.requested_fresh h.sound hreq (.inr rfl)

/-- Naming a target of another slot keeps step. -/
lemma mention_other (h : r.Tracks slot named d) (ht : t ∈ r.targets) (hs : t.slot ≠ slot) :
    r.Tracks slot (t.texture :: named) d where
  sound := h.sound
  layout := h.layout
  state := by
    rcases h.state_cases with ⟨hd, hbroken⟩ | ⟨hd, hacc⟩
    · rw [if_pos hd]
      exact hbroken.mono (List.subset_cons_self _ _)
    · rw [hd, if_neg Bool.false_ne_true]
      refine ⟨fun x hx => ?_, fun k hk => ?_⟩
      · rcases List.mem_cons.mp hx with rfl | hx
        · exact ⟨t, ht, rfl, fun h => absurd h hs⟩
        · exact hacc.named_target x hx
      · obtain ⟨s, hs, hx⟩ := hacc.used_named k hk
        exact ⟨s, hs, List.mem_cons_of_mem _ hx⟩

/-- Only the targets and the device count, and which textures are named. -/
lemma congr (h : r.Tracks slot named d) (ht : r'.targets = r.targets)
    (hdev : r'.device = r.device) {named' : List TextureId} (hn : ∀ x, x ∈ named' ↔ x ∈ named) :
    r'.Tracks slot named' d where
  sound := ⟨by rw [ht, hdev]; exact h.sound.live_iff, by rw [hdev]; exact h.sound.old,
    ht ▸ h.sound.textures, ht ▸ h.sound.places⟩
  layout := by rw [Renderer.layout, ht]; exact h.layout
  state := by
    rcases h.state_cases with ⟨hd, x, hx, hgone⟩ | ⟨hd, hacc⟩
    · rw [if_pos hd]
      exact ⟨x, (hn x).mpr hx, hdev ▸ hgone⟩
    · rw [hd, if_neg Bool.false_ne_true]
      refine ⟨fun x hx => ?_, fun k hk => ?_⟩
      · obtain ⟨t, hm, he, hused⟩ := hacc.named_target x ((hn x).mp hx)
        exact ⟨t, ht ▸ hm, he, hused⟩
      · obtain ⟨t, hf, hx⟩ := hacc.used_named k hk
        exact ⟨t, find?_congr ht ▸ hf, (hn _).mpr hx⟩

/-- The textures named live exactly as long as no target was outgrown. -/
lemma live_iff (h : r.Tracks slot named d) :
    (∀ x ∈ named, x ∈ r.device.live) ↔ d.outgrown = false := by
  rcases h.state_cases with ⟨hd, x, hx, hgone, -⟩ | ⟨hd, hacc⟩
  · simp only [hd, Bool.true_eq_false, iff_false, not_forall]
    exact ⟨x, hx, hgone⟩
  · simp only [hd, iff_true]
    intro x hx
    obtain ⟨t, ht, he, -⟩ := hacc.named_target x hx
    exact (h.sound.live_iff x).mpr ⟨t, ht, he⟩

end Tracks

end Renderer

end Scanout
