import Mathlib.Data.List.Nodup
import Scanout.Proofs.Target.Rendering

/-!
# Requests for render targets

A request keeps a target that is large enough, makes one that is missing, and replaces one that is
too small. Only the last destroys a texture. `Renderer.Sound` ties the targets to the device: each
texture that lives is that of exactly one target.
-/

namespace Scanout

/-- What can be told of a target without its texture. -/
structure Extent where
  key : TargetKey
  slot : Slot
  width : Nat
  height : Nat
  deriving DecidableEq, Repr

def Target.extent (t : Target) : Extent := ⟨t.key, t.slot, t.width, t.height⟩

/-- A target with a new texture is kept as the latest. -/
structure Renderer.Adds (r : Renderer) (t : Target) (r' : Renderer) : Prop where
  texture : t.texture = r.device.nextTexture
  targets : r'.targets = r.targets ++ [t]
  live : r'.device.live = r.device.live ++ [t.texture]
  next : r'.device.nextTexture = r.device.nextTexture + 1
  commands : r'.commands = r.commands

/-- What a request for a target comes to. -/
inductive Target.Requested (key : TargetKey) (slot : Slot) (width height : Nat) (r : Renderer) :
    Target → Renderer → Prop where
  | kept {t : Target} (found : r.find? key slot = some t) (large : t.covers width height = true) :
      Requested key slot width height r t r
  | made {t : Target} {r' : Renderer} (absent : r.find? key slot = none) (new : r.Adds t r')
      (extent : t.extent = ⟨key, slot, max width 1, max height 1⟩) :
      Requested key slot width height r t r'
  | grown {old t : Target} {r' : Renderer} (found : r.find? key slot = some old)
      (small : old.covers width height = false) (new : (r.remove old).Adds t r')
      (extent : t.extent = ⟨key, slot, max old.width width, max old.height height⟩) :
      Requested key slot width height r t r'

namespace Device

lemma isLive_iff {d : Device} {t : TextureId} : d.isLive t = true ↔ t ∈ d.live := by
  simp [isLive, live]

/-- No texture is missing exactly if all exist that the commands are checked for. -/
lemma missing?_eq_none_iff_checked {d : Device} {commands : List Command} :
    d.missing? commands = none ↔ ∀ t ∈ commands.flatMap checkedTextures, t ∈ d.live := by
  simp only [missing?, List.find?_eq_none, Bool.not_eq_true, Bool.not_eq_false', isLive_iff]

lemma checked_of_missing? {d : Device} {commands : List Command} {t : TextureId}
    (h : d.missing? commands = some t) :
    t ∈ commands.flatMap checkedTextures ∧ t ∉ d.live := by
  refine ⟨List.mem_of_find?_eq_some h, ?_⟩
  rw [← isLive_iff]
  simpa using List.find?_some h

lemma live_of_create {d d' : Device} {shape : TextureShape} {t : TextureId}
    (h : d.create shape = (.ok t, d')) :
    t = d.nextTexture ∧ d'.live = d.live ++ [t] ∧ d'.nextTexture = d.nextTexture + 1 := by
  unfold create at h
  split at h
  · simp at h
  · dsimp only at h
    split at h
    · simp at h
    · obtain ⟨ht, rfl⟩ := Prod.mk.injEq .. ▸ h
      simp only [Except.ok.injEq] at ht
      subst ht
      simp [live]

lemma mem_live_destroy {d : Device} {s t : TextureId} :
    s ∈ (d.destroy t).live ↔ s ∈ d.live ∧ s ≠ t := by
  simp only [destroy]
  split
  · simp [live]
  · rename_i h
    rw [isLive_iff] at h
    constructor
    · intro hs
      exact ⟨hs, fun he => h (he ▸ hs)⟩
    · exact And.left

@[simp] lemma nextTexture_destroy {d : Device} {t : TextureId} :
    (d.destroy t).nextTexture = d.nextTexture := by
  simp only [destroy]
  split <;> rfl

end Device

namespace Target

variable {key : TargetKey} {slot : Slot} {width height : Nat} {r r' : Renderer} {t : Target}

/-- A texture that is created is new, and nothing else becomes of the targets. -/
lemma of_create (h : create key slot width height r = .ok t r') :
    t.extent = ⟨key, slot, width, height⟩ ∧ t.texture = r.device.nextTexture ∧
      r'.targets = r.targets ∧ r'.device.live = r.device.live ++ [t.texture] ∧
      r'.device.nextTexture = r.device.nextTexture + 1 ∧ r'.commands = r.commands := by
  simp only [create] at h
  rw [Rendering.bind_eq_ok] at h
  obtain ⟨_, _, hget, h⟩ := h
  obtain ⟨rfl, rfl⟩ := Rendering.get_eq_ok.mp hget
  generalize hc : r.device.create _ = c at h
  obtain ⟨texture?, device⟩ := c
  simp only [Rendering.bind_eq_ok, Rendering.set_eq_ok] at h
  obtain ⟨_, _, rfl, h⟩ := h
  cases texture? with
  | error cause => exact absurd h Rendering.throw_ne_ok
  | ok texture =>
    obtain ⟨rfl, hlive, hnext⟩ := Device.live_of_create hc
    simp only [Rendering.bind_eq_ok, Rendering.note_eq_ok, Rendering.pure_eq_ok] at h
    obtain ⟨_, _, rfl, rfl, rfl⟩ := h
    exact ⟨rfl, rfl, rfl, hlive, hnext, rfl⟩

/-- A created target that is inserted is added. -/
lemma adds_of_create {r₁ : Renderer} (h : create key slot width height r = .ok t r₁)
    (hi : (modify fun r => r.insert t : Rendering PUnit) r₁ = .ok ⟨⟩ r') :
    r.Adds t r' ∧ t.extent = ⟨key, slot, width, height⟩ := by
  obtain ⟨hextent, ht, htargets, hlive, hnext, hcommands⟩ := of_create h
  obtain rfl := Rendering.modify_eq_ok.mp hi
  exact ⟨⟨ht, by simp [Renderer.insert, htargets], hlive, hnext, hcommands⟩, hextent⟩

lemma Requested.of_request (h : request key slot width height r = .ok t r') :
    Requested key slot width height r t r' := by
  simp only [request] at h
  rw [Rendering.bind_eq_ok] at h
  obtain ⟨_, _, hget, h⟩ := h
  obtain ⟨rfl, rfl⟩ := Rendering.get_eq_ok.mp hget
  cases hf : r.find? key slot with
  | some old =>
    simp only [hf] at h
    cases hc : old.covers width height with
    | true =>
      simp only [hc, if_true, Rendering.pure_eq_ok] at h
      obtain ⟨rfl, rfl⟩ := h
      exact .kept hf hc
    | false =>
      simp only [hc, Bool.false_eq_true, if_false, Rendering.bind_eq_ok, Rendering.note_eq_ok,
        Rendering.modify_eq_ok, Rendering.pure_eq_ok] at h
      obtain ⟨_, _, rfl, _, _, rfl, new, r₁, hnew, _, _, rfl, rfl, rfl⟩ := h
      obtain ⟨hadds, hextent⟩ := adds_of_create hnew rfl
      exact .grown hf hc ⟨hadds.texture, hadds.targets, hadds.live, hadds.next, hadds.commands⟩
        hextent
  | none =>
    simp only [hf, Rendering.bind_eq_ok, Rendering.modify_eq_ok, Rendering.pure_eq_ok] at h
    obtain ⟨new, r₁, hnew, _, _, rfl, rfl, rfl⟩ := h
    obtain ⟨hadds, hextent⟩ := adds_of_create hnew rfl
    exact .made hf hadds hextent

lemma covers_iff : t.covers width height = true ↔ width ≤ t.width ∧ height ≤ t.height := by
  simp [covers]

/-- The target that a request answers with is large enough. -/
lemma Requested.covers (h : Requested key slot width height r t r') :
    t.covers width height = true := by
  cases h with
  | kept found large => exact large
  | made absent new extent =>
    have hw : t.width = max width 1 := congrArg Extent.width extent
    have hh : t.height = max height 1 := congrArg Extent.height extent
    exact covers_iff.mpr ⟨hw ▸ Nat.le_max_left _ _, hh ▸ Nat.le_max_left _ _⟩
  | @grown old _ _ found small new extent =>
    have hw : t.width = max old.width width := congrArg Extent.width extent
    have hh : t.height = max old.height height := congrArg Extent.height extent
    exact covers_iff.mpr ⟨hw ▸ Nat.le_max_right _ _, hh ▸ Nat.le_max_right _ _⟩

/-- The target that a request answers with is no smaller than the one before. -/
lemma Requested.covers_old (h : Requested key slot width height r t r') {old : Target}
    (hold : r.find? key slot = some old) : t.covers old.width old.height = true := by
  cases h with
  | kept found =>
    obtain rfl := Option.some.inj (found.symm.trans hold)
    exact covers_iff.mpr ⟨Nat.le_refl _, Nat.le_refl _⟩
  | made absent => cases absent.symm.trans hold
  | @grown small _ _ found _ new extent =>
    obtain rfl := Option.some.inj (found.symm.trans hold)
    have hw : t.width = max small.width width := congrArg Extent.width extent
    have hh : t.height = max small.height height := congrArg Extent.height extent
    exact covers_iff.mpr ⟨hw ▸ Nat.le_max_left _ _, hh ▸ Nat.le_max_left _ _⟩

end Target

/-- The key and the slot that a target is found under. -/
def Target.place (t : Target) : TargetKey × Slot := (t.key, t.slot)

lemma Target.place_of_extent {t : Target} {e : Extent} (h : t.extent = e) :
    t.place = (e.key, e.slot) := by
  subst h
  rfl

/-- Each texture that lives is that of exactly one target, and each target has a place of its own.
-/
structure Renderer.Sound (r : Renderer) : Prop where
  live_iff : ∀ x, x ∈ r.device.live ↔ ∃ t ∈ r.targets, t.texture = x
  old : ∀ x ∈ r.device.live, x < r.device.nextTexture
  textures : (r.targets.map Target.texture).Nodup
  places : (r.targets.map Target.place).Nodup

namespace Renderer

variable {key : TargetKey} {slot : Slot} {r r' : Renderer} {s t : Target}

lemma mem_of_find? (h : r.find? key slot = some t) :
    t ∈ r.targets ∧ t.key = key ∧ t.slot = slot := by
  have hp := List.find?_some h
  simp only [Bool.and_eq_true, decide_eq_true_eq] at hp
  exact ⟨List.mem_of_find?_eq_some h, hp⟩

lemma mem_of_findByAddress? {address : Nat} {kind : TargetKind}
    (h : r.findByAddress? address kind slot = some t) :
    t ∈ r.targets ∧ t.key.address = address ∧ t.slot = slot ∧
      (t.key.kind = kind ∨ t.key.kind.isDrawn = true) := by
  unfold findByAddress? at h
  dsimp only at h
  rcases Option.or_eq_some_iff.mp h with h | ⟨-, h⟩
  · have hm := List.mem_of_find?_eq_some h
    have hk := List.find?_some h
    simp only [List.mem_filter, Bool.and_eq_true, decide_eq_true_eq] at hm hk
    exact ⟨hm.1, hm.2.1, hm.2.2, .inl hk⟩
  · have hm := List.mem_of_find?_eq_some h
    have hk := List.find?_some h
    simp only [List.mem_reverse, List.mem_filter, Bool.and_eq_true, decide_eq_true_eq] at hm hk
    exact ⟨hm.1, hm.2.1, hm.2.2, .inr hk⟩

namespace Sound

lemma texture_lt (h : r.Sound) (ht : t ∈ r.targets) : t.texture < r.device.nextTexture :=
  h.old _ ((h.live_iff _).mpr ⟨t, ht, rfl⟩)

/-- A target is found under its key and slot. -/
lemma find?_eq_some_iff (h : r.Sound) :
    r.find? key slot = some t ↔ t ∈ r.targets ∧ t.key = key ∧ t.slot = slot := by
  constructor
  · exact mem_of_find?
  · rintro ⟨hm, rfl, rfl⟩
    cases hf : r.find? t.key t.slot with
    | none =>
      have := List.find?_eq_none.mp hf t hm
      simp at this
    | some s =>
      obtain ⟨hs, hk, hl⟩ := mem_of_find? hf
      rw [List.inj_on_of_nodup_map h.places hs hm (by simp [Target.place, hk, hl])]

lemma mem_remove (h : r.Sound) (ht : t ∈ r.targets) :
    s ∈ (r.remove t).targets ↔ s ∈ r.targets ∧ s ≠ t := by
  simp only [remove, List.mem_filter, Bool.or_eq_true, decide_eq_true_eq, ne_eq]
  constructor
  · rintro ⟨hs, hne⟩
    refine ⟨hs, ?_⟩
    rintro rfl
    simp at hne
  · rintro ⟨hs, hne⟩
    refine ⟨hs, ?_⟩
    by_contra hsame
    simp only [not_or, not_not] at hsame
    exact hne (List.inj_on_of_nodup_map h.places hs ht (by simp [Target.place, hsame]))

/-- Giving up a target gives up its texture and nothing else. -/
lemma remove (h : r.Sound) (ht : t ∈ r.targets) : (r.remove t).Sound where
  live_iff x := by
    change x ∈ (r.device.destroy t.texture).live ↔ _
    rw [Device.mem_live_destroy, h.live_iff]
    constructor
    · rintro ⟨⟨s, hs, rfl⟩, hne⟩
      exact ⟨s, (h.mem_remove ht).mpr ⟨hs, fun he => hne (he ▸ rfl)⟩, rfl⟩
    · rintro ⟨s, hs, rfl⟩
      obtain ⟨hs, hne⟩ := (h.mem_remove ht).mp hs
      exact ⟨⟨s, hs, rfl⟩, fun he => hne (List.inj_on_of_nodup_map h.textures hs ht he)⟩
  old x hx := by
    change x ∈ (r.device.destroy t.texture).live at hx
    change x < (r.device.destroy t.texture).nextTexture
    rw [Device.nextTexture_destroy]
    exact h.old x (Device.mem_live_destroy.mp hx).1
  textures := h.textures.sublist (List.filter_sublist.map _)
  places := h.places.sublist (List.filter_sublist.map _)

/-- Adding a target under a free place keeps the targets sound. -/
lemma adds (h : r.Sound) (hadds : r.Adds t r') (hfree : ∀ s ∈ r.targets, s.place ≠ t.place) :
    r'.Sound where
  live_iff x := by
    simp only [hadds.live, hadds.targets, List.mem_append, List.mem_singleton, h.live_iff]
    constructor
    · rintro (⟨s, hs, rfl⟩ | rfl)
      · exact ⟨s, .inl hs, rfl⟩
      · exact ⟨t, .inr rfl, rfl⟩
    · rintro ⟨s, hs | rfl, rfl⟩
      · exact .inl ⟨s, hs, rfl⟩
      · exact .inr rfl
  old x hx := by
    rw [hadds.live, List.mem_append, List.mem_singleton] at hx
    rw [hadds.next]
    rcases hx with hx | rfl
    · exact Nat.lt_succ_of_lt (h.old x hx)
    · rw [hadds.texture]
      exact Nat.lt_succ_self _
  textures := by
    rw [hadds.targets, List.map_append, List.nodup_append]
    refine ⟨h.textures, by simp, ?_⟩
    simp only [List.mem_map, List.map_cons, List.map_nil, List.mem_singleton]
    rintro _ ⟨s, hs, rfl⟩ _ rfl
    rw [hadds.texture]
    exact Nat.ne_of_lt (h.texture_lt hs)
  places := by
    rw [hadds.targets, List.map_append, List.nodup_append]
    refine ⟨h.places, by simp, ?_⟩
    simp only [List.mem_map, List.map_cons, List.map_nil, List.mem_singleton]
    rintro _ ⟨s, hs, rfl⟩ _ rfl
    exact hfree s hs

lemma find?_eq_none (hf : r.find? key slot = none) {s : Target} (hs : s ∈ r.targets) :
    s.place ≠ (key, slot) := by
  intro hp
  have := List.find?_eq_none.mp hf s hs
  simp only [Target.place, Prod.mk.injEq] at hp
  simp [hp] at this

/-- A request keeps the targets sound. -/
lemma requested {width height : Nat} (h : r.Sound)
    (hreq : Target.Requested key slot width height r t r') : r'.Sound := by
  cases hreq with
  | kept => exact h
  | made absent new extent =>
    refine h.adds new fun s hs => ?_
    rw [Target.place_of_extent extent]
    exact find?_eq_none absent hs
  | @grown old _ _ found _ new extent =>
    obtain ⟨hold, rfl, rfl⟩ := mem_of_find? found
    refine (h.remove hold).adds new fun s hs he => ?_
    obtain ⟨hmem, hne⟩ := (h.mem_remove hold).mp hs
    have hplace := he.trans (Target.place_of_extent extent)
    exact hne (List.inj_on_of_nodup_map h.places hmem hold hplace)

end Sound

lemma Sound.new {limits : DeviceLimits} {config : TargetConfig} :
    (Renderer.new (.new limits) config).Sound where
  live_iff x := by simp [Renderer.new, Device.new, Device.live]
  old x hx := by simp [Renderer.new, Device.new, Device.live] at hx
  textures := List.nodup_nil
  places := List.nodup_nil

/-- Only the targets and the textures of the device count. -/
lemma Sound.congr (h : r.Sound) (ht : r'.targets = r.targets)
    (hl : r'.device.live = r.device.live) (hn : r'.device.nextTexture = r.device.nextTexture) :
    r'.Sound where
  live_iff := by
    rw [ht, hl]
    exact h.live_iff
  old := by
    rw [hl, hn]
    exact h.old
  textures := ht ▸ h.textures
  places := ht ▸ h.places

lemma mem_live_foldl_destroy {ts : List Target} {d : Device} {x : TextureId} :
    x ∈ (ts.foldl (fun d t => d.destroy t.texture) d).live ↔
      x ∈ d.live ∧ ∀ t ∈ ts, t.texture ≠ x := by
  induction ts generalizing d with
  | nil => simp
  | cons t ts ih =>
    rw [List.foldl_cons, ih, Device.mem_live_destroy, List.forall_mem_cons, and_assoc, ne_comm]

/-- When all targets are given up, no texture is left. -/
lemma Sound.destroyAll (h : r.Sound) : r.destroyAll.Sound where
  live_iff x := by
    change x ∈ (r.targets.foldl (fun d t => d.destroy t.texture) r.device).live ↔ _
    rw [mem_live_foldl_destroy, h.live_iff]
    constructor
    · rintro ⟨⟨t, ht, rfl⟩, hnone⟩
      exact absurd rfl (hnone t ht)
    · rintro ⟨t, ht, -⟩
      cases ht
  old x hx := by
    change x ∈ (r.targets.foldl (fun d t => d.destroy t.texture) r.device).live at hx
    obtain ⟨hlive, hnone⟩ := mem_live_foldl_destroy.mp hx
    obtain ⟨t, ht, he⟩ := (h.live_iff x).mp hlive
    exact absurd he (hnone t ht)
  textures := List.nodup_nil
  places := List.nodup_nil

lemma Sound.setConfig (h : r.Sound) {config : TargetConfig} : (r.setConfig config).2.Sound := by
  simp only [Renderer.setConfig]
  split
  · exact h
  · exact h.destroyAll.congr rfl rfl rfl

end Renderer

end Scanout
