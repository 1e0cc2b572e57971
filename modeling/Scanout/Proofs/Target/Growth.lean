import Mathlib.Algebra.Order.Group.Nat
import Scanout.Proofs.Target.Request
import Scanout.Proofs.Target.Submission

/-!
# Targets over time

While commands are recorded, targets are made, and replaced by larger ones. Other targets are left
alone, and no texture gets the number of one that is gone, so a texture that lives is always that of
the same target. Only a computation that fails may leave the place of a target empty.
-/

namespace Scanout

/-- The target stands in the place of one that was too small. -/
structure Target.Succeeds (t' t : Target) : Prop where
  place : t'.place = t.place
  width_le : t.width ≤ t'.width
  height_le : t.height ≤ t'.height
  larger : t.width < t'.width ∨ t.height < t'.height

lemma Target.Succeeds.trans {t t' t'' : Target} (h : t''.Succeeds t') (h' : t'.Succeeds t) :
    t''.Succeeds t := by
  refine ⟨h.place.trans h'.place, h'.width_le.trans h.width_le, h'.height_le.trans h.height_le, ?_⟩
  rcases h'.larger with hw | hh
  · exact .inl (Nat.lt_of_lt_of_le hw h.width_le)
  · exact .inr (Nat.lt_of_lt_of_le hh h.height_le)

namespace Renderer

/-- The targets under other keys are still there, and all others are new. -/
structure Survives (touched : TargetKey → Prop) (r r' : Renderer) : Prop where
  sound : r.Sound → r'.Sound
  next_le : r.device.nextTexture ≤ r'.device.nextTexture
  origin : ∀ t ∈ r'.targets, t ∈ r.targets ∨ r.device.nextTexture ≤ t.texture
  kept : ∀ t ∈ r.targets, ¬touched t.key → t ∈ r'.targets

/-- Moreover a target that is gone has made room for a larger one. -/
structure Enlarges (touched : TargetKey → Prop) (r r' : Renderer) : Prop
    extends Survives touched r r' where
  succeeded : r.Sound → ∀ t ∈ r.targets, ∃ t' ∈ r'.targets, t' = t ∨ t'.Succeeds t

variable {touched : TargetKey → Prop} {r r' r'' : Renderer} {key : TargetKey} {slot : Slot}
  {width height : Nat} {t : Target}

namespace Survives

lemma trans (h : r.Survives touched r') (h' : r'.Survives touched r'') :
    r.Survives touched r'' where
  sound hr := h'.sound (h.sound hr)
  next_le := h.next_le.trans h'.next_le
  origin t ht := by
    rcases h'.origin t ht with ht | hnew
    · exact h.origin t ht
    · exact .inr (h.next_le.trans hnew)
  kept t ht hkey := h'.kept t (h.kept t ht hkey) hkey

lemma mono (h : r.Survives touched r') {touched' : TargetKey → Prop}
    (hsub : ∀ k, touched k → touched' k) : r.Survives touched' r' where
  sound := h.sound
  next_le := h.next_le
  origin := h.origin
  kept t ht hkey := h.kept t ht fun h => hkey (hsub _ h)

lemma of_remove (ht : t ∈ r.targets) (hkey : touched t.key) : r.Survives touched (r.remove t) where
  sound hr := hr.remove ht
  next_le := Device.nextTexture_destroy.ge
  origin s hs := .inl (List.mem_of_mem_filter hs)
  kept s hs hs' := by
    have hne : s.key ≠ t.key := fun he => hs' (he ▸ hkey)
    exact List.mem_filter.mpr ⟨hs, by simp [hne]⟩

/-- A texture that lives is still that of the same target. -/
lemma eq_of_texture (h : r.Survives touched r') (hr : r.Sound) (ht : t ∈ r.targets) {t' : Target}
    (ht' : t' ∈ r'.targets) (he : t'.texture = t.texture) : t' = t := by
  rcases h.origin t' ht' with hold | hnew
  · exact List.inj_on_of_nodup_map hr.textures hold ht he
  · rw [he] at hnew
    exact absurd (hr.texture_lt ht) (Nat.not_lt.mpr hnew)

end Survives

namespace Enlarges

/-- Nothing becomes of the targets. -/
lemma of_eq (htargets : r'.targets = r.targets) (hlive : r'.device.live = r.device.live)
    (hnext : r'.device.nextTexture = r.device.nextTexture) : r.Enlarges touched r' where
  sound h := ⟨by rw [htargets, hlive]; exact h.live_iff, by rw [hlive, hnext]; exact h.old,
    htargets ▸ h.textures, htargets ▸ h.places⟩
  next_le := hnext.ge
  origin t ht := .inl (htargets ▸ ht)
  kept t ht _ := htargets ▸ ht
  succeeded _ t ht := ⟨t, htargets ▸ ht, .inl rfl⟩

lemma refl : r.Enlarges touched r := of_eq rfl rfl rfl

lemma begin : r.Enlarges touched { r with commands := [] } := of_eq rfl rfl rfl

lemma trans (h : r.Enlarges touched r') (h' : r'.Enlarges touched r'') :
    r.Enlarges touched r'' where
  toSurvives := h.toSurvives.trans h'.toSurvives
  succeeded hr t ht := by
    obtain ⟨t', ht', h₁⟩ := h.succeeded hr t ht
    obtain ⟨t'', ht'', h₂⟩ := h'.succeeded (h.sound hr) t' ht'
    refine ⟨t'', ht'', ?_⟩
    rcases h₁ with rfl | h₁
    · exact h₂
    · rcases h₂ with rfl | h₂
      · exact .inr h₁
      · exact .inr (h₂.trans h₁)

lemma of_requested (h : Target.Requested key slot width height r t r') (hkey : touched key) :
    r.Enlarges touched r' := by
  have hsound : r.Sound → r'.Sound := fun hr => hr.requested h
  cases h with
  | kept => exact refl
  | made absent new =>
    refine ⟨⟨hsound, ?_, ?_, ?_⟩, ?_⟩
    · rw [new.next]
      exact Nat.le_succ _
    · intro s hs
      rcases List.mem_append.mp (new.targets ▸ hs) with hs | hs
      · exact .inl hs
      · rw [List.mem_singleton.mp hs, new.texture]
        exact .inr le_rfl
    · intro s hs _
      rw [new.targets]
      exact List.mem_append_left _ hs
    · intro _ s hs
      exact ⟨s, by rw [new.targets]; exact List.mem_append_left _ hs, .inl rfl⟩
  | @grown old _ _ found small new extent =>
    obtain ⟨hold, rfl, rfl⟩ := mem_of_find? found
    have hnext : (r.remove old).device.nextTexture = r.device.nextTexture :=
      Device.nextTexture_destroy
    refine ⟨⟨hsound, ?_, ?_, ?_⟩, ?_⟩
    · rw [new.next, hnext]
      exact Nat.le_succ _
    · intro s hs
      rcases List.mem_append.mp (new.targets ▸ hs) with hs | hs
      · exact .inl (List.mem_of_mem_filter hs)
      · rw [List.mem_singleton.mp hs, new.texture, hnext]
        exact .inr le_rfl
    · intro s hs hs'
      rw [new.targets]
      refine List.mem_append_left _ (List.mem_filter.mpr ⟨hs, ?_⟩)
      have hne : s.key ≠ old.key := fun he => hs' (he ▸ hkey)
      simp [hne]
    · intro hr s hs
      by_cases he : s = old
      · subst he
        refine ⟨t, by rw [new.targets]; simp, .inr ⟨Target.place_of_extent extent, ?_, ?_, ?_⟩⟩
        · exact (Nat.le_max_left _ _).trans (congrArg Extent.width extent).ge
        · exact (Nat.le_max_left _ _).trans (congrArg Extent.height extent).ge
        · have hw : t.width = max s.width width := congrArg Extent.width extent
          have hh : t.height = max s.height height := congrArg Extent.height extent
          simp only [Target.covers, Bool.and_eq_false_iff, decide_eq_false_iff_not] at small
          omega
      · refine ⟨s, ?_, .inl rfl⟩
        rw [new.targets]
        exact List.mem_append_left _ ((hr.mem_remove hold).mpr ⟨hs, he⟩)

/-- A place that is taken stays so. -/
lemma places_subset (h : r.Enlarges touched r') (hr : r.Sound) :
    r.targets.map Target.place ⊆ r'.targets.map Target.place := by
  intro place hplace
  obtain ⟨t, ht, rfl⟩ := List.mem_map.mp hplace
  obtain ⟨t', ht', rfl | hsucceeds⟩ := h.succeeded hr t ht
  · exact List.mem_map_of_mem ht'
  · exact List.mem_map.mpr ⟨t', ht', hsucceeds.place⟩

end Enlarges

lemma nextTexture_foldl_destroy {ts : List Target} {d : Device} :
    (ts.foldl (fun d t => d.destroy t.texture) d).nextTexture = d.nextTexture := by
  induction ts generalizing d with
  | nil => rfl
  | cons t ts ih => rw [List.foldl_cons, ih, Device.nextTexture_destroy]

/-- Other settings leave no target, or all. -/
lemma setConfig_cases (r : Renderer) (config : TargetConfig) : r.setConfig config = (false, r) ∨
    (r.setConfig config).1 = true ∧ (r.setConfig config).2.targets = [] ∧
      r.Survives (fun _ => True) (r.setConfig config).2 := by
  by_cases hsame : config.beq r.config = true
  · exact .inl (if_pos hsame)
  · have hset : r.setConfig config = (true, { r.destroyAll with
        config, notes := r.notes ++ [.targetConfigChanged r.config config] }) := if_neg hsame
    have htargets : (r.setConfig config).2.targets = [] := by
      rw [hset]
      rfl
    refine .inr ⟨by rw [hset], htargets, fun hr => hr.setConfig, ?_, ?_,
      fun _ _ h => absurd trivial h⟩
    · rw [hset]
      exact nextTexture_foldl_destroy.ge
    · rw [htargets]
      intro t ht
      cases ht

end Renderer

namespace Rendering

variable {α β : Type} {r r' : Renderer} {x : Rendering α} {f : α → Rendering β} {e : Stop}
  {touched : TargetKey → Prop}

lemma bind_eq_error :
    (x >>= f) r = .error e r' ↔
      x r = .error e r' ∨ ∃ a r₁, x r = .ok a r₁ ∧ f a r₁ = .error e r' := by
  rw [bind_apply]
  cases x r <;> simp

/-- The computation makes and enlarges targets under the keys that it touches. If it fails, it may
have given some of them up. -/
def Confined (touched : TargetKey → Prop) (x : Rendering α) (r : Renderer) : Prop :=
  match x r with
  | .ok _ r' => r.Enlarges touched r'
  | .error _ r' => r.Survives touched r'

namespace Confined

lemma enlarges (h : Confined touched x r) {a : α} (hx : x r = .ok a r') :
    r.Enlarges touched r' := by
  simp only [Confined, hx] at h
  exact h

lemma bind (hx : Confined touched x r) (hf : ∀ a r', Confined touched (f a) r') :
    Confined touched (x >>= f) r := by
  rw [Confined, bind_apply]
  simp only [Confined] at hx
  cases hxr : x r with
  | ok a r' =>
    simp only [hxr] at hx
    have hf := hf a r'
    simp only [Confined] at hf
    dsimp only
    cases hfr : f a r' with
    | ok b r'' =>
      simp only [hfr] at hf
      exact hx.trans hf
    | error e r'' =>
      simp only [hfr] at hf
      exact hx.toSurvives.trans hf
  | error e r' =>
    simp only [hxr] at hx
    exact hx

/-- A computation that looks at the state first depends on it. -/
lemma get_bind {f : Renderer → Rendering β} (hf : Confined touched (f r) r) :
    Confined touched ((get : Rendering Renderer) >>= f) r := hf

lemma pure {a : α} : Confined touched (Pure.pure a : Rendering α) r := .refl

lemma ofFault {y : Except Fault α} : Confined touched (liftM y : Rendering α) r := by
  cases y with
  | ok a => exact .refl
  | error e => exact Renderer.Enlarges.refl.toSurvives

/-- What does not concern the targets makes and enlarges none. -/
lemma update {g : Renderer → Renderer} (htargets : (g r).targets = r.targets)
    (hdevice : (g r).device = r.device) : Confined touched (modify g : Rendering PUnit) r :=
  Renderer.Enlarges.of_eq htargets (congrArg Device.live hdevice)
    (congrArg Device.nextTexture hdevice)

lemma emit {c : Command} : Confined touched (Rendering.emit c) r := update rfl rfl

lemma note {n : Note} : Confined touched (Rendering.note n) r := update rfl rfl

lemma markWritten {address : Nat} {type : WriteType} :
    Confined touched (Rendering.markWritten address type) r := update rfl rfl

lemma begin : Confined touched Rendering.begin r := update rfl rfl

lemma submit : Confined touched Rendering.submit r := by
  rw [Confined]
  cases hmissing : r.device.missing? r.commands with
  | some t =>
    rw [submit_of_missing hmissing]
    exact Renderer.Enlarges.refl.toSurvives
  | none =>
    rw [submit_of_none_missing hmissing]
    exact .of_eq rfl rfl rfl

lemma forM {f : α → Rendering Unit} {as : List α} (hf : ∀ a r', Confined touched (f a) r') :
    Confined touched (as.forM f) r := by
  induction as generalizing r with
  | nil => exact pure
  | cons a as ih => exact bind (hf a r) fun _ _ => ih

end Confined

end Rendering

namespace Target

variable {key : TargetKey} {slot : Slot} {width height : Nat} {r r' : Renderer} {t : Target}
  {e : Stop} {touched : TargetKey → Prop}

lemma of_create_error (h : create key slot width height r = .error e r') :
    r'.targets = r.targets ∧ r'.device.live = r.device.live ∧
      r'.device.nextTexture = r.device.nextTexture := by
  simp only [create, Rendering.get_bind] at h
  generalize hc : r.device.create _ = c at h
  obtain ⟨texture?, device⟩ := c
  cases texture? with
  | ok texture => cases h
  | error cause =>
    cases h
    unfold Device.create at hc
    split at hc
    · cases hc
      exact ⟨rfl, rfl, rfl⟩
    · dsimp only at hc
      split at hc
      · cases hc
        exact ⟨rfl, rfl, rfl⟩
      · cases hc

/-- The target that a request answers with is kept under its key and slot. -/
lemma Requested.mem (h : Requested key slot width height r t r') :
    t ∈ r'.targets ∧ t.key = key ∧ t.slot = slot := by
  cases h with
  | kept found => exact Renderer.mem_of_find? found
  | made absent new extent | grown found small new extent =>
    exact ⟨by simp [new.targets], congrArg Extent.key extent, congrArg Extent.slot extent⟩

/-- A target that is large enough is kept with all others; otherwise the texture is new, and that of
no other target. -/
lemma Requested.renewed (h : Requested key slot width height r t r') (hr : r.Sound) :
    ((r.find? key slot).any (·.covers width height) = true ∧ r' = r) ∨
    ((r.find? key slot).any (·.covers width height) = false ∧
      t.texture = r.device.nextTexture ∧ r.device.nextTexture < r'.device.nextTexture ∧
      ∀ s, s ∈ r'.targets ↔ s = t ∨ s ∈ r.targets ∧ s.place ≠ (key, slot)) := by
  cases h with
  | kept found large => exact .inl ⟨by simp [found, large], rfl⟩
  | made absent new =>
    refine .inr ⟨by simp [absent], new.texture, by simp [new.next], fun s => ?_⟩
    rw [new.targets, List.mem_append, List.mem_singleton, or_comm]
    exact or_congr_right (iff_self_and.mpr (Renderer.Sound.find?_eq_none absent))
  | @grown old _ _ found small new =>
    obtain ⟨hold, rfl, rfl⟩ := Renderer.mem_of_find? found
    have hnext : (r.remove old).device.nextTexture = r.device.nextTexture :=
      Device.nextTexture_destroy
    have hlt : r.device.nextTexture < r'.device.nextTexture := by
      rw [new.next, hnext]
      exact Nat.lt_succ_self _
    refine .inr ⟨by simp [found, small], new.texture.trans hnext, hlt, fun s => ?_⟩
    rw [new.targets, List.mem_append, List.mem_singleton, hr.mem_remove hold, or_comm]
    refine or_congr_right (and_congr_right fun hs => not_congr ⟨fun he => he ▸ rfl, fun he => ?_⟩)
    exact List.inj_on_of_nodup_map hr.places hs hold he

/-- A request concerns the target in its own place alone. -/
lemma Requested.find?_of_ne (h : Requested key slot width height r t r') (hr : r.Sound)
    {key' : TargetKey} {slot' : Slot} (hne : (key', slot') ≠ (key, slot)) :
    r'.find? key' slot' = r.find? key' slot' := by
  have hr' := hr.requested h
  rcases h.renewed hr with ⟨-, rfl⟩ | ⟨-, -, -, htargets⟩
  · rfl
  · ext s
    rw [hr'.find?_eq_some_iff, hr.find?_eq_some_iff, htargets]
    constructor
    · rintro ⟨rfl | ⟨hs, -⟩, rfl, rfl⟩
      · exact absurd (Prod.ext h.mem.2.1 h.mem.2.2) hne
      · exact ⟨hs, rfl, rfl⟩
    · rintro ⟨hs, rfl, rfl⟩
      exact ⟨.inr ⟨hs, hne⟩, rfl, rfl⟩

/-- A target that is not too small is not replaced. -/
lemma Requested.find?_of_covers (h : Requested key slot width height r t r') (hr : r.Sound)
    {key' : TargetKey} {slot' : Slot} {s : Target} (hs : r.find? key' slot' = some s)
    (hcovers : key' = key → s.covers width height = true) : r'.find? key' slot' = some s := by
  by_cases hplace : (key', slot') = (key, slot)
  · obtain ⟨rfl, rfl⟩ := Prod.mk.inj hplace
    rcases h.renewed hr with ⟨-, rfl⟩ | ⟨hsmall, -⟩
    · exact hs
    · rw [hs, Option.any_some, hcovers rfl] at hsmall
      cases hsmall
  · rw [h.find?_of_ne hr hplace, hs]

/-- Keeping a new target does not fail. -/
lemma create_of_error
    (h : (do
      let new ← create key slot width height
      modify fun r => r.insert new
      return new : Rendering Target) r = .error e r') :
    create key slot width height r = .error e r' := by
  rcases Rendering.bind_eq_error.mp h with h | ⟨new, r₁, -, h⟩
  · exact h
  · cases h

/-- A request that fails has given up at most the target that it was to enlarge. -/
lemma survives_of_request_error (h : request key slot width height r = .error e r')
    (hkey : touched key) : r.Survives touched r' := by
  simp only [request, Rendering.get_bind] at h
  cases hf : r.find? key slot with
  | some old =>
    obtain ⟨hold, rfl, rfl⟩ := Renderer.mem_of_find? hf
    simp only [hf] at h
    split at h
    · cases h
    · obtain ⟨htargets, hlive, hnext⟩ := of_create_error (create_of_error h)
      refine .trans ?_ (Renderer.Enlarges.of_eq htargets hlive hnext).toSurvives
      -- the target is given up after a note of it was left
      refine .trans (Renderer.Enlarges.toSurvives ?_) (.of_remove hold hkey)
      exact .of_eq rfl rfl rfl
  | none =>
    simp only [hf] at h
    obtain ⟨htargets, hlive, hnext⟩ := of_create_error (create_of_error h)
    exact (Renderer.Enlarges.of_eq htargets hlive hnext).toSurvives

lemma confined_request (hkey : touched key) :
    Rendering.Confined touched (request key slot width height) r := by
  rw [Rendering.Confined]
  cases h : request key slot width height r with
  | ok t r' => exact .of_requested (.of_request h) hkey
  | error e r' => exact survives_of_request_error h hkey

end Target

open Rendering

variable {r : Renderer} {slot : Slot}

/-- The key is not that of the scratch image. -/
def TargetKey.IsOfImage (key : TargetKey) : Prop := key.kind ≠ .present

lemma TargetKey.isOfImage_ofImage {address width : Nat} {size : PixelSize} {type : WriteType} :
    (ofImage address width size type).IsOfImage := by
  cases type <;> simp [ofImage, TargetKind.ofWrite, IsOfImage]

namespace Operation

lemma confined_record (op : Operation) : Confined TargetKey.IsOfImage (op.record slot) r := by
  cases op with
  | upload type change =>
    exact .bind (Target.confined_request TargetKey.isOfImage_ofImage) fun _ _ => .emit
  | copyTile copy =>
    refine .get_bind ?_
    split
    · refine .bind .ofFault fun _ _ => .bind .ofFault fun _ _ => ?_
      refine .bind (Target.confined_request ?_) fun _ _ => .emit
      simp [TileCopy.key, TargetKey.IsOfImage]
    · exact .note
  | reinterpret =>
    refine .get_bind ?_
    split
    · split
      · exact .bind (Target.confined_request TargetKey.isOfImage_ofImage) fun _ _ => .emit
      · exact .pure
    · exact .pure
  | synchronize =>
    refine .get_bind ?_
    split
    · exact .emit
    · exact .pure

lemma confined_recordAll {ops : List Operation} :
    Confined TargetKey.IsOfImage (recordAll slot ops) r :=
  .forM fun op _ => op.confined_record

end Operation

namespace Workload

variable {w : Workload} {m : Matcher} {s : SubFrame} {p : Pair} {touched : TargetKey → Prop}

lemma confined_recordCall {place : Nat} {color : Target} {depth : Option Target} {call : Call} :
    Confined touched (w.recordCall m s slot place color depth call) r := by
  refine .bind .ofFault fun _ _ => .bind .ofFault fun _ _ => .bind .ofFault fun _ _ => ?_
  exact .bind .ofFault fun _ _ => .get_bind .emit

lemma confined_depthTarget? {width : Nat} :
    Confined TargetKey.IsOfImage (depthTarget? p width slot) r := by
  unfold depthTarget?
  split
  · split
    · exact .pure
    · exact .bind (Target.confined_request TargetKey.isOfImage_ofImage) fun _ _ => .pure
  · exact .pure

lemma confined_recordDraws {place : Nat} :
    Confined TargetKey.IsOfImage (w.recordDraws m s slot place p) r := by
  unfold recordDraws
  split
  · split
    · exact .pure
    · refine .bind (Target.confined_request TargetKey.isOfImage_ofImage) fun _ _ => ?_
      refine .bind confined_depthTarget? fun depth _ => ?_
      refine .bind (.forM fun _ _ => confined_recordCall) fun _ _ => ?_
      refine .bind .markWritten fun _ _ => ?_
      cases depth with
      | none => exact .pure
      | some target => exact .markWritten
  · exact .pure

/-- Rendering an image concerns targets of images only. -/
lemma confined_renderImage : Confined TargetKey.IsOfImage (w.renderImage m s slot) r := by
  refine .bind .begin fun _ _ => .bind (.forM fun _ _ => ?_) fun _ _ => .submit
  exact .bind Operation.confined_recordAll fun _ _ =>
    .bind confined_recordDraws fun _ _ => Operation.confined_recordAll

end Workload

namespace Rendering

/-- The uploads of a present concern targets of images only. -/
lemma confined_upload {ops : List Operation} : Confined TargetKey.IsOfImage (upload ops) r := by
  refine .bind .begin fun _ _ => .bind Operation.confined_recordAll fun _ _ => ?_
  refine .bind (.forM fun op _ => ?_) fun _ _ => .submit
  cases op with
  | upload => exact .markWritten
  | _ => exact .pure

/-- Filling the scratch image concerns no other target. -/
lemma confined_throughScratch {screen : Screen} {command : TextureId → Command} :
    Confined (· = .scratch) (throughScratch screen command) r :=
  .bind (Target.confined_request rfl) fun _ _ =>
    .bind .begin fun _ _ => .bind .emit fun _ _ => .bind .submit fun _ _ => .pure

end Rendering

end Scanout
