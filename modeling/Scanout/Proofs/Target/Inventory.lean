import Scanout.Proofs.Target.Growth
import Scanout.Proofs.Target.Use

/-!
# The textures of the render targets

Whatever is asked of the render targets, and whenever the memory is used up, each texture of the
device is that of exactly one target. A target that is asked for again is no smaller than it was,
unless it was given up in between. No texture is asked for that is too large for the device, so a
request is refused only when the memory is used up, and then it leaves nothing in its place.
-/

namespace Scanout

/-- The texture is not too large for a device. -/
def TextureShape.Fits (shape : TextureShape) (limits : DeviceLimits) : Prop :=
  shape.width ≤ limits.maxTextureSize ∧ shape.height ≤ limits.maxTextureSize

namespace Device

variable {d d' : Device} {shape : TextureShape} {limits : DeviceLimits} {t : TextureId}
  {e : DeviceError}

lemma isTooLarge_eq_false_iff : d.isTooLarge shape = false ↔ shape.Fits d.limits := by
  simp [isTooLarge, TextureShape.Fits]

/-- Textures are numbered in the order of their creation, and none is too large. -/
structure Stocked (limits : DeviceLimits) (d : Device) : Prop where
  limits_eq : d.limits = limits
  old : ∀ x ∈ d.live, x < d.nextTexture
  live : d.live.Nodup
  fits : ∀ entry ∈ d.textures, entry.2.Fits limits

namespace Stocked

lemma new : (Device.new limits).Stocked limits :=
  ⟨rfl, fun _ h => absurd h List.not_mem_nil, List.nodup_nil, fun _ h => absurd h List.not_mem_nil⟩

lemma destroy (h : d.Stocked limits) : (d.destroy t).Stocked limits := by
  rw [Device.destroy]
  split
  · have hsub : (d.textures.filter (·.1 ≠ t)).Sublist d.textures := List.filter_sublist
    exact ⟨h.limits_eq, fun x hx => h.old x ((hsub.map _).subset hx), h.live.sublist (hsub.map _),
      fun entry hentry => h.fits entry (hsub.subset hentry)⟩
  · exact h

lemma foldl_destroy {ts : List Target} (h : d.Stocked limits) :
    (ts.foldl (fun d t => d.destroy t.texture) d).Stocked limits := by
  induction ts generalizing d with
  | nil => exact h
  | cons t ts ih => exact ih h.destroy

/-- How many more textures the memory holds does not matter to those there are. -/
lemma withBudget (h : d.Stocked limits) (budget : Option Nat) :
    { d with budget }.Stocked limits := ⟨h.limits_eq, h.old, h.live, h.fits⟩

lemma create (h : d.Stocked limits) : (d.create shape).2.Stocked limits := by
  rw [Device.create]
  split
  · exact h
  · have hless := h.withBudget (d.budget.map (· - 1))
    generalize { d with budget := d.budget.map (· - 1) } = d₁ at hless
    dsimp only
    split
    · exact hless
    · rename_i hsmall
      have hlive : (d₁.textures ++ [(d₁.nextTexture, shape)]).map Prod.fst =
          d₁.live ++ [d₁.nextTexture] := List.map_append
      refine ⟨hless.limits_eq, ?_, ?_, ?_⟩
      · intro x hx
        rw [Device.live, hlive, List.mem_append, List.mem_singleton] at hx
        rcases hx with hx | rfl
        · exact Nat.lt_succ_of_lt (hless.old x hx)
        · exact Nat.lt_succ_self _
      · rw [Device.live, hlive, ← List.concat_eq_append]
        exact hless.live.concat fun hmem => Nat.lt_irrefl _ (hless.old _ hmem)
      · intro entry hentry
        rcases List.mem_append.mp hentry with hentry | hentry
        · exact hless.fits entry hentry
        · rw [List.mem_singleton.mp hentry, ← hless.limits_eq]
          exact isTooLarge_eq_false_iff.mp (eq_false_of_ne_true hsmall)

end Stocked

/-- A texture that is not too large is refused only when the memory is used up. -/
lemma of_create_error (hfits : shape.Fits d.limits) (h : d.create shape = (.error e, d')) :
    d.budget = some 0 ∧ e = .outOfMemory shape.width shape.height := by
  rw [Device.create] at h
  split at h
  · rename_i hbudget
    cases h
    exact ⟨hbudget, rfl⟩
  · dsimp only at h
    split at h
    · rename_i hlarge
      have hsmall : d.isTooLarge shape = false := isTooLarge_eq_false_iff.mpr hfits
      exact absurd (hsmall.symm.trans hlarge) Bool.false_ne_true
    · cases h

end Device

namespace Target

variable {key key' : TargetKey} {slot slot' : Slot} {width height : Nat} {r r' : Renderer}
  {e : Stop} {limits : DeviceLimits}

/-- A request was refused because the memory is used up, not for the size of the texture. -/
structure Refused (limits : DeviceLimits) (d : Device) (e : Stop) : Prop where
  exhausted : d.budget = some 0
  fits : ∃ shape : TextureShape, shape.Fits limits ∧
    e = .refused (.outOfMemory shape.width shape.height)

lemma refused_of_create_error (h : create key slot width height r = .error e r') :
    Refused r.device.limits r.device e := by
  simp only [create, Rendering.get_bind] at h
  generalize hshape : (⟨_, _, _, _⟩ : TextureShape) = shape at h
  have hfits : shape.Fits r.device.limits := by
    rw [← hshape]
    exact ⟨Nat.min_le_right _ _, Nat.min_le_right _ _⟩
  generalize hc : r.device.create shape = c at h
  obtain ⟨texture | cause, device⟩ := c
  · obtain ⟨hbudget, rfl⟩ := Device.of_create_error hfits hc
    cases h
    exact ⟨hbudget, shape, hfits, rfl⟩
  · cases h

/-- A request that is refused gives up the target in its place, and no other. -/
lemma of_request_error (h : request key slot width height r = .error e r') :
    Refused r.device.limits r.device e ∧
      r'.targets = r.targets.filter fun t => t.key ≠ key || t.slot ≠ slot := by
  simp only [request, Rendering.get_bind] at h
  cases hf : r.find? key slot with
  | some old =>
    obtain ⟨-, rfl, rfl⟩ := Renderer.mem_of_find? hf
    simp only [hf] at h
    split at h
    · cases h
    · have hcreate := create_of_error h
      have hrefused := refused_of_create_error hcreate
      have hdevice : (r.device.destroy old.texture).limits = r.device.limits ∧
          (r.device.destroy old.texture).budget = r.device.budget := by
        rw [Device.destroy]
        split <;> exact ⟨rfl, rfl⟩
      refine ⟨⟨?_, ?_⟩, (of_create_error hcreate).1⟩
      · exact hdevice.2.symm.trans hrefused.exhausted
      · exact hdevice.1 ▸ hrefused.fits
  | none =>
    simp only [hf] at h
    have hcreate := create_of_error h
    refine ⟨refused_of_create_error hcreate, (of_create_error hcreate).1.trans ?_⟩
    refine (List.filter_eq_self.mpr fun t ht => ?_).symm
    simpa [imp_iff_not_or] using List.find?_eq_none.mp hf t ht

lemma find?_of_request_error (h : request key slot width height r = .error e r') :
    r'.find? key' slot' = if (key', slot') = (key, slot) then none else r.find? key' slot' := by
  rw [Renderer.find?, (of_request_error h).2, List.find?_filter]
  split
  · rename_i hplace
    obtain ⟨rfl, rfl⟩ := Prod.mk.inj hplace
    refine List.find?_eq_none.mpr fun t _ => ?_
    simp [imp_iff_not_or]
  · rename_i hplace
    refine congrArg (List.find? · r.targets) (funext fun t => ?_)
    by_cases hkey : t.key = key' <;> by_cases hslot : t.slot = slot' <;> simp [hkey, hslot]
    simpa [imp_iff_not_or] using hplace

/-- Requests take and give up textures as they go. -/
lemma stocked_request (h : r.device.Stocked limits) :
    (Rendering.final (request key slot width height) r).device.Stocked limits := by
  have hcreate : ∀ {r : Renderer} {width height : Nat}, Rendering.Keeps
      (fun r => r.device.Stocked limits) (create key slot width height) r := by
    intro r width height
    refine .get_bind (.bind (fun h => Device.Stocked.create h) fun _ r' _ => ?_)
    split
    · exact .throw
    · exact .bind (.update id) fun _ _ _ => .pure
  have hkeep : ∀ {r : Renderer} {width height : Nat}, Rendering.Keeps
      (fun r => r.device.Stocked limits)
        (do
          let new ← create key slot width height
          modify fun r => r.insert new
          return new) r := by
    intro r width height
    exact .bind hcreate fun _ _ _ => .bind (.update id) fun _ _ _ => .pure
  have hrequest : Rendering.Keeps (fun r => r.device.Stocked limits)
      (request key slot width height) r := by
    refine .get_bind ?_
    split
    · split
      · exact .pure
      · refine .bind (.update id) fun _ _ _ => ?_
        exact .bind (.update fun h => Device.Stocked.destroy h) fun _ _ _ => hkeep
    · exact hkeep
  exact hrequest h

end Target

/-- A use of the render targets, or a change of what the memory will hold. -/
inductive TargetCall where
  | request (key : TargetKey) (slot : Slot) (width height : Nat)
  | setConfig (config : TargetConfig)
  | destroyAll
  /-- the memory will be used up after so many more textures -/
  | failAfter (count : Nat)

namespace TargetCall

/-- What a call leaves behind, whether it succeeds or not. -/
def perform (r : Renderer) : TargetCall → Renderer
  | request key slot width height => Rendering.final (Target.request key slot width height) r
  | setConfig config => (r.setConfig config).2
  | destroyAll => r.destroyAll
  | failAfter count => { r with device := r.device.failAfter count }

def performAll (r : Renderer) (calls : List TargetCall) : Renderer := calls.foldl perform r

/-- The call gives up what is in the place: all targets are given up, or the texture of this one
could not be replaced. -/
def destroys (r : Renderer) (key : TargetKey) (slot : Slot) : TargetCall → Bool
  | request key' slot' width height =>
    key' = key && slot' = slot && !Rendering.succeeds (Target.request key' slot' width height) r
  | setConfig config => !config.beq r.config
  | destroyAll => true
  | failAfter _ => false

/-- None of the calls gives up what is in the place. -/
def spare (key : TargetKey) (slot : Slot) : Renderer → List TargetCall → Bool
  | _, [] => true
  | r, c :: calls => !c.destroys r key slot && spare key slot (c.perform r) calls

variable {key : TargetKey} {slot : Slot} {r r' : Renderer} {t : Target} {c : TargetCall}
  {calls earlier later : List TargetCall} {limits : DeviceLimits} {config : TargetConfig}

lemma performAll_append :
    performAll r (earlier ++ later) = performAll (performAll r earlier) later :=
  List.foldl_append

lemma perform_of_ok {width height : Nat} (h : Target.request key slot width height r = .ok t r') :
    (request key slot width height).perform r = r' := by
  rw [perform, Rendering.final, h]

/-- Each texture that lives is that of exactly one target, and none is too large. -/
structure Keeps (limits : DeviceLimits) (r : Renderer) : Prop where
  sound : r.Sound
  stocked : r.device.Stocked limits

lemma Keeps.new : Keeps limits (.new (.new limits) config) := ⟨.new, .new⟩

lemma Keeps.perform (h : Keeps limits r) : Keeps limits (c.perform r) := by
  cases c with
  | request key slot width height =>
    refine ⟨?_, Target.stocked_request h.stocked⟩
    rw [TargetCall.perform, Rendering.final]
    cases hx : Target.request key slot width height r with
    | ok t r' => exact h.sound.requested (.of_request hx)
    | error e r' =>
      have hsurvives : r.Survives (fun _ => True) r' := Target.survives_of_request_error hx trivial
      exact hsurvives.sound h.sound
  | setConfig config =>
    refine ⟨h.sound.setConfig, ?_⟩
    rw [TargetCall.perform, Renderer.setConfig]
    split
    · exact h.stocked
    · exact h.stocked.foldl_destroy
  | destroyAll => exact ⟨h.sound.destroyAll, h.stocked.foldl_destroy⟩
  | failAfter count => exact ⟨h.sound.congr rfl rfl rfl, h.stocked.withBudget _⟩

lemma Keeps.performAll (h : Keeps limits r) : Keeps limits (performAll r calls) := by
  induction calls generalizing r with
  | nil => exact h
  | cons c calls ih => exact ih h.perform

/-- What is given up is gone. -/
lemma find?_of_destroys (h : c.destroys r key slot = true) :
    (c.perform r).find? key slot = none := by
  cases c with
  | request key' slot' width height =>
    simp only [destroys, Bool.and_eq_true, decide_eq_true_eq] at h
    obtain ⟨⟨rfl, rfl⟩, hfails⟩ := h
    rw [perform, Rendering.final]
    rw [Rendering.succeeds] at hfails
    cases hx : Target.request key' slot' width height r with
    | ok t r' => simp [hx] at hfails
    | error e r' =>
      exact (Target.find?_of_request_error hx).trans (if_pos rfl)
  | setConfig config =>
    have hother : ¬config.beq r.config = true := by simpa [destroys] using h
    rw [perform, Renderer.setConfig, if_neg hother]
    rfl
  | destroyAll => rfl
  | failAfter count => cases h

/-- What is not given up stays, or is enlarged. -/
lemma find?_of_not_destroys (hr : r.Sound) (ht : r.find? key slot = some t)
    (h : c.destroys r key slot = false) :
    ∃ t', (c.perform r).find? key slot = some t' ∧ t'.covers t.width t.height = true := by
  have hself : t.covers t.width t.height = true := by simp [Target.covers]
  cases c with
  | request key' slot' width height =>
    rw [perform, Rendering.final]
    cases hx : Target.request key' slot' width height r with
    | ok t' r' =>
      have hrequested := Target.Requested.of_request hx
      by_cases hplace : (key, slot) = (key', slot')
      · obtain ⟨rfl, rfl⟩ := Prod.mk.inj hplace
        exact ⟨t', Renderer.find?_self_of_requested hrequested, hrequested.covers_old ht⟩
      · exact ⟨t, (hrequested.find?_of_ne hr hplace).trans ht, hself⟩
    | error e r' =>
      have hother : (key, slot) ≠ (key', slot') := by
        intro hplace
        obtain ⟨rfl, rfl⟩ := Prod.mk.inj hplace
        simp [destroys, Rendering.succeeds, hx] at h
      exact ⟨t, (Target.find?_of_request_error hx).trans ((if_neg hother).trans ht), hself⟩
  | setConfig config =>
    have hsame : config.beq r.config = true := by simpa [destroys] using h
    rw [perform, Renderer.setConfig, if_pos hsame]
    exact ⟨t, ht, hself⟩
  | destroyAll => cases h
  | failAfter count => exact ⟨t, ht, hself⟩

/-- A target stays as large as it was as long as it is not given up. -/
lemma find?_of_spare (hr : Keeps limits r) (ht : r.find? key slot = some t)
    (h : spare key slot r calls = true) :
    ∃ t', (performAll r calls).find? key slot = some t' ∧ t'.covers t.width t.height = true := by
  induction calls generalizing r t with
  | nil => exact ⟨t, ht, Target.covers_iff.mpr ⟨le_rfl, le_rfl⟩⟩
  | cons c calls ih =>
    simp only [spare, Bool.and_eq_true, Bool.not_eq_true'] at h
    obtain ⟨t', ht', hcovers⟩ := find?_of_not_destroys hr.sound ht h.1
    obtain ⟨t'', ht'', hcovers'⟩ := ih hr.perform ht' h.2
    obtain ⟨hw, hh⟩ := Target.covers_iff.mp hcovers
    obtain ⟨hw', hh'⟩ := Target.covers_iff.mp hcovers'
    exact ⟨t'', ht'', Target.covers_iff.mpr ⟨hw.trans hw', hh.trans hh'⟩⟩

/-- The target that a request answers with is as large as the one that an earlier request in the
same place has answered with, if that was not given up since. -/
lemma covers_of_spare {width height width₀ height₀ : Nat} {old : Target} {r₀ : Renderer}
    (hr : Keeps limits r) (hold : Target.request key slot width₀ height₀ r = .ok old r₀)
    (hspare : spare key slot r₀ later = true)
    (ht : Target.request key slot width height (performAll r₀ later) = .ok t r') :
    t.covers old.width old.height = true := by
  have hr₀ : Keeps limits r₀ := perform_of_ok hold ▸ hr.perform
  obtain ⟨t₁, ht₁, hcovers₁⟩ :=
    find?_of_spare hr₀ (Renderer.find?_self_of_requested (.of_request hold)) hspare
  have hcovers := (Target.Requested.of_request ht).covers_old ht₁
  obtain ⟨hw₁, hh₁⟩ := Target.covers_iff.mp hcovers₁
  obtain ⟨hw, hh⟩ := Target.covers_iff.mp hcovers
  exact Target.covers_iff.mpr ⟨hw₁.trans hw, hh₁.trans hh⟩

lemma Keeps.perm (h : Keeps limits r) : r.device.live.Perm (r.targets.map Target.texture) := by
  refine (List.perm_ext_iff_of_nodup h.stocked.live h.sound.textures).mpr fun x => ?_
  rw [h.sound.live_iff, List.mem_map]

/-- After any calls the textures that live are those of the targets, each of one target, and none is
too large. The next request answers with the target in its place, which is large enough and no
smaller than before, unless it was given up in between, so that its place was empty. Or it is
refused since the memory is used up, not for the size of a texture, and its place is empty. -/
theorem textures_are_of_targets (limits : DeviceLimits) (config : TargetConfig)
    (calls : List TargetCall) (key : TargetKey) (slot : Slot) (width height : Nat) :
    let start := Renderer.new (.new limits) config
    let r := performAll start calls
    r.device.live.Perm (r.targets.map Target.texture) ∧ (r.targets.map Target.texture).Nodup ∧
      (∀ entry ∈ r.device.textures, entry.2.Fits limits) ∧
      (∀ c : TargetCall, c.destroys r key slot = true → (c.perform r).find? key slot = none) ∧
      match Target.request key slot width height r with
      | .ok t r' =>
        r'.find? key slot = some t ∧ t.key = key ∧ t.slot = slot ∧ t.covers width height = true ∧
          ∀ earlier width₀ height₀ later old r₀,
            calls = earlier ++ .request key slot width₀ height₀ :: later →
            Target.request key slot width₀ height₀ (performAll start earlier) = .ok old r₀ →
            spare key slot r₀ later = true → t.covers old.width old.height = true
      | .error e r' => Target.Refused limits r.device e ∧ r'.find? key slot = none := by
  intro start r
  have hr : Keeps limits r := Keeps.new.performAll
  refine ⟨hr.perm, hr.sound.textures, hr.stocked.fits, fun c => find?_of_destroys, ?_⟩
  cases hx : Target.request key slot width height r with
  | ok t r' =>
    have hrequested := Target.Requested.of_request hx
    obtain ⟨-, hkey, hslot⟩ := Renderer.mem_of_find? (Renderer.find?_self_of_requested hrequested)
    refine ⟨Renderer.find?_self_of_requested hrequested, hkey, hslot, hrequested.covers, ?_⟩
    rintro earlier width₀ height₀ later old r₀ rfl hold hspare
    have hsplit : r = performAll r₀ later := by
      rw [← perform_of_ok hold]
      exact performAll_append
    exact covers_of_spare Keeps.new.performAll hold hspare (hsplit ▸ hx)
  | error e r' =>
    have hlimits : r.device.limits = limits := hr.stocked.limits_eq
    exact ⟨hlimits ▸ (Target.of_request_error hx).1,
      (Target.find?_of_request_error hx).trans (if_pos rfl)⟩

/-- Two slots of an image grow; one of them is lost when the memory is used up, and comes back. -/
def growing (key : TargetKey) : List TargetCall :=
  [.request key .main 4 6, .request key (.intermediate 0) 4 2, .failAfter 0,
    .request key (.intermediate 0) 4 8, .failAfter 2, .request key (.intermediate 0) 4 1]

/-- The other slot is untouched by that, and answers a smaller request with all of its rows. -/
theorem grown_target_answers_again :
    let key := TargetKey.ofImage 16 4 .bits16 .color
    let start := Renderer.new (.new ⟨8, 8, false⟩) ⟨1, 1, 1⟩
    let r := performAll start (growing key)
    spare key .main (performAll start ((growing key).take 1)) ((growing key).drop 1) = true ∧
      spare key (.intermediate 0) start (growing key) = false ∧
      ∃ t r', Target.request key .main 3 5 r = .ok t r' ∧ t.covers 4 6 = true ∧
        r.device.live.Perm (r.targets.map Target.texture) ∧ r.targets.length = 2 := by
  intro key start r
  have hspare : spare key .main (performAll start ((growing key).take 1))
      ((growing key).drop 1) = true := by decide +kernel
  refine ⟨hspare, by decide +kernel, ?_⟩
  obtain ⟨hperm, -, -, -, hlater⟩ :=
    textures_are_of_targets ⟨8, 8, false⟩ ⟨1, 1, 1⟩ (growing key) key .main 3 5
  have hfirst : Rendering.succeeds (Target.request key .main 4 6) start = true := by
    decide +kernel
  have hlast : Rendering.succeeds (Target.request key .main 3 5) r = true := by decide +kernel
  rw [Rendering.succeeds] at hfirst hlast
  cases hold : Target.request key .main 4 6 start with
  | error e r₀ => simp [hold] at hfirst
  | ok old r₀ =>
    cases ht : Target.request key .main 3 5 r with
    | error e r' => simp [ht] at hlast
    | ok t r' =>
      have hr₀ : performAll start ((growing key).take 1) = r₀ := perform_of_ok hold
      rw [ht] at hlater
      obtain ⟨-, -, -, -, hcovers⟩ := hlater
      have hcovers := hcovers [] 4 6 _ old r₀ rfl hold (hr₀ ▸ hspare)
      obtain ⟨hw, hh⟩ := Target.covers_iff.mp hcovers
      obtain ⟨hw₀, hh₀⟩ := Target.covers_iff.mp (Target.Requested.of_request hold).covers
      exact ⟨t, r', rfl, Target.covers_iff.mpr ⟨hw₀.trans hw, hh₀.trans hh⟩, hperm,
        by decide +kernel⟩

end TargetCall

end Scanout
