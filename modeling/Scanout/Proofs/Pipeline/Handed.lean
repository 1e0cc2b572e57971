import Scanout.Proofs.Pipeline.Delivery
import Scanout.Proofs.Target.Growth
import Scanout.Proofs.Workload.Outgrown

/-!
# The images handed to the window

The present worker hands an image to the window by its texture: that of the scratch image, or that
of a target taken as it is. The texture is named again when the last image is shown again. By then
the target may have been enlarged, which destroyed the texture; nothing else destroys it.
-/

namespace Scanout

/-- The image that was put together and has not been shown. -/
def PresentPhase.inHand? : PresentPhase → Option Shown
  | .settle _ _ image | .show _ image => image
  | _ => none

namespace Pipeline

/-- The image that the next step of the present worker hands to the window. -/
def handed? (p : Pipeline) : Option Shown :=
  match p.present with
  | .showAgain job => if job.valid then p.shared.lastShown else none
  | .show job image => if job.valid then image else none
  | _ => none

/-- The image that was shown last and may be shown again: the worker goes on, and has no other image
in hand. -/
def repeatable? (p : Pipeline) : Option Shown :=
  if p.present.leaving || p.present.inHand?.isSome then none else p.shared.lastShown

/-- The next step of the present worker takes the texture of a target as it is, because its address
was shown before. -/
def TakesStraight (p : Pipeline) (image : Shown) (t : Target) : Prop :=
  ∃ job slot, p.present = .compose job slot ∧
    p.shared.imageTarget? job.present.screen.address slot = some t ∧
    t.key.kind = .color ∧ p.shared.config.skipBuffering = true ∧
    job.present.screen.address ∈ p.shared.history ∧
    image = ⟨t.texture, job.present.screen.visibleRect⟩

/-- The texture of a target was taken as it was, at some point of a run to this state. -/
def TookStraight (q : Pipeline) (image : Shown) (t : Target) : Prop :=
  ∃ log p log', Ran log p ∧ p.TakesStraight image t ∧ Run p log' q

/-- What a step does to the render targets and to the images of the present worker. -/
inductive Redisplay (p q : Pipeline) : Prop where
  /-- other targets than the scratch image are made and enlarged -/
  | images
      (survives : p.shared.renderer.Survives TargetKey.IsOfImage q.shared.renderer)
      (enlarges : q.shared.running = true →
        p.shared.renderer.Enlarges TargetKey.IsOfImage q.shared.renderer)
      (lastShown : q.shared.lastShown = p.shared.lastShown)
      (inHand : q.present.inHand? = p.present.inHand?)
      (leaving : p.present.leaving = true → q.present.leaving = true)
  | configured {place : Nat} (at_ : p.render = .configure place)
      (survives : p.shared.renderer.Survives (fun _ => True) q.shared.renderer)
      (lastShown : q.shared.lastShown = none)
      (present : q.present = p.present)
  | straight {image : Shown} {t : Target} (takes : p.TakesStraight image t)
      (renderer : q.shared.renderer = p.shared.renderer)
      (inHand : q.present.inHand? = some image)
  | scratch {image : Shown} {t : Target}
      (enlarges : p.shared.renderer.Enlarges (· = .scratch) q.shared.renderer)
      (target : t ∈ q.shared.renderer.targets) (key : t.key = .scratch)
      (texture : t.texture = image.texture)
      (inHand : q.present.inHand? = some image)
  | failed (survives : p.shared.renderer.Survives (· = .scratch) q.shared.renderer)
      (inHand : q.present.inHand? = none) (leaving : q.present.leaving = true)
  | shown {image : Shown} (renderer : q.shared.renderer = p.shared.renderer)
      (inHand : p.present.inHand? = some image) (lastShown : q.shared.lastShown = some image)
      (shown : q.present.inHand? = none)

end Pipeline

namespace Rendering

/-- The image that is shown is the scratch image. -/
lemma of_throughScratch {screen : Screen} {command : TextureId → Command} {image : Shown}
    {r r' : Renderer} (h : throughScratch screen command r = .ok image r') :
    ∃ t ∈ r'.targets, t.key = .scratch ∧ t.texture = image.texture := by
  simp only [throughScratch, bind_eq_ok, pure_eq_ok] at h
  obtain ⟨t, r₁, hrequest, _, r₂, hbegin, _, r₃, hemit, _, r₄, hsubmit, rfl, rfl⟩ := h
  obtain ⟨hmem, hkey, -⟩ := (Target.Requested.of_request hrequest).mem
  obtain rfl := modify_eq_ok.mp hbegin
  obtain rfl := emit_eq_ok.mp hemit
  obtain rfl := of_submit hsubmit
  exact ⟨t, hmem, hkey, rfl⟩

end Rendering

namespace Shared

/-- Work on the targets leaves all else, and enlarges targets unless it fails. -/
lemma of_render {α : Type} {s s' : Shared} {x : Rendering α} {result : Except Stop α}
    {touched : TargetKey → Prop} (h : s.render x = (result, s'))
    (hx : Rendering.Confined touched x s.renderer) :
    ∃ r, s' = { s with renderer := r } ∧
      ((∃ a, result = .ok a ∧ s.renderer.Enlarges touched r ∧ x s.renderer = .ok a r) ∨
        ∃ e, result = .error e ∧ s.renderer.Survives touched r) := by
  simp only [Shared.render] at h
  simp only [Rendering.Confined] at hx
  cases hxr : x s.renderer with
  | ok a r =>
    simp only [hxr] at h hx
    cases h
    exact ⟨r, rfl, .inl ⟨a, rfl, hx, rfl⟩⟩
  | error e r =>
    simp only [hxr] at h hx
    cases h
    exact ⟨r, rfl, .inr ⟨e, rfl, hx⟩⟩

/-- What a screen shows is a target as it is, or the scratch image, or nothing. -/
lemma compose_cases {s s' : Shared} {screen : Screen} {slot : Slot} {storage : ByteArray}
    {result : Except Stop (Option Shown)} (h : s.compose screen slot storage = (result, s')) :
    (∃ t, s.imageTarget? screen.address slot = some t ∧ t.key.kind = .color ∧
      s.config.skipBuffering = true ∧ screen.address ∈ s.history ∧
      result = .ok (some ⟨t.texture, screen.visibleRect⟩) ∧ s' = s.pushHistory screen.address) ∨
    (∃ command shown, (s.pushHistory screen.address).render
      (Rendering.throughScratch screen command) = (shown, s') ∧ result = shown.map some) ∨
    (result = .ok none ∧ s' = s.pushHistory screen.address) := by
  have hsame : (s.pushHistory screen.address).imageTarget? screen.address slot =
      s.imageTarget? screen.address slot := rfl
  simp only [compose, hsame] at h
  cases himage : s.imageTarget? screen.address slot with
  | some t =>
    simp only [himage] at h
    split at h
    · rename_i hstraight
      cases h
      exact .inl ⟨t, rfl, hstraight.1, hstraight.2.1, hstraight.2.2, rfl, rfl⟩
    · cases h
      exact .inr (.inl ⟨_, _, rfl, rfl⟩)
  | none =>
    simp only [himage] at h
    split at h
    · cases h
      exact .inr (.inr ⟨rfl, rfl⟩)
    · cases h
      exact .inr (.inl ⟨_, _, rfl, rfl⟩)

end Shared

namespace Pipeline

variable {p q : Pipeline} {log : History}

/-- What was shown is remembered as before. -/
structure SameShown (p q : Pipeline) : Prop where
  lastShown : q.shared.lastShown = p.shared.lastShown
  history : q.shared.history = p.shared.history

/-- Nothing that has to do with the images of the present worker is another. -/
structure SameDisplay (p q : Pipeline) : Prop extends SameShown p q where
  renderer : q.shared.renderer = p.shared.renderer
  present : q.present = p.present

/-- What the workers do is not another either. -/
structure SameWork (p q : Pipeline) : Prop extends SameDisplay p q where
  matcher : q.matcher = p.matcher

namespace Redisplay

/-- Nothing is displayed in another way. -/
lemma of_eq (hrenderer : q.shared.renderer = p.shared.renderer)
    (hlast : q.shared.lastShown = p.shared.lastShown)
    (hinHand : q.present.inHand? = p.present.inHand?)
    (hleaving : p.present.leaving = true → q.present.leaving = true) : p.Redisplay q :=
  .images (hrenderer ▸ Renderer.Enlarges.refl.toSurvives) (fun _ => hrenderer ▸ .refl) hlast hinHand
    hleaving

lemma of_same (h : p.SameDisplay q) : p.Redisplay q :=
  of_eq h.renderer h.lastShown (by rw [h.present]) (by rw [h.present]; exact id)

end Redisplay

lemma history_takeConfig : p.takeConfig.shared.history = p.shared.history := by
  unfold takeConfig
  split
  · rfl
  · dsimp only
    split
    · rfl
    · simp only [modifyShared, Shared.noteWhen]
      split <;> rfl

lemma takeConfig_cases :
    (p.takeConfig.shared.renderer = p.shared.renderer ∧
      p.takeConfig.shared.lastShown = p.shared.lastShown) ∨
    (p.shared.renderer.Survives (fun _ => True) p.takeConfig.shared.renderer ∧
      p.takeConfig.shared.lastShown = none) := by
  unfold takeConfig
  split
  · exact .inl ⟨rfl, rfl⟩
  · dsimp only
    split
    · exact .inl ⟨rfl, rfl⟩
    · rcases p.shared.renderer.setConfig_cases p.shared.targetConfig with
        hsame | ⟨hreplaced, -, hsurvives⟩
      · rw [hsame]
        exact .inl ⟨rfl, rfl⟩
      · exact .inr ⟨hsurvives, if_pos hreplaced⟩

lemma sameShown_planImages {place : Nat} : p.SameShown (p.planImages place) := by
  obtain ⟨notes, h | ⟨plan, matcher, production, h⟩⟩ := p.planImages_eq place
  all_goals
    rw [h]
    exact ⟨rfl, rfl⟩

lemma sameShown_concludeWorkload {job : RenderJob} : p.SameShown (p.concludeWorkload job) := by
  obtain ⟨notes, stats, h⟩ := p.concludeWorkload_eq job
  rw [h]
  exact ⟨rfl, rfl⟩

lemma sameShown_abandonImages : p.SameShown p.abandonImages := by
  unfold abandonImages
  dsimp only [modifyShared, Shared.noteWhen]
  split <;> exact ⟨rfl, rfl⟩

lemma sameShown_drawImage {job : RenderJob} : p.SameShown (p.drawImage job) := by
  obtain ⟨renderer, ⟨phase, h⟩ | ⟨stop, h⟩⟩ := p.drawImage_eq job
  · rw [h]
    exact ⟨rfl, rfl⟩
  · rw [h]
    cases stop <;> exact ⟨rfl, rfl⟩

/-- Drawing an image concerns targets of images only. -/
lemma redisplay_drawImage {job : RenderJob} : p.Redisplay (p.drawImage job) := by
  unfold drawImage
  dsimp only
  split
  · exact .of_eq rfl rfl rfl id
  · split
    · rename_i shared hrender
      obtain ⟨r, rfl, ⟨_, -, henlarges, -⟩ | ⟨e, he, -⟩⟩ :=
        Shared.of_render hrender Workload.confined_renderImage
      · exact .images henlarges.toSurvives (fun _ => henlarges) rfl rfl id
      · cases he
    · rename_i e shared hrender
      obtain ⟨r, rfl, ⟨_, he, -⟩ | ⟨_, -, hsurvives⟩⟩ :=
        Shared.of_render hrender Workload.confined_renderImage
      · cases he
      · cases e with
        | refused cause => exact .images hsurvives (fun hrunning => by cases hrunning) rfl rfl id
        | fault f => exact .images hsurvives (fun hrunning => by cases hrunning) rfl rfl id

/-- The render worker changes what is remembered as shown only where it takes over settings. -/
lemma sameShown_of_renderStep (h : p.renderStep = some q)
    (hconfigure : ∀ place, p.render ≠ .configure place) : p.SameShown q := by
  simp only [renderStep] at h
  cases hphase : p.render with
  | configure place => exact absurd hphase (hconfigure place)
  | claim | await | finish =>
    simp only [hphase] at h
    split at h <;> cases h
    all_goals exact ⟨rfl, rfl⟩
  | abandon place =>
    simp only [hphase] at h
    cases h
    exact ⟨sameShown_abandonImages.lastShown, sameShown_abandonImages.history⟩
  | plan place =>
    simp only [hphase] at h
    cases h
    exact sameShown_planImages
  | draw job =>
    simp only [hphase] at h
    cases h
    exact sameShown_drawImage
  | conclude job =>
    simp only [hphase] at h
    cases h
    exact sameShown_concludeWorkload
  | stopped | lost => simp [hphase] at h
  | _ =>
    simp only [hphase] at h
    cases h
    exact ⟨rfl, rfl⟩

lemma redisplay_of_renderStep (h : p.renderStep = some q) : p.Redisplay q := by
  have hpresent : q.present = p.present := (renderMove_of_renderStep h).frame.present
  by_cases hconfigure : ∃ place, p.render = .configure place
  · obtain ⟨place, at_⟩ := hconfigure
    simp only [renderStep, at_, Option.some.injEq] at h
    subst h
    rcases takeConfig_cases (p := p) with ⟨hrenderer, hlast⟩ | ⟨hsurvives, hlast⟩
    · exact .of_same ⟨⟨hlast, history_takeConfig⟩, hrenderer, hpresent⟩
    · exact .configured at_ hsurvives hlast hpresent
  by_cases hdraw : ∃ job, p.render = .draw job
  · obtain ⟨job, at_⟩ := hdraw
    simp only [renderStep, at_, Option.some.injEq] at h
    exact h ▸ redisplay_drawImage
  · refine .of_same ⟨sameShown_of_renderStep h (not_exists.mp hconfigure), ?_, hpresent⟩
    by_contra hne
    exact (renderer_of_renderStep h hne).elim hconfigure hdraw

lemma redisplay_composeImage {job : PresentJob} {slot : Slot}
    (at_ : p.present = .compose job slot) : p.Redisplay (p.composeImage job slot) := by
  have hnone : p.present.inHand? = none := by rw [at_]; rfl
  have hstays : p.present.leaving = false := by rw [at_]; rfl
  rcases hcompose : p.shared.compose job.present.screen slot job.present.storage with ⟨result, s⟩
  simp only [composeImage, hcompose]
  rcases Shared.compose_cases hcompose with ⟨t, himage, hcolor, hskip, hseen, rfl, rfl⟩ |
    ⟨command, shown, hrender, rfl⟩ | ⟨rfl, rfl⟩
  · exact .straight ⟨job, slot, at_, himage, hcolor, hskip, hseen, rfl⟩ rfl rfl
  · obtain ⟨r, rfl, ⟨image, rfl, henlarges, hscratch⟩ | ⟨e, rfl, hsurvives⟩⟩ :=
      Shared.of_render hrender Rendering.confined_throughScratch
    · obtain ⟨t, ht, hkey, htexture⟩ := Rendering.of_throughScratch hscratch
      exact .scratch henlarges ht hkey htexture rfl
    · cases e with
      | refused cause => exact .failed hsurvives rfl rfl
      | fault f => exact .failed hsurvives rfl rfl
  · exact .of_eq rfl rfl hnone.symm (by simp [hstays])

lemma redisplay_uploadChanges {job : PresentJob} (at_ : p.present = .upload job) :
    p.Redisplay (p.uploadChanges job) := by
  have hnone : p.present.inHand? = none := by rw [at_]; rfl
  have hstays : p.present.leaving = false := by rw [at_]; rfl
  unfold uploadChanges
  dsimp only
  split
  · exact .of_eq rfl rfl hnone.symm (by simp [hstays])
  · split
    · rename_i shared hrender
      obtain ⟨r, rfl, ⟨_, -, henlarges, -⟩ | ⟨e, he, -⟩⟩ :=
        Shared.of_render hrender Rendering.confined_upload
      · exact .images henlarges.toSurvives (fun _ => henlarges) rfl hnone.symm (by simp [hstays])
      · cases he
    · rename_i e shared hrender
      obtain ⟨r, rfl, ⟨_, he, -⟩ | ⟨_, -, hsurvives⟩⟩ :=
        Shared.of_render hrender Rendering.confined_upload
      · cases he
      · cases e with
        | refused cause =>
          exact .images hsurvives (fun hrunning => by cases hrunning) rfl hnone.symm fun _ => rfl
        | fault f =>
          exact .images hsurvives (fun hrunning => by cases hrunning) rfl hnone.symm fun _ => rfl

/-- Showing an image keeps it as the last, whether the window takes it or not. -/
lemma shared_showImage (image : Shown) (valid : Bool) :
    (p.showImage image valid).2.shared.renderer = p.shared.renderer ∧
      (p.showImage image valid).2.shared.history = p.shared.history ∧
      (p.showImage image valid).2.shared.lastShown = some image := by
  unfold showImage
  dsimp only
  split
  · exact ⟨rfl, rfl, rfl⟩
  · split <;> exact ⟨rfl, rfl, rfl⟩

lemma redisplay_showLast {job : PresentJob} (at_ : p.present = .showAgain job) :
    p.Redisplay (p.showLast job) := by
  have hnone : p.present.inHand? = none := by rw [at_]; rfl
  have hstays : p.present.leaving = false := by rw [at_]; rfl
  unfold showLast
  cases hlast : p.shared.lastShown with
  | none => exact .of_eq rfl rfl hnone.symm (by simp [hstays])
  | some image =>
    obtain ⟨hrenderer, -, hshown⟩ := p.shared_showImage image job.valid
    exact .of_eq hrenderer (hshown.trans hlast.symm) hnone.symm (by simp [hstays])

lemma redisplay_showNext {job : PresentJob} {image : Option Shown}
    (at_ : p.present = .show job image) : p.Redisplay (p.showNext job image) := by
  have hstays : p.present.leaving = false := by rw [at_]; rfl
  cases image with
  | none => exact .of_eq rfl rfl (by rw [at_]; rfl) (by simp [hstays])
  | some image =>
    obtain ⟨hrenderer, -, hshown⟩ := p.shared_showImage image job.valid
    exact .shown hrenderer (by rw [at_]; rfl) hshown rfl

lemma redisplay_of_presentStep (h : p.presentStep = some q) : p.Redisplay q := by
  simp only [presentStep] at h
  cases hphase : p.present with
  | claim | await | finish =>
    simp only [hphase] at h
    split at h <;> cases h
    all_goals exact .of_eq rfl rfl (by rw [hphase]; rfl) (by simp [hphase, PresentPhase.leaving])
  | enter place present =>
    simp only [hphase] at h
    cases h
    refine .of_eq rfl rfl ?_ (by simp [hphase, PresentPhase.leaving])
    rw [hphase]
    simp only [enterPresent]
    split <;> rfl
  | showAgain job =>
    simp only [hphase] at h
    cases h
    exact redisplay_showLast hphase
  | upload job =>
    simp only [hphase] at h
    cases h
    exact redisplay_uploadChanges hphase
  | inspect job =>
    simp only [hphase] at h
    cases h
    unfold inspectScreen
    split <;>
      exact .of_eq rfl rfl (by rw [hphase]; rfl) (by simp [hphase, PresentPhase.leaving])
  | select job =>
    simp only [hphase, selectImage] at h
    split at h
    · cases h
      exact .of_eq rfl rfl (by rw [hphase]; rfl) (by simp [hphase, PresentPhase.leaving])
    · obtain ⟨slot?, -, rfl⟩ := Option.map_eq_some_iff.mp h
      cases slot? <;>
        exact .of_eq rfl rfl (by rw [hphase]; rfl) (by simp [hphase, PresentPhase.leaving])
  | compose job slot =>
    simp only [hphase] at h
    cases h
    exact redisplay_composeImage hphase
  | settle job slot image =>
    simp only [hphase] at h
    cases h
    cases slot <;>
      exact .of_eq rfl rfl (by rw [hphase]; rfl) (by simp [hphase, PresentPhase.leaving])
  | «show» job image =>
    simp only [hphase] at h
    cases h
    exact redisplay_showNext hphase
  | conclude | release =>
    simp only [hphase] at h
    cases h
    exact .of_eq rfl rfl (by rw [hphase]; rfl) (by simp [hphase, PresentPhase.leaving])
  | leave =>
    simp only [hphase] at h
    cases h
    exact .of_eq rfl rfl (by rw [hphase]; rfl) fun _ => rfl
  | stopped | lost => simp [hphase] at h

lemma sameWork_tryPublish {item : Pending} : p.SameWork (p.tryPublish item).2 := by
  cases item with
  | workload id =>
    rcases hadvance : p.workloads.advance with ⟨attempt, ring⟩
    unfold tryPublish
    cases attempt <;> rw [hadvance] <;> exact ⟨⟨⟨rfl, rfl⟩, rfl, rfl⟩, rfl⟩
  | present id =>
    rcases hadvance : p.presents.advance with ⟨attempt, ring⟩
    unfold tryPublish
    cases attempt <;> rw [hadvance] <;> exact ⟨⟨⟨rfl, rfl⟩, rfl, rfl⟩, rfl⟩

lemma SameWork.tryPublish {item : Pending} (h : p.SameWork q) :
    p.SameWork (q.tryPublish item).2 where
  lastShown := sameWork_tryPublish.lastShown.trans h.lastShown
  history := sameWork_tryPublish.history.trans h.history
  renderer := sameWork_tryPublish.renderer.trans h.renderer
  present := sameWork_tryPublish.present.trans h.present
  matcher := sameWork_tryPublish.matcher.trans h.matcher

lemma sameWork_resetFramebuffers : p.SameWork p.resetFramebuffers := by
  simp only [resetFramebuffers]
  split
  · rename_i table p' htable
    obtain ⟨-, rfl⟩ := Prod.mk.inj htable
    exact ⟨⟨⟨rfl, rfl⟩, rfl, rfl⟩, rfl⟩
  · rename_i f p' htable
    obtain ⟨-, rfl⟩ := Prod.mk.inj htable
    exact ⟨⟨⟨rfl, rfl⟩, rfl, rfl⟩, rfl⟩

/-- The producer draws, shows and plans nothing. -/
lemma sameWork_perform (c : ProducerCall) : p.SameWork (p.perform c) := by
  cases c with
  | submitWorkload ram gameRate =>
    simp only [perform, submitWorkload]
    split
    · exact ⟨⟨⟨rfl, rfl⟩, rfl, rfl⟩, rfl⟩
    · split
      · rename_i f p' hsync
        obtain ⟨-, rfl⟩ := Prod.mk.inj hsync
        exact ⟨⟨⟨rfl, rfl⟩, rfl, rfl⟩, rfl⟩
      · rename_i stats w table p' hsync
        obtain ⟨-, rfl⟩ := Prod.mk.inj hsync
        exact SameWork.tryPublish ⟨⟨⟨rfl, rfl⟩, rfl, rfl⟩, rfl⟩
  | submitPresent screen ram =>
    simp only [perform, submitPresent]
    split
    · exact ⟨⟨⟨rfl, rfl⟩, rfl, rfl⟩, rfl⟩
    · split
      · rename_i f p' hscreen
        obtain ⟨-, rfl⟩ := Prod.mk.inj hscreen
        exact ⟨⟨⟨rfl, rfl⟩, rfl, rfl⟩, rfl⟩
      · rename_i operations storage table p' hscreen
        obtain ⟨-, rfl⟩ := Prod.mk.inj hscreen
        exact SameWork.tryPublish ⟨⟨⟨rfl, rfl⟩, rfl, rfl⟩, rfl⟩
  | repeatLastPresent =>
    simp only [perform, repeatLastPresent]
    split
    · exact ⟨⟨⟨rfl, rfl⟩, rfl, rfl⟩, rfl⟩
    · exact SameWork.tryPublish ⟨⟨⟨rfl, rfl⟩, rfl, rfl⟩, rfl⟩
  | reconfigure config window =>
    simp only [perform, reconfigure]
    split
    · exact ⟨⟨⟨rfl, rfl⟩, rfl, rfl⟩, rfl⟩
    · have hreset := sameWork_resetFramebuffers
        (p := (p.modifyShared (·.update config window)).note .framebuffersInvalidated)
      exact ⟨⟨⟨hreset.lastShown, hreset.history⟩, hreset.renderer, hreset.present⟩, hreset.matcher⟩
  | resetFramebuffers => exact sameWork_resetFramebuffers
  | _ => exact ⟨⟨⟨rfl, rfl⟩, rfl, rfl⟩, rfl⟩

lemma sameWork_producerStep {reply : Reply} (h : p.producerStep = some (reply, q)) :
    p.SameWork q := by
  simp only [producerStep] at h
  cases hpending : p.producer.pending with
  | none => simp [hpending] at h
  | some item =>
    simp only [hpending, Option.bind_eq_bind, Option.bind_some] at h
    split at h
    · cases h
    · have hpublish : p.SameWork (p.tryPublish item).2 := sameWork_tryPublish
      simp only [Option.some.injEq] at h
      rwa [h] at hpublish

/-- Every action displays in one of the ways above. -/
lemma redisplay_of_act {a : Action} (h : p.act a = some q) : p.Redisplay q := by
  cases a with
  | render => exact redisplay_of_renderStep h
  | present => exact redisplay_of_presentStep h
  | resume =>
    simp only [act, Option.map_eq_some_iff] at h
    obtain ⟨⟨reply, q'⟩, hstep, rfl⟩ := h
    exact .of_same (sameWork_producerStep hstep).toSameDisplay
  | call c =>
    simp only [act] at h
    split at h
    · cases h
      exact .of_same (sameWork_perform c).toSameDisplay
    · cases h
  | host change =>
    cases h
    cases change with
    | memory count =>
      have henlarges : p.shared.renderer.Enlarges TargetKey.IsOfImage
          (p.undergo (.memory count)).shared.renderer := .of_eq rfl rfl rfl
      exact .images henlarges.toSurvives (fun _ => henlarges) rfl rfl id
    | window swapChain => exact .of_same ⟨⟨rfl, rfl⟩, rfl, rfl⟩
    | shutdown => exact .of_same ⟨⟨rfl, rfl⟩, rfl, rfl⟩

/-- No target comes back under its texture. -/
lemma Redisplay.survives (h : p.Redisplay q) :
    p.shared.renderer.Survives (fun _ => True) q.shared.renderer := by
  cases h with
  | images survives => exact survives.mono fun _ _ => trivial
  | configured _ survives => exact survives
  | straight _ renderer | shown renderer =>
    rw [renderer]
    exact Renderer.Enlarges.refl.toSurvives
  | scratch enlarges => exact enlarges.toSurvives.mono fun _ _ => trivial
  | failed survives => exact survives.mono fun _ _ => trivial

lemma Run.survives (h : Run p log q) :
    p.shared.renderer.Survives (fun _ => True) q.shared.renderer := by
  induction h with
  | nil => exact Renderer.Enlarges.refl.toSurvives
  | step _ a hact ih => exact ih.trans (redisplay_of_act hact).survives

lemma sound_of_start {host : Host} {config : Config} (h : start host config = .ok p) :
    p.shared.renderer.Sound := by
  obtain ⟨-, swapChain, rfl⟩ := of_start h
  exact .new

lemma Ran.sound (h : Ran log p) : p.shared.renderer.Sound := by
  obtain ⟨host, config, start, hstart, hrun⟩ := h
  exact hrun.survives.sound (sound_of_start hstart)

lemma Run.trans {r : Pipeline} {log' : History} (h : Run p log q) (h' : Run q log' r) :
    Run p (log ++ log') r := by
  induction h' with
  | nil => simpa using h
  | step _ a hact ih =>
    rw [← List.append_assoc]
    exact ih.step a hact

lemma Ran.trans {log' : History} (h : Ran log p) (h' : Run p log' q) : Ran (log ++ log') q := by
  obtain ⟨host, config, start, hstart, hrun⟩ := h
  exact ⟨host, config, start, hstart, hrun.trans h'⟩

variable {image : Shown} {t : Target}

/-- What is taken as it is is the texture of a target. -/
lemma TakesStraight.mem (h : p.TakesStraight image t) :
    t ∈ p.shared.renderer.targets ∧ t.texture = image.texture := by
  obtain ⟨job, slot, -, himage, -, -, -, rfl⟩ := h
  refine ⟨?_, rfl⟩
  rcases Option.or_eq_some_iff.mp himage with himage | ⟨-, himage⟩
  · exact (Renderer.mem_of_findByAddress? himage).1
  · exact (Renderer.mem_of_findByAddress? himage).1

/-- A texture that was taken from a target and still lives is that of the same target. -/
lemma TookStraight.mem_of_live (h : q.TookStraight image t)
    (hlive : image.texture ∈ q.shared.renderer.device.live) : t ∈ q.shared.renderer.targets := by
  obtain ⟨log, p, log', hran, htakes, hrun⟩ := h
  obtain ⟨hmem, htexture⟩ := htakes.mem
  obtain ⟨t', ht', hsame⟩ := ((hran.trans hrun).sound.live_iff _).mp hlive
  rwa [← hrun.survives.eq_of_texture hran.sound hmem ht' (hsame.trans htexture.symm)]

lemma TookStraight.texture_eq (h : q.TookStraight image t) : t.texture = image.texture := by
  obtain ⟨_, _, _, -, htakes, -⟩ := h
  exact htakes.mem.2

lemma TookStraight.step (h : p.TookStraight image t) {a : Action} (hact : p.act a = some q) :
    q.TookStraight image t := by
  obtain ⟨log, p₀, log', hran, htakes, hrun⟩ := h
  exact ⟨log, p₀, _, hran, htakes, hrun.step a hact⟩

/-- The image is the scratch image, or it was taken from a target that may have grown since. -/
def Sourced (p : Pipeline) (image : Shown) : Prop :=
  (∃ t ∈ p.shared.renderer.targets, t.key = .scratch ∧ t.texture = image.texture) ∨
  ∃ t, p.TookStraight image t ∧
    (p.shared.running = true → ∃ t' ∈ p.shared.renderer.targets, t' = t ∨ t'.Succeeds t)

/-- The image that was shown last, and the one that is in hand, come from targets. The former does
not count any more when another image is in hand or the worker leaves. -/
structure Displays (p : Pipeline) : Prop where
  lastShown : ∀ image, p.shared.lastShown = some image → p.present.inHand? = none →
    p.present.leaving = false → p.Sourced image
  inHand : ∀ image, p.present.inHand? = some image → p.Sourced image

/-- Where an image comes from stays known while other targets than the scratch image are drawn. -/
lemma Sourced.images (h : p.Sourced image) {a : Action}
    (hact : p.act a = some q) (hrunning : q.shared.running = true → p.shared.running = true)
    (hsound : p.shared.renderer.Sound)
    (survives : p.shared.renderer.Survives TargetKey.IsOfImage q.shared.renderer)
    (enlarges : q.shared.running = true →
      p.shared.renderer.Enlarges TargetKey.IsOfImage q.shared.renderer) : q.Sourced image := by
  rcases h with ⟨t, ht, hkey, htexture⟩ | ⟨t, htook, hgrown⟩
  · refine .inl ⟨t, survives.kept t ht ?_, hkey, htexture⟩
    rw [hkey]
    simp [TargetKey.IsOfImage, TargetKey.scratch]
  · refine .inr ⟨t, htook.step hact, fun hq => ?_⟩
    obtain ⟨t', ht', hsame⟩ := hgrown (hrunning hq)
    obtain ⟨t'', ht'', hsame'⟩ := (enlarges hq).succeeded hsound t' ht'
    refine ⟨t'', ht'', ?_⟩
    rcases hsame' with rfl | hsame'
    · exact hsame
    · rcases hsame with rfl | hsame
      · exact .inr hsame'
      · exact .inr (hsame'.trans hsame)

/-- No image is in hand while settings are taken over. -/
lemma Ran.inHand?_eq_none (h : Ran log p) {place : Nat} (at_ : p.render = .configure place) :
    p.present.inHand? = none := by
  obtain ⟨n, m, -, -, h⟩ := h.reached
  have hnone : log.admitted? = none := h.admitted?_eq_none (.inr (.inl at_))
  have hlet : ∀ job : PresentJob, p.present.present? = some job.present →
      (∀ place, p.present ≠ .await place job.present) → False := by
    intro job hpresent hpast
    cases hnone.symm.trans (h.admitted_of_present? hpresent hpast)
  cases hphase : p.present with
  | settle job slot image => exact (hlet job (by rw [hphase]; rfl) (by simp [hphase])).elim
  | «show» job image => exact (hlet job (by rw [hphase]; rfl) (by simp [hphase])).elim
  | _ => rfl

lemma Ran.running (h : Ran log p) {a : Action} (hact : p.act a = some q)
    (hq : q.shared.running = true) : p.shared.running = true := by
  obtain ⟨n, m, -, -, h⟩ := h.reached
  obtain ⟨_, hworkloads, -⟩ := h.ordered.workloads.counts
  obtain ⟨_, hpresents, -⟩ := h.ordered.presents.counts
  exact (move_of_act hact hworkloads hpresents).running hq

lemma Displays.step (hran : Ran log p) (h : p.Displays) {a : Action} (hact : p.act a = some q) :
    q.Displays := by
  have hrunning := hran.running hact
  have hsound := hran.sound
  cases redisplay_of_act hact with
  | images survives enlarges lastShown inHand leaving =>
    have hsourced : ∀ {image : Shown}, p.Sourced image → q.Sourced image := fun hsourced =>
      hsourced.images hact hrunning hsound survives enlarges
    constructor
    · rw [lastShown, inHand]
      intro image hlast hnone hstays
      refine hsourced (h.lastShown image hlast hnone ?_)
      by_contra hleaving
      cases hstays.symm.trans (leaving (by simpa using hleaving))
    · rw [inHand]
      intro image hhand
      exact hsourced (h.inHand image hhand)
  | configured at_ _ lastShown present =>
    have hnone : q.present.inHand? = none := by
      rw [present]
      exact hran.inHand?_eq_none at_
    constructor
    · simp [lastShown]
    · simp [hnone]
  | @straight image t takes renderer inHand =>
    constructor
    · simp [inHand]
    · rw [inHand]
      rintro _ ⟨⟩
      refine .inr ⟨t, ⟨log, p, _, hran, takes, .step .nil a hact⟩, fun _ => ⟨t, ?_, .inl rfl⟩⟩
      rw [renderer]
      exact takes.mem.1
  | @scratch image t _ target key texture inHand =>
    constructor
    · simp [inHand]
    · rw [inHand]
      rintro _ ⟨⟩
      exact .inl ⟨t, target, key, texture⟩
  | failed _ inHand leaving =>
    constructor
    · simp [leaving]
    · simp [inHand]
  | @shown image renderer inHand lastShown shown =>
    constructor
    · rw [lastShown]
      rintro _ ⟨⟩ _ _
      exact (h.inHand image inHand).images hact hrunning hsound
        (renderer ▸ Renderer.Enlarges.refl.toSurvives) fun _ => renderer ▸ .refl
    · simp [shown]

lemma displays_of_start {host : Host} {config : Config} (h : start host config = .ok p) :
    p.Displays := by
  obtain ⟨-, swapChain, rfl⟩ := of_start h
  constructor <;> simp [initial, Shared.new, Shared.note, PresentPhase.inHand?]

lemma Ran.displays (h : Ran log p) : p.Displays := by
  obtain ⟨host, config, start, hstart, hrun⟩ := h
  induction hrun with
  | nil => exact displays_of_start hstart
  | step before a hact ih => exact ih.step ⟨host, config, start, hstart, before⟩ hact

lemma swapChain_showImage {valid : Bool} :
    (p.showImage image valid).2.swapChain =
      if valid then (p.swapChain.present image).toOption.getD p.swapChain else p.swapChain := by
  unfold showImage
  cases valid with
  | false => rfl
  | true =>
    dsimp only [modifyShared]
    cases p.swapChain.present image <;> rfl

/-- The image that is handed over is what the window is given to show, and nothing else. -/
lemma swapChain_of_presentStep (h : p.presentStep = some q) :
    q.swapChain = match p.handed? with
      | some image => (p.swapChain.present image).toOption.getD p.swapChain
      | none => p.swapChain := by
  simp only [presentStep] at h
  cases hphase : p.present with
  | claim | await | finish =>
    simp only [hphase] at h
    simp only [handed?, hphase]
    split at h <;> cases h
    all_goals rfl
  | showAgain job =>
    simp only [hphase] at h
    cases h
    simp only [handed?, hphase, showLast]
    cases hlast : p.shared.lastShown with
    | none => cases job.valid <;> rfl
    | some image =>
      dsimp only
      rw [swapChain_showImage]
      cases job.valid <;> rfl
  | «show» job image =>
    simp only [hphase] at h
    cases h
    simp only [handed?, hphase, showNext]
    cases image with
    | none => cases job.valid <;> rfl
    | some image =>
      dsimp only
      rw [swapChain_showImage]
      cases job.valid <;> rfl
  | upload job =>
    simp only [hphase] at h
    cases h
    simp only [handed?, hphase, uploadChanges]
    split
    · rfl
    · split
      · rfl
      · rename_i e _ _
        cases e <;> rfl
  | inspect job =>
    simp only [hphase] at h
    cases h
    simp only [handed?, hphase, inspectScreen]
    split <;> rfl
  | select job =>
    simp only [hphase, selectImage] at h
    simp only [handed?, hphase]
    split at h
    · cases h
      rfl
    · obtain ⟨slot?, -, rfl⟩ := Option.map_eq_some_iff.mp h
      cases slot? <;> rfl
  | compose job slot =>
    simp only [hphase] at h
    cases h
    simp only [handed?, hphase, composeImage]
    split
    · rfl
    · rename_i e _ _
      cases e <;> rfl
  | settle job slot image =>
    simp only [hphase] at h
    cases h
    simp only [handed?, hphase]
    cases slot <;> rfl
  | enter | conclude | leave =>
    simp only [hphase] at h
    cases h
    simp only [handed?, hphase]
    rfl
  | release =>
    simp only [hphase] at h
    cases h
    simp only [handed?, hphase]
  | stopped | lost => simp [hphase] at h

/-- Where the image comes from is known when it is handed to the window, and as long as it may be
shown again. -/
lemma Displays.sourced (h : q.Displays)
    (hands : q.handed? = some image ∨ q.repeatable? = some image) : q.Sourced image := by
  rcases hands with hands | hrepeat
  · simp only [handed?] at hands
    cases hphase : q.present with
    | showAgain job =>
      simp only [hphase, Option.ite_none_right_eq_some] at hands
      exact h.lastShown image hands.2 (by rw [hphase]; rfl) (by rw [hphase]; rfl)
    | «show» job image? =>
      simp only [hphase, Option.ite_none_right_eq_some] at hands
      exact h.inHand image (by rw [hphase]; exact hands.2)
    | _ => simp [hphase] at hands
  · simp only [repeatable?, Option.ite_none_left_eq_some, Bool.or_eq_true, not_or,
      Bool.not_eq_true, Option.isSome_eq_false_iff, Option.isNone_iff_eq_none] at hrepeat
    exact h.lastShown image hrepeat.2 hrepeat.1.2 hrepeat.1.1

/-- The image handed to the window, like one that may be shown again, has a texture that lives,
unless the texture was that of a target, taken as it was, and this target is not in its place any
more. As long as nothing has failed it has then made room for a larger one. -/
theorem handed_live_iff (h : Ran log q)
    (hands : q.handed? = some image ∨ q.repeatable? = some image) :
    (image.texture ∈ q.shared.renderer.device.live ↔
      ∀ t, q.TookStraight image t → q.shared.renderer.find? t.key t.slot = some t) ∧
    (q.shared.running = true → image.texture ∉ q.shared.renderer.device.live →
      ∃ t t', q.TookStraight image t ∧ q.shared.renderer.find? t.key t.slot = some t' ∧
        t'.Succeeds t) := by
  have hsound := h.sound
  have hsourced := h.displays.sourced hands
  refine ⟨⟨fun hlive t htook => ?_, fun hplaces => ?_⟩, fun hrunning hgone => ?_⟩
  · exact hsound.find?_eq_some_iff.mpr ⟨htook.mem_of_live hlive, rfl, rfl⟩
  · rcases hsourced with ⟨t, ht, -, htexture⟩ | ⟨t, htook, -⟩
    · exact (hsound.live_iff _).mpr ⟨t, ht, htexture⟩
    · have ht := (hsound.find?_eq_some_iff.mp (hplaces t htook)).1
      exact (hsound.live_iff _).mpr ⟨t, ht, htook.texture_eq⟩
  · rcases hsourced with ⟨t, ht, -, htexture⟩ | ⟨t, htook, hgrown⟩
    · exact absurd ((hsound.live_iff _).mpr ⟨t, ht, htexture⟩) hgone
    · obtain ⟨t', ht', rfl | hlarger⟩ := hgrown hrunning
      · exact absurd ((hsound.live_iff _).mpr ⟨t', ht', htook.texture_eq⟩) hgone
      · have hplace := Prod.mk.inj hlarger.place
        exact ⟨t, t', htook, hsound.find?_eq_some_iff.mpr ⟨ht', hplace⟩, hlarger⟩

/-- The screen that shows one pixel. -/
def dotScreen : Screen := ⟨2, 16, 1, 0x6C006D, 0x250027, 0x400, 0x400⟩

/-- Draw the first column of an image down to a row. -/
def fillDown (rows : Nat) (w : Workload) : Workload :=
  (w.setColorImage 16 .bits8 1).addDraw (Workload.drawDown rows)

/-- A frame of one row is shown twice, the second time from its target. Another frame draws more
rows of the same image, and the last image is about to be shown again. -/
def dotRepeated (rows : Nat) : List Action :=
  .call (.fill (fillDown 1)) :: .call (.submitWorkload Workload.blankMemory 30) ::
    (List.replicate 14 .render ++
      .call (.submitPresent dotScreen Workload.blankMemory) :: List.replicate 13 .present ++
      .call (.submitPresent dotScreen Workload.blankMemory) :: List.replicate 13 .present ++
      .call (.fill (fillDown rows)) :: .call (.submitWorkload Workload.blankMemory 30) ::
      List.replicate 14 .render ++ .call .repeatLastPresent :: List.replicate 3 .present)

/-- If the image is no higher than before, the target that was shown is still in its place. -/
theorem repeated_dot_in_place :
    (sample .default (dotRepeated 1)).2.handed? = some ⟨1, ⟨0, 0, 1, 1⟩⟩ ∧
      ∀ t, (sample .default (dotRepeated 1)).2.TookStraight ⟨1, ⟨0, 0, 1, 1⟩⟩ t →
        (sample .default (dotRepeated 1)).2.shared.renderer.find? t.key t.slot = some t := by
  have hands : (sample .default (dotRepeated 1)).2.handed? = some ⟨1, ⟨0, 0, 1, 1⟩⟩ := by
    decide +kernel
  have hlive := (handed_live_iff (ran_sample (by decide +kernel) (dotRepeated 1)) (.inl hands)).1
  exact ⟨hands, hlive.mp (by decide +kernel)⟩

/-- If it is higher, the window is handed a texture that was destroyed, and takes it. -/
theorem enlarged_dot_repeated :
    Ran (sample .default (dotRepeated 2)).1 (sample .default (dotRepeated 2)).2 ∧
      (sample .default (dotRepeated 2)).2.shared.running = true ∧
      (sample .default (dotRepeated 2)).2.handed? = some ⟨1, ⟨0, 0, 1, 1⟩⟩ ∧
      1 ∉ (sample .default (dotRepeated 2)).2.shared.renderer.device.live ∧
      (sample .default (dotRepeated 2 ++ [.present])).2.swapChain.shown.head? =
        some ⟨1, ⟨0, 0, 1, 1⟩⟩ :=
  ⟨ran_sample (by decide +kernel) (dotRepeated 2), by decide +kernel, by decide +kernel,
    by decide +kernel, by decide +kernel⟩

end Pipeline

end Scanout
