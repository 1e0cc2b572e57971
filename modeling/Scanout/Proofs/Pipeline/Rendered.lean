import Scanout.Proofs.Pipeline.Handed

/-!
# What an action renders

All that an action can do to the render targets: draw an image of the workload in hand, perform the
uploads of the present in hand, fill the scratch image, take over settings, or nothing. What holds
of the render targets throughout a run is shown by these cases.
-/

namespace Scanout

namespace Shared

/-- The command that the scratch image is filled with: a copy of the image that the screen shows, or
an upload of its bytes if it was never rendered. -/
inductive Fills (s : Shared) (screen : Screen) (slot : Slot) (storage : ByteArray) :
    (TextureId → Command) → Prop where
  | image {t : Target} (found : s.imageTarget? screen.address slot = some t) :
      Fills s screen slot storage fun scratch =>
        .copy t.texture scratch screen.visibleRect (t.key.kind = .depth)
  | storage (unseen : s.imageTarget? screen.address slot = none)
      (bytes : storage.isEmpty = false) :
      Fills s screen slot storage fun scratch =>
        .upload scratch screen.visibleRect (screen.size?.getD .bits16) storage

variable {s : Shared} {screen : Screen} {slot : Slot} {storage : ByteArray}

lemma renderer_render {α : Type} {x : Rendering α} :
    (s.render x).2.renderer = Rendering.final x s.renderer := by
  unfold render Rendering.final
  cases x s.renderer <;> rfl

lemma renderer_compose :
    (s.compose screen slot storage).2.renderer = s.renderer ∨
      ∃ command, s.Fills screen slot storage command ∧
        (s.compose screen slot storage).2.renderer =
          Rendering.final (Rendering.throughScratch screen command) s.renderer := by
  have hsame : (s.pushHistory screen.address).imageTarget? screen.address slot =
      s.imageTarget? screen.address slot := rfl
  simp only [compose, hsame]
  cases himage : s.imageTarget? screen.address slot with
  | some t =>
    dsimp only
    split
    · exact .inl rfl
    · exact .inr ⟨_, .image himage, renderer_render⟩
  | none =>
    dsimp only
    split
    · exact .inl rfl
    · rename_i hbytes
      exact .inr ⟨_, .storage himage (by simpa using hbytes), renderer_render⟩

/-- The image that a screen shows is a target. -/
lemma mem_of_imageTarget? {address : Nat} {t : Target}
    (h : s.imageTarget? address slot = some t) : t ∈ s.renderer.targets := by
  rcases Option.or_eq_some_iff.mp h with h | ⟨-, h⟩
  · exact (Renderer.mem_of_findByAddress? h).1
  · exact (Renderer.mem_of_findByAddress? h).1

end Shared

namespace Pipeline

/-- The recording of the image at `index` of a job. -/
def imageOf (p : Pipeline) (job : RenderJob) (index : Nat) : Rendering Unit :=
  (p.workloadAt job.place).renderImage p.matcher (job.plan.subFrames.getD index .direct)
    (job.slot index)

/-- The action neither draws an image nor uploads anything. -/
def Quiet (p : Pipeline) : Action → Prop
  | .render => ∀ job, p.render = .draw job →
    subFrameAfter job.last job.plan.size p.workloads.blocked = none
  | .present => ∀ job, p.present = .upload job → job.present.operations = []
  | _ => True

/-- What an action does to the render targets. As long as the pipeline runs, drawing and uploading
have succeeded. -/
inductive Rendered (p q : Pipeline) : Action → Prop where
  | same {a : Action} (quiet : p.Quiet a) (renderer : q.shared.renderer = p.shared.renderer) :
      Rendered p q a
  | memory {count : Nat}
      (renderer : q.shared.renderer =
        { p.shared.renderer with device := p.shared.renderer.device.failAfter count }) :
      Rendered p q (.host (.memory count))
  | configured {place : Nat} {config : TargetConfig} (at_ : p.render = .configure place)
      (renderer : q.shared.renderer = (p.shared.renderer.setConfig config).2) :
      Rendered p q .render
  | image {job : RenderJob} {index : Nat} (at_ : p.render = .draw job)
      (next : subFrameAfter job.last job.plan.size p.workloads.blocked = some index)
      (renderer : q.shared.renderer = Rendering.final (p.imageOf job index) p.shared.renderer)
      (succeeds : q.shared.running = true →
        Rendering.succeeds (p.imageOf job index) p.shared.renderer = true) : Rendered p q .render
  | uploads {job : PresentJob} (at_ : p.present = .upload job)
      (renderer : q.shared.renderer =
        Rendering.final (Rendering.upload job.present.operations) p.shared.renderer)
      (succeeds : q.shared.running = true →
        Rendering.succeeds (Rendering.upload job.present.operations) p.shared.renderer = true) :
      Rendered p q .present
  | scratch {job : PresentJob} {slot : Slot} {command : TextureId → Command}
      (at_ : p.present = .compose job slot)
      (fills : p.shared.Fills job.present.screen slot job.present.storage command)
      (renderer : q.shared.renderer =
        Rendering.final (Rendering.throughScratch job.present.screen command) p.shared.renderer) :
      Rendered p q .present

variable {p q : Pipeline}

lemma shared_renderStopped (stop : Stop) :
    (p.renderStopped stop).shared.renderer = p.shared.renderer ∧
      (p.renderStopped stop).shared.running = false := by
  cases stop <;> exact ⟨rfl, rfl⟩

lemma shared_presentStopped (id : Nat) (stop : Stop) :
    (p.presentStopped id stop).shared.renderer = p.shared.renderer ∧
      (p.presentStopped id stop).shared.running = false := by
  cases stop <;> exact ⟨rfl, rfl⟩

lemma rendered_takeConfig {place : Nat} (at_ : p.render = .configure place)
    (h : q.shared.renderer = p.takeConfig.shared.renderer) : Rendered p q .render := by
  have hquiet : p.Quiet .render := fun job hdraw => by cases at_.symm.trans hdraw
  unfold takeConfig at h
  split at h
  · exact .same hquiet h
  · dsimp only at h
    split at h
    · exact .same hquiet h
    · exact .configured at_ h

lemma rendered_drawImage {job : RenderJob} (at_ : p.render = .draw job) :
    Rendered p (p.drawImage job) .render := by
  cases hnext : subFrameAfter job.last job.plan.size p.workloads.blocked with
  | none =>
    refine .same (fun job' hdraw => ?_) (by simp only [drawImage, hnext])
    cases at_.symm.trans hdraw
    exact hnext
  | some index =>
    refine .image at_ hnext ?_ ?_
    all_goals simp only [drawImage, hnext, imageOf, Shared.render]
    · simp only [Rendering.final]
      cases (p.workloadAt job.place).renderImage p.matcher
        (job.plan.subFrames.getD index .direct) (job.slot index) p.shared.renderer with
      | ok => rfl
      | error e => exact (shared_renderStopped e).1
    · simp only [Rendering.succeeds]
      cases (p.workloadAt job.place).renderImage p.matcher
        (job.plan.subFrames.getD index .direct) (job.slot index) p.shared.renderer with
      | ok => exact fun _ => rfl
      | error e => simp [shared_renderStopped]

lemma rendered_uploadChanges {job : PresentJob} (at_ : p.present = .upload job) :
    Rendered p (p.uploadChanges job) .present := by
  by_cases hempty : job.present.operations.isEmpty = true
  · refine .same (fun job' hupload => ?_) (by simp only [uploadChanges, hempty, if_true])
    cases at_.symm.trans hupload
    exact List.isEmpty_iff.mp hempty
  · refine .uploads at_ ?_ ?_
    all_goals simp only [uploadChanges, hempty, Bool.false_eq_true, if_false, Shared.render]
    · simp only [Rendering.final]
      cases Rendering.upload job.present.operations p.shared.renderer with
      | ok => rfl
      | error e => exact (shared_presentStopped _ e).1
    · simp only [Rendering.succeeds]
      cases Rendering.upload job.present.operations p.shared.renderer with
      | ok => exact fun _ => rfl
      | error e => simp [shared_presentStopped]

lemma rendered_composeImage {job : PresentJob} {slot : Slot} (at_ : p.present = .compose job slot) :
    Rendered p (p.composeImage job slot) .present := by
  have hrenderer : (p.composeImage job slot).shared.renderer =
      (p.shared.compose job.present.screen slot job.present.storage).2.renderer := by
    unfold composeImage
    rcases p.shared.compose job.present.screen slot job.present.storage with ⟨image | e, shared⟩
    · exact (shared_presentStopped _ _).1
    · rfl
  rcases Shared.renderer_compose with hsame | ⟨command, hfills, hfinal⟩
  · exact .same (fun job' hupload => by cases at_.symm.trans hupload) (hrenderer.trans hsame)
  · exact .scratch at_ hfills (hrenderer.trans hfinal)

lemma rendered_of_renderStep (h : p.renderStep = some q) : Rendered p q .render := by
  by_cases hrenders : (∃ place, p.render = .configure place) ∨ ∃ job, p.render = .draw job
  · rcases hrenders with ⟨place, at_⟩ | ⟨job, at_⟩
    · simp only [renderStep, at_, Option.some.injEq] at h
      exact rendered_takeConfig at_ (h ▸ rfl)
    · simp only [renderStep, at_, Option.some.injEq] at h
      exact h ▸ rendered_drawImage at_
  · refine .same (fun job at_ => absurd (.inr ⟨job, at_⟩) hrenders) ?_
    by_contra hother
    exact hrenders (renderer_of_renderStep h hother)

/-- Only uploads and the putting together of images concern the render targets and the addresses
that are remembered. -/
lemma shared_of_presentStep (h : p.presentStep = some q) (hupload : ∀ job, p.present ≠ .upload job)
    (hcompose : ∀ job slot, p.present ≠ .compose job slot) :
    q.shared.renderer = p.shared.renderer ∧ q.shared.history = p.shared.history := by
  simp only [presentStep] at h
  cases hphase : p.present with
  | claim | await | finish =>
    simp only [hphase] at h
    split at h <;> cases h
    all_goals exact ⟨rfl, rfl⟩
  | showAgain job =>
    simp only [hphase, Option.some.injEq] at h
    rw [← h, showLast]
    cases p.shared.lastShown with
    | none => exact ⟨rfl, rfl⟩
    | some image =>
      obtain ⟨hrenderer, hhistory, -⟩ := p.shared_showImage image job.valid
      exact ⟨hrenderer, hhistory⟩
  | upload job => exact absurd hphase (hupload job)
  | inspect job =>
    simp only [hphase, Option.some.injEq] at h
    rw [← h, inspectScreen]
    split <;> exact ⟨rfl, rfl⟩
  | select job =>
    simp only [hphase, selectImage] at h
    split at h
    · cases h
      exact ⟨rfl, rfl⟩
    · obtain ⟨slot?, -, rfl⟩ := Option.map_eq_some_iff.mp h
      cases slot? <;> exact ⟨rfl, rfl⟩
  | compose job slot => exact absurd hphase (hcompose job slot)
  | settle job slot image =>
    simp only [hphase, Option.some.injEq] at h
    rw [← h]
    cases slot <;> exact ⟨rfl, rfl⟩
  | «show» job image =>
    simp only [hphase, Option.some.injEq] at h
    rw [← h]
    cases image with
    | none => exact ⟨rfl, rfl⟩
    | some image =>
      obtain ⟨hrenderer, hhistory, -⟩ := p.shared_showImage image job.valid
      exact ⟨hrenderer, hhistory⟩
  | stopped | lost => simp [hphase] at h
  | _ =>
    simp only [hphase, Option.some.injEq] at h
    exact h ▸ ⟨rfl, rfl⟩

lemma rendered_of_presentStep (h : p.presentStep = some q) : Rendered p q .present := by
  by_cases hupload : ∃ job, p.present = .upload job
  · obtain ⟨job, at_⟩ := hupload
    simp only [presentStep, at_, Option.some.injEq] at h
    exact h ▸ rendered_uploadChanges at_
  by_cases hcompose : ∃ job slot, p.present = .compose job slot
  · obtain ⟨job, slot, at_⟩ := hcompose
    simp only [presentStep, at_, Option.some.injEq] at h
    exact h ▸ rendered_composeImage at_
  refine .same (fun job at_ => absurd ⟨job, at_⟩ hupload) (shared_of_presentStep h ?_ ?_).1
  · exact fun job at_ => hupload ⟨job, at_⟩
  · exact fun job slot at_ => hcompose ⟨job, slot, at_⟩

/-- Every action renders in one of these ways. -/
lemma rendered_of_act {a : Action} (h : p.act a = some q) : Rendered p q a := by
  cases a with
  | render => exact rendered_of_renderStep h
  | present => exact rendered_of_presentStep h
  | resume =>
    simp only [act, Option.map_eq_some_iff] at h
    obtain ⟨⟨reply, q'⟩, hstep, rfl⟩ := h
    exact .same trivial (sameWork_producerStep hstep).renderer
  | call c =>
    simp only [act] at h
    split at h
    · cases h
      exact .same trivial (sameWork_perform c).renderer
    · cases h
  | host change =>
    cases h
    cases change with
    | memory count => exact .memory rfl
    | _ => exact .same trivial rfl

end Pipeline

end Scanout
