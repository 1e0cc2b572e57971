import Scanout.Proofs.Pipeline.Control
import Scanout.Proofs.Traced

/-!
# The steps of the pipeline as moves

Each step of a worker, each call of the producer and each change of the host is a move of what
steers the pipeline.
-/

namespace Scanout

namespace Shared

variable {s : Shared} {b : Bool} {n : Note}

@[simp] lemma production_noteWhen : (s.noteWhen b n).production = s.production := by
  simp only [noteWhen]
  split <;> rfl

@[simp] lemma workloadSignal_noteWhen : (s.noteWhen b n).workloadSignal = s.workloadSignal := by
  simp only [noteWhen]
  split <;> rfl

@[simp] lemma presentSignal_noteWhen : (s.noteWhen b n).presentSignal = s.presentSignal := by
  simp only [noteWhen]
  split <;> rfl

@[simp] lemma running_noteWhen : (s.noteWhen b n).running = s.running := by
  simp only [noteWhen]
  split <;> rfl

@[simp] lemma renderer_noteWhen : (s.noteWhen b n).renderer = s.renderer := by
  simp only [noteWhen]
  split <;> rfl

end Shared

/-- There is at least one image for the ticks outstanding. -/
lemma Ticks.length_images_pos {t : Ticks} {r : Rates} {subFrames : List SubFrame}
    (h : t.images r (t.imageCount r) = .ok subFrames) : 0 < subFrames.length := by
  have hlength : subFrames.length = t.imageCount r := by
    simpa using length_of_mapM_eq_ok h
  rw [hlength]
  exact Nat.lt_of_lt_of_le Nat.one_pos (Nat.le_max_right _ _)

/-- A plan has at least one image. -/
lemma Ticks.size_plan_pos {t t' : Ticks} {r : Rates} {enabled : Bool} {plan : FramePlan}
    (h : (t.plan r enabled).outcome = .ok (plan, t')) : 0 < plan.size := by
  simp only [Ticks.plan] at h
  split at h
  · rw [Traced.pure_eq_ok] at h
    obtain ⟨rfl, rfl⟩ := Prod.mk.inj h
    exact Nat.one_pos
  · cases hrates : t.rates with
    | none =>
      simp only [hrates, Traced.bind_eq_ok, Traced.lift_eq_ok, Traced.pure_eq_ok] at h
      obtain ⟨t₁, -, subFrames, himages, t₂, -, h⟩ := h
      obtain ⟨rfl, rfl⟩ := Prod.mk.inj h
      exact Ticks.length_images_pos himages
    | some old =>
      simp only [hrates, Traced.bind_eq_ok, Traced.lift_eq_ok, Traced.pure_eq_ok] at h
      obtain ⟨-, -, t₁, -, subFrames, himages, t₂, -, h⟩ := h
      obtain ⟨rfl, rfl⟩ := Prod.mk.inj h
      exact Ticks.length_images_pos himages

/-- A plan has at least one image. -/
lemma Matcher.size_plan_pos {m m' : Matcher} {w : Workload} {target : Nat} {enabled : Bool}
    {plan : FramePlan} (h : (m.plan w target enabled).outcome = .ok (plan, m')) :
    0 < plan.size := by
  simp only [Matcher.plan, Traced.bind_eq_ok] at h
  obtain ⟨⟨plan₁, ticks⟩, hplan, h⟩ := h
  split at h
  · rw [Traced.pure_eq_ok] at h
    obtain ⟨rfl, rfl⟩ := Prod.mk.inj h
    exact Ticks.size_plan_pos hplan
  · simp only [Traced.bind_eq_ok, Traced.pure_eq_ok] at h
    obtain ⟨-, -, h⟩ := h
    obtain ⟨rfl, rfl⟩ := Prod.mk.inj h
    exact Nat.one_pos

/-- Synchronizing leaves the stamps of a workload. -/
lemma Workload.stamps_of_synchronize {w w' : Workload} {table table' : FramebufferTable}
    {ram : ByteArray} {stats : SyncStats}
    (h : (w.synchronize table ram).outcome = .ok (stats, w', table')) :
    w'.id = w.id ∧ w'.presentId = w.presentId := by
  simp only [Workload.synchronize, Traced.bind_eq_ok, Traced.pure_eq_ok] at h
  obtain ⟨s, -, -, -, h⟩ := h
  obtain ⟨-, h⟩ := Prod.mk.inj h
  obtain ⟨rfl, -⟩ := Prod.mk.inj h
  exact ⟨rfl, rfl⟩

namespace Signal

variable {s : Signal} {value : Nat}

lemma wait_eq_some_true_iff : s.wait value = some true ↔ value ≤ s.value := by
  simp only [wait]
  split
  · simp [*]
  · split <;> simp [*]

lemma of_wait_eq_none (h : s.wait value = none) : s.value < value ∧ s.stopped = false := by
  simp only [wait] at h
  split at h
  · cases h
  · split at h
    · cases h
    · exact ⟨Nat.lt_of_not_le ‹_›, by simpa using ‹¬ s.stopped = true›⟩

lemma of_wait_eq_some_false (h : s.wait value = some false) : s.stopped = true := by
  simp only [wait] at h
  split at h
  · cases h
  · split at h
    · assumption
    · cases h

end Signal

namespace Pipeline

variable {p q : Pipeline}

/-! What is another after an image is planned or drawn, and after a workload is concluded. -/

lemma planImages_eq (p : Pipeline) (place : Nat) :
    ∃ notes, p.planImages place = { p with shared.notes := notes }.renderLost ∨
      ∃ plan matcher production, p.planImages place =
        { p with
          shared := { p.shared with notes, production }
          matcher
          render := .draw ⟨place, plan, none, [], 0⟩ } := by
  unfold planImages
  dsimp only
  split
  · rename_i f p' hplan
    obtain ⟨-, rfl⟩ := Prod.mk.inj hplan
    exact ⟨_, .inl rfl⟩
  · rename_i plan matcher p' hplan
    obtain ⟨-, rfl⟩ := Prod.mk.inj hplan
    exact ⟨_, .inr ⟨plan, matcher, _, rfl⟩⟩

lemma drawImage_eq (p : Pipeline) (job : RenderJob) :
    ∃ renderer, (∃ phase, p.drawImage job =
        { p with shared.renderer := renderer, render := phase }) ∨
      ∃ stop, p.drawImage job = { p with shared.renderer := renderer }.renderStopped stop := by
  unfold drawImage
  dsimp only
  split
  · exact ⟨_, .inl ⟨_, rfl⟩⟩
  · simp only [Shared.render]
    cases Workload.renderImage _ _ _ _ p.shared.renderer with
    | ok a renderer => exact ⟨renderer, .inl ⟨_, rfl⟩⟩
    | error stop renderer => exact ⟨renderer, .inr ⟨stop, rfl⟩⟩

lemma concludeWorkload_eq (p : Pipeline) (job : RenderJob) :
    ∃ notes stats, p.concludeWorkload job =
      { p with
        shared := { p.shared with notes, stats }
        matcher := p.matcher.remember (p.workloadAt job.place)
        render := .finish job.place (p.workloadAt job.place).paused } := by
  unfold concludeWorkload
  dsimp only
  split <;> exact ⟨_, _, rfl⟩

lemma control_renderStopped (p : Pipeline) (stop : Stop) :
    ∃ lost, (p.renderStopped stop).control = p.control.breakRender lost := by
  cases stop with
  | refused cause => exact ⟨false, rfl⟩
  | fault f => exact ⟨true, rfl⟩

lemma control_presentStopped (p : Pipeline) (id : Nat) (stop : Stop) :
    ∃ lost, (p.presentStopped id stop).control = p.control.breakPresent lost := by
  cases stop with
  | refused cause => exact ⟨false, rfl⟩
  | fault f => exact ⟨true, rfl⟩

lemma control_render {α : Type} {x : Rendering α} {r : Except Stop α} {s : Shared}
    (h : p.shared.render x = (r, s)) : { p with shared := s }.control = p.control := by
  simp only [Shared.render] at h
  split at h <;> cases h <;> rfl

lemma control_abandonImages :
    p.abandonImages.control =
      { p.control with production := { p.control.production with inFlight := 0 } } := by
  simp [abandonImages, control, modifyShared, Shared.modifyProduction]

lemma control_takeConfig : p.takeConfig.control = p.control := by
  unfold takeConfig
  split
  · rfl
  · dsimp only
    split
    · rfl
    · simp [control, modifyShared]

lemma control_publishImage {job : RenderJob} {index : Nat} :
    (p.publishImage job index).control =
      { p.control with
        production := p.control.production.publish (job.slot index) (0 < job.skipped)
        render := if job.rendered.length = 1 then .announce job else .draw job } := by
  cases hslot : job.slot index with
  | main => simp only [publishImage, control, modifyShared, Shared.modifyProduction,
      Production.publish, hslot]
  | intermediate i =>
    simp only [publishImage, control, modifyShared, Shared.modifyProduction, Production.publish,
      hslot]
    rfl

lemma control_concludeWorkload {job : RenderJob} :
    (p.concludeWorkload job).control =
      { p.control with render := .finish job.place (p.control.workloadAt job.place).paused } := by
  obtain ⟨notes, stats, h⟩ := p.concludeWorkload_eq job
  rw [h]
  rfl

lemma control_showImage {image : Shown} {valid : Bool} :
    (p.showImage image valid).2.control = p.control := by
  unfold showImage
  dsimp only
  split
  · rfl
  · split <;> rfl

lemma renderMove_of_planImages {place : Nat} (at_ : p.render = .plan place) :
    p.control.RenderMove [] (p.planImages place).control := by
  unfold planImages
  dsimp only
  split
  · rename_i f p' hplan
    obtain ⟨-, rfl⟩ := Prod.mk.inj hplan
    exact Control.RenderMove.planLost (c := p.control) at_
  · rename_i plan matcher p' hplan
    obtain ⟨houtcome, rfl⟩ := Prod.mk.inj hplan
    exact .plan at_ plan _ (Matcher.size_plan_pos houtcome)

lemma renderMove_of_drawImage {job : RenderJob} (at_ : p.render = .draw job) :
    p.control.RenderMove p.renderEvents (p.drawImage job).control := by
  have hevents : p.renderEvents =
      (subFrameAfter job.last job.plan.size p.workloads.blocked).toList.map fun index =>
        .recorded (p.workloadAt job.place).id (job.slot index) := by
    simp only [renderEvents, at_]
  rw [hevents]
  simp only [drawImage]
  cases himage : subFrameAfter job.last job.plan.size p.workloads.blocked with
  | none => exact .exhaust at_ himage
  | some index =>
    dsimp only
    split
    · rename_i shared hrender
      have hcontrol := control_render hrender
      change p.control.RenderMove _ { { p with shared := shared }.control with
        render := .publish (job.advance index (job.plan.subFrames.getD index .direct)) index }
      rw [hcontrol]
      exact .draw at_ _ himage
    · rename_i e shared hrender
      have hcontrol := control_render hrender
      obtain ⟨lost, hlost⟩ := control_renderStopped { p with shared } e
      rw [hlost, hcontrol]
      exact .drawBroken at_ lost himage

/-- A step of the render worker is a move. -/
lemma renderMove_of_renderStep (h : p.renderStep = some q) :
    p.control.RenderMove p.renderEvents q.control := by
  simp only [renderStep] at h
  cases hphase : p.render with
  | claim =>
    simp only [hphase] at h
    simp only [renderEvents, hphase]
    cases hclaim : p.workloads.claim with
    | done place =>
      simp only [hclaim, Option.some.injEq] at h
      subst h
      exact .claim hphase hclaim
    | waiting => simp [hclaim] at h
    | stopped =>
      simp only [hclaim, Option.some.injEq] at h
      subst h
      exact .close hphase hclaim
  | await place =>
    simp only [hphase] at h
    simp only [renderEvents, hphase]
    cases hwait : p.shared.presentSignal.wait (p.workloadAt place).presentId with
    | none => simp [hwait] at h
    | some reached =>
      cases reached with
      | true =>
        simp only [hwait, Option.some.injEq] at h
        subst h
        exact .pass hphase (Signal.wait_eq_some_true_iff.mp hwait)
      | false =>
        simp only [hwait, Option.some.injEq] at h
        subst h
        exact .giveUp hphase (Signal.of_wait_eq_some_false hwait)
  | abandon place =>
    simp only [hphase, Option.some.injEq] at h
    subst h
    simp only [renderEvents, hphase]
    change p.control.RenderMove [] { p.abandonImages.control with render := .configure place }
    rw [control_abandonImages]
    exact .abandon hphase
  | configure place =>
    simp only [hphase, Option.some.injEq] at h
    subst h
    simp only [renderEvents, hphase]
    change p.control.RenderMove _ { p.takeConfig.control with render := .plan place }
    rw [control_takeConfig]
    exact .configure hphase
  | plan place =>
    simp only [hphase, Option.some.injEq] at h
    subst h
    simp only [renderEvents, hphase]
    exact renderMove_of_planImages hphase
  | draw job =>
    simp only [hphase, Option.some.injEq] at h
    subst h
    exact renderMove_of_drawImage hphase
  | publish job index =>
    simp only [hphase, Option.some.injEq] at h
    subst h
    simp only [renderEvents, hphase]
    rw [control_publishImage]
    exact .publish hphase
  | announce job =>
    simp only [hphase, Option.some.injEq] at h
    subst h
    simp only [renderEvents, hphase]
    exact .announce hphase
  | conclude job =>
    simp only [hphase, Option.some.injEq] at h
    subst h
    simp only [renderEvents, hphase]
    rw [control_concludeWorkload]
    exact .conclude hphase
  | finish place paused =>
    simp only [hphase] at h
    simp only [renderEvents, hphase]
    cases hfinish : p.workloads.finish place with
    | ok ring =>
      simp only [hfinish, Option.some.injEq] at h
      subst h
      exact .finish hphase hfinish
    | error f =>
      simp only [hfinish, Option.some.injEq] at h
      subst h
      exact .finishLost hphase hfinish
  | release place paused =>
    simp only [hphase, Option.some.injEq] at h
    subst h
    simp only [renderEvents, hphase]
    exact .release hphase
  | leave =>
    simp only [hphase, Option.some.injEq] at h
    subst h
    simp only [renderEvents, hphase]
    exact .leave hphase
  | stopped => simp [hphase] at h
  | lost => simp [hphase] at h

lemma control_showNext (p : Pipeline) (job : PresentJob) (image : Option Shown) :
    ∃ valid, (p.showNext job image).control =
      { p.control with present := .select { job with valid, index := job.index + 1 } } := by
  cases image with
  | none => exact ⟨_, rfl⟩
  | some image =>
    refine ⟨(p.showImage image job.valid).1, ?_⟩
    change { (p.showImage image job.valid).2.control with
      present := .select { job with
        valid := (p.showImage image job.valid).1, index := job.index + 1 } } = _
    rw [control_showImage]

lemma control_settleImage {job : PresentJob} {slot : Slot} {image : Option Shown} :
    (p.settleImage job slot image).control =
      { p.control with
        production := p.control.production.settle slot, present := .show job image } := by
  cases slot <;> rfl

lemma control_showLast {job : PresentJob} :
    (p.showLast job).control =
      { p.control with present := .conclude job.place job.present.id } := by
  unfold showLast
  dsimp only
  split
  · rename_i image hshown
    change { (p.showImage image job.valid).2.control with
      present := .conclude job.place job.present.id } = _
    rw [control_showImage]
  · rfl

lemma presentMove_of_uploadChanges {job : PresentJob} (at_ : p.present = .upload job) :
    p.control.PresentMove [] (p.uploadChanges job).control := by
  unfold uploadChanges
  dsimp only
  split
  · exact Control.PresentMove.upload (c := p.control) at_
  · split
    · rename_i shared hrender
      have hcontrol := control_render hrender
      change p.control.PresentMove [] { { p with shared := shared }.control with
        present := .inspect job }
      rw [hcontrol]
      exact .upload at_
    · rename_i e shared hrender
      have hcontrol := control_render hrender
      obtain ⟨lost, hlost⟩ := control_presentStopped { p with shared } job.present.id e
      rw [hlost, hcontrol]
      exact .uploadBroken at_ lost

lemma presentMove_of_inspectScreen {job : PresentJob} (at_ : p.present = .inspect job) :
    p.control.PresentMove [] (p.inspectScreen job).control := by
  simp only [inspectScreen]
  cases hvisible : job.present.screen.visible with
  | false => exact Control.PresentMove.blank (c := p.control) at_ hvisible
  | true =>
    have hmove := Control.PresentMove.inspect (c := p.control) at_ hvisible
    simp only [ite_and] at hmove
    simp only [Bool.not_true, Bool.false_eq_true, if_false]
    exact hmove

lemma presentMove_of_selectImage {job : PresentJob} (at_ : p.present = .select job)
    (h : p.selectImage job = some q) : p.control.PresentMove [] q.control := by
  simp only [selectImage] at h
  split at h
  · rename_i hleft
    simp only [Option.some.injEq] at h
    subst h
    exact .selectNone at_ (.inl hleft)
  · rename_i hleft
    rw [Option.map_eq_some_iff] at h
    obtain ⟨slot?, himage, rfl⟩ := h
    cases slot? with
    | none => exact .selectNone at_ (.inr himage)
    | some slot => exact .select at_ (Nat.lt_of_not_le hleft) himage

lemma control_compose {s : Shared} {screen : Screen} {slot : Slot} {storage : ByteArray}
    {r : Except Stop (Option Shown)} (h : p.shared.compose screen slot storage = (r, s)) :
    { p with shared := s }.control = p.control := by
  -- whatever else is done, only the history and the renderer change
  have hscratch : ∀ {command : TextureId → Command} {shown : Except Stop Shown} {s₁ : Shared},
      (p.shared.pushHistory screen.address).render (Rendering.throughScratch screen command) =
        (shown, s₁) → { p with shared := s₁ }.control = p.control := by
    intro command shown s₁ hrender
    exact control_render (p := { p with shared := p.shared.pushHistory screen.address }) hrender
  unfold Shared.compose at h
  dsimp only at h
  split at h
  · split at h
    · obtain ⟨-, rfl⟩ := Prod.mk.inj h
      rfl
    · obtain ⟨-, rfl⟩ := Prod.mk.inj h
      exact hscratch rfl
  · split at h
    · obtain ⟨-, rfl⟩ := Prod.mk.inj h
      rfl
    · obtain ⟨-, rfl⟩ := Prod.mk.inj h
      exact hscratch rfl

lemma presentMove_of_composeImage {job : PresentJob} {slot : Slot}
    (at_ : p.present = .compose job slot) :
    p.control.PresentMove [.composed job.present slot] (p.composeImage job slot).control := by
  simp only [composeImage]
  split
  · rename_i image shared hcompose
    have hcontrol := control_compose hcompose
    change p.control.PresentMove _ { { p with shared := shared }.control with
      present := .settle job slot image }
    rw [hcontrol]
    exact .compose at_ image
  · rename_i e shared hcompose
    have hcontrol := control_compose hcompose
    obtain ⟨lost, hlost⟩ := control_presentStopped { p with shared } job.present.id e
    rw [hlost, hcontrol]
    exact .composeBroken at_ lost

/-- A step of the present worker is a move. -/
lemma presentMove_of_presentStep (h : p.presentStep = some q) :
    p.control.PresentMove p.presentEvents q.control := by
  simp only [presentStep] at h
  cases hphase : p.present with
  | claim =>
    simp only [hphase] at h
    simp only [presentEvents, hphase]
    cases hclaim : p.presents.claim with
    | done place =>
      simp only [hclaim, Option.some.injEq] at h
      subst h
      exact .claim hphase hclaim
    | waiting => simp [hclaim] at h
    | stopped =>
      simp only [hclaim, Option.some.injEq] at h
      subst h
      exact .close hphase hclaim
  | await place present =>
    simp only [hphase] at h
    simp only [presentEvents, hphase]
    cases hwait : p.shared.workloadSignal.wait present.workloadId with
    | none => simp [hwait] at h
    | some reached =>
      cases reached with
      | true =>
        have hreached := Signal.wait_eq_some_true_iff.mp hwait
        simp only [hwait, Option.some.injEq] at h
        subst h
        rw [if_pos hreached]
        exact .pass hphase hreached
      | false =>
        have hnot : ¬present.workloadId ≤ p.shared.workloadSignal.value := by
          rw [← Signal.wait_eq_some_true_iff, hwait]
          simp
        simp only [hwait, Option.some.injEq] at h
        subst h
        rw [if_neg hnot]
        exact .giveUp hphase (Signal.of_wait_eq_some_false hwait)
  | enter place present =>
    simp only [hphase, Option.some.injEq] at h
    subst h
    simp only [presentEvents, hphase]
    simp only [enterPresent]
    cases hagain : present.again with
    | true => exact Control.PresentMove.enterAgain (c := p.control) hphase hagain _
    | false => exact Control.PresentMove.enter (c := p.control) hphase hagain _
  | showAgain job =>
    simp only [hphase, Option.some.injEq] at h
    subst h
    simp only [presentEvents, hphase]
    rw [control_showLast]
    exact .showAgain hphase
  | upload job =>
    simp only [hphase, Option.some.injEq] at h
    subst h
    simp only [presentEvents, hphase]
    exact presentMove_of_uploadChanges hphase
  | inspect job =>
    simp only [hphase, Option.some.injEq] at h
    subst h
    simp only [presentEvents, hphase]
    exact presentMove_of_inspectScreen hphase
  | select job =>
    simp only [hphase] at h
    simp only [presentEvents, hphase]
    exact presentMove_of_selectImage hphase h
  | compose job slot =>
    simp only [hphase, Option.some.injEq] at h
    subst h
    simp only [presentEvents, hphase]
    exact presentMove_of_composeImage hphase
  | settle job slot image =>
    simp only [hphase, Option.some.injEq] at h
    subst h
    simp only [presentEvents, hphase]
    rw [control_settleImage]
    exact .settle hphase
  | «show» job image =>
    simp only [hphase, Option.some.injEq] at h
    subst h
    simp only [presentEvents, hphase]
    obtain ⟨valid, hcontrol⟩ := control_showNext p job image
    rw [hcontrol]
    exact .show hphase valid
  | conclude place id =>
    simp only [hphase, Option.some.injEq] at h
    subst h
    simp only [presentEvents, hphase]
    exact .conclude hphase
  | finish place =>
    simp only [hphase] at h
    simp only [presentEvents, hphase]
    cases hfinish : p.presents.finish place with
    | ok ring =>
      simp only [hfinish, Option.some.injEq] at h
      subst h
      exact .finish hphase hfinish
    | error f =>
      simp only [hfinish, Option.some.injEq] at h
      subst h
      exact .finishLost hphase hfinish
  | release place =>
    simp only [hphase, Option.some.injEq] at h
    subst h
    simp only [presentEvents, hphase]
    exact .release hphase
  | leave =>
    simp only [hphase, Option.some.injEq] at h
    subst h
    simp only [presentEvents, hphase]
    exact .leave hphase
  | stopped => simp [hphase] at h
  | lost => simp [hphase] at h

lemma control_reconfigure {config : Config} {window : Nat × Nat} :
    (p.reconfigure config window).control = p.control := by
  unfold reconfigure
  dsimp only
  split
  · rfl
  · simp only [resetFramebuffers]
    split
    · rename_i table p' htable
      obtain ⟨-, rfl⟩ := Prod.mk.inj htable
      rfl
    · rename_i f p' htable
      obtain ⟨-, rfl⟩ := Prod.mk.inj htable
      rfl

lemma control_resetFramebuffers : p.resetFramebuffers.control = p.control := by
  simp only [resetFramebuffers]
  split
  · rename_i table p' htable
    obtain ⟨-, rfl⟩ := Prod.mk.inj htable
    rfl
  · rename_i f p' htable
    obtain ⟨-, rfl⟩ := Prod.mk.inj htable
    rfl

lemma control_tryPublish {item : Pending} :
    (p.tryPublish item).2.control = (p.control.publish item).2 := by
  cases item with
  | workload id =>
    rcases hadvance : p.workloads.advance with ⟨attempt, ring⟩
    cases attempt <;> simp only [tryPublish, Control.publish, control, hadvance] <;> rfl
  | present id =>
    rcases hadvance : p.presents.advance with ⟨attempt, ring⟩
    cases attempt <;> simp only [tryPublish, Control.publish, control, hadvance] <;> rfl

lemma producerMove_of_producerStep {reply : Reply} (h : p.producerStep = some (reply, q)) :
    ∃ item, p.control.Offers item p.control ∧ q.control = (p.control.publish item).2 := by
  simp only [producerStep] at h
  cases hpending : p.producer.pending with
  | none => simp [hpending] at h
  | some item =>
    simp only [hpending, Option.bind_eq_bind, Option.bind_some] at h
    refine ⟨item, .pending hpending, ?_⟩
    rw [← control_tryPublish]
    split at h
    · cases h
    · rename_i reply' hreply
      simp only [Option.some.injEq] at h
      rw [h]

/-- The workload being filled has its stamps. -/
lemma stamps_of_stampWorkload (gameRate : Nat) (hw : p.workloads.write < p.workloads.size) :
    (p.stampWorkload gameRate).currentWorkload.id = p.producer.nextWorkloadId ∧
      (p.stampWorkload gameRate).currentWorkload.presentId = p.producer.lastPresentId := by
  have hcurrent : ∃ w, p.workloads.current? = some w := by
    rw [Ring.current?, Ring.slot?, Nat.mod_eq_of_lt hw]
    exact ⟨_, List.getElem?_eq_getElem hw⟩
  obtain ⟨w, hcurrent⟩ := hcurrent
  unfold stampWorkload currentWorkload modifyWorkload
  rw [Ring.current?_modifyCurrent hw, hcurrent]
  exact ⟨rfl, rfl⟩

lemma producerMove_of_submitWorkload {ram : ByteArray} {gameRate : Nat}
    (idle : p.producer.pending = none) (hw : p.workloads.write < p.workloads.size) :
    ∃ events, p.control.ProducerMove events (p.submitWorkload ram gameRate).2.control := by
  unfold submitWorkload
  split
  · exact ⟨_, .stay⟩
  · dsimp only
    split
    · rename_i f p' hsync
      obtain ⟨-, rfl⟩ := Prod.mk.inj hsync
      exact ⟨_, .fill idle _⟩
    · rename_i stats w table p' hsync
      obtain ⟨houtcome, rfl⟩ := Prod.mk.inj hsync
      obtain ⟨hid, hpresentId⟩ := Workload.stamps_of_synchronize houtcome
      obtain ⟨hstamp, hstamp'⟩ := stamps_of_stampWorkload gameRate hw
      -- the synchronized workload takes the place of the one that was stamped
      have hring : (p.stampWorkload gameRate).workloads.modifyCurrent (fun _ => w) =
          p.workloads.modifyCurrent fun _ => w := by
        unfold stampWorkload modifyWorkload
        rw [Ring.modifyCurrent_modifyCurrent]
        rfl
      have hoffers : p.control.Offers (.workload w.id)
          { p.control with workloads := p.workloads.modifyCurrent fun _ => w } :=
        .workload idle w (hid.trans hstamp) (hpresentId.trans hstamp')
      rw [← hring] at hoffers
      rw [control_tryPublish]
      exact ⟨_, .publish hoffers⟩

lemma producerMove_of_submitPresent {screen : Screen} {ram : ByteArray}
    (idle : p.producer.pending = none) :
    ∃ events, p.control.ProducerMove events (p.submitPresent screen ram).2.control := by
  unfold submitPresent
  split
  · exact ⟨_, .stay⟩
  · split
    · rename_i f p' hscreen
      obtain ⟨-, rfl⟩ := Prod.mk.inj hscreen
      exact ⟨_, .stay⟩
    · rename_i operations storage table p' hscreen
      obtain ⟨-, rfl⟩ := Prod.mk.inj hscreen
      let present : Present :=
        ⟨p.producer.nextPresentId, screen, p.producer.lastWorkloadId, operations, storage, false⟩
      have hoffers : p.control.Offers (.present present.id)
          { p.control with presents := p.presents.setCurrent present } :=
        .present idle present rfl rfl
      dsimp only
      rw [control_tryPublish]
      exact ⟨_, .publish hoffers⟩

lemma producerMove_of_repeatLastPresent (idle : p.producer.pending = none) :
    ∃ events, p.control.ProducerMove events p.repeatLastPresent.2.control := by
  unfold repeatLastPresent
  split
  · exact ⟨_, .stay⟩
  · dsimp only
    let present := Present.repeating p.producer.nextPresentId p.producer.lastWorkloadId
    have hoffers : p.control.Offers (.present present.id)
        { p.control with presents := p.presents.setCurrent present } :=
      .present idle present rfl rfl
    rw [control_tryPublish]
    exact ⟨_, .publish hoffers⟩

/-- A call of the producer is a move. -/
lemma producerMove_of_perform (call : ProducerCall) (idle : p.producer.pending = none)
    (hw : p.workloads.write < p.workloads.size) :
    ∃ events, p.control.ProducerMove events (p.perform call).control := by
  cases call with
  | fill f => exact ⟨_, .fill idle f⟩
  | submitWorkload ram gameRate => exact producerMove_of_submitWorkload idle hw
  | submitPresent screen ram => exact producerMove_of_submitPresent idle
  | repeatLastPresent => exact producerMove_of_repeatLastPresent idle
  | setPaused paused => exact ⟨_, .stay⟩
  | reconfigure config window =>
    refine ⟨[], ?_⟩
    simp only [perform, control_reconfigure]
    exact .stay
  | resetFramebuffers =>
    refine ⟨[], ?_⟩
    simp only [perform, control_resetFramebuffers]
    exact .stay
  | takeError => exact ⟨_, .stay⟩

end Pipeline

namespace Control

/-- What was published between two states. -/
def publishedEvents (c c' : Control) : List Event :=
  (Pipeline.published c.workloads c'.workloads).map .submitted ++
    (Pipeline.published c.presents c'.presents).map .requested

variable {c c' : Control} {events : List Event} {n m i j k l : Nat}

lemma published_of_write_eq {α : Type} {r r' : Ring α} (h : r'.write = r.write) :
    Pipeline.published r r' = [] := if_pos h

lemma publishedEvents_of_write_eq (hw : c'.workloads.write = c.workloads.write)
    (hp : c'.presents.write = c.presents.write) : c.publishedEvents c' = [] := by
  rw [publishedEvents, published_of_write_eq hw, published_of_write_eq hp]
  rfl

/-- The render worker publishes nothing. -/
lemma RenderMove.publishedEvents_eq (h : c.RenderMove events c') : c.publishedEvents c' = [] := by
  cases h with
  | drawBroken _ lost => cases lost <;> exact publishedEvents_of_write_eq rfl rfl
  | finish _ done =>
    obtain ⟨-, rfl⟩ := Ring.of_finish done
    exact publishedEvents_of_write_eq rfl rfl
  | _ => exact publishedEvents_of_write_eq rfl rfl

/-- The present worker publishes nothing. -/
lemma PresentMove.publishedEvents_eq (h : c.PresentMove events c') : c.publishedEvents c' = [] := by
  cases h with
  | uploadBroken _ lost => cases lost <;> exact publishedEvents_of_write_eq rfl rfl
  | composeBroken _ lost => cases lost <;> exact publishedEvents_of_write_eq rfl rfl
  | finish _ done =>
    obtain ⟨-, rfl⟩ := Ring.of_finish done
    exact publishedEvents_of_write_eq rfl rfl
  | _ => exact publishedEvents_of_write_eq rfl rfl

/-- The item that is published was in the slot being filled. -/
lemma published_done {α : Type} {r r' : Ring α} (h : r.Counts n i j)
    (hw : r'.write = r.after r.write) (hs : r'.slot? r.write = r.current?) :
    Pipeline.published r r' = r.current?.toList := by
  rw [Pipeline.published, if_neg (hw ▸ h.after_write_ne_write), hs]

lemma publishedEvents_publish (hw : c.workloads.Counts n i j) (hp : c.presents.Counts m k l)
    (item : Pending) : c.publishedEvents (c.publish item).2 = (c.publish item).1 := by
  cases item with
  | workload id =>
    rcases hadvance : c.workloads.advance with ⟨attempt, ring⟩
    simp only [publish, hadvance]
    rcases Ring.advance_cases hadvance with ⟨place, rfl, rfl⟩ | ⟨b, hattempt, rfl⟩
    · -- the slot that is filled next was not the one that was published
      have hslot : (Ring.modifyCurrent { c.workloads with
          write := c.workloads.after c.workloads.write, blocked := false } .reset).slot?
          c.workloads.write = c.workloads.current? := by
        refine Ring.slot?_modifyCurrent_ne ?_
        change c.workloads.write % c.workloads.size ≠ c.workloads.after c.workloads.write
        rw [Nat.mod_eq_of_lt hw.write_lt]
        exact hw.after_write_ne_write.symm
      rw [publishedEvents, published_done hw rfl hslot, published_of_write_eq rfl]
      simp
    · rcases hattempt with rfl | rfl <;> exact publishedEvents_of_write_eq rfl rfl
  | present id =>
    rcases hadvance : c.presents.advance with ⟨attempt, ring⟩
    simp only [publish, hadvance]
    rcases Ring.advance_cases hadvance with ⟨place, rfl, rfl⟩ | ⟨b, hattempt, rfl⟩
    · have hpublished : Pipeline.published c.presents { c.presents with
          write := c.presents.after c.presents.write, blocked := false } =
            c.presents.current?.toList := published_done hp rfl rfl
      dsimp only [publishedEvents]
      rw [hpublished, published_of_write_eq rfl]
      rfl
    · rcases hattempt with rfl | rfl <;> exact publishedEvents_of_write_eq rfl rfl

lemma ProducerMove.publishedEvents_eq (h : c.ProducerMove events c')
    (hw : c.workloads.Counts n i j) (hp : c.presents.Counts m k l) :
    c.publishedEvents c' = events := by
  cases h with
  | stay => exact publishedEvents_of_write_eq rfl rfl
  | fill => exact publishedEvents_of_write_eq rfl rfl
  | shutdown => exact publishedEvents_of_write_eq rfl rfl
  | publish offers =>
    cases offers with
    | pending => exact publishedEvents_publish hw hp _
    | workload idle w =>
      let c₁ : Control := { c with workloads := c.workloads.modifyCurrent fun _ => w }
      have hw₁ : c₁.workloads.Counts n i j := hw.congr Ring.size_modifyCurrent rfl rfl rfl
      have hpublish := publishedEvents_publish (c := c₁) hw₁ hp (.workload w.id)
      exact hpublish
    | present idle q =>
      let c₁ : Control := { c with presents := c.presents.setCurrent q }
      have hp₁ : c₁.presents.Counts m k l := hp.congr Ring.size_setSlot rfl rfl rfl
      have hpublish := publishedEvents_publish (c := c₁) hw hp₁ (.present q.id)
      exact hpublish

end Control

namespace Pipeline

variable {p q : Pipeline} {n m i j k l : Nat}

lemma events_render (h : p.renderStep = some q) : p.events .render q = p.renderEvents := by
  have hevents : p.events .render q = p.renderEvents ++ p.control.publishedEvents q.control :=
    List.append_assoc ..
  rw [hevents, (renderMove_of_renderStep h).publishedEvents_eq, List.append_nil]

lemma events_present (h : p.presentStep = some q) : p.events .present q = p.presentEvents := by
  have hevents : p.events .present q = p.presentEvents ++ p.control.publishedEvents q.control :=
    List.append_assoc ..
  rw [hevents, (presentMove_of_presentStep h).publishedEvents_eq, List.append_nil]

/-- What is neither a step of the render worker nor one of the present worker is a move of the
producer, whose events are those of what it publishes. -/
lemma producerMove_of_act {a : Action} (h : p.act a = some q) (hrender : a ≠ .render)
    (hpresent : a ≠ .present) (hw : p.workloads.Counts n i j) (hp : p.presents.Counts m k l) :
    p.control.ProducerMove (p.events a q) q.control := by
  have hpublished : (∃ events, p.control.ProducerMove events q.control) →
      p.control.ProducerMove (p.control.publishedEvents q.control) q.control := by
    rintro ⟨events, hmove⟩
    rw [hmove.publishedEvents_eq hw hp]
    exact hmove
  cases a with
  | render => exact absurd rfl hrender
  | present => exact absurd rfl hpresent
  | resume =>
    apply hpublished
    simp only [act, Option.map_eq_some_iff] at h
    obtain ⟨⟨reply, q'⟩, hstep, rfl⟩ := h
    obtain ⟨item, hoffers, hcontrol⟩ := producerMove_of_producerStep hstep
    rw [hcontrol]
    exact ⟨_, .publish hoffers⟩
  | call c =>
    apply hpublished
    simp only [act] at h
    split at h
    · rename_i idle
      obtain rfl := Option.some.inj h
      exact producerMove_of_perform c idle hw.write_lt
    · cases h
  | host change =>
    apply hpublished
    obtain rfl := Option.some.inj h
    cases change with
    | window swapChain => exact ⟨_, .stay⟩
    | memory count => exact ⟨_, .stay⟩
    | shutdown => exact ⟨_, .shutdown⟩

/-- Every step is a move, with the events of the step. -/
lemma move_of_act {a : Action} (h : p.act a = some q) (hw : p.workloads.Counts n i j)
    (hp : p.presents.Counts m k l) : p.control.Move (p.events a q) q.control := by
  cases a with
  | render =>
    rw [events_render h]
    exact .render (renderMove_of_renderStep h)
  | present =>
    rw [events_present h]
    exact .present (presentMove_of_presentStep h)
  | _ => exact .producer (producerMove_of_act h (by simp) (by simp) hw hp)

end Pipeline

end Scanout
