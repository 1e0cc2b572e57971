import Scanout.Proofs.Pipeline.InFlight
import Scanout.Proofs.Target.Submission

/-!
# What the workers hand to the device

The render worker hands the images of a workload to the device, one command list for each, and the
present worker the uploads of a present. A present is let in as soon as the first image of its
workload is rendered. So its uploads come after that image, and before any later workload, but
nothing makes them wait for the images in between: where the schedule has it so, they are overdrawn
by the last image of a workload that was submitted before the memory changed.
-/

namespace Scanout

/-- What a command list is handed to the device for, the copies for the screen apart. -/
inductive Delivery where
  | image (workloadId : Nat) (slot : Slot)
  | uploads (q : Present)
  deriving DecidableEq

/-- The slot of the image that is rendered but not made known. -/
def RenderPhase.slot? : RenderPhase → Option Slot
  | .publish job index => some (job.slot index)
  | _ => none

namespace Pipeline

/-- The number of command lists that the device has taken. -/
def taken (p : Pipeline) : Nat := p.shared.renderer.device.submitted.length

/-- What an action records commands for. -/
def purpose (p : Pipeline) : Action → Option Delivery
  | .render =>
    match p.render with
    | .draw job =>
      (subFrameAfter job.last job.plan.size p.workloads.blocked).map fun index =>
        .image (p.workloadAt job.place).id (job.slot index)
    | _ => none
  | .present =>
    match p.present with
    | .upload job => some (.uploads job.present)
    | _ => none
  | _ => none

/-- What an action hands to the device. -/
def deliveries (p : Pipeline) (a : Action) : List Delivery :=
  match p.act a with
  | some q => if p.taken < q.taken then (p.purpose a).toList else []
  | none => []

/-- The pipeline can come from `start` to another state by a run with the given events, in which
this was handed to the device. -/
inductive DeliveryRun (start : Pipeline) : History → List Delivery → Pipeline → Prop where
  | nil : DeliveryRun start [] [] start
  | step {log : History} {ds : List Delivery} {p q : Pipeline} (before : DeliveryRun start log ds p)
      (a : Action) (h : p.act a = some q) :
      DeliveryRun start (log ++ p.events a q) (ds ++ p.deliveries a) q

/-- A run from the start of the pipeline, and what was handed to the device in it. -/
def Delivered (log : History) (ds : List Delivery) (p : Pipeline) : Prop :=
  ∃ host config start, Pipeline.start host config = .ok start ∧ DeliveryRun start log ds p

/-- What is handed to the device by those actions in a row that are possible. -/
def deliver (p : Pipeline) : List Action → List Delivery
  | [] => []
  | a :: actions =>
    match p.act a with
    | some q => p.deliveries a ++ q.deliver actions
    | none => p.deliver actions

/-- The last image of the workload in production is rendered, whether made known or not. -/
def finalRendered (p : Pipeline) : Bool :=
  p.shared.production.complete || p.render.slot? = some .main

variable {start p q : Pipeline} {log : History} {ds : List Delivery}

lemma DeliveryRun.run (h : DeliveryRun start log ds p) : Run start log p := by
  induction h with
  | nil => exact .nil
  | step _ a hact ih => exact ih.step a hact

lemma DeliveryRun.follow (h : DeliveryRun start log ds p) (actions : List Action) :
    DeliveryRun start (log ++ (p.follow actions).1) (ds ++ p.deliver actions)
      (p.follow actions).2 := by
  induction actions generalizing log ds p with
  | nil => simpa [Pipeline.follow, deliver] using h
  | cons a actions ih =>
    cases hact : p.act a with
    | none => simpa only [Pipeline.follow, deliver, hact] using ih h
    | some q =>
      simp only [Pipeline.follow, deliver, hact]
      rw [← List.append_assoc, ← List.append_assoc]
      exact ih (h.step a hact)

lemma delivered_sample {config : Config} (h : (Pipeline.start .default config).isOk = true)
    (actions : List Action) :
    Delivered (sample config actions).1 ((fresh config).deliver actions)
      (sample config actions).2 :=
  ⟨.default, config, _, start_fresh h, by simpa [sample] using DeliveryRun.nil.follow actions⟩

/-- A worker that stops hands nothing more to the device. -/
lemma taken_renderStopped (stop : Stop) :
    (p.renderStopped stop).taken = p.taken ∧ (p.renderStopped stop).render.slot? = none := by
  cases stop <;> exact ⟨rfl, rfl⟩

/-- An image that is drawn is handed to the device, unless the worker stops. -/
lemma drawImage_cases {job : RenderJob} {index : Nat}
    (image : subFrameAfter job.last job.plan.size p.workloads.blocked = some index) :
    ((p.drawImage job).render.slot? = some (job.slot index) ∧
        (p.drawImage job).shared.production = p.shared.production ∧
        (p.drawImage job).taken = p.taken + 1) ∨
      (p.drawImage job).render.slot? = none ∧ (p.drawImage job).taken = p.taken := by
  have hsubmits : ((p.workloadAt job.place).renderImage p.matcher
      (job.plan.subFrames.getD index .direct) (job.slot index)).Submits p.shared.renderer :=
    Workload.submits_renderImage
  simp only [Rendering.Submits] at hsubmits
  simp only [drawImage, image, Shared.render]
  cases hrender : (p.workloadAt job.place).renderImage p.matcher
      (job.plan.subFrames.getD index .direct) (job.slot index) p.shared.renderer with
  | ok _ r =>
    simp only [hrender] at hsubmits
    obtain ⟨commands, hsubmitted⟩ := hsubmits
    refine .inl ⟨rfl, rfl, ?_⟩
    simp only [taken, hsubmitted, List.length_cons]
  | error e r =>
    simp only [hrender] at hsubmits
    obtain ⟨htaken, hslot⟩ := taken_renderStopped
      (p := { p with shared := { p.shared with renderer := r } }) e
    refine .inr ⟨hslot, htaken.trans ?_⟩
    simp only [taken, hsubmits]

lemma taken_presentStopped (id : Nat) (stop : Stop) :
    (p.presentStopped id stop).taken = p.taken ∧
      (p.presentStopped id stop).present.leaving = true := by
  cases stop <;> exact ⟨rfl, rfl⟩

/-- The uploads of a present are handed to the device, unless there are none or the worker stops. -/
theorem deliveries_uploadChanges {job : PresentJob} (at_ : p.present = .upload job) :
    p.deliveries .present =
      if job.present.operations.isEmpty ∨ (p.uploadChanges job).present.leaving then []
      else [.uploads job.present] := by
  have hact : p.act .present = some (p.uploadChanges job) := by simp only [act, presentStep, at_]
  have hpurpose : p.purpose .present = some (.uploads job.present) := by simp only [purpose, at_]
  have hsubmits : (Rendering.upload job.present.operations).Submits p.shared.renderer :=
    Rendering.submits_upload
  simp only [Rendering.Submits] at hsubmits
  simp only [deliveries, hact, hpurpose]
  by_cases hempty : job.present.operations.isEmpty = true
  · have htaken : (p.uploadChanges job).taken = p.taken := by
      simp only [uploadChanges, hempty, if_true]
      rfl
    rw [if_neg (by omega), if_pos (.inl hempty)]
  · cases hupload : Rendering.upload job.present.operations p.shared.renderer with
    | ok _ r =>
      simp only [hupload] at hsubmits
      obtain ⟨commands, hsubmitted⟩ := hsubmits
      simp [uploadChanges, Shared.render, hempty, hupload, taken, modifyStats, modifyShared,
        hsubmitted, PresentPhase.leaving]
    | error e r =>
      simp only [hupload] at hsubmits
      obtain ⟨htaken, hleaving⟩ := taken_presentStopped
        (p := { p with shared := { p.shared with renderer := r } }) job.present.id e
      have hstopped : p.uploadChanges job =
          { p with shared := { p.shared with renderer := r } }.presentStopped job.present.id e := by
        simp [uploadChanges, Shared.render, hempty, hupload]
      rw [← hstopped] at htaken hleaving
      have hsame : (p.uploadChanges job).taken = p.taken := htaken.trans (by simp [taken, hsubmits])
      rw [if_neg (by omega), if_pos (.inr hleaving)]

end Pipeline

/-- The images among what was handed to the device. -/
def Delivery.images (ds : List Delivery) : List (Nat × Slot) :=
  ds.filterMap fun
    | .image v slot => some (v, slot)
    | .uploads _ => none

/-- The images that were made known, in order. -/
def History.images (log : History) : List (Nat × Slot) :=
  log.filterMap fun
    | .produced v slot => some (v, slot)
    | _ => none

namespace Delivery

variable {ds es : List Delivery} {v : Nat} {slot : Slot}

@[simp] lemma images_append : images (ds ++ es) = images ds ++ images es := List.filterMap_append

lemma mem_images : (v, slot) ∈ images ds ↔ .image v slot ∈ ds := by
  simp only [images, List.mem_filterMap]
  constructor
  · rintro ⟨d, hd, heq⟩
    cases d with
    | image => cases heq; exact hd
    | uploads => cases heq
  · intro hd
    exact ⟨_, hd, rfl⟩

end Delivery

namespace History

variable {log events : History} {v : Nat} {slot : Slot}

@[simp] lemma images_append : images (log ++ events) = log.images ++ events.images :=
  List.filterMap_append

lemma images_of_party (h : ∀ e ∈ events, e.party ≠ .render) : events.images = [] := by
  rw [images, List.filterMap_eq_nil_iff]
  intro e he
  have hparty := h e he
  cases e <;> simp [Event.party] at hparty ⊢

lemma mem_images : (v, slot) ∈ log.images ↔ slot ∈ log.produced v := by
  simp only [images, produced, List.mem_filterMap]
  constructor
  · rintro ⟨e, he, heq⟩
    refine ⟨e, he, ?_⟩
    cases e with
    | produced v' slot' => cases heq; exact if_pos rfl
    | _ => cases heq
  · rintro ⟨e, he, heq⟩
    refine ⟨e, he, ?_⟩
    cases e with
    | produced v' slot' =>
      dsimp only at heq
      split at heq
      · cases heq
        simp [*]
      · cases heq
    | _ => cases heq

end History

namespace Control

variable {c c' : Control} {log events : History} {n m : Nat}

/-- The image that is rendered but not made known. -/
def unpublished (c : Control) : List (Nat × Slot) :=
  c.render.slot?.toList.map fun slot => (c.production.workloadId, slot)

/-- What is told about the workload in production: it is complete with its last image, and
announced with its first. -/
structure Told (c : Control) : Prop where
  complete : c.production.complete = true ↔ .main ∈ c.production.produced
  announcing : ∀ job, c.render = .announce job → c.production.produced ≠ []
  announced : 0 < c.production.workloadId → c.workloadSignal.value = c.production.workloadId →
    c.production.produced ≠ []

namespace Told

lemma start : (Control.start n m).Told := by
  refine ⟨by simp [Control.start, Production.new], ?_, ?_⟩
  · rintro job ⟨⟩
  · rintro h
    exact absurd h (Nat.lt_irrefl 0)

/-- Nothing is told. -/
lemma same (h : c.Told) (hid : c'.production.workloadId = c.production.workloadId)
    (hproduced : c'.production.produced = c.production.produced)
    (hcomplete : c'.production.complete = c.production.complete)
    (hvalue : c'.workloadSignal.value = c.workloadSignal.value)
    (hannounce : ∀ job, c'.render = .announce job → c.render = .announce job) : c'.Told := by
  refine ⟨by rw [hcomplete, hproduced]; exact h.complete, ?_, ?_⟩
  · intro job at_
    rw [hproduced]
    exact h.announcing job (hannounce job at_)
  · rw [hid, hvalue, hproduced]
    exact h.announced

lemma publish (h : c.Told) {slot : Slot} {skipped : Bool}
    (hproduction : c'.production = c.production.publish slot skipped) : c'.Told := by
  have hproduced : c'.production.produced ≠ [] := by simp [hproduction]
  refine ⟨?_, fun _ _ => hproduced, fun _ _ => hproduced⟩
  have hcomplete := h.complete
  rw [hproduction, Production.produced_publish]
  cases slot with
  | main => simp [Production.publish, Production.produce, Production.finish]
  | intermediate => simpa [Production.publish, Production.produce] using hcomplete

lemma render (ho : c.Ordered log) (hf : c.RenderFacts log.workloadsConsumed) (h : c.Told)
    (m : c.RenderMove events c') : c'.Told := by
  cases m with
  | @plan place at_ plan rates images =>
    simp only [RenderFacts, at_] at hf
    have hid := ho.id_workloadAt place (by rw [at_]; rfl)
    refine ⟨by simp [Production.start, Production.new], by simp, fun _ heq => ?_⟩
    dsimp only [Production.start] at heq
    omega
  | publish at_ => exact h.publish rfl
  | @announce job at_ =>
    exact ⟨h.complete, by simp, fun _ _ => h.announcing job at_⟩
  | drawBroken at_ lost => cases lost <;> exact h.same rfl rfl rfl rfl (by simp [breakRender])
  | planLost | finishLost => exact h.same rfl rfl rfl rfl (by simp [breakRender])
  | _ => exact h.same rfl rfl rfl rfl (by simp)

lemma move (ho : c.Ordered log) (hf : c.RenderFacts log.workloadsConsumed) (h : c.Told)
    (m : c.Move events c') : c'.Told := by
  cases m with
  | render m => exact h.render ho hf m
  | present m =>
    have hframe := m.frame
    refine h.same hframe.workloadId hframe.produced hframe.complete hframe.workloadValue ?_
    rw [hframe.render]
    exact fun _ at_ => at_
  | producer m =>
    have hframe := m.frame
    refine h.same ?_ ?_ ?_ hframe.workloadValue ?_
    · rw [hframe.production]
    · rw [hframe.production]
    · rw [hframe.production]
    · rw [hframe.render]
      exact fun _ at_ => at_

end Told

lemma Reached.told (h : Reached n m log c) : c.Told := by
  induction h with
  | start => exact .start
  | step before move ih => exact ih.move before.ordered before.renderFacts move

/-- The other parties leave the image that is rendered but not made known. -/
lemma unpublished_congr (hrender : c'.render = c.render)
    (hid : c'.production.workloadId = c.production.workloadId) :
    c'.unpublished = c.unpublished := by
  rw [unpublished, hrender, hid, unpublished]

/-- An image is made known a step after it was rendered. -/
lemma RenderMove.unpublished_eq (ho : c.Ordered log) (hf : c.RenderFacts log.workloadsConsumed)
    (m : c.RenderMove events c') (hdraw : ∀ job, c.render ≠ .draw job) :
    c.unpublished = events.images ++ c'.unpublished := by
  cases m with
  | @publish job index at_ =>
    simp only [RenderFacts, at_] at hf
    have hid := ho.id_workloadAt job.place (by rw [at_]; rfl)
    have hnext : (if job.rendered.length = 1 then RenderPhase.announce job
        else RenderPhase.draw job).slot? = none := by
      split <;> rfl
    simp only [unpublished, at_, hnext]
    simp [RenderPhase.slot?, History.images, hid, hf.1]
  | draw at_ => exact absurd at_ (hdraw _)
  | drawBroken at_ => exact absurd at_ (hdraw _)
  | planLost at_ => simp [unpublished, at_, RenderPhase.slot?, History.images, breakRender]
  | finishLost at_ => simp [unpublished, at_, RenderPhase.slot?, History.images, breakRender]
  | claim at_ | close at_ | pass at_ | giveUp at_ | abandon at_ | configure at_ | plan at_
  | exhaust at_ | announce at_ | conclude at_ | finish at_ | release at_ | leave at_ =>
    simp [unpublished, at_, RenderPhase.slot?, History.images]

end Control

namespace Pipeline

variable {start p q : Pipeline} {log : History} {ds : List Delivery} {n m : Nat}

lemma images_deliveries {a : Action} (h : a ≠ .render) :
    Delivery.images (p.deliveries a) = [] := by
  have hpurpose : Delivery.images (p.purpose a).toList = [] := by
    cases a with
    | render => exact absurd rfl h
    | present =>
      simp only [purpose]
      split <;> rfl
    | _ => rfl
  simp only [deliveries]
  split
  · split
    · exact hpurpose
    · rfl
  · rfl

lemma unpublished_of_slot? (h : p.render.slot? = none) : p.control.unpublished = [] := by
  simp [Control.unpublished, show p.control.render = p.render from rfl, h]

/-- An image that is drawn is handed over before it is made known. -/
lemma images_deliveries_draw {job : RenderJob} (at_ : p.render = .draw job)
    (hid : (p.workloadAt job.place).id = p.shared.production.workloadId) :
    Delivery.images (p.deliveries .render) =
      (p.drawImage job).control.unpublished := by
  have hact : p.act .render = some (p.drawImage job) := by simp only [act, renderStep, at_]
  cases image : subFrameAfter job.last job.plan.size p.workloads.blocked with
  | none =>
    have hpurpose : p.purpose .render = none := by simp only [purpose, at_, image, Option.map_none]
    have hslot : (p.drawImage job).render.slot? = none := by
      simp only [drawImage, image]
      rfl
    rw [unpublished_of_slot? hslot]
    simp [deliveries, hact, hpurpose, Delivery.images]
  | some index =>
    have hpurpose : p.purpose .render =
        some (.image (p.workloadAt job.place).id (job.slot index)) := by
      simp only [purpose, at_, image, Option.map_some]
    simp only [deliveries, hact, hpurpose]
    rcases drawImage_cases image with ⟨hslot, hproduction, htaken⟩ | ⟨hslot, htaken⟩
    · rw [if_pos (by omega)]
      simp [Delivery.images, Control.unpublished, control, hslot, hproduction, hid]
    · rw [if_neg (by omega), unpublished_of_slot? hslot]
      rfl

/-- The render worker hands over an image when it draws it, and makes it known a step later. -/
lemma images_deliveries_render (ho : p.control.Ordered log)
    (hf : p.control.RenderFacts log.workloadsConsumed) (h : p.renderStep = some q) :
    p.control.unpublished ++ Delivery.images (p.deliveries .render) =
      History.images (p.events .render q) ++ q.control.unpublished := by
  rw [events_render h]
  by_cases hdraw : ∃ job, p.render = .draw job
  · obtain ⟨job, at_⟩ := hdraw
    have hphase : p.control.render = .draw job := at_
    have hid := ho.id_workloadAt job.place (by rw [hphase]; rfl)
    simp only [Control.RenderFacts, hphase] at hf
    obtain rfl : p.drawImage job = q := by simpa [renderStep, at_] using h
    have hunpublished : p.control.unpublished = [] :=
      unpublished_of_slot? (by rw [at_]; rfl)
    have hevents : History.images p.renderEvents = [] := by
      simp [renderEvents, at_, History.images]
    rw [hunpublished, hevents, images_deliveries_draw at_ (hid.trans hf.1.symm)]
  · have hpurpose : p.purpose .render = none := by
      simp only [purpose]
      split
      · exact absurd ⟨_, ‹_›⟩ hdraw
      · rfl
    have hnone : p.deliveries .render = [] := by simp [deliveries, act, h, hpurpose]
    rw [hnone]
    have hmove := (renderMove_of_renderStep h).unpublished_eq ho hf fun job at_ => hdraw ⟨job, at_⟩
    simpa [Delivery.images] using hmove

/-- What is handed over is what was made known, and the image that is about to be. -/
lemma DeliveryRun.images_eq (hstart : start.control = .start n m) (h : DeliveryRun start log ds p) :
    Delivery.images ds = log.images ++ p.control.unpublished := by
  induction h with
  | nil => simp [hstart, Delivery.images, History.images, Control.unpublished, Control.start,
      RenderPhase.slot?]
  | @step log ds p q before a hact ih =>
    have hreached := before.run.reached hstart
    obtain ⟨_, hworkloads, -⟩ := hreached.ordered.workloads.counts
    obtain ⟨_, hpresents, -⟩ := hreached.ordered.presents.counts
    have hother : (∀ e ∈ p.events a q, e.party ≠ .render) →
        q.control.unpublished = p.control.unpublished → a ≠ .render →
          p.control.unpublished ++ Delivery.images (p.deliveries a) =
            History.images (p.events a q) ++ q.control.unpublished := by
      intro hparty hunpublished hrender
      rw [images_deliveries hrender, History.images_of_party hparty, hunpublished,
        List.append_nil, List.nil_append]
    rw [Delivery.images_append, ih, History.images_append, List.append_assoc, List.append_assoc]
    congr 1
    by_cases hrender : a = .render
    · subst hrender
      exact images_deliveries_render hreached.ordered hreached.renderFacts hact
    by_cases hpresent : a = .present
    · subst hpresent
      have move := presentMove_of_presentStep hact
      refine hother ?_ (Control.unpublished_congr move.frame.render move.frame.workloadId) hrender
      rw [events_present hact]
      exact fun e he => by simp [move.party e he]
    · have hframe := (producerMove_of_act hact hrender hpresent hworkloads hpresents).frame
      refine hother (fun e he => by simp [hframe.party e he]) ?_ hrender
      exact Control.unpublished_congr hframe.render (congrArg _ hframe.production)

lemma Delivered.reached (h : Delivered log ds p) :
    ∃ n m, Control.Reached n m log p.control ∧
      Delivery.images ds = log.images ++ p.control.unpublished := by
  obtain ⟨host, config, start, hstart, hrun⟩ := h
  obtain ⟨hcontrol, -, -⟩ := control_of_start hstart
  exact ⟨_, _, hrun.run.reached hcontrol, hrun.images_eq hcontrol⟩

/-- The images of the workload in production that were handed over: those that are known, and the
one that is about to be. -/
lemma image_mem_iff (h : Delivered log ds p) {slot : Slot} :
    .image p.shared.production.workloadId slot ∈ ds ↔
      slot ∈ p.shared.production.produced ∨ p.render.slot? = some slot := by
  obtain ⟨n, m, hreached, himages⟩ := h.reached
  rw [← Delivery.mem_images, himages, List.mem_append, History.mem_images,
    show log.produced p.shared.production.workloadId = _ from hreached.images.current]
  simp [Control.unpublished, control]

lemma le_of_image_mem (h : Delivered log ds p) {v : Nat} {slot : Slot} (hd : .image v slot ∈ ds) :
    v ≤ p.shared.production.workloadId := by
  obtain ⟨n, m, hreached, himages⟩ := h.reached
  rw [← Delivery.mem_images, himages, List.mem_append, History.mem_images] at hd
  rcases hd with hd | hd
  · by_contra hlt
    rw [hreached.images.later v (Nat.not_le.mp hlt)] at hd
    cases hd
  · obtain ⟨_, -, heq⟩ := List.mem_map.mp hd
    exact (Prod.mk.inj heq).1.ge

lemma purpose_of_mem {a : Action} {d : Delivery} (hd : d ∈ p.deliveries a) :
    p.purpose a = some d := by
  simp only [deliveries] at hd
  split at hd
  · split at hd
    · exact Option.mem_toList.mp hd
    · cases hd
  · cases hd

lemma upload_of_mem {present : Present} (hd : .uploads present ∈ p.deliveries .present) :
    ∃ job, p.present = .upload job ∧ job.present = present := by
  have hpurpose := purpose_of_mem hd
  simp only [purpose] at hpurpose
  split at hpurpose
  · rename_i job at_
    simp only [Option.some.injEq, Delivery.uploads.injEq] at hpurpose
    exact ⟨job, at_, hpurpose⟩
  · cases hpurpose

lemma draw_of_mem {a : Action} {v : Nat} {slot : Slot} (hd : .image v slot ∈ p.deliveries a) :
    ∃ job index, p.render = .draw job ∧
      subFrameAfter job.last job.plan.size p.workloads.blocked = some index ∧
      (p.workloadAt job.place).id = v := by
  have hpurpose := purpose_of_mem hd
  cases a with
  | render =>
    simp only [purpose] at hpurpose
    split at hpurpose
    · rename_i job at_
      obtain ⟨index, image, heq⟩ := Option.map_eq_some_iff.mp hpurpose
      exact ⟨job, index, at_, image, (Delivery.image.inj heq).1⟩
    · cases hpurpose
  | present =>
    simp only [purpose] at hpurpose
    split at hpurpose <;> cases hpurpose
  | _ => cases hpurpose

/-- Nothing is drawn for a workload after its last image. -/
lemma image_not_mem_deliveries (h : Delivered log ds p) {v : Nat} (hmain : .image v .main ∈ ds)
    {a : Action} {slot : Slot} : .image v slot ∉ p.deliveries a := by
  intro hd
  obtain ⟨job, index, at_, image, rfl⟩ := draw_of_mem hd
  obtain ⟨n, m, hreached, -⟩ := h.reached
  have hphase : p.control.render = .draw job := at_
  have hfacts := hreached.renderFacts
  simp only [Control.RenderFacts, hphase] at hfacts
  obtain ⟨hproduction, hreaches, -⟩ := hfacts
  have hid : (p.workloadAt job.place).id = p.shared.production.workloadId :=
    (hreached.ordered.id_workloadAt job.place (by rw [hphase]; rfl)).trans hproduction.symm
  -- there is an image left to draw, so the production is open
  obtain ⟨hnext, hindex⟩ := Control.of_subFrameAfter image
  obtain ⟨-, indices, hproduced, -⟩ := hreaches.openBelow (Nat.lt_of_le_of_lt hnext hindex)
  have hproduced : p.shared.production.produced = indices.map Slot.intermediate := hproduced
  rw [hid, image_mem_iff h, hproduced, at_] at hmain
  simp [RenderPhase.slot?] at hmain

/-- A run may go on from where another one has come to. -/
lemma Delivered.append {p' : Pipeline} {log' : History} {ds' : List Delivery}
    (h : Delivered log ds p) (h' : DeliveryRun p log' ds' p') :
    Delivered (log ++ log') (ds ++ ds') p' := by
  induction h' with
  | nil => simpa using h
  | step _ a hact ih =>
    obtain ⟨host, config, start, hstart, hrun⟩ := ih
    rw [← List.append_assoc, ← List.append_assoc]
    exact ⟨host, config, start, hstart, hrun.step a hact⟩

lemma image_not_mem_of_main {p' : Pipeline} {log' : History} {ds' : List Delivery}
    (h : Delivered log ds p) (h' : DeliveryRun p log' ds' p') {v : Nat}
    (hmain : .image v .main ∈ ds) {slot : Slot} : .image v slot ∉ ds' := by
  induction h' with
  | nil => exact List.not_mem_nil
  | step before a hact ih =>
    rw [List.mem_append, not_or]
    exact ⟨ih, image_not_mem_deliveries (h.append before) (List.mem_append_left _ hmain)⟩

/-- When the uploads of a present are handed over, its workload is in production and announced. -/
lemma announced_of_uploads {present : Present} (h : Control.Reached n m log p.control)
    (hd : .uploads present ∈ p.deliveries .present) (hpos : 0 < present.workloadId) :
    p.shared.production.workloadId = present.workloadId ∧ p.shared.production.produced ≠ [] := by
  obtain ⟨job, at_, rfl⟩ := upload_of_mem hd
  have hphase : p.control.present = .upload job := at_
  have hq := h.admitted_of_present? (q := job.present) (by rw [hphase]; rfl) (by simp [hphase])
  have hid : p.shared.production.workloadId = job.present.workloadId :=
    h.production_of_admitted hq hpos
  have hvalue : p.control.workloadSignal.value = p.control.production.workloadId :=
    Nat.le_antisymm h.renderFacts.workloadValue_le.1 (hid.le.trans (h.workloadId_le hq))
  exact ⟨hid, h.told.announced (hid.symm ▸ hpos) hvalue⟩

/-- The uploads of a present are handed over after the first image of its workload and before any
image of a later one. They come after the last image of their workload exactly if the render worker
has rendered it by then, and then nothing is drawn for that workload any more. That is so if only
one image was planned, and, while nothing is stopped, if a visible present of the same workload was
done before. -/
theorem uploads_follow_last_image_iff (h : Delivered log ds p) {present : Present}
    (hd : .uploads present ∈ p.deliveries .present) (hpos : 0 < present.workloadId) :
    (∃ slot, .image present.workloadId slot ∈ ds) ∧
    (∀ v slot, .image v slot ∈ ds → v ≤ present.workloadId) ∧
    (.image present.workloadId .main ∈ ds ↔ p.finalRendered = true) ∧
    (p.finalRendered = true → ∀ log' ds' p', DeliveryRun p log' ds' p' →
      ∀ slot, .image present.workloadId slot ∉ ds') ∧
    (p.shared.production.planned = 1 → .image present.workloadId .main ∈ ds) ∧
    (p.shared.running = true → ∀ earlier ∈ log.requested, earlier.visible = true →
      earlier.workloadId = present.workloadId → .done earlier.id ∈ log →
        .image present.workloadId .main ∈ ds) := by
  obtain ⟨n, m, hreached, -⟩ := h.reached
  obtain ⟨hid, hproduced⟩ := announced_of_uploads hreached hd hpos
  have hcomplete : p.shared.production.complete = true ↔ .main ∈ p.shared.production.produced :=
    hreached.told.complete
  have hmain : .image present.workloadId .main ∈ ds ↔ p.finalRendered = true := by
    rw [← hid, image_mem_iff h, ← hcomplete]
    simp [finalRendered]
  have hknown : .main ∈ p.shared.production.produced → .image present.workloadId .main ∈ ds := by
    rw [← hid, image_mem_iff h]
    exact .inl
  refine ⟨?_, ?_, hmain, ?_, ?_, ?_⟩
  · obtain ⟨slot, hslot⟩ := List.exists_mem_of_ne_nil _ hproduced
    exact ⟨slot, hid ▸ (image_mem_iff h).mpr (.inl hslot)⟩
  · intro v slot himage
    exact hid ▸ le_of_image_mem h himage
  · intro hrendered log' ds' p' hlater slot
    exact image_not_mem_of_main h hlater (hmain.mpr hrendered)
  · intro hplanned
    -- an open production lacks at least one of the images planned
    have hopen : p.shared.production.complete = false → p.shared.production.workloadId ≠ 0 →
        p.shared.production.produced.length < p.shared.production.planned :=
      hreached.images.length_lt
    have hlength := List.length_pos_iff.mpr hproduced
    apply hknown
    rw [← hcomplete]
    by_contra hnot
    have hlt := hopen (by simpa using hnot) (by omega)
    omega
  · intro hrunning earlier hin hvisible hsame hdone
    have hshown := hreached.shown_of_done hrunning hin hdone
    obtain ⟨indices, hfinished, -⟩ := hshown.finished hvisible (hsame ▸ hpos)
    have hcurrent : log.produced p.shared.production.workloadId = p.shared.production.produced :=
      hreached.images.current
    apply hknown
    rw [← hcurrent, hid, ← hsame, hfinished]
    simp

/-- Memory of one byte. -/
def oneByte (b : UInt8) : ByteArray := ⟨#[b]⟩

/-- Draw one row of an image at the start of memory. -/
def fillDot (w : Workload) : Workload :=
  (w.setColorImage 0 .bits8 1).addDraw ⟨0, 3, none, ⟨0, 0, 1, 1⟩, .zero, false⟩

/-- A byte changes after two frames were submitted, and the screen that brings it in is let in when
the second frame has one image of two. -/
def dotChanges : List Action :=
  .call (.fill fillDot) :: .call (.submitWorkload (oneByte 0) 30) ::
    (List.replicate 13 .render ++
      .call (.fill fillDot) :: .call (.submitWorkload (oneByte 0) 30) ::
        .call (.submitPresent smallScreen (oneByte 1)) ::
        (List.replicate 8 .render ++ List.replicate 3 .present))

/-- The screen that brings the byte in. -/
def dotPresent : Present :=
  ⟨1, smallScreen, 2, [.upload .color ⟨0, .bits8, 1, ⟨0, 0, 1, 1⟩, oneByte 1⟩], ByteArray.empty,
    false⟩

/-- The uploads wait for one image of their frame only. -/
theorem second_frame_announced :
    .uploads dotPresent ∈ (sample displayed dotChanges).2.deliveries .present ∧
      (∃ slot, .image 2 slot ∈ (fresh displayed).deliver dotChanges) ∧
      .image 2 .main ∉ (fresh displayed).deliver dotChanges := by
  have hdelivered : Delivered (sample displayed dotChanges).1 ((fresh displayed).deliver dotChanges)
      (sample displayed dotChanges).2 :=
    delivered_sample (by decide +kernel) dotChanges
  have huploads : .uploads dotPresent ∈ (sample displayed dotChanges).2.deliveries .present := by
    decide +kernel
  obtain ⟨hfirst, -, hmain, -⟩ :=
    uploads_follow_last_image_iff hdelivered huploads (by decide +kernel)
  have hlacks : ¬ (sample displayed dotChanges).2.finalRendered = true := by decide +kernel
  exact ⟨huploads, hfirst, fun himage => hlacks (hmain.mp himage)⟩

/-- Then the upload is made, and the second frame gets its last image. -/
def dotOverdrawn : List Action := dotChanges ++ .present :: List.replicate 2 .render

end Pipeline

/-- The texture that a command writes to. -/
def Command.writes : Command → TextureId
  | .upload target .. => target
  | .copy _ destination .. => destination
  | .barrier texture => texture
  | .draw d => d.color

namespace Pipeline

/-- The second frame was submitted before the byte changed, but its last image is handed to the
device after the upload, and drawn into the texture that the byte was brought into. -/
theorem changed_dot_overdrawn :
    Delivered (sample displayed dotOverdrawn).1
      [.image 1 .main, .image 2 (.intermediate 0), .uploads dotPresent, .image 2 .main]
      (sample displayed dotOverdrawn).2 ∧
    (sample displayed dotOverdrawn).2.shared.renderer.device.submitted.map
      (·.map Command.writes) = [[1], [1], [2], [1, 1]] := by
  have hdelivered : Delivered (sample displayed dotOverdrawn).1
      ((fresh displayed).deliver dotOverdrawn) (sample displayed dotOverdrawn).2 :=
    delivered_sample (by decide +kernel) dotOverdrawn
  have hdeliveries : (fresh displayed).deliver dotOverdrawn =
      [.image 1 .main, .image 2 (.intermediate 0), .uploads dotPresent, .image 2 .main] := by
    decide +kernel
  rw [hdeliveries] at hdelivered
  exact ⟨hdelivered, by decide +kernel⟩

end Pipeline

end Scanout
