import Scanout.Proofs.Pipeline.Provenance
import Scanout.Proofs.Pipeline.Rendered
import Scanout.Proofs.Target.Chronicle

/-!
# Commands by law

A law that fits what the producer prepares is obeyed by all commands that a run records: by those of
the images and of the uploads on account of the operations, which were queued when workloads and
presents were prepared, and by those that fill the scratch image on account of what the screens
show.
-/

namespace Scanout

/-- The law fits the operations that are queued, and the ways in which the scratch image is filled
for the calls allowed. -/
structure Law.Fits (law : Law) (allowed : Action → Prop) : Prop where
  queued : ∀ op : Operation, op.Queued → op.Obeys law
  bytes : ∀ (screen : Screen) (ram storage : ByteArray),
    allowed (.call (.submitPresent screen ram)) → screen.visible = true →
      Pipeline.storageOf screen ram = .ok storage → ∀ kinds x,
        law.Holds kinds (.upload x screen.visibleRect (screen.size?.getD .bits16) storage)
  image : ∀ kinds x y kind rect, purpose? kinds x = some kind →
    purpose? kinds y = some .present → law.Holds kinds (.copy x y rect (kind = .depth))

variable {allowed : Action → Prop}

namespace Present

variable {q : Present}

/-- What a present uploads was found by a check, and is uploaded as colors. -/
lemma PreparedBy.uploads (h : q.PreparedBy allowed) :
    ∀ op ∈ q.operations, ∃ change : MemoryChange, change.Found ∧ op = .upload .color change := by
  obtain ⟨hnone, -⟩ | ⟨ram, p, table, -, hprepare⟩ := h
  · simp [hnone]
  · have hneeds := Pipeline.screenNeeds_of_prepareScreen hprepare
    generalize q.operations = ops, q.storage = storage at hneeds
    cases hneeds with
    | nothing | bytes => simp
    | @changes fb fb' change visible known checked =>
      intro op hop
      obtain ⟨found, hfound, rfl⟩ := List.mem_map.mp hop
      rw [Option.mem_toList.mp hfound] at checked
      exact ⟨found, ⟨fb, fb', ram, checked⟩, rfl⟩

lemma PreparedBy.queued (h : q.PreparedBy allowed) : ∀ op ∈ q.operations, op.Queued := by
  intro op hop
  obtain ⟨change, hfound, rfl⟩ := h.uploads op hop
  exact .upload hfound

/-- The bytes that a present brings along are those that its screen shows. -/
lemma PreparedBy.bytes (h : q.PreparedBy allowed) (hbytes : q.storage.isEmpty = false) :
    ∃ ram, allowed (.call (.submitPresent q.screen ram)) ∧ q.screen.visible = true ∧
      Pipeline.storageOf q.screen ram = .ok q.storage := by
  obtain ⟨-, hnone⟩ | ⟨ram, p, table, hallowed, hprepare⟩ := h
  · rw [hnone] at hbytes
    cases hbytes
  · have hneeds := Pipeline.screenNeeds_of_prepareScreen hprepare
    generalize q.operations = ops, q.storage = storage at hneeds hbytes
    cases hneeds with
    | nothing | changes => cases hbytes
    | bytes visible unknown read => exact ⟨ram, hallowed, visible, read⟩

end Present

/-- Marks leave nothing to obey. -/
lemma Operation.IsMark.obeys {op : Operation} {law : Law} (h : op.IsMark) : op.Obeys law := by
  cases op with
  | synchronize => trivial
  | _ => cases h

namespace Pipeline

variable {p q : Pipeline} {log : History} {law : Law} {before : List TargetKind}

/-- An action obeys a law that fits what was prepared for it. -/
lemma obeys_act {a : Action} {n m : Nat} (hfits : law.Fits allowed)
    (hsupplied : p.Supplied allowed log) (hreached : Control.Reached n m log p.control)
    (h : p.shared.renderer.Obeys law before) (hact : p.act a = some q) :
    q.shared.renderer.Obeys law before := by
  have hpresent : ∀ present, p.present.present? = some present → present.PreparedBy allowed := by
    intro present hpresent
    exact hsupplied.requested _
      (List.mem_of_getElem? (hreached.ordered.presents.inHand present hpresent))
  cases rendered_of_act hact with
  | same _ renderer => exact renderer ▸ h
  | memory renderer =>
    rw [renderer]
    exact h.shrink rfl rfl (List.Subset.refl _) (fun _ _ => id) h.lawful
  | configured _ renderer =>
    rw [renderer]
    exact h.setConfig _
  | @image job index at_ _ renderer =>
    rw [renderer]
    have hworkload := hreached.ordered.workloads.workloadAt job.place
      (by rw [show p.control.render = .draw job from at_]; rfl)
    have hprepared := (hsupplied.submitted _ (List.mem_of_getElem? hworkload)).prepared
    refine Workload.keeps_renderImage (fun pair hpair op hop => ?_) h
    rcases List.mem_append.mp hop with hop | hop
    · exact hfits.queued op ((hprepared pair hpair).before op hop)
    · exact ((hprepared pair hpair).after op hop).obeys
  | @uploads job at_ renderer =>
    rw [renderer]
    have hqueued := (hpresent job.present (by rw [at_]; rfl)).queued
    exact Rendering.keeps_upload (fun op hop => hfits.queued op (hqueued op hop)) h
  | @scratch job slot command at_ fills renderer =>
    rw [renderer]
    have hprepared := hpresent job.present (by rw [at_]; rfl)
    refine Rendering.keeps_throughScratch (fun _ kinds x hle hx => ?_) h
    cases fills with
    | @image t found =>
      have ht := h.targets t (Shared.mem_of_imageTarget? found)
      exact hfits.image _ _ _ _ _ (purpose?_mono hle ht) hx
    | storage unseen bytes =>
      obtain ⟨ram, hallowed, hvisible, hread⟩ := hprepared.bytes bytes
      exact hfits.bytes _ ram _ hallowed hvisible hread kinds x

lemma obeys_start {host : Host} {config : Config} (h : Pipeline.start host config = .ok p) :
    p.shared.renderer.Obeys law [] := by
  obtain ⟨-, swapChain, rfl⟩ := of_start h
  exact .new

/-- A run obeys the law from any of its states on. -/
lemma obeys_follow_append {host : Host} {config : Config} {start : Pipeline}
    {earlier later : List Action} (hstart : Pipeline.start host config = .ok start)
    (hbuilds : ∀ a ∈ earlier ++ later, a.Builds) (hallowed : ∀ a ∈ earlier ++ later, allowed a)
    (hfits : law.Fits allowed)
    (h : (start.follow earlier).2.shared.renderer.Obeys law before) :
    (start.follow (earlier ++ later)).2.shared.renderer.Obeys law before := by
  induction later using List.reverseRecOn with
  | nil => rwa [List.append_nil]
  | append_singleton later a ih =>
    rw [← List.append_assoc] at hbuilds hallowed ⊢
    obtain ⟨hbuilds, -⟩ := List.forall_mem_append.mp hbuilds
    obtain ⟨hallowed, -⟩ := List.forall_mem_append.mp hallowed
    have ih := ih hbuilds hallowed
    have hsupplied := supplied_follow hstart hbuilds hallowed
    obtain ⟨_, _, -, -, hreached⟩ := (ran_follow hstart (earlier ++ later)).reached
    rw [follow_concat]
    cases hact : (start.follow (earlier ++ later)).2.act a with
    | none => exact ih
    | some q => exact obeys_act hfits hsupplied hreached ih hact

/-- All commands that a run records keep to the law. -/
lemma obeys_follow {host : Host} {config : Config} {start : Pipeline} {actions : List Action}
    (hstart : Pipeline.start host config = .ok start) (hbuilds : ∀ a ∈ actions, a.Builds)
    (hallowed : ∀ a ∈ actions, allowed a) (hfits : law.Fits allowed) :
    (start.follow actions).2.shared.renderer.Obeys law [] := by
  have h : (start.follow []).2.shared.renderer.Obeys law [] := obeys_start hstart
  have hall : (start.follow ([] ++ actions)).2.shared.renderer.Obeys law [] :=
    obeys_follow_append hstart hbuilds hallowed hfits h
  exact hall

end Pipeline

end Scanout
