import Scanout.Proofs.Pipeline.Phases

/-!
# Presents hold back later workloads

A present that was let in holds the render worker at its workload: whatever comes later was
submitted after the present, and waits for it. So the images that are being shown are not drawn
over, and their render targets are not given up.
-/

namespace Scanout

namespace Control

variable {c c' : Control} {log events : History} {v n m : Nat}

/-- The render worker touches only workloads that know of no present to come. -/
structure Gated (c : Control) (log : History) : Prop where
  production : c.production.workloadId ≠ 0 → c.Begun log c.production.workloadId
  past : ∀ place, c.render = .abandon place ∨ c.render = .configure place ∨ c.render = .plan place →
    c.Begun log (log.workloadsConsumed + 1)
  configured : ∀ v, .configured v ∈ log → c.Begun log v
  recorded : ∀ v slot, .recorded v slot ∈ log → c.Begun log v

/-- What has begun stays so. -/
lemma Begun.mono (h : c.Begun log v) (hvalue : c.presentSignal.value ≤ c'.presentSignal.value) :
    c'.Begun (log ++ events) v := by
  obtain ⟨w, hw, hid, hle⟩ := h
  refine ⟨w, ?_, hid, hle.trans hvalue⟩
  rw [History.submitted_append]
  exact List.mem_append_left _ hw

/-- The number of presents that are done only grows. -/
lemma PresentMove.presentValue_le (m : c.PresentMove events c') :
    c.presentSignal.value ≤ c'.presentSignal.value := by
  cases m with
  | uploadBroken _ lost => cases lost <;> exact le_rfl
  | composeBroken _ lost => cases lost <;> exact le_rfl
  | conclude => exact Nat.le_max_left _ _
  | _ => exact le_rfl

namespace Gated

lemma start : (Control.start n m).Gated [] := by
  refine ⟨fun h => absurd rfl h, ?_, by simp, by simp⟩
  rintro place (h | h | h) <;> cases h

/-- The other parties open no gate. -/
lemma other (h : c.Gated log) (hvalue : c.presentSignal.value ≤ c'.presentSignal.value)
    (hrender : c'.render = c.render) (hid : c'.production.workloadId = c.production.workloadId)
    (hparty : ∀ e ∈ events, e.party ≠ .render) : c'.Gated (log ++ events) where
  production := by
    rw [hid]
    intro hne
    exact (h.production hne).mono hvalue
  past := by
    rw [hrender, History.workloadsConsumed_append, History.workloadsConsumed_of_party hparty]
    intro place hplace
    exact (h.past place hplace).mono hvalue
  configured v hv := by
    rcases List.mem_append.mp hv with hv | hv
    · exact (h.configured v hv).mono hvalue
    · exact absurd rfl (hparty _ hv)
  recorded v slot hv := by
    rcases List.mem_append.mp hv with hv | hv
    · exact (h.recorded v slot hv).mono hvalue
    · exact absurd rfl (hparty _ hv)

/-- A step of the render worker is gated by the workload that it takes up. -/
lemma step (h : c.Gated log) (hvalue : c'.presentSignal.value = c.presentSignal.value)
    (hproduction : c'.production.workloadId ≠ 0 →
      c'.production.workloadId = c.production.workloadId ∨ c.Begun log c'.production.workloadId)
    (hpast : ∀ place, c'.render = .abandon place ∨ c'.render = .configure place ∨
      c'.render = .plan place →
        c.Begun log (log.workloadsConsumed + 1) ∧ events.workloadsConsumed = 0)
    (hconfigured : ∀ v, .configured v ∈ events → c.Begun log v)
    (hrecorded : ∀ v slot, .recorded v slot ∈ events → c.Begun log v) :
    c'.Gated (log ++ events) where
  production hne := by
    rcases hproduction hne with hid | hbegun
    · rw [hid] at hne ⊢
      exact (h.production hne).mono hvalue.ge
    · exact hbegun.mono hvalue.ge
  past place hplace := by
    obtain ⟨hbegun, hconsumed⟩ := hpast place hplace
    rw [History.workloadsConsumed_append, hconsumed]
    exact hbegun.mono hvalue.ge
  configured v hv := by
    rcases List.mem_append.mp hv with hv | hv
    · exact (h.configured v hv).mono hvalue.ge
    · exact (hconfigured v hv).mono hvalue.ge
  recorded v slot hv := by
    rcases List.mem_append.mp hv with hv | hv
    · exact (h.recorded v slot hv).mono hvalue.ge
    · exact (hrecorded v slot hv).mono hvalue.ge

lemma render (ho : c.Ordered log) (hf : c.RenderFacts log.workloadsConsumed) (h : c.Gated log)
    (m : c.RenderMove events c') : c'.Gated (log ++ events) := by
  have hvalue := m.frame.presentValue
  -- an image is recorded for the workload in production
  have hdraw : ∀ {job : RenderJob}, c.render = .draw job →
      c.Begun log (c.workloadAt job.place).id := by
    intro job at_
    simp only [RenderFacts, at_] at hf
    have hid := ho.id_workloadAt job.place (by rw [at_]; rfl)
    have hbegun := h.production (by omega)
    rwa [hf.1, ← hid] at hbegun
  cases m with
  | @pass place at_ reached =>
    have hid := ho.id_workloadAt place (by rw [at_]; rfl)
    have hw := ho.workloads.workloadAt place (by rw [at_]; rfl)
    refine h.step hvalue (fun _ => .inl rfl) ?_ (by simp) (by simp)
    intro _ _
    exact ⟨⟨_, List.mem_of_getElem? hw, hid, reached⟩, rfl⟩
  | @abandon place at_ =>
    exact h.step hvalue (fun _ => .inl rfl) (fun _ _ => ⟨h.past place (.inl at_), rfl⟩) (by simp)
      (by simp)
  | @configure place at_ =>
    have hbegun := h.past place (.inr (.inl at_))
    have hid := ho.id_workloadAt place (by rw [at_]; rfl)
    refine h.step hvalue (fun _ => .inl rfl) (fun _ _ => ⟨hbegun, rfl⟩) ?_ (by simp)
    intro v hv
    simp only [List.mem_singleton, Event.configured.injEq] at hv
    rwa [hv, hid]
  | @plan place at_ =>
    have hid := ho.id_workloadAt place (by rw [at_]; rfl)
    refine h.step hvalue (fun _ => .inr ?_) (by simp) (by simp) (by simp)
    change c.Begun log (c.workloadAt place).id
    rw [hid]
    exact h.past place (.inr (.inr at_))
  | draw at_ =>
    apply h.step hvalue (fun _ => .inl rfl) (by simp) (by simp)
    intro v slot hv
    simp only [List.mem_singleton, Event.recorded.injEq] at hv
    exact hv.1 ▸ hdraw at_
  | drawBroken at_ lost =>
    refine h.step hvalue (fun _ => .inl ?_) ?_ (by simp) ?_
    · cases lost <;> rfl
    · cases lost <;> simp [breakRender]
    · intro v slot hv
      simp only [List.mem_singleton, Event.recorded.injEq] at hv
      exact hv.1 ▸ hdraw at_
  | planLost at_ =>
    exact h.step hvalue (fun _ => .inl rfl) (by simp [breakRender]) (by simp) (by simp)
  | finishLost at_ =>
    exact h.step hvalue (fun _ => .inl rfl) (by simp [breakRender]) (by simp) (by simp)
  | @publish job index at_ =>
    refine h.step hvalue (fun _ => .inl (by simp)) ?_ (by simp) (by simp)
    dsimp only
    split <;> simp
  | _ => exact h.step hvalue (fun _ => .inl rfl) (by simp) (by simp) (by simp)

lemma move (ho : c.Ordered log) (hf : c.RenderFacts log.workloadsConsumed) (h : c.Gated log)
    (m : c.Move events c') : c'.Gated (log ++ events) := by
  cases m with
  | render m => exact h.render ho hf m
  | present m =>
    have hframe := m.frame
    exact h.other m.presentValue_le hframe.render hframe.workloadId fun e he => by
      simp [m.party e he]
  | producer m =>
    have hframe := m.frame
    refine h.other hframe.presentValue.ge hframe.render ?_ fun e he => by
      simp [hframe.party e he]
    rw [hframe.production]

end Gated

lemma Reached.gated (h : Reached n m log c) : c.Gated log := by
  induction h with
  | start => exact .start
  | step before move ih => exact ih.move before.ordered before.renderFacts move

/-- As long as a present is let in and not done, no workload later than its own has begun. -/
lemma Reached.le_of_begun (h : Reached n m log c) {q : Present} (hq : log.admitted? = some q)
    (hv : c.Begun log v) : v ≤ q.workloadId := by
  have hstamped := h.ordered.stamped
  have hfacts : c.presentSignal.value = log.presentsConsumed ∧
      log.requested[log.presentsConsumed]? = some q := by
    have hfacts := h.presentFacts
    simp only [PresentFacts] at hfacts
    split at hfacts
    all_goals simp_all
  obtain ⟨hvalue, hin⟩ := hfacts
  obtain ⟨w, hw, rfl, hle⟩ := hv
  have hid : q.id = log.presentsConsumed + 1 := (hstamped.present _ _ hin).1
  have hprecedes := hstamped.precedes w hw q (List.mem_of_getElem? hin)
  omega

/-- A present is let in only after its workload was announced. -/
lemma Reached.workloadId_le (h : Reached n m log c) {q : Present} (hq : log.admitted? = some q) :
    q.workloadId ≤ c.workloadSignal.value := by
  have hfacts := h.presentFacts
  simp only [PresentFacts] at hfacts
  split at hfacts
  all_goals simp_all

/-- No present is let in while the next workload is taken up. -/
lemma Reached.admitted?_eq_none (h : Reached n m log c) {place : Nat}
    (at_ : c.render = .abandon place ∨ c.render = .configure place ∨ c.render = .plan place) :
    log.admitted? = none := by
  cases hq : log.admitted? with
  | none => rfl
  | some q =>
    -- a later workload than the one announced last would have begun
    have hbegun := h.le_of_begun hq (h.gated.past place at_)
    have hannounced := h.workloadId_le hq
    have hfacts := h.renderFacts
    rcases at_ with at_ | at_ | at_ <;>
      simp only [RenderFacts, at_] at hfacts <;>
      omega

/-- Workloads are announced after they were planned, one at a time. -/
lemma RenderFacts.workloadValue_le (h : c.RenderFacts n) :
    c.workloadSignal.value ≤ c.production.workloadId ∧ c.production.workloadId ≤ n + 1 := by
  simp only [RenderFacts] at h
  cases hphase : c.render with
  | draw job =>
    simp only [hphase] at h
    obtain ⟨hid, -, -, -, hvalue⟩ := h
    split at hvalue <;> omega
  | publish job index =>
    simp only [hphase] at h
    obtain ⟨hid, -, -, -, -, -, hvalue⟩ := h
    split at hvalue <;> omega
  | announce job =>
    simp only [hphase] at h
    obtain ⟨hid, -, -, -, -, hvalue⟩ := h
    omega
  | _ =>
    simp only [hphase] at h
    omega

/-- A present that was let in is the one in hand until it is done. -/
lemma Reached.admitted_of_entered (h : Reached n m log c) {q : Present} (hin : .entered q ∈ log)
    (hout : .done q.id ∉ log) : log.admitted? = some q := by
  induction h with
  | start => simp at hin
  | @step log events c c' before move ih =>
    obtain ⟨hbefore, hnow⟩ := not_or.mp (List.mem_append.not.mp hout)
    rw [History.admitted?_append]
    cases move with
    | present m =>
      have hfacts := before.presentFacts
      simp only [PresentFacts] at hfacts
      cases m with
      | pass at_ =>
        simp only [at_] at hfacts
        rcases List.mem_append.mp hin with hin | hin
        · cases hfacts.2.symm.trans (ih hin hbefore)
        · simp only [List.mem_singleton, Event.entered.injEq] at hin
          rw [hin]
          rfl
      | @conclude place id at_ =>
        have hin : .entered q ∈ log := by simpa using hin
        simp only [at_] at hfacts
        obtain ⟨-, q', hq', hrequested, -⟩ := hfacts
        obtain rfl := Option.some.inj (hq'.symm.trans (ih hin hbefore))
        refine absurd ?_ hnow
        rw [before.ordered.presents.concluding place id at_,
          (before.ordered.stamped.present _ _ hrequested).1]
        exact List.mem_singleton_self _
      | _ =>
        have hin : .entered q ∈ log := by simpa using hin
        exact ih hin hbefore
    | render m =>
      have hparty : ∀ e ∈ events, e.party ≠ .present := fun e he => by simp [m.party e he]
      rw [History.foldl_letIn_of_party hparty]
      exact ih ((List.mem_append.mp hin).resolve_right fun he => hparty _ he rfl) hbefore
    | producer m =>
      have hparty : ∀ e ∈ events, e.party ≠ .present := fun e he => by simp [m.frame.party e he]
      rw [History.foldl_letIn_of_party hparty]
      exact ih ((List.mem_append.mp hin).resolve_right fun he => hparty _ he rfl) hbefore

/-- The workload of a present that was let in is the one in production. -/
lemma Reached.production_of_admitted (h : Reached n m log c) {q : Present}
    (hq : log.admitted? = some q) (hw : 0 < q.workloadId) :
    c.production.workloadId = q.workloadId := by
  have hannounced := h.workloadId_le hq
  have hplanned := h.renderFacts.workloadValue_le
  have hbegun := h.le_of_begun hq (h.gated.production (by omega))
  omega

end Control

namespace Pipeline

variable {p p' : Pipeline} {log : History} {q : Present}

lemma renderer_planImages {place : Nat} :
    (p.planImages place).shared.renderer = p.shared.renderer := by
  obtain ⟨notes, h | ⟨plan, matcher, production, h⟩⟩ := p.planImages_eq place
  · rw [h]
    rfl
  · rw [h]

lemma renderer_concludeWorkload {job : RenderJob} :
    (p.concludeWorkload job).shared.renderer = p.shared.renderer := by
  obtain ⟨notes, stats, h⟩ := p.concludeWorkload_eq job
  rw [h]

/-- The render worker changes the render targets only where it takes over settings and where it
draws. -/
lemma renderer_of_renderStep (h : p.renderStep = some p')
    (hne : p'.shared.renderer ≠ p.shared.renderer) :
    (∃ place, p.render = .configure place) ∨ ∃ job, p.render = .draw job := by
  simp only [renderStep] at h
  cases hphase : p.render with
  | configure place => exact .inl ⟨place, rfl⟩
  | draw job => exact .inr ⟨job, rfl⟩
  | claim =>
    simp only [hphase] at h
    split at h <;> cases h
    all_goals exact absurd rfl hne
  | await place =>
    simp only [hphase] at h
    split at h <;> cases h
    all_goals exact absurd rfl hne
  | abandon place =>
    simp only [hphase] at h
    cases h
    simp [abandonImages, modifyShared, Shared.modifyProduction] at hne
  | plan place =>
    simp only [hphase] at h
    cases h
    exact absurd renderer_planImages hne
  | conclude job =>
    simp only [hphase] at h
    cases h
    exact absurd renderer_concludeWorkload hne
  | finish place paused =>
    simp only [hphase] at h
    split at h <;> cases h
    all_goals exact absurd rfl hne
  | stopped | lost => simp [hphase] at h
  | _ =>
    simp only [hphase] at h
    cases h
    exact absurd rfl hne

/-- While a present is let in and not done, its workload is the one in production, and nothing was
configured or recorded for a later one: the render targets only change when images of the present's
own workload are drawn. -/
theorem later_workloads_wait_for_present (h : Ran log p) (hin : .entered q ∈ log)
    (hout : .done q.id ∉ log) (hw : 0 < q.workloadId) :
    p.shared.production.workloadId = q.workloadId ∧
      (∀ v, .configured v ∈ log → v ≤ q.workloadId) ∧
      (∀ v slot, .recorded v slot ∈ log → v ≤ q.workloadId) ∧
      ∀ p', p.renderStep = some p' → p'.shared.renderer ≠ p.shared.renderer →
        ∃ job, p.render = .draw job ∧ (p.workloadAt job.place).id = q.workloadId := by
  obtain ⟨n, m, -, -, h⟩ := h.reached
  have hq := h.admitted_of_entered hin hout
  have hproduction := h.production_of_admitted hq hw
  have hfacts := h.renderFacts
  refine ⟨hproduction, fun v hv => h.le_of_begun hq (h.gated.configured v hv),
    fun v slot hv => h.le_of_begun hq (h.gated.recorded v slot hv), ?_⟩
  intro p' hstep hne
  rcases renderer_of_renderStep hstep hne with ⟨place, at_⟩ | ⟨job, at_⟩
  · cases hq.symm.trans (h.admitted?_eq_none (.inr (.inl at_)))
  · simp only [Control.RenderFacts, show p.control.render = .draw job from at_] at hfacts
    have hid := h.ordered.id_workloadAt job.place
      (by rw [show p.control.render = .draw job from at_]; rfl)
    exact ⟨job, at_, hid.trans (hfacts.1.symm.trans hproduction)⟩

/-- An empty frame is rendered and its screen is let in, while the next frame already waits. -/
def oneFrameAhead : List Action :=
  .call (.submitWorkload ByteArray.empty 30) :: .call (.submitPresent .blank ByteArray.empty) ::
    .call (.submitWorkload ByteArray.empty 30) :: List.replicate 13 .render ++ [.present, .present]

theorem second_frame_waits :
    (sample .default oneFrameAhead).2.shared.production.workloadId = 1 ∧
      (∀ v, .configured v ∈ (sample .default oneFrameAhead).1 → v ≤ 1) ∧
      (∀ v slot, .recorded v slot ∈ (sample .default oneFrameAhead).1 → v ≤ 1) ∧
      ∀ p', (sample .default oneFrameAhead).2.renderStep = some p' →
        p'.shared.renderer ≠ (sample .default oneFrameAhead).2.shared.renderer →
        ∃ job, (sample .default oneFrameAhead).2.render = .draw job ∧
          ((sample .default oneFrameAhead).2.workloadAt job.place).id = 1 :=
  later_workloads_wait_for_present (q := ⟨1, .blank, 1, [], ByteArray.empty, false⟩)
    (ran_sample (by decide +kernel) oneFrameAhead) (by decide +kernel) (by decide +kernel)
    Nat.one_pos

end Pipeline

end Scanout
