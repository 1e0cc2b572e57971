import Scanout.Proofs.Pipeline.Waiting

/-!
# Every wait comes to an end

The workers cannot go on for ever without the producer: each step brings a worker nearer to the plan
of its next workload or the screen of its next present, or to where it waits or leaves. So a call
of the producer that waits for a slot is released after finitely many steps, whatever their order.
-/

namespace Scanout

namespace RenderPhase

/-- The workload in hand is planned, or no more will be. -/
def planned : RenderPhase → Nat
  | .draw _ | .publish .. | .announce _ | .conclude _ | .finish .. | .leave | .stopped | .lost => 1
  | _ => 0

/-- The steps to the next plan, or to where the worker waits or leaves. -/
def stepsLeft : RenderPhase → Nat
  | .claim => 5
  | .await _ => 4
  | .abandon _ => 3
  | .configure _ => 2
  | .plan _ => 1
  | .draw job => 3 * (job.plan.size - job.next) + 9
  | .publish job _ => 3 * (job.plan.size - job.next) + 11
  | .announce job => 3 * (job.plan.size - job.next) + 10
  | .conclude _ => 8
  | .finish .. => 7
  | .release .. => 6
  | .leave => 1
  | .stopped | .lost => 0

end RenderPhase

namespace PresentPhase

/-- The screen in hand was looked at, or no more will be. -/
def passed : PresentPhase → Nat
  | .select _ | .compose .. | .settle .. | .show .. | .conclude .. | .finish _ | .leave | .stopped
  | .lost => 1
  | _ => 0

/-- The steps to the next screen, or to where the worker waits or leaves. -/
def stepsLeft : PresentPhase → Nat
  | .claim => 7
  | .await .. => 6
  | .enter .. => 5
  | .showAgain _ | .upload _ => 4
  | .inspect _ => 3
  | .select job => 4 * (job.total - job.index) + 11
  | .compose job _ => 4 * (job.total - (job.index + 1)) + 14
  | .settle job .. => 4 * (job.total - (job.index + 1)) + 13
  | .show job _ => 4 * (job.total - (job.index + 1)) + 12
  | .conclude .. => 10
  | .finish _ => 9
  | .release _ => 8
  | .leave => 1
  | .stopped | .lost => 0

end PresentPhase

namespace Control

variable {c c' : Control} {log events : History} {n m : Nat}

/-- The workloads that are not planned yet. -/
def unplanned (c : Control) (log : History) : Nat :=
  log.submitted.length - (log.workloadsConsumed + c.render.planned)

/-- The presents whose screens were not looked at yet. -/
def unseen (c : Control) (log : History) : Nat :=
  log.requested.length - (log.presentsConsumed + c.present.passed)

/-- A step of the render worker that is not a plan brings it nearer to its next one. -/
lemma RenderMove.stepsLeft_lt (m : c.RenderMove events c') (h : ∀ place, c.render ≠ .plan place) :
    c'.render.stepsLeft < c.render.stepsLeft := by
  cases m with
  | plan at_ | planLost at_ => exact absurd at_ (h _)
  | @draw job index at_ s image =>
    obtain ⟨hnext, hindex⟩ := of_subFrameAfter image
    have hnext : job.next ≤ index := hnext
    have hadvance : (job.advance index s).next = index + 1 := rfl
    have hsize : (job.advance index s).plan.size = job.plan.size := rfl
    simp only [at_, RenderPhase.stepsLeft, hadvance, hsize]
    omega
  | drawBroken at_ lost =>
    cases lost <;> simp [at_, breakRender, RenderPhase.stepsLeft]
  | publish at_ =>
    dsimp only
    split <;> simp [at_, RenderPhase.stepsLeft]
  | _ => simp [*, breakRender, RenderPhase.stepsLeft]

/-- A step of the render worker that is not a plan leaves no more workloads to plan. -/
lemma RenderMove.unplanned_le (m : c.RenderMove events c') (h : ∀ place, c.render ≠ .plan place) :
    c'.unplanned (log ++ events) ≤ c.unplanned log := by
  have hsubmitted := m.frame.submitted
  simp only [unplanned, History.submitted_append, hsubmitted, List.append_nil,
    History.workloadsConsumed_append]
  cases m with
  | plan at_ | planLost at_ => exact absurd at_ (h _)
  | drawBroken at_ lost =>
    cases lost <;> simp [at_, breakRender, RenderPhase.planned, History.workloadsConsumed]
  | publish at_ =>
    dsimp only
    split <;> simp [at_, RenderPhase.planned, History.workloadsConsumed]
  | finish at_ | finishLost at_ =>
    have hconsumed : History.workloadsConsumed [.workloadConsumed] = 1 := rfl
    simp only [at_, breakRender, if_true, RenderPhase.planned, hconsumed]
    omega
  | _ => simp [*, RenderPhase.planned, History.workloadsConsumed] <;> omega

/-- A step of the render worker brings it nearer to its next plan, or takes one. -/
lemma RenderMove.decreases (ho : c.Ordered log) (m : c.RenderMove events c') :
    c'.unplanned (log ++ events) < c.unplanned log ∨
      c'.unplanned (log ++ events) ≤ c.unplanned log ∧
        c'.render.stepsLeft < c.render.stepsLeft := by
  by_cases hplan : ∃ place, c.render = .plan place
  · obtain ⟨place, at_⟩ := hplan
    have hlt := (ho.workloads.claimed place (by rw [at_]; rfl)).1
    left
    simp only [unplanned, History.submitted_append, m.frame.submitted, List.append_nil,
      History.workloadsConsumed_append, at_, RenderPhase.planned]
    -- the worker has its plan, or is lost
    cases m with
    | plan => simp only [History.workloadsConsumed_nil]; omega
    | planLost => simp only [breakRender, if_true, History.workloadsConsumed_nil]; omega
    | _ => simp_all
  · push Not at hplan
    exact .inr ⟨m.unplanned_le hplan, m.stepsLeft_lt hplan⟩

/-- A step of the present worker brings it nearer to its next screen, or looks at one. -/
lemma PresentMove.decreases (ho : c.Ordered log) (m : c.PresentMove events c') :
    c'.unseen (log ++ events) < c.unseen log ∨
      c'.unseen (log ++ events) ≤ c.unseen log ∧
        c'.present.stepsLeft < c.present.stepsLeft := by
  have hrequested := m.frame.requested
  simp only [unseen, History.requested_append, hrequested, List.append_nil,
    History.presentsConsumed_append]
  cases m with
  | @showAgain job at_ =>
    have hlt := (ho.presents.claimed job.place (by rw [at_]; rfl)).1
    left
    simp only [at_, PresentPhase.passed, History.presentsConsumed_nil]
    omega
  | @blank job at_ blank =>
    have hlt := (ho.presents.claimed job.place (by rw [at_]; rfl)).1
    left
    simp only [at_, PresentPhase.passed, History.presentsConsumed_nil]
    omega
  | @inspect job at_ visible =>
    have hlt := (ho.presents.claimed job.place (by rw [at_]; rfl)).1
    left
    simp only [at_, PresentPhase.passed, History.presentsConsumed_nil]
    omega
  | finish at_ | finishLost at_ =>
    right
    have hconsumed : History.presentsConsumed [.presentConsumed] = 1 := rfl
    simp only [at_, breakPresent, if_true, PresentPhase.passed, PresentPhase.stepsLeft, hconsumed]
    omega
  | uploadBroken at_ lost =>
    right
    cases lost <;>
      simp only [at_, breakPresent, PresentPhase.passed, PresentPhase.stepsLeft,
        History.presentsConsumed_nil, if_true, Bool.false_eq_true, if_false] <;>
      omega
  | @composeBroken job slot at_ lost =>
    right
    have hconsumed : History.presentsConsumed [.composed job.present slot] = 0 := rfl
    cases lost <;>
      simp only [at_, breakPresent, PresentPhase.passed, PresentPhase.stepsLeft, hconsumed,
        if_true, Bool.false_eq_true, if_false] <;>
      omega
  | _ =>
    right
    simp [*, PresentPhase.passed, PresentPhase.stepsLeft, History.presentsConsumed] <;> omega

/-- The workloads and presents that the workers have still to take up. -/
def itemsLeft (c : Control) (log : History) : Nat := c.unplanned log + c.unseen log

/-- The steps to where the workers take up the next ones, or wait or leave. -/
def stepsLeft (c : Control) : Nat := c.render.stepsLeft + c.present.stepsLeft

/-- A step leads to a state from which fewer steps are possible. -/
def Nearer (c : Control) (log events : History) (c' : Control) : Prop :=
  c'.itemsLeft (log ++ events) < c.itemsLeft log ∨
    c'.itemsLeft (log ++ events) = c.itemsLeft log ∧ c'.stepsLeft < c.stepsLeft

lemma RenderMove.nearer (ho : c.Ordered log) (m : c.RenderMove events c') :
    c.Nearer log events c' := by
  have hframe := m.frame
  have hunseen : c'.unseen (log ++ events) = c.unseen log := by
    simp [unseen, hframe.present, hframe.requested, hframe.presentsConsumed]
  have hdecreases := m.decreases ho
  simp only [Nearer, itemsLeft, stepsLeft, hunseen, hframe.present]
  omega

lemma PresentMove.nearer (ho : c.Ordered log) (m : c.PresentMove events c') :
    c.Nearer log events c' := by
  have hframe := m.frame
  have hunplanned : c'.unplanned (log ++ events) = c.unplanned log := by
    simp [unplanned, hframe.render, hframe.submitted, hframe.workloadsConsumed]
  have hdecreases := m.decreases ho
  simp only [Nearer, itemsLeft, stepsLeft, hunplanned, hframe.render]
  omega

end Control

namespace Pipeline

variable {p q : Pipeline} {log : History}

/-- A step of one of the workers. -/
inductive WorkerStep (p q : Pipeline) : Prop where
  | render (h : p.renderStep = some q)
  | present (h : p.presentStep = some q)

/-- Whatever steps the workers take, after finitely many of them the goal is reached. -/
inductive Inevitable (goal : Pipeline → Prop) : Pipeline → Prop where
  | now {p : Pipeline} (h : goal p) : Inevitable goal p
  | later {p : Pipeline} (enabled : ∃ q, p.WorkerStep q)
      (next : ∀ q, p.WorkerStep q → Inevitable goal q) : Inevitable goal p

/-- A step of a worker goes on with the run, and leaves the producer's call. -/
lemma Ran.workerStep (h : Ran log p) (hstep : p.WorkerStep q) :
    ∃ events, Ran (log ++ events) q ∧ q.producer.pending = p.producer.pending ∧
      p.control.Nearer log events q.control := by
  obtain ⟨host, config, start, hstart, hrun⟩ := id h
  obtain ⟨n, m, -, -, hreached⟩ := h.reached
  cases hstep with
  | render h =>
    have hmove := renderMove_of_renderStep h
    refine ⟨p.renderEvents, ⟨host, config, start, hstart, ?_⟩, hmove.frame.producer.pending,
      hmove.nearer hreached.ordered⟩
    rw [← events_render h]
    exact hrun.step .render h
  | present h =>
    have hmove := presentMove_of_presentStep h
    refine ⟨p.presentEvents, ⟨host, config, start, hstart, ?_⟩, hmove.frame.producer.pending,
      hmove.nearer hreached.ordered⟩
    rw [← events_present h]
    exact hrun.step .present h

lemma exists_workerStep (h : ¬ (p.control.RenderWaits ∧ p.control.PresentWaits)) :
    ∃ q, p.WorkerStep q := by
  rw [← renderStep_eq_none_iff, ← presentStep_eq_none_iff] at h
  cases hrender : p.renderStep with
  | some q => exact ⟨q, .render hrender⟩
  | none =>
    cases hpresent : p.presentStep with
    | some q => exact ⟨q, .present hpresent⟩
    | none => exact absurd ⟨hrender, hpresent⟩ h

/-- A call of the producer that waits for a slot is released. -/
lemma Ran.released (h : Ran log p) (hpending : p.producer.pending ≠ none) :
    Inevitable (fun q => q.producerStep ≠ none) p := by
  -- on the items left, and on the steps left with as many items
  induction hitems : p.control.itemsLeft log using Nat.strong_induction_on generalizing p log with
  | _ items ihItems =>
    induction hsteps : p.control.stepsLeft using Nat.strong_induction_on generalizing p log with
    | _ steps ihSteps =>
      by_cases hready : p.producerStep = none
      · obtain ⟨n, m, hn, -, hreached⟩ := h.reached
        apply Inevitable.later
        · apply exists_workerStep
          exact hreached.not_both_wait_of_blocked hn
            (blocked_of_producerStep_eq_none hpending hready)
        · intro q hstep
          obtain ⟨events, hran, hsame, hlt | ⟨heq, hlt⟩⟩ := h.workerStep hstep
          · exact ihItems _ (hitems ▸ hlt) hran (hsame ▸ hpending) rfl
          · exact ihSteps _ (hsteps ▸ hlt) hran (hsame ▸ hpending) (heq.trans hitems) rfl
      · exact .now hready

/-- The pipeline does not come to a standstill. Whenever the producer is blocked, a worker can go
on; so can one as long as nothing is stopped and a workload or a present is left. After a worker has
failed or the pipeline was shut down, no party waits for a signal or for an image any more. And a
blocked producer is released after finitely many steps of the workers, in any order. -/
theorem no_deadlock (h : Ran log p) :
    (p.producer.pending ≠ none → p.producerStep = none → ∃ q, p.WorkerStep q) ∧
    (p.shared.running = true →
      log.workloadsConsumed < log.submitted.length ∨
        log.presentsConsumed < log.requested.length → ∃ q, p.WorkerStep q) ∧
    (p.shared.running = false →
      (∀ place, p.render = .await place → p.renderStep ≠ none) ∧
      (∀ place q, p.present = .await place q → p.presentStep ≠ none) ∧
      ∀ job, p.present = .select job → p.presentStep ≠ none) ∧
    (p.producer.pending ≠ none → Inevitable (fun q => q.producerStep ≠ none) p) := by
  obtain ⟨n, m, hn, -, hreached⟩ := h.reached
  refine ⟨?_, ?_, ?_, h.released⟩
  · intro hpending hblocked
    apply exists_workerStep
    apply hreached.not_both_wait_of_blocked hn
    exact blocked_of_producerStep_eq_none hpending hblocked
  · intro hrunning hleft
    apply exists_workerStep
    exact hreached.not_both_wait hrunning hleft
  · intro hstopped
    have hrunning : p.control.running ≠ true := by
      intro hrunning
      cases hrunning.symm.trans hstopped
    refine ⟨?_, ?_, ?_⟩
    · intro place at_
      have hrender : p.control.render = .await place := at_
      rw [Ne, renderStep_eq_none_iff, Control.RenderWaits, hrender]
      intro hwait
      exact hrunning (hreached.halts.running_of_wait (.inl hwait))
    · intro place q at_
      have hpresent : p.control.present = .await place q := at_
      rw [Ne, presentStep_eq_none_iff, Control.PresentWaits, hpresent]
      intro hwait
      exact hrunning (hreached.halts.running_of_wait (.inr hwait))
    · intro job at_
      have hpresent : p.control.present = .select job := at_
      rw [Ne, presentStep_eq_none_iff, Control.PresentWaits, hpresent]
      intro hwaits
      exact hrunning (Control.running_of_imageSlot hwaits.2)

/-- Four empty frames, one more than the ring has room for. -/
def fourFrames : List Action := List.replicate 4 (.call (.submitWorkload ByteArray.empty 30))

theorem fourth_frame_released :
    (∃ q, (sample .default fourFrames).2.WorkerStep q) ∧
      Inevitable (fun q => q.producerStep ≠ none) (sample .default fourFrames).2 := by
  have hpending : (sample .default fourFrames).2.producer.pending ≠ none := by decide +kernel
  have hran : Ran (sample .default fourFrames).1 (sample .default fourFrames).2 :=
    ran_sample (by decide +kernel) fourFrames
  obtain ⟨hblocked, -, -, hreleased⟩ := no_deadlock hran
  exact ⟨hblocked hpending (by decide +kernel), hreleased hpending⟩

end Pipeline

end Scanout
