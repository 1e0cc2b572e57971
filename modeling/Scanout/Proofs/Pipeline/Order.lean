import Scanout.Proofs.Pipeline.Moves
import Scanout.Proofs.Pipeline.Stamps

/-!
# The order of a run

`Control.Ordered` ties the two rings, the phases of the workers and the producer's numbers to what
was submitted and consumed so far; every move keeps it. So the workers take up workloads and
presents in the order of their stamps.
-/

namespace Scanout

namespace RenderPhase

/-- The slot of the workload in hand. -/
def claimed? : RenderPhase → Option Nat
  | .await place | .abandon place | .configure place | .plan place | .finish place _ => some place
  | .draw job | .publish job _ | .announce job | .conclude job => some job.place
  | _ => none

/-- The slots consumed that have still to be released. -/
def owes : RenderPhase → Nat
  | .release .. => 1
  | _ => 0

end RenderPhase

namespace PresentPhase

/-- The slot of the present in hand. -/
def claimed? : PresentPhase → Option Nat
  | .await place _ | .enter place _ | .conclude place _ | .finish place => some place
  | .showAgain job | .upload job | .inspect job | .select job | .compose job _ | .settle job ..
  | .show job _ => some job.place
  | _ => none

/-- The present in hand. -/
def present? : PresentPhase → Option Present
  | .await _ q | .enter _ q => some q
  | .showAgain job | .upload job | .inspect job | .select job | .compose job _ | .settle job ..
  | .show job _ => some job.present
  | _ => none

/-- The slots consumed that have still to be released. -/
def owes : PresentPhase → Nat
  | .release _ => 1
  | _ => 0

/-- The presents taken out of their slots that are not consumed. -/
def taken : PresentPhase → Nat
  | .claim | .release _ => 0
  | _ => 1

end PresentPhase

namespace Control

/-- The ring of workloads and the render worker stand for what was submitted and consumed. At most
one slot is kept for a paused workload. -/
structure WorkloadsOrdered (c : Control) (log : History) : Prop where
  counts : ∃ released,
    c.workloads.Counts log.submitted.length log.workloadsConsumed released ∧
      released + c.render.owes ≤ log.workloadsConsumed ∧
      log.workloadsConsumed ≤ released + 1 + c.render.owes
  holds : c.workloads.Holds log.submitted log.workloadsConsumed
  claimed : ∀ place, c.render.claimed? = some place →
    log.workloadsConsumed < log.submitted.length ∧
      place = log.workloadsConsumed % c.workloads.size
  releasing : ∀ place paused, c.render = .release place paused →
    ∃ k, log.workloadsConsumed = k + 1 ∧ place = k % c.workloads.size

/-- The ring of presents and the present worker stand for what was submitted and consumed. -/
structure PresentsOrdered (c : Control) (log : History) : Prop where
  counts : ∃ released,
    c.presents.Counts log.requested.length log.presentsConsumed released ∧
      released + c.present.owes = log.presentsConsumed
  holds : c.presents.Holds log.requested (log.presentsConsumed + c.present.taken)
  claimed : ∀ place, c.present.claimed? = some place →
    log.presentsConsumed < log.requested.length ∧ place = log.presentsConsumed % c.presents.size
  inHand : ∀ q, c.present.present? = some q → log.requested[log.presentsConsumed]? = some q
  concluding : ∀ place id, c.present = .conclude place id → id = log.presentsConsumed + 1
  releasing : ∀ place, c.present = .release place →
    ∃ k, log.presentsConsumed = k + 1 ∧ place = k % c.presents.size

/-- The slot being filled holds an item with the stamps that are due. -/
def Stamps (c : Control) (log : History) : Pending → Prop
  | .workload id =>
    id = log.submitted.length + 1 ∧
      ∃ w, c.workloads.current? = some w ∧ w.id = id ∧ w.presentId = log.requested.length
  | .present id =>
    id = log.requested.length + 1 ∧
      ∃ q, c.presents.current? = some q ∧ q.id = id ∧ q.workloadId = log.submitted.length

/-- The producer's numbers count what was submitted, and what is pending has its stamps. -/
structure ProducerOrdered (c : Control) (log : History) : Prop where
  nextWorkloadId : c.nextWorkloadId = log.submitted.length + 1
  nextPresentId : c.nextPresentId = log.requested.length + 1
  lastWorkloadId : c.lastWorkloadId = log.submitted.length
  lastPresentId : c.lastPresentId = log.requested.length
  pending : ∀ item, c.pending = some item → c.Stamps log item

/-- Everything is in the order in which it was submitted. -/
structure Ordered (c : Control) (log : History) : Prop where
  stamped : log.Stamped
  workloads : c.WorkloadsOrdered log
  presents : c.PresentsOrdered log
  producer : c.ProducerOrdered log

open History

variable {c c' : Control} {log events : History}

/-- The producer has the same numbers, and the same item pending. -/
structure SameProducer (c c' : Control) : Prop where
  nextWorkloadId : c'.nextWorkloadId = c.nextWorkloadId
  nextPresentId : c'.nextPresentId = c.nextPresentId
  lastWorkloadId : c'.lastWorkloadId = c.lastWorkloadId
  lastPresentId : c'.lastPresentId = c.lastPresentId
  pending : c'.pending = c.pending

/-- What a step of the render worker leaves alone. -/
structure RenderFrame (c : Control) (events : History) (c' : Control) : Prop where
  presents : c'.presents = c.presents
  present : c'.present = c.present
  presentValue : c'.presentSignal.value = c.presentSignal.value
  shownWorkloadId : c'.shownWorkloadId = c.shownWorkloadId
  slots : c'.workloads.slots = c.workloads.slots
  write : c'.workloads.write = c.workloads.write
  producer : c.SameProducer c'
  submitted : events.submitted = []
  requested : events.requested = []
  presentsConsumed : events.presentsConsumed = 0

/-- What a step of the present worker leaves alone. -/
structure PresentFrame (c : Control) (events : History) (c' : Control) : Prop where
  workloads : c'.workloads = c.workloads
  render : c'.render = c.render
  workloadValue : c'.workloadSignal.value = c.workloadSignal.value
  workloadId : c'.production.workloadId = c.production.workloadId
  produced : c'.production.produced = c.production.produced
  complete : c'.production.complete = c.production.complete
  skipped : c'.production.skipped = c.production.skipped
  planned : c'.production.planned = c.production.planned
  producer : c.SameProducer c'
  submitted : events.submitted = []
  requested : events.requested = []
  workloadsConsumed : events.workloadsConsumed = 0

lemma RenderMove.frame (m : c.RenderMove events c') : c.RenderFrame events c' := by
  cases m with
  | drawBroken _ lost =>
    cases lost <;> exact ⟨rfl, rfl, rfl, rfl, rfl, rfl,
      ⟨rfl, rfl, rfl, rfl, rfl⟩, rfl, rfl, rfl⟩
  | finish at_ done =>
    obtain ⟨-, rfl⟩ := Ring.of_finish done
    exact ⟨rfl, rfl, rfl, rfl, rfl, rfl,
      ⟨rfl, rfl, rfl, rfl, rfl⟩, rfl, rfl, rfl⟩
  | _ => exact ⟨rfl, rfl, rfl, rfl, rfl, rfl,
      ⟨rfl, rfl, rfl, rfl, rfl⟩, rfl, rfl, rfl⟩

lemma PresentMove.frame (m : c.PresentMove events c') : c.PresentFrame events c' := by
  cases m with
  | uploadBroken _ lost =>
    cases lost <;> exact ⟨rfl, rfl, rfl, rfl, rfl, rfl, rfl, rfl,
      ⟨rfl, rfl, rfl, rfl, rfl⟩, rfl, rfl, rfl⟩
  | composeBroken _ lost =>
    cases lost <;> exact ⟨rfl, rfl, rfl, rfl, rfl, rfl, rfl, rfl,
      ⟨rfl, rfl, rfl, rfl, rfl⟩, rfl, rfl, rfl⟩
  | @settle job slot =>
    cases slot <;> exact ⟨rfl, rfl, rfl, rfl, rfl, rfl, rfl, rfl,
      ⟨rfl, rfl, rfl, rfl, rfl⟩, rfl, rfl, rfl⟩
  | _ => exact ⟨rfl, rfl, rfl, rfl, rfl, rfl, rfl, rfl,
      ⟨rfl, rfl, rfl, rfl, rfl⟩, rfl, rfl, rfl⟩

/-- The present worker leaves the slot being filled alone. -/
lemma PresentMove.current?_eq (m : c.PresentMove events c')
    (hw : c.presents.write < c.presents.size) :
    c'.presents.current? = c.presents.current? := by
  cases m with
  | claim at_ got =>
    obtain ⟨hnext, rfl⟩ := Ring.of_claim got
    have hne : c.presents.write % c.presents.size ≠ c.presents.next := by
      rw [Nat.mod_eq_of_lt hw]
      exact hnext.symm
    exact Ring.slot?_setSlot_ne hne
  | uploadBroken _ lost => cases lost <;> rfl
  | composeBroken _ lost => cases lost <;> rfl
  | finish at_ done =>
    obtain ⟨-, rfl⟩ := Ring.of_finish done
    rfl
  | _ => rfl

namespace WorkloadsOrdered

/-- The workload in hand is the next to be consumed. -/
lemma workloadAt (h : c.WorkloadsOrdered log) (place : Nat)
    (hp : c.render.claimed? = some place) :
    log.submitted[log.workloadsConsumed]? = some (c.workloadAt place) := by
  obtain ⟨hlt, rfl⟩ := h.claimed place hp
  have hslot := h.holds log.workloadsConsumed le_rfl _ (List.getElem?_eq_getElem hlt)
  rw [List.getElem?_eq_getElem hlt, Control.workloadAt]
  have hmod : c.workloads.slot? (log.workloadsConsumed % c.workloads.size) =
      c.workloads.slot? log.workloadsConsumed := by
    simp only [Ring.slot?, Nat.mod_mod]
  rw [hmod, hslot]
  rfl

/-- Moves within one workload change nothing. -/
lemma same (h : c.WorkloadsOrdered log) (hring : c.workloads.Same c'.workloads)
    (hclaimed : ∀ place, c'.render.claimed? = some place → c.render.claimed? = some place)
    (howes : c'.render.owes = c.render.owes)
    (hreleasing : ∀ place paused, c'.render = .release place paused →
      c.render = .release place paused)
    (hs : events.submitted = []) (hc : events.workloadsConsumed = 0) :
    c'.WorkloadsOrdered (log ++ events) := by
  have hsize : c'.workloads.size = c.workloads.size := congrArg List.length hring.slots
  constructor
  · obtain ⟨released, hcounts, hle⟩ := h.counts
    simp only [History.submitted_append, hs, List.append_nil, History.workloadsConsumed_append, hc,
      Nat.add_zero, howes]
    exact ⟨released, hcounts.same hring, hle⟩
  · simp only [History.submitted_append, hs, List.append_nil, History.workloadsConsumed_append, hc,
      Nat.add_zero]
    exact h.holds.of_slots_eq hring.slots
  · simp only [History.submitted_append, hs, List.append_nil, History.workloadsConsumed_append, hc,
      Nat.add_zero, hsize]
    intro place hp
    exact h.claimed place (hclaimed place hp)
  · simp only [History.workloadsConsumed_append, hc, Nat.add_zero, hsize]
    intro place paused hp
    exact h.releasing place paused (hreleasing place paused hp)

/-- Breaking off leaves what was consumed. -/
lemma breakRender (h : c.WorkloadsOrdered log) {lost : Bool} (howes : c.render.owes = 0)
    (hs : events.submitted = []) (hc : events.workloadsConsumed = 0) :
    (c.breakRender lost).WorkloadsOrdered (log ++ events) := by
  cases lost with
  | true =>
    exact h.same .stop (by simp [Control.breakRender, RenderPhase.claimed?]) howes.symm
      (by simp [Control.breakRender]) hs hc
  | false =>
    exact h.same .refl (by simp [Control.breakRender, RenderPhase.claimed?]) howes.symm
      (by simp [Control.breakRender]) hs hc

lemma render (h : c.WorkloadsOrdered log) (m : c.RenderMove events c') :
    c'.WorkloadsOrdered (log ++ events) := by
  obtain ⟨released, hcounts, hge, hle⟩ := id h.counts
  cases m with
  | claim at_ got =>
    obtain ⟨hnext, rfl⟩ := Ring.of_claim got
    have hlt : log.workloadsConsumed < log.submitted.length := by
      rw [Ne, hcounts.next_eq_write_iff] at hnext
      exact lt_of_le_of_ne hcounts.consumed_le hnext
    rw [List.append_nil]
    refine ⟨?_, h.holds, ?_, ?_⟩
    · simpa [RenderPhase.owes, at_] using h.counts
    · rintro place ⟨⟩
      exact ⟨hlt, hcounts.next⟩
    · rintro place paused ⟨⟩
  | finish at_ done =>
    obtain ⟨hlt, rfl⟩ := h.claimed _ (by rw [at_]; rfl)
    obtain ⟨hfinish, hcounts'⟩ := hcounts.consume hlt
    obtain rfl := Except.ok.inj (hfinish.symm.trans done)
    have hs : submitted [.workloadConsumed] = [] := rfl
    have hc : workloadsConsumed [.workloadConsumed] = 1 := rfl
    simp only [at_, RenderPhase.owes] at hge hle
    constructor
    · simp only [submitted_append, hs, List.append_nil, workloadsConsumed_append, hc]
      exact ⟨released, hcounts', by simp only [RenderPhase.owes]; omega,
        by simp only [RenderPhase.owes]; omega⟩
    · simp only [submitted_append, hs, List.append_nil, workloadsConsumed_append, hc]
      exact (h.holds.mono (Nat.le_succ _)).of_slots_eq rfl
    · rintro place ⟨⟩
    · rintro place paused ⟨⟩
      rw [workloadsConsumed_append, hc]
      exact ⟨_, rfl, rfl⟩
  | finishLost at_ refused =>
    obtain ⟨hlt, rfl⟩ := h.claimed _ (by rw [at_]; rfl)
    obtain ⟨hfinish, -⟩ := hcounts.consume hlt
    cases hfinish.symm.trans refused
  | @release place paused at_ =>
    obtain ⟨k, hk, rfl⟩ := h.releasing _ _ at_
    simp only [at_, RenderPhase.owes] at hge hle
    rw [List.append_nil]
    refine ⟨?_, h.holds.of_slots_eq rfl, ?_, ?_⟩
    · cases paused with
      | true =>
        exact ⟨k, hcounts.release_before (by omega) (by omega), by simp [RenderPhase.owes, hk],
          by simp [RenderPhase.owes, hk]⟩
      | false =>
        exact ⟨k + 1, hcounts.release (by omega) (by omega), by simp [RenderPhase.owes, hk],
          by simp [RenderPhase.owes, hk]⟩
    · rintro place ⟨⟩
    · rintro place paused ⟨⟩
  | planLost at_ => exact h.breakRender (by rw [at_]; rfl) rfl rfl
  | drawBroken at_ => exact h.breakRender (by rw [at_]; rfl) rfl rfl
  | leave at_ =>
    exact h.same .stop (by simp [RenderPhase.claimed?]) (by simp [at_, RenderPhase.owes]) (by simp)
      rfl rfl
  | @publish job index at_ =>
    refine h.same .refl ?_ ?_ ?_ rfl rfl <;> dsimp only <;> split <;>
      simp [at_, RenderPhase.claimed?, RenderPhase.owes]
  | _ =>
    exact h.same .refl (by simp [*, RenderPhase.claimed?, RenderJob.advance])
      (by simp [*, RenderPhase.owes]) (by simp) rfl rfl

lemma present (h : c.WorkloadsOrdered log) (m : c.PresentMove events c') :
    c'.WorkloadsOrdered (log ++ events) := by
  obtain hframe := m.frame
  refine h.same ?_ ?_ ?_ ?_ hframe.submitted hframe.workloadsConsumed
  · rw [hframe.workloads]
    exact .refl
  · rw [hframe.render]
    intro _
    exact id
  · rw [hframe.render]
  · rw [hframe.render]
    intro _ _
    exact id

/-- The slot being filled does not matter. -/
lemma modifyCurrent (h : c.WorkloadsOrdered log) {f : Workload → Workload} :
    { c with workloads := c.workloads.modifyCurrent f }.WorkloadsOrdered log := by
  obtain ⟨released, hcounts, hle⟩ := h.counts
  constructor
  · exact ⟨released, hcounts.congr Ring.size_modifyCurrent rfl rfl rfl, hle⟩
  · exact h.holds.modifyCurrent hcounts hcounts.released_le
  · dsimp only
    rw [Ring.size_modifyCurrent]
    exact h.claimed
  · dsimp only
    rw [Ring.size_modifyCurrent]
    exact h.releasing

/-- The workload in the slot being filled is published. -/
lemma publish (h : c.WorkloadsOrdered log) {w : Workload} (hw : c.workloads.current? = some w)
    {place : Nat} {ring : Ring Workload} (ha : c.workloads.advance = (.done place, ring)) :
    { c with workloads := ring }.WorkloadsOrdered (log ++ [Event.submitted w]) := by
  obtain ⟨released, hcounts, hle⟩ := h.counts
  obtain ⟨hslots, hcounts'⟩ := hcounts.of_advance ha
  have hsize : ring.size = c.workloads.size := congrArg List.length hslots
  have hs : submitted [.submitted w] = [w] := rfl
  have hc : workloadsConsumed [.submitted w] = 0 := rfl
  constructor
  · simp only [submitted_append, hs, workloadsConsumed_append, hc, Nat.add_zero,
      List.length_append, List.length_singleton]
    exact ⟨released, hcounts', hle⟩
  · simp only [submitted_append, hs, workloadsConsumed_append, hc, Nat.add_zero]
    exact (h.holds.publish hcounts hw).of_slots_eq hslots
  · simp only [submitted_append, hs, workloadsConsumed_append, hc, Nat.add_zero, hsize,
      List.length_append, List.length_singleton]
    intro place hp
    obtain ⟨hlt, hplace⟩ := h.claimed place hp
    exact ⟨Nat.lt_succ_of_lt hlt, hplace⟩
  · simp only [workloadsConsumed_append, hc, Nat.add_zero, hsize]
    exact h.releasing

end WorkloadsOrdered

namespace PresentsOrdered

/-- Moves within one present change nothing. -/
lemma same (h : c.PresentsOrdered log) (hring : c.presents.Same c'.presents)
    (hclaimed : ∀ place, c'.present.claimed? = some place → c.present.claimed? = some place)
    (hinHand : ∀ q, c'.present.present? = some q → c.present.present? = some q)
    (howes : c'.present.owes = c.present.owes) (htaken : c.present.taken ≤ c'.present.taken)
    (hconcluding : ∀ place id, c'.present = .conclude place id →
      c.present = .conclude place id ∨ ∃ q, c.present.present? = some q ∧ q.id = id)
    (hreleasing : ∀ place, c'.present = .release place → c.present = .release place)
    (hlog : log.Stamped) (hr : events.requested = []) (hc : events.presentsConsumed = 0) :
    c'.PresentsOrdered (log ++ events) := by
  have hsize : c'.presents.size = c.presents.size := congrArg List.length hring.slots
  constructor
  · obtain ⟨released, hcounts, hle⟩ := h.counts
    simp only [requested_append, hr, List.append_nil, presentsConsumed_append, hc, Nat.add_zero,
      howes]
    exact ⟨released, hcounts.same hring, hle⟩
  · simp only [requested_append, hr, List.append_nil, presentsConsumed_append, hc, Nat.add_zero]
    exact (h.holds.mono (by omega)).of_slots_eq hring.slots
  · simp only [requested_append, hr, List.append_nil, presentsConsumed_append, hc, Nat.add_zero,
      hsize]
    intro place hp
    exact h.claimed place (hclaimed place hp)
  · simp only [requested_append, hr, List.append_nil, presentsConsumed_append, hc, Nat.add_zero]
    intro q hq
    exact h.inHand q (hinHand q hq)
  · simp only [presentsConsumed_append, hc, Nat.add_zero]
    intro place id hp
    rcases hconcluding place id hp with hp | ⟨q, hq, rfl⟩
    · exact h.concluding place id hp
    · exact (hlog.present _ q (h.inHand q hq)).1
  · simp only [presentsConsumed_append, hc, Nat.add_zero, hsize]
    intro place hp
    exact h.releasing place (hreleasing place hp)

lemma render (h : c.PresentsOrdered log) (m : c.RenderMove events c') (hlog : log.Stamped) :
    c'.PresentsOrdered (log ++ events) := by
  have hframe := m.frame
  refine h.same ?_ ?_ ?_ ?_ ?_ ?_ ?_ hlog hframe.requested hframe.presentsConsumed
  · rw [hframe.presents]
    exact .refl
  · rw [hframe.present]
    intro _
    exact id
  · rw [hframe.present]
    intro _
    exact id
  · rw [hframe.present]
  · rw [hframe.present]
  · rw [hframe.present]
    intro _ _
    exact .inl
  · rw [hframe.present]
    intro _
    exact id

/-- Breaking off leaves what was consumed. -/
lemma breakPresent (h : c.PresentsOrdered log) {lost : Bool} (howes : c.present.owes = 0)
    (htaken : c.present.taken ≤ 1) (hlog : log.Stamped) (hr : events.requested = [])
    (hc : events.presentsConsumed = 0) :
    (c.breakPresent lost).PresentsOrdered (log ++ events) := by
  cases lost with
  | true =>
    exact h.same .stop (by simp [Control.breakPresent, PresentPhase.claimed?])
      (by simp [Control.breakPresent, PresentPhase.present?]) howes.symm htaken
      (by simp [Control.breakPresent]) (by simp [Control.breakPresent]) hlog hr hc
  | false =>
    exact h.same .refl (by simp [Control.breakPresent, PresentPhase.claimed?])
      (by simp [Control.breakPresent, PresentPhase.present?]) howes.symm htaken
      (by simp [Control.breakPresent]) (by simp [Control.breakPresent]) hlog hr hc

lemma present (h : c.PresentsOrdered log) (m : c.PresentMove events c') (hlog : log.Stamped) :
    c'.PresentsOrdered (log ++ events) := by
  obtain ⟨released, hcounts, hreleased⟩ := id h.counts
  cases m with
  | claim at_ got =>
    obtain ⟨hnext, rfl⟩ := Ring.of_claim got
    simp only [at_, PresentPhase.owes, Nat.add_zero] at hreleased
    have hlt : log.presentsConsumed < log.requested.length := by
      rw [Ne, hcounts.next_eq_write_iff] at hnext
      exact lt_of_le_of_ne hcounts.consumed_le hnext
    have hholds : c.presents.Holds log.requested log.presentsConsumed := by
      simpa [at_, PresentPhase.taken] using h.holds
    have hslot := hholds _ le_rfl _ (List.getElem?_eq_getElem hlt)
    rw [List.append_nil]
    constructor
    · exact ⟨released, hcounts.congr Ring.size_setSlot rfl rfl rfl, hreleased⟩
    · dsimp only
      rw [hcounts.next]
      exact hholds.take hcounts hreleased.le
    · rintro place ⟨⟩
      dsimp only
      rw [Ring.size_setSlot]
      exact ⟨hlt, hcounts.next⟩
    · rintro q ⟨⟩
      have hmod : c.presents.slot? c.presents.next = c.presents.slot? log.presentsConsumed := by
        simp only [Ring.slot?, hcounts.next, Nat.mod_mod]
      rw [hmod, hslot, List.getElem?_eq_getElem hlt]
      rfl
    · rintro place id ⟨⟩
    · rintro place ⟨⟩
  | finish at_ done =>
    obtain ⟨hlt, rfl⟩ := h.claimed _ (by rw [at_]; rfl)
    obtain ⟨hfinish, hcounts'⟩ := hcounts.consume hlt
    obtain rfl := Except.ok.inj (hfinish.symm.trans done)
    have hr : requested [.presentConsumed] = [] := rfl
    have hc : presentsConsumed [.presentConsumed] = 1 := rfl
    simp only [at_, PresentPhase.owes] at hreleased
    constructor
    · simp only [requested_append, hr, List.append_nil, presentsConsumed_append, hc]
      exact ⟨released, hcounts', by simp only [PresentPhase.owes]; omega⟩
    · simp only [requested_append, hr, List.append_nil, presentsConsumed_append, hc]
      have hholds := h.holds
      simp only [at_, PresentPhase.taken] at hholds
      exact hholds.of_slots_eq rfl
    · rintro place ⟨⟩
    · rintro q ⟨⟩
    · rintro place id ⟨⟩
    · rintro place ⟨⟩
      rw [presentsConsumed_append, hc]
      exact ⟨_, rfl, rfl⟩
  | finishLost at_ refused =>
    obtain ⟨hlt, rfl⟩ := h.claimed _ (by rw [at_]; rfl)
    obtain ⟨hfinish, -⟩ := hcounts.consume hlt
    cases hfinish.symm.trans refused
  | release at_ =>
    obtain ⟨k, hk, rfl⟩ := h.releasing _ at_
    simp only [at_, PresentPhase.owes] at hreleased
    have hholds := h.holds
    simp only [at_, PresentPhase.taken] at hholds
    rw [List.append_nil]
    refine ⟨⟨k + 1, hcounts.release (by omega) (by omega), by simp [PresentPhase.owes, hk]⟩,
      hholds.of_slots_eq rfl, ?_, ?_, ?_, ?_⟩
    · rintro place ⟨⟩
    · rintro q ⟨⟩
    · rintro place id ⟨⟩
    · rintro place ⟨⟩
  | uploadBroken at_ => exact h.breakPresent (by rw [at_]; rfl) (by rw [at_]; rfl) hlog rfl rfl
  | composeBroken at_ => exact h.breakPresent (by rw [at_]; rfl) (by rw [at_]; rfl) hlog rfl rfl
  | leave at_ =>
    exact h.same .stop (by simp [PresentPhase.claimed?]) (by simp [PresentPhase.present?])
      (by simp [at_, PresentPhase.owes]) (by simp [at_, PresentPhase.taken]) (by simp) (by simp)
      hlog rfl rfl
  | _ =>
    exact h.same .refl (by simp [*, PresentPhase.claimed?]) (by simp [*, PresentPhase.present?])
      (by simp [*, PresentPhase.owes]) (by simp [*, PresentPhase.taken])
      (by simp [*, PresentPhase.present?]) (by simp) hlog rfl rfl

/-- The slot being filled does not matter. -/
lemma setCurrent (h : c.PresentsOrdered log) {q : Present} :
    { c with presents := c.presents.setCurrent q }.PresentsOrdered log := by
  obtain ⟨released, hcounts, hle⟩ := h.counts
  have hsize : (c.presents.setCurrent q).size = c.presents.size := Ring.size_setSlot
  constructor
  · exact ⟨released, hcounts.congr hsize rfl rfl rfl, hle⟩
  · exact h.holds.setCurrent hcounts (by omega)
  · dsimp only
    rw [hsize]
    exact h.claimed
  · exact h.inHand
  · exact h.concluding
  · dsimp only
    rw [hsize]
    exact h.releasing

/-- The present in the slot being filled is published. -/
lemma publish (h : c.PresentsOrdered log) {q : Present} (hq : c.presents.current? = some q)
    {place : Nat} {ring : Ring Present} (ha : c.presents.advance = (.done place, ring)) :
    { c with presents := ring }.PresentsOrdered (log ++ [Event.requested q]) := by
  obtain ⟨released, hcounts, hle⟩ := h.counts
  obtain ⟨hslots, hcounts'⟩ := hcounts.of_advance ha
  have hsize : ring.size = c.presents.size := congrArg List.length hslots
  have hr : requested [.requested q] = [q] := rfl
  have hc : presentsConsumed [.requested q] = 0 := rfl
  constructor
  · simp only [requested_append, hr, presentsConsumed_append, hc, Nat.add_zero, List.length_append,
      List.length_singleton]
    exact ⟨released, hcounts', hle⟩
  · simp only [requested_append, hr, presentsConsumed_append, hc, Nat.add_zero]
    exact (h.holds.publish hcounts hq).of_slots_eq hslots
  · simp only [requested_append, hr, presentsConsumed_append, hc, Nat.add_zero, hsize,
      List.length_append, List.length_singleton]
    intro place hp
    obtain ⟨hlt, hplace⟩ := h.claimed place hp
    exact ⟨Nat.lt_succ_of_lt hlt, hplace⟩
  · simp only [requested_append, hr, presentsConsumed_append, hc, Nat.add_zero]
    intro q' hq'
    have hin := h.inHand q' hq'
    rw [List.getElem?_append_left (List.getElem?_eq_some_iff.mp hin).1]
    exact hin
  · simp only [presentsConsumed_append, hc, Nat.add_zero]
    exact h.concluding
  · simp only [presentsConsumed_append, hc, Nat.add_zero, hsize]
    exact h.releasing

end PresentsOrdered

namespace ProducerOrdered

/-- The steps of the workers leave the producer's numbers and what is pending. -/
lemma same (h : c.ProducerOrdered log) (hproducer : c.SameProducer c')
    (hworkload : c'.workloads.current? = c.workloads.current?)
    (hpresent : c'.presents.current? = c.presents.current?) (hs : events.submitted = [])
    (hr : events.requested = []) : c'.ProducerOrdered (log ++ events) := by
  constructor
  · simpa [hproducer.nextWorkloadId, hs] using h.nextWorkloadId
  · simpa [hproducer.nextPresentId, hr] using h.nextPresentId
  · simpa [hproducer.lastWorkloadId, hs] using h.lastWorkloadId
  · simpa [hproducer.lastPresentId, hr] using h.lastPresentId
  · intro item hitem
    have hstamps := h.pending item (hproducer.pending ▸ hitem)
    cases item <;> simpa [Stamps, hs, hr, hworkload, hpresent] using hstamps

end ProducerOrdered

namespace Ordered

lemma render (h : c.Ordered log) (m : c.RenderMove events c') : c'.Ordered (log ++ events) where
  stamped := h.stamped.congr m.frame.submitted m.frame.requested
  workloads := h.workloads.render m
  presents := h.presents.render m h.stamped
  producer := by
    have hframe := m.frame
    refine h.producer.same hframe.producer ?_ ?_ hframe.submitted hframe.requested
    · simp only [Ring.current?, Ring.slot?, Ring.size, hframe.slots, hframe.write]
    · rw [hframe.presents]

lemma present (h : c.Ordered log) (m : c.PresentMove events c') : c'.Ordered (log ++ events) where
  stamped := h.stamped.congr m.frame.submitted m.frame.requested
  workloads := h.workloads.present m
  presents := h.presents.present m h.stamped
  producer := by
    have hframe := m.frame
    obtain ⟨_, hcounts, -⟩ := h.presents.counts
    refine h.producer.same hframe.producer ?_ (m.current?_eq hcounts.write_lt) hframe.submitted
      hframe.requested
    rw [hframe.workloads]

/-- Nothing is published; an item with its stamps may be left pending. -/
lemma stay (h : c.Ordered log) {ring : Ring Workload} {ring' : Ring Present}
    (hworkloads : c.workloads.Same ring) (hpresents : c.presents.Same ring')
    {pending : Option Pending} (hpending : ∀ item, pending = some item → c.Stamps log item)
    (hw : c'.workloads = ring) (hp : c'.presents = ring') (hrender : c'.render = c.render)
    (hpresent : c'.present = c.present) (hproducer : { c with pending }.SameProducer c') :
    c'.Ordered (log ++ []) where
  stamped := h.stamped.congr rfl rfl
  workloads := by
    refine h.workloads.same (hw ▸ hworkloads) ?_ ?_ ?_ rfl rfl
    · rw [hrender]
      intro _
      exact id
    · rw [hrender]
    · rw [hrender]
      intro _ _
      exact id
  presents := by
    refine h.presents.same (hp ▸ hpresents) ?_ ?_ ?_ ?_ ?_ ?_ h.stamped rfl rfl
    · rw [hpresent]
      intro _
      exact id
    · rw [hpresent]
      intro _
      exact id
    · rw [hpresent]
    · rw [hpresent]
    · rw [hpresent]
      intro _ _
      exact .inl
    · rw [hpresent]
      intro _
      exact id
  producer := by
    have hproducer' : { c with pending }.ProducerOrdered log :=
      ⟨h.producer.nextWorkloadId, h.producer.nextPresentId, h.producer.lastWorkloadId,
        h.producer.lastPresentId, hpending⟩
    refine hproducer'.same hproducer ?_ ?_ rfl rfl
    · rw [hw, hworkloads.current?_eq]
    · rw [hp, hpresents.current?_eq]

/-- The workload being filled may be changed as long as nothing is pending. -/
lemma fill (h : c.Ordered log) (idle : c.pending = none) {f : Workload → Workload} :
    { c with workloads := c.workloads.modifyCurrent f }.Ordered log where
  stamped := h.stamped
  workloads := h.workloads.modifyCurrent
  presents := ⟨h.presents.counts, h.presents.holds, h.presents.claimed, h.presents.inHand,
    h.presents.concluding, h.presents.releasing⟩
  producer := by
    refine ⟨h.producer.nextWorkloadId, h.producer.nextPresentId, h.producer.lastWorkloadId,
      h.producer.lastPresentId, ?_⟩
    intro item hitem
    cases idle.symm.trans hitem

/-- What is offered has its stamps. -/
lemma offers (h : c.Ordered log) {item : Pending} {c₁ : Control} (ho : c.Offers item c₁) :
    c₁.Ordered log ∧ c₁.Stamps log item := by
  cases ho with
  | pending waits => exact ⟨h, h.producer.pending item waits⟩
  | workload idle w hid hpresentId =>
    obtain ⟨released, hcounts, -⟩ := h.workloads.counts
    refine ⟨h.fill idle, hid.trans h.producer.nextWorkloadId, w, ?_, rfl,
      hpresentId.trans h.producer.lastPresentId⟩
    dsimp only
    rw [Ring.current?_modifyCurrent hcounts.write_lt, Ring.current?, Ring.slot?,
      Nat.mod_eq_of_lt hcounts.write_lt, List.getElem?_eq_getElem hcounts.write_lt]
    rfl
  | present idle q hid hworkloadId =>
    obtain ⟨released, hcounts, -⟩ := h.presents.counts
    refine ⟨⟨h.stamped, ?_, h.presents.setCurrent, ?_⟩, hid.trans h.producer.nextPresentId, q,
      Ring.slot?_setSlot_self hcounts.write_lt, rfl, hworkloadId.trans h.producer.lastWorkloadId⟩
    · exact ⟨h.workloads.counts, h.workloads.holds, h.workloads.claimed, h.workloads.releasing⟩
    · refine ⟨h.producer.nextWorkloadId, h.producer.nextPresentId, h.producer.lastWorkloadId,
        h.producer.lastPresentId, ?_⟩
      intro item hitem
      cases idle.symm.trans hitem

/-- An item with its stamps is published, or waits, or is given up. -/
lemma publish (h : c.Ordered log) {item : Pending} (hitem : c.Stamps log item) :
    (c.publish item).2.Ordered (log ++ (c.publish item).1) := by
  have hwaiting : ∀ item', some item = some item' → c.Stamps log item' := by
    rintro item' ⟨⟩
    exact hitem
  cases item with
  | workload number =>
    obtain ⟨hnumber, w, hcurrent, hw, hpresentId⟩ := hitem
    rcases hadvance : c.workloads.advance with ⟨attempt, ring⟩
    simp only [Control.publish, hadvance]
    cases attempt with
    | done place =>
      have hpublished := (h.workloads.publish hcurrent hadvance).modifyCurrent (f := .reset)
      rw [hcurrent]
      refine ⟨h.stamped.submit (hw.trans hnumber) hpresentId, ?_, ?_, ?_⟩
      · exact ⟨hpublished.counts, hpublished.holds, hpublished.claimed, hpublished.releasing⟩
      · exact h.presents.same .refl (fun _ => id) (fun _ => id) rfl le_rfl (fun _ _ => .inl)
          (fun _ => id) h.stamped rfl rfl
      · have hs : submitted [.submitted w] = [w] := rfl
        have hr : requested [.submitted w] = [] := rfl
        constructor
        · simp [hs, h.producer.nextWorkloadId]
        · simp [hr, h.producer.nextPresentId]
        · simp [hs, hnumber]
        · simp [hr, h.producer.lastPresentId]
        · rintro item ⟨⟩
    | waiting =>
      exact h.stay (Ring.same_of_advance hadvance (by simp)) .refl hwaiting rfl rfl rfl rfl
        ⟨rfl, rfl, rfl, rfl, rfl⟩
    | stopped =>
      exact h.stay (Ring.same_of_advance hadvance (by simp)) .refl (by simp) rfl
        rfl rfl rfl ⟨rfl, rfl, rfl, rfl, rfl⟩
  | present number =>
    obtain ⟨hnumber, q, hcurrent, hq, hworkloadId⟩ := hitem
    rcases hadvance : c.presents.advance with ⟨attempt, ring⟩
    simp only [Control.publish, hadvance]
    cases attempt with
    | done place =>
      have hpublished := h.presents.publish hcurrent hadvance
      rw [hcurrent]
      refine ⟨h.stamped.request (hq.trans hnumber) hworkloadId, ?_, ?_, ?_⟩
      · exact h.workloads.same .refl (fun _ => id) rfl (fun _ _ => id) rfl rfl
      · exact ⟨hpublished.counts, hpublished.holds, hpublished.claimed, hpublished.inHand,
          hpublished.concluding, hpublished.releasing⟩
      · have hs : submitted [.requested q] = [] := rfl
        have hr : requested [.requested q] = [q] := rfl
        constructor
        · simp [hs, h.producer.nextWorkloadId]
        · simp [hr, h.producer.nextPresentId]
        · simp [hs, h.producer.lastWorkloadId]
        · simp [hr, hnumber]
        · rintro item ⟨⟩
    | waiting =>
      exact h.stay .refl (Ring.same_of_advance hadvance (by simp)) hwaiting rfl rfl rfl rfl
        ⟨rfl, rfl, rfl, rfl, rfl⟩
    | stopped =>
      exact h.stay .refl (Ring.same_of_advance hadvance (by simp)) (by simp) rfl
        rfl rfl rfl ⟨rfl, rfl, rfl, rfl, rfl⟩

/-- Every move keeps the order. -/
lemma move (h : c.Ordered log) (m : c.Move events c') : c'.Ordered (log ++ events) := by
  cases m with
  | render m => exact h.render m
  | present m => exact h.present m
  | producer m =>
    cases m with
    | stay =>
      exact h.stay .refl .refl h.producer.pending rfl rfl rfl rfl ⟨rfl, rfl, rfl, rfl, rfl⟩
    | fill idle f =>
      rw [List.append_nil]
      exact h.fill idle
    | publish offers =>
      obtain ⟨hordered, hitem⟩ := h.offers offers
      exact hordered.publish hitem
    | shutdown =>
      exact h.stay .stop .stop h.producer.pending rfl rfl rfl rfl ⟨rfl, rfl, rfl, rfl, rfl⟩

/-- Nothing was submitted at the start. -/
lemma start {n m : Nat} : (Control.start n m).Ordered [] where
  stamped := .nil
  workloads := by
    refine ⟨⟨0, Ring.Counts.new, le_rfl, Nat.zero_le _⟩, ?_, ?_, ?_⟩
    · intro k hk a ha
      simp at ha
    · rintro place ⟨⟩
    · rintro place paused ⟨⟩
  presents := by
    refine ⟨⟨0, Ring.Counts.new, rfl⟩, ?_, ?_, ?_, ?_, ?_⟩
    · intro k hk a ha
      simp at ha
    · rintro place ⟨⟩
    · rintro q ⟨⟩
    · rintro place id ⟨⟩
    · rintro place ⟨⟩
  producer := by
    refine ⟨rfl, rfl, rfl, rfl, ?_⟩
    rintro item ⟨⟩

end Ordered

/-- A state can be reached by moves with the given events. -/
inductive Reached (n m : Nat) : History → Control → Prop where
  | start : Reached n m [] (start n m)
  | step {log events : History} {c c' : Control} (before : Reached n m log c)
      (move : c.Move events c') : Reached n m (log ++ events) c'

lemma Reached.ordered {n m : Nat} (h : Reached n m log c) : c.Ordered log := by
  induction h with
  | start => exact .start
  | step _ move ih => exact ih.move move

end Control

namespace Pipeline

variable {p q : Pipeline} {log : History}

/-- A run is a sequence of moves. -/
lemma Run.reached {start : Pipeline} {n m : Nat} (hstart : start.control = .start n m)
    (h : start.Run log p) : Control.Reached n m log p.control := by
  induction h with
  | nil =>
    rw [hstart]
    exact .start
  | step _ a hact ih =>
    obtain ⟨_, hworkloads, -⟩ := ih.ordered.workloads.counts
    obtain ⟨_, hpresents, -⟩ := ih.ordered.presents.counts
    exact ih.step (move_of_act hact hworkloads hpresents)

/-- Settings in range make the rings large enough. -/
lemma ringSizes_of_validate {config : Config} (h : config.validate = .ok ()) :
    3 ≤ config.workloadRingSize ∧ 2 ≤ config.presentRingSize := by
  have hvalid : config.invalid? = none := by
    simp only [Config.validate] at h
    split at h
    · cases h
    · assumption
  simp only [Config.invalid?] at hvalid
  repeat' split at hvalid
  all_goals first
    | omega
    | cases hvalid

/-- The pipeline as it starts: nothing is filled, rendered or shown. -/
def initial (limits : DeviceLimits) (config : Config) (swapChain : SwapChain) : Pipeline where
  shared :=
    (((Shared.new config swapChain.size
      (.new (.new limits) (config.targetConfig swapChain.size.2)) swapChain.refreshRate).note
        (.deviceChosen Device.name config.api swapChain.size.1 swapChain.size.2
          swapChain.refreshRate)).note (.workerStarted .present)).note (.workerStarted .render)
  workloads := .new config.workloadRingSize .empty
  presents := .new config.presentRingSize .empty
  swapChain
  producer := .new
  matcher := .new
  revision := 0
  render := .claim
  shownWorkloadId := 0
  present := .claim

lemma of_start {host : Host} {config : Config} (h : start host config = .ok p) :
    config.validate = .ok () ∧ ∃ swapChain, p = initial host.limits config swapChain := by
  simp only [start, Except.bind_eq_ok_iff] at h
  obtain ⟨_, hvalid, h⟩ := h
  split at h
  · cases h
  · simp only [Except.bind_eq_ok_iff] at h
    obtain ⟨device, hdevice, _, -, swapChain, -, h⟩ := h
    cases h
    simp only [Host.createDevice] at hdevice
    split at hdevice
    · cases hdevice
    · cases hdevice
      exact ⟨hvalid, swapChain, rfl⟩

/-- The rings are as large as the settings say. -/
lemma control_of_start {host : Host} {config : Config} (h : start host config = .ok p) :
    p.control = .start config.workloadRingSize config.presentRingSize ∧
      3 ≤ config.workloadRingSize ∧ 2 ≤ config.presentRingSize := by
  obtain ⟨hvalid, swapChain, rfl⟩ := of_start h
  exact ⟨rfl, ringSizes_of_validate hvalid⟩

/-- A run from the start is a sequence of moves with large enough rings. -/
lemma Ran.reached (h : Ran log p) :
    ∃ n m, 3 ≤ n ∧ 2 ≤ m ∧ Control.Reached n m log p.control := by
  obtain ⟨host, config, start, hstart, hrun⟩ := h
  obtain ⟨hcontrol, hn, hm⟩ := control_of_start hstart
  exact ⟨_, _, hn, hm, hrun.reached hcontrol⟩

end Pipeline

end Scanout
