import Mathlib.Data.List.Perm.Subperm
import Scanout.Proofs.Pipeline.Halting
import Scanout.Proofs.Pipeline.Hold

/-!
# The images of a run

The images that were made known for a workload, and the slots that were put together for a present,
are read off the events of a run. What the render worker tells the present worker about the workload
in production agrees with them, and grows only at its end while a present is let in.
-/

namespace Scanout

namespace History

variable {log events : History} {q : Present} {v : Nat}

/-- The images of a workload that were made known, in order. -/
def produced (log : History) (workloadId : Nat) : List Slot :=
  log.filterMap fun
    | .produced v slot => if v = workloadId then some slot else none
    | _ => none

/-- The slots that were put together for a present, in order. -/
def composedBy (log : History) (q : Present) : List Slot :=
  log.filterMap fun
    | .composed q' slot => if q' = q then some slot else none
    | _ => none

/-- The slots that were put together for the presents of a workload, in order. -/
def composedFor (log : History) (workloadId : Nat) : List Slot :=
  log.filterMap fun
    | .composed q slot => if q.workloadId = workloadId then some slot else none
    | _ => none

@[simp] lemma produced_append : produced (log ++ events) v = log.produced v ++ events.produced v :=
  List.filterMap_append

@[simp] lemma composedBy_append :
    composedBy (log ++ events) q = log.composedBy q ++ events.composedBy q :=
  List.filterMap_append

@[simp] lemma composedFor_append :
    composedFor (log ++ events) v = log.composedFor v ++ events.composedFor v :=
  List.filterMap_append

lemma produced_of_party (h : ∀ e ∈ events, e.party ≠ .render) : events.produced v = [] := by
  rw [produced, List.filterMap_eq_nil_iff]
  intro e he
  have hparty := h e he
  cases e <;> simp [Event.party] at hparty ⊢

lemma composedBy_eq_nil (h : ∀ slot, .composed q slot ∉ events) : events.composedBy q = [] := by
  rw [composedBy, List.filterMap_eq_nil_iff]
  intro e he
  cases e with
  | composed q' slot =>
    dsimp only
    rw [if_neg]
    rintro rfl
    exact h slot he
  | _ => rfl

lemma mem_produced {slot : Slot} (h : slot ∈ log.produced v) : .produced v slot ∈ log := by
  obtain ⟨e, he, heq⟩ := List.mem_filterMap.mp h
  cases e with
  | produced v' slot' =>
    dsimp only at heq
    split at heq
    · rename_i hv
      rwa [hv, Option.some.inj heq] at he
    · cases heq
  | _ => cases heq

end History

/-- More images of the same workload are known, in the same order. -/
structure Production.Extends (p p' : Production) : Prop where
  workloadId : p'.workloadId = p.workloadId
  planned : p'.planned = p.planned
  produced : p.produced <+: p'.produced
  closed : p.complete = true → p'.complete = true ∧ p'.produced = p.produced

/-- Indices in order are not more than their bound. -/
lemma length_le_of_pairwise_lt {indices : List Nat} {bound : Nat} (h : indices.Pairwise (· < ·))
    (hbound : ∀ i ∈ indices, i < bound) : indices.length ≤ bound := by
  have hnodup : indices.Nodup := h.imp Nat.ne_of_lt
  have hsubset : indices ⊆ List.range bound := fun i hi => List.mem_range.mpr (hbound i hi)
  simpa using (hnodup.subperm hsubset).length_le

lemma Production.OpenBelow.length_le {p : Production} {bound : Nat} (h : p.OpenBelow bound) :
    p.produced.length ≤ bound := by
  obtain ⟨-, indices, hproduced, hsorted, hbelow⟩ := h
  rw [hproduced, List.length_map]
  exact length_le_of_pairwise_lt hsorted hbelow

namespace Production

variable {p : Production} {slot : Slot} {skipped : Bool}

@[simp] lemma planned_publish : (p.publish slot skipped).planned = p.planned := by
  cases slot <;> rfl

@[simp] lemma produced_publish : (p.publish slot skipped).produced = p.produced ++ [slot] := by
  cases slot <;> rfl

lemma length_produced_publish :
    (p.publish slot skipped).produced.length = p.produced.length + 1 := by
  simp

end Production

/-- The final image of an open production is not known. -/
lemma Production.OpenBelow.not_finished {p : Production} {bound : Nat} (h : p.OpenBelow bound) :
    ¬ Slot.Finished p.produced := by
  obtain ⟨-, indices, hproduced, -, -⟩ := h
  rintro ⟨indices', hproduced', -⟩
  have hmain : Slot.main ∈ p.produced := by simp [hproduced']
  simp [hproduced] at hmain

namespace Control

variable {c c' : Control} {log events : History} {n m : Nat}

/-- What is told about the workload in production agrees with what was made known. -/
structure Images (c : Control) (log : History) : Prop where
  current : log.produced c.production.workloadId = c.production.produced
  later : ∀ v, c.production.workloadId < v → log.produced v = []
  length_le : c.production.produced.length ≤ c.production.planned
  length_lt : c.production.complete = false → c.production.workloadId ≠ 0 →
    c.production.produced.length < c.production.planned

namespace Images

lemma start : (Control.start n m).Images [] :=
  ⟨rfl, fun _ _ => rfl, le_rfl, fun _ h => absurd rfl h⟩

/-- Nothing is made known. -/
lemma same (h : c.Images log) (hid : c'.production.workloadId = c.production.workloadId)
    (hproduced : c'.production.produced = c.production.produced)
    (hcomplete : c'.production.complete = c.production.complete)
    (hplanned : c'.production.planned = c.production.planned)
    (hevents : ∀ v, events.produced v = []) : c'.Images (log ++ events) := by
  constructor
  · simpa [hid, hproduced, hevents] using h.current
  · simpa [hid, hevents] using h.later
  · rw [hproduced, hplanned]
    exact h.length_le
  · rw [hproduced, hcomplete, hid, hplanned]
    exact h.length_lt

/-- An image is made known. -/
lemma publish (ho : c.Ordered log) (hf : c.RenderFacts log.workloadsConsumed) (h : c.Images log)
    {job : RenderJob} {index : Nat} (at_ : c.render = .publish job index)
    (hproduction : c'.production = c.production.publish (job.slot index) (0 < job.skipped)) :
    c'.Images (log ++ [.produced (c.workloadAt job.place).id (job.slot index)]) := by
  simp only [RenderFacts, at_] at hf
  obtain ⟨hid, hplanned, hopen, hindex, -⟩ := hf
  have hnumber := ho.id_workloadAt job.place (by rw [at_]; rfl)
  have hlength := hopen.length_le
  rw [hnumber, ← hid]
  have hevents : ∀ v, History.produced [.produced c.production.workloadId (job.slot index)] v =
      if c.production.workloadId = v then [job.slot index] else [] := by
    intro v
    simp only [History.produced, List.filterMap_cons, List.filterMap_nil]
    split <;> simp_all
  constructor
  · rw [hproduction, History.produced_append, Production.workloadId_publish, h.current, hevents,
      if_pos rfl]
    rw [Production.produced_publish]
  · rw [hproduction, Production.workloadId_publish]
    intro v hv
    rw [History.produced_append, h.later v hv, hevents, if_neg hv.ne]
    rfl
  · rw [hproduction, Production.planned_publish, Production.length_produced_publish, hplanned]
    exact Nat.succ_le_of_lt (Nat.lt_of_le_of_lt hlength hindex)
  · rw [hproduction, Production.planned_publish, Production.length_produced_publish, hplanned]
    intro hcomplete
    -- the final image would have completed the production
    have hne : index + 1 ≠ job.plan.size := by
      rintro heq
      rw [RenderJob.slot, if_pos heq] at hcomplete
      cases hcomplete
    omega

lemma render (ho : c.Ordered log) (hf : c.RenderFacts log.workloadsConsumed) (h : c.Images log)
    (m : c.RenderMove events c') : c'.Images (log ++ events) := by
  cases m with
  | @plan place at_ plan rates images =>
    simp only [RenderFacts, at_] at hf
    have hnumber := ho.id_workloadAt place (by rw [at_]; rfl)
    rw [List.append_nil]
    constructor
    · exact h.later _ (by dsimp only [Production.start]; omega)
    · intro v hv
      exact h.later v (by dsimp only [Production.start] at hv; omega)
    · exact Nat.zero_le _
    · intro _ _
      exact images
  | publish at_ => exact h.publish ho hf at_ rfl
  | drawBroken at_ lost => cases lost <;> exact h.same rfl rfl rfl rfl fun _ => rfl
  | _ => exact h.same rfl rfl rfl rfl fun _ => rfl

lemma move (ho : c.Ordered log) (hf : c.RenderFacts log.workloadsConsumed) (h : c.Images log)
    (m : c.Move events c') : c'.Images (log ++ events) := by
  cases m with
  | render m => exact h.render ho hf m
  | present m =>
    have hframe := m.frame
    exact h.same hframe.workloadId hframe.produced hframe.complete hframe.planned fun v =>
      History.produced_of_party fun e he => by simp [m.party e he]
  | producer m =>
    have hframe := m.frame
    refine h.same ?_ ?_ ?_ ?_ fun v =>
      History.produced_of_party fun e he => by simp [hframe.party e he]
    all_goals rw [hframe.production]

end Images

lemma Reached.images (h : Reached n m log c) : c.Images log := by
  induction h with
  | start => exact .start
  | step before move ih => exact ih.move before.ordered before.renderFacts move

/-- A production that is complete has all its images, as long as its worker goes on. -/
lemma RenderFacts.closed (h : c.RenderFacts n) (hcomplete : c.production.complete = true)
    (hgoes : c.render.leaving = false) : c.production.Closed := by
  have hreaches : ∀ job, c.production.Reaches job → c.production.Closed := by
    intro job hreaches
    by_cases hlt : job.next < job.plan.size
    · cases hcomplete.symm.trans (hreaches.openBelow hlt).1
    · exact hreaches.closed (Nat.not_lt.mp hlt)
  simp only [RenderFacts] at h
  cases hphase : c.render with
  | draw job =>
    simp only [hphase] at h
    exact hreaches job h.2.1
  | publish job index =>
    simp only [hphase] at h
    obtain ⟨-, -, hopen, -⟩ := h
    cases hcomplete.symm.trans hopen.1
  | announce job =>
    simp only [hphase] at h
    exact hreaches job h.2.1
  | conclude | finish =>
    simp only [hphase] at h
    exact h.2.1
  | leave | stopped | lost => simp [hphase, RenderPhase.leaving] at hgoes
  | _ =>
    simp only [hphase] at h
    obtain ⟨-, -, ⟨-, -, hopen⟩ | hclosed⟩ := h
    · cases hcomplete.symm.trans hopen
    · exact hclosed

lemma Reached.closed (h : Reached n m log c) (hrunning : c.running = true)
    (hcomplete : c.production.complete = true) : c.production.Closed := by
  apply h.renderFacts.closed hcomplete
  by_contra hleaving
  have hhalts := h.halts.renderLeaving (by simpa using hleaving)
  cases hrunning.symm.trans hhalts

/-- What is finished gets no more images. -/
lemma Reached.produced_of_finished (h : Reached n m log c) (move : c.Move events c') {v : Nat}
    (hv : Slot.Finished (log.produced v)) : events.produced v = [] := by
  cases move with
  | render m =>
    cases m with
    | @publish job index at_ =>
      have hfacts := h.renderFacts
      simp only [RenderFacts, at_] at hfacts
      obtain ⟨hid, -, hopen, -⟩ := hfacts
      have hnumber := h.ordered.id_workloadAt job.place (by rw [at_]; rfl)
      have hne : (c.workloadAt job.place).id ≠ v := by
        rintro rfl
        rw [hnumber, ← hid, h.images.current] at hv
        exact hopen.not_finished hv
      simp only [History.produced, List.filterMap_cons, if_neg hne, List.filterMap_nil]
    | _ => rfl
  | present m => exact History.produced_of_party fun e he => by simp [m.party e he]
  | producer m => exact History.produced_of_party fun e he => by simp [m.frame.party e he]

/-- While a present is let in, nothing but images of the workload in production is made known. -/
lemma Reached.extends (h : Reached n m log c) (move : c.Move events c') {q : Present}
    (hq : log.admitted? = some q) : c.production.Extends c'.production := by
  have hsame : c'.production.workloadId = c.production.workloadId →
      c'.production.planned = c.production.planned →
      c'.production.produced = c.production.produced →
      c'.production.complete = c.production.complete → c.production.Extends c'.production := by
    intro hid hplanned hproduced hcomplete
    refine ⟨hid, hplanned, hproduced ▸ List.prefix_rfl, fun hc => ⟨hcomplete.trans hc, hproduced⟩⟩
  cases move with
  | render m =>
    cases m with
    | plan at_ => cases hq.symm.trans (h.admitted?_eq_none (.inr (.inr at_)))
    | @publish job index at_ =>
      have hfacts := h.renderFacts
      simp only [RenderFacts, at_] at hfacts
      obtain ⟨-, -, hopen, -⟩ := hfacts
      refine ⟨Production.workloadId_publish, Production.planned_publish, ?_, ?_⟩
      · dsimp only
        rw [Production.produced_publish]
        exact List.prefix_append _ _
      · intro hcomplete
        cases hcomplete.symm.trans hopen.1
    | drawBroken at_ lost => cases lost <;> exact hsame rfl rfl rfl rfl
    | _ => exact hsame rfl rfl rfl rfl
  | present m =>
    have hframe := m.frame
    exact hsame hframe.workloadId hframe.planned hframe.produced hframe.complete
  | producer m =>
    have hframe := m.frame
    apply hsame <;> rw [hframe.production]

end Control

end Scanout
