import Scanout.Proofs.Pipeline.Order

/-!
# Where the workers stand

In each phase the render worker knows how far the images of its workload have come, and the present
worker whether its present has been let in. `Control.RenderFacts` and `Control.PresentFacts` say so
phase by phase, together with the values that the two signals have there.
-/

namespace Scanout

/-- The parties of the pipeline. -/
inductive Party where
  | producer
  | render
  | present
  deriving DecidableEq

/-- The party that brings an event about. -/
def Event.party : Event → Party
  | .submitted _ | .requested _ => .producer
  | .configured _ | .recorded .. | .produced .. | .workloadConsumed => .render
  | .entered _ | .composed .. | .done _ | .presentConsumed => .present

namespace History

variable {log events : History}

/-- What an event means for the present that was let in. -/
def letIn (q? : Option Present) : Event → Option Present
  | .entered q => some q
  | .done _ => none
  | _ => q?

/-- The present that was let in and is not done. -/
def admitted? (log : History) : Option Present := log.foldl letIn none

@[simp] lemma admitted?_append : admitted? (log ++ events) = events.foldl letIn log.admitted? :=
  List.foldl_append

lemma foldl_letIn_of_party (h : ∀ e ∈ events, e.party ≠ .present) (q? : Option Present) :
    events.foldl letIn q? = q? := by
  induction events generalizing q? with
  | nil => rfl
  | cons e events ih =>
    rw [List.foldl_cons, ih fun e he => h e (List.mem_cons_of_mem _ he)]
    have he := h e List.mem_cons_self
    cases e <;> simp [Event.party] at he <;> rfl

lemma workloadsConsumed_of_party (h : ∀ e ∈ events, e.party ≠ .render) :
    events.workloadsConsumed = 0 :=
  List.count_eq_zero.mpr fun he => h _ he rfl

lemma presentsConsumed_of_party (h : ∀ e ∈ events, e.party ≠ .present) :
    events.presentsConsumed = 0 :=
  List.count_eq_zero.mpr fun he => h _ he rfl

end History

/-- The slots are intermediate ones in order, followed by the main one. -/
def Slot.Finished (slots : List Slot) : Prop :=
  ∃ indices : List Nat, slots = indices.map .intermediate ++ [.main] ∧ indices.Pairwise (· < ·)

namespace Production

/-- Only intermediate images below `bound` were made known, in order. -/
def OpenBelow (p : Production) (bound : Nat) : Prop :=
  p.complete = false ∧
    ∃ indices : List Nat, p.produced = indices.map Slot.intermediate ∧
      indices.Pairwise (· < ·) ∧ ∀ i ∈ indices, i < bound

/-- The final image was made known, after intermediate ones in order. -/
def Closed (p : Production) : Prop := p.complete = true ∧ Slot.Finished p.produced

end Production

/-- The first image of the job that may be rendered next. -/
def RenderJob.next (job : RenderJob) : Nat := job.last.elim 0 (· + 1)

/-- All images of the job up to the last one rendered are known. -/
def Production.Reaches (p : Production) (job : RenderJob) : Prop :=
  p.planned = job.plan.size ∧ if job.next < job.plan.size then p.OpenBelow job.next else p.Closed

namespace Control

/-- What holds in the phase of the render worker after it has consumed `n` workloads. -/
def RenderFacts (c : Control) (n : Nat) : Prop :=
  match c.render with
  | .claim | .await _ | .abandon _ | .configure _ | .plan _ | .release .. =>
    c.workloadSignal.value = n ∧ c.production.workloadId = n ∧
      (n = 0 ∧ c.production.produced = [] ∧ c.production.complete = false ∨ c.production.Closed)
  | .draw job =>
    c.production.workloadId = n + 1 ∧ c.production.Reaches job ∧ 0 < job.plan.size ∧
      (job.rendered = [] ↔ job.last = none) ∧
      c.workloadSignal.value = n + if job.rendered = [] then 0 else 1
  | .publish job index =>
    c.production.workloadId = n + 1 ∧ c.production.planned = job.plan.size ∧
      c.production.OpenBelow index ∧ index < job.plan.size ∧ job.last = some index ∧
      job.rendered ≠ [] ∧ c.workloadSignal.value = n + if job.rendered.length = 1 then 0 else 1
  | .announce job =>
    c.production.workloadId = n + 1 ∧ c.production.Reaches job ∧ 0 < job.plan.size ∧
      job.rendered ≠ [] ∧ job.last ≠ none ∧ c.workloadSignal.value = n
  | .conclude _ | .finish .. =>
    c.production.workloadId = n + 1 ∧ c.production.Closed ∧ c.workloadSignal.value = n + 1
  | .leave | .stopped | .lost =>
    n ≤ c.workloadSignal.value ∧ c.workloadSignal.value ≤ c.production.workloadId ∧
      c.production.workloadId ≤ n + 1

/-- A workload knows only of presents that are done. -/
def Begun (c : Control) (log : History) (workloadId : Nat) : Prop :=
  ∃ w ∈ log.submitted, w.id = workloadId ∧ w.presentId ≤ c.presentSignal.value

/-- What holds in the phase of the present worker. -/
def PresentFacts (c : Control) (log : History) : Prop :=
  match c.present with
  | .claim | .await .. | .release _ =>
    c.presentSignal.value = log.presentsConsumed ∧ log.admitted? = none
  | .finish _ => c.presentSignal.value = log.presentsConsumed + 1 ∧ log.admitted? = none
  | .leave | .stopped | .lost =>
    c.presentSignal.value = log.presentsConsumed ∧
      ∀ q, log.admitted? = some q →
        log.requested[log.presentsConsumed]? = some q ∧ q.workloadId ≤ c.workloadSignal.value
  | _ =>
    c.presentSignal.value = log.presentsConsumed ∧
      ∃ q, log.admitted? = some q ∧ log.requested[log.presentsConsumed]? = some q ∧
        q.workloadId ≤ c.workloadSignal.value

/-- What the producer and the host leave alone. -/
structure ProducerFrame (c : Control) (events : History) (c' : Control) : Prop where
  production : c'.production = c.production
  workloadValue : c'.workloadSignal.value = c.workloadSignal.value
  presentValue : c'.presentSignal.value = c.presentSignal.value
  render : c'.render = c.render
  present : c'.present = c.present
  shownWorkloadId : c'.shownWorkloadId = c.shownWorkloadId
  party : ∀ e ∈ events, e.party = .producer

variable {c c' : Control} {log events : History}

lemma RenderMove.party (m : c.RenderMove events c') : ∀ e ∈ events, e.party = .render := by
  cases m <;> simp [Event.party]

lemma PresentMove.party (m : c.PresentMove events c') : ∀ e ∈ events, e.party = .present := by
  cases m <;> simp [Event.party]

lemma publish_frame (item : Pending) : c.ProducerFrame (c.publish item).1 (c.publish item).2 := by
  cases item with
  | workload number =>
    rcases hadvance : c.workloads.advance with ⟨attempt, ring⟩
    simp only [publish, hadvance]
    cases attempt <;> exact ⟨rfl, rfl, rfl, rfl, rfl, rfl, by simp [Event.party]⟩
  | present number =>
    rcases hadvance : c.presents.advance with ⟨attempt, ring⟩
    simp only [publish, hadvance]
    cases attempt <;> exact ⟨rfl, rfl, rfl, rfl, rfl, rfl, by simp [Event.party]⟩

lemma ProducerMove.frame (m : c.ProducerMove events c') : c.ProducerFrame events c' := by
  cases m with
  | publish offers =>
    cases offers with
    | pending => exact publish_frame _
    | workload idle w =>
      obtain ⟨h₁, h₂, h₃, h₄, h₅, h₆, h₇⟩ :=
        publish_frame (c := { c with workloads := c.workloads.modifyCurrent fun _ => w })
          (.workload w.id)
      exact ⟨h₁, h₂, h₃, h₄, h₅, h₆, h₇⟩
    | present idle q =>
      obtain ⟨h₁, h₂, h₃, h₄, h₅, h₆, h₇⟩ :=
        publish_frame (c := { c with presents := c.presents.setCurrent q }) (.present q.id)
      exact ⟨h₁, h₂, h₃, h₄, h₅, h₆, h₇⟩
  | _ => exact ⟨rfl, rfl, rfl, rfl, rfl, rfl, by simp⟩

/-- The workload in hand has the next number. -/
lemma Ordered.id_workloadAt (h : c.Ordered log) (place : Nat)
    (hp : c.render.claimed? = some place) :
    (c.workloadAt place).id = log.workloadsConsumed + 1 :=
  (h.stamped.workload _ _ (h.workloads.workloadAt place hp)).1

lemma of_subFrameAfter {last : Option Nat} {count index : Nat} {blocked : Bool}
    (h : subFrameAfter last count blocked = some index) :
    last.elim 0 (· + 1) ≤ index ∧ index < count := by
  unfold subFrameAfter at h
  dsimp only at h
  split at h
  · cases h
  · split at h <;> cases h <;> omega

lemma of_subFrameAfter_eq_none {last : Option Nat} {count : Nat} {blocked : Bool}
    (h : subFrameAfter last count blocked = none) : count ≤ last.elim 0 (· + 1) := by
  unfold subFrameAfter at h
  dsimp only at h
  split at h
  · assumption
  · split at h <;> cases h

end Control

namespace Production

variable {p : Production} {i j : Nat} {job : RenderJob}

lemma OpenBelow.mono (h : p.OpenBelow i) (hle : i ≤ j) : p.OpenBelow j := by
  obtain ⟨hopen, indices, hproduced, hsorted, hbelow⟩ := h
  exact ⟨hopen, indices, hproduced, hsorted, fun k hk => Nat.lt_of_lt_of_le (hbelow k hk) hle⟩

lemma Reaches.openBelow (h : p.Reaches job) (hlt : job.next < job.plan.size) :
    p.OpenBelow job.next := by
  have hreaches := h.2
  rwa [if_pos hlt] at hreaches

lemma Reaches.closed (h : p.Reaches job) (hle : job.plan.size ≤ job.next) : p.Closed := by
  have hreaches := h.2
  rwa [if_neg (Nat.not_lt.mpr hle)] at hreaches

lemma Reaches.of_openBelow (hplanned : p.planned = job.plan.size) (hlt : job.next < job.plan.size)
    (h : p.OpenBelow job.next) : p.Reaches job := by
  refine ⟨hplanned, ?_⟩
  rwa [if_pos hlt]

lemma Reaches.of_closed (hplanned : p.planned = job.plan.size) (hle : job.plan.size ≤ job.next)
    (h : p.Closed) : p.Reaches job := by
  refine ⟨hplanned, ?_⟩
  rwa [if_neg (Nat.not_lt.mpr hle)]

/-- The next intermediate image is made known. -/
lemma OpenBelow.publish (h : p.OpenBelow i) {skipped : Bool} :
    (p.publish (.intermediate i) skipped).OpenBelow (i + 1) := by
  obtain ⟨hopen, indices, hproduced, hsorted, hbelow⟩ := h
  refine ⟨hopen, indices ++ [i], ?_, ?_, ?_⟩
  · simp [Production.publish, produce, hproduced]
  · rw [List.pairwise_append]
    refine ⟨hsorted, List.pairwise_singleton _ _, ?_⟩
    intro k hk j hj
    rw [List.mem_singleton] at hj
    exact hj ▸ hbelow k hk
  · intro k hk
    rcases List.mem_append.mp hk with hk | hk
    · exact Nat.lt_succ_of_lt (hbelow k hk)
    · rw [List.mem_singleton] at hk
      exact hk ▸ Nat.lt_succ_self _

/-- The final image is made known. -/
lemma OpenBelow.close (h : p.OpenBelow i) {skipped : Bool} : (p.publish .main skipped).Closed := by
  obtain ⟨hopen, indices, hproduced, hsorted, hbelow⟩ := h
  refine ⟨rfl, ⟨indices, ?_, hsorted⟩⟩
  simp [Production.publish, produce, finish, hproduced]

/-- The images of a job are known up to the one that was made known last. -/
lemma Reaches.publish (hplanned : p.planned = job.plan.size) (hopen : p.OpenBelow i)
    (hindex : i < job.plan.size) (hlast : job.last = some i) (skipped : Bool) :
    (p.publish (job.slot i) skipped).Reaches job := by
  have hnext : job.next = i + 1 := by simp [RenderJob.next, hlast]
  simp only [RenderJob.slot]
  by_cases hmain : i + 1 = job.plan.size
  · rw [if_pos hmain]
    exact .of_closed hplanned (by omega) hopen.close
  · rw [if_neg hmain]
    refine .of_openBelow hplanned (by omega) ?_
    rw [hnext]
    exact hopen.publish

@[simp] lemma workloadId_publish {slot : Slot} {skipped : Bool} :
    (p.publish slot skipped).workloadId = p.workloadId := by
  cases slot <;> rfl

end Production

namespace Control

variable {c c' : Control} {log events : History}

/-- A step of the render worker leads to a phase whose facts hold. -/
lemma RenderFacts.render (ho : c.Ordered log) (h : c.RenderFacts log.workloadsConsumed)
    (m : c.RenderMove events c') : c'.RenderFacts (log ++ events).workloadsConsumed := by
  simp only [RenderFacts] at h
  cases m with
  | claim at_ =>
    rw [at_] at h
    simpa [RenderFacts] using h
  | close at_ =>
    simp only [at_] at h
    obtain ⟨hvalue, hid, -⟩ := h
    simp only [RenderFacts, List.append_nil]
    omega
  | pass at_ =>
    rw [at_] at h
    simpa [RenderFacts] using h
  | giveUp at_ =>
    simp only [at_] at h
    obtain ⟨hvalue, hid, -⟩ := h
    simp only [RenderFacts, List.append_nil]
    omega
  | abandon at_ =>
    simp only [at_] at h
    simp only [RenderFacts, List.append_nil]
    exact h
  | @configure place at_ =>
    simp only [at_] at h
    have hc : History.workloadsConsumed [.configured (c.workloadAt place).id] = 0 := rfl
    simp only [RenderFacts, History.workloadsConsumed_append, hc, Nat.add_zero]
    exact h
  | @plan place at_ plan rates images =>
    simp only [at_] at h
    have hid := ho.id_workloadAt place (by rw [at_]; rfl)
    simp only [RenderFacts, List.append_nil]
    refine ⟨hid, .of_openBelow rfl images ⟨rfl, [], rfl, List.Pairwise.nil, by simp⟩, images,
      by simp, h.1⟩
  | planLost at_ =>
    simp only [at_] at h
    obtain ⟨hvalue, hid, -⟩ := h
    have hstop : c.workloadSignal.stop.value = c.workloadSignal.value := rfl
    simp only [RenderFacts, List.append_nil, breakRender, if_true, halted]
    omega
  | @draw job index at_ s image =>
    simp only [at_] at h
    obtain ⟨hid, hreaches, hsize, hrendered, hvalue⟩ := h
    obtain ⟨hnext, hindex⟩ := of_subFrameAfter image
    have hc : ∀ id slot, History.workloadsConsumed [.recorded id slot] = 0 := fun _ _ => rfl
    have hopen := (hreaches.openBelow (Nat.lt_of_le_of_lt hnext hindex)).mono hnext
    simp only [RenderFacts, History.workloadsConsumed_append, hc, Nat.add_zero]
    refine ⟨hid, hreaches.1, hopen, hindex, rfl, by simp [RenderJob.advance], ?_⟩
    rw [hvalue]
    simp [RenderJob.advance]
  | @drawBroken job index at_ lost image =>
    simp only [at_] at h
    obtain ⟨hid, -, -, -, hvalue⟩ := h
    have hstop : c.workloadSignal.stop.value = c.workloadSignal.value := rfl
    have hc : ∀ id slot, History.workloadsConsumed [.recorded id slot] = 0 := fun _ _ => rfl
    have hle : c.workloadSignal.value ≤ log.workloadsConsumed + 1 := by
      rw [hvalue]
      split <;> omega
    cases lost <;>
      simp only [RenderFacts, History.workloadsConsumed_append, hc, breakRender, halted, if_true,
        Bool.false_eq_true, if_false] <;>
      omega
  | @exhaust job at_ image =>
    simp only [at_] at h
    obtain ⟨hid, hreaches, hsize, hrendered, hvalue⟩ := h
    have hnext : job.plan.size ≤ job.next := of_subFrameAfter_eq_none image
    have hlast : job.last ≠ none := by
      intro hlast
      simp only [RenderJob.next, hlast, Option.elim_none] at hnext
      omega
    simp only [RenderFacts, List.append_nil]
    refine ⟨hid, hreaches.closed hnext, ?_⟩
    rwa [if_neg (fun hnil => hlast (hrendered.mp hnil))] at hvalue
  | @publish job index at_ =>
    simp only [at_] at h
    obtain ⟨hid, hplanned, hopen, hindex, hlast, hrendered, hvalue⟩ := h
    have hreaches := Production.Reaches.publish hplanned hopen hindex hlast (0 < job.skipped)
    have hc : ∀ id slot, History.workloadsConsumed [.produced id slot] = 0 := fun _ _ => rfl
    have hsize : 0 < job.plan.size := Nat.zero_lt_of_lt hindex
    by_cases hone : job.rendered.length = 1
    · rw [if_pos hone] at hvalue
      simp only [RenderFacts, History.workloadsConsumed_append, hc, Nat.add_zero, if_pos hone]
      exact ⟨by simpa using hid, hreaches, hsize, hrendered, by simp [hlast], hvalue⟩
    · rw [if_neg hone] at hvalue
      simp only [RenderFacts, History.workloadsConsumed_append, hc, Nat.add_zero, if_neg hone]
      refine ⟨by simpa using hid, hreaches, hsize, by simp [hrendered, hlast], ?_⟩
      rwa [if_neg hrendered]
  | @announce job at_ =>
    simp only [at_] at h
    obtain ⟨hid, hreaches, hsize, hrendered, hlast, hvalue⟩ := h
    have hnumber := ho.id_workloadAt job.place (by rw [at_]; rfl)
    simp only [RenderFacts, List.append_nil]
    refine ⟨hid, hreaches, hsize, by simp [hrendered, hlast], ?_⟩
    rw [if_neg hrendered, Signal.advance, hvalue, hnumber]
    exact Nat.max_eq_right (Nat.le_succ _)
  | conclude at_ =>
    rw [at_] at h
    simpa [RenderFacts] using h
  | finish at_ done =>
    simp only [at_] at h
    have hc : History.workloadsConsumed [.workloadConsumed] = 1 := rfl
    simp only [RenderFacts, History.workloadsConsumed_append, hc]
    exact ⟨h.2.2, h.1, .inr h.2.1⟩
  | finishLost at_ =>
    simp only [at_] at h
    obtain ⟨hid, -, hvalue⟩ := h
    have hstop : c.workloadSignal.stop.value = c.workloadSignal.value := rfl
    have hc : History.workloadsConsumed [.workloadConsumed] = 1 := rfl
    simp only [RenderFacts, History.workloadsConsumed_append, hc, breakRender, if_true, halted]
    omega
  | release at_ =>
    rw [at_] at h
    simpa [RenderFacts] using h
  | leave at_ =>
    rw [at_] at h
    simpa [RenderFacts] using h

/-- The facts concern the images that are known and the value of the signal. -/
lemma RenderFacts.congr {n : Nat} (h : c.RenderFacts n) (hrender : c'.render = c.render)
    (hvalue : c'.workloadSignal.value = c.workloadSignal.value)
    (hid : c'.production.workloadId = c.production.workloadId)
    (hproduced : c'.production.produced = c.production.produced)
    (hcomplete : c'.production.complete = c.production.complete)
    (hplanned : c'.production.planned = c.production.planned) : c'.RenderFacts n := by
  simp only [RenderFacts, Production.Reaches, Production.OpenBelow, Production.Closed, hrender,
    hvalue, hid, hproduced, hcomplete, hplanned] at h ⊢
  exact h

lemma RenderFacts.move (ho : c.Ordered log) (h : c.RenderFacts log.workloadsConsumed)
    (m : c.Move events c') : c'.RenderFacts (log ++ events).workloadsConsumed := by
  cases m with
  | render m => exact h.render ho m
  | present m =>
    have hframe := m.frame
    rw [History.workloadsConsumed_append, hframe.workloadsConsumed]
    exact h.congr hframe.render hframe.workloadValue hframe.workloadId hframe.produced
      hframe.complete hframe.planned
  | producer m =>
    have hframe := m.frame
    have hconsumed : events.workloadsConsumed = 0 :=
      History.workloadsConsumed_of_party fun e he => by simp [hframe.party e he]
    rw [History.workloadsConsumed_append, hconsumed]
    refine h.congr hframe.render hframe.workloadValue ?_ ?_ ?_ ?_ <;> rw [hframe.production]

/-- The number of workloads that are announced only grows. -/
lemma RenderMove.workloadValue_le (m : c.RenderMove events c') :
    c.workloadSignal.value ≤ c'.workloadSignal.value := by
  cases m with
  | drawBroken _ lost => cases lost <;> exact le_rfl
  | announce => exact Nat.le_max_left _ _
  | _ => exact le_rfl

/-- The other parties leave the present worker's facts. -/
lemma PresentFacts.other (h : c.PresentFacts log) (hpresent : c'.present = c.present)
    (hvalue : c'.presentSignal.value = c.presentSignal.value)
    (hworkload : c.workloadSignal.value ≤ c'.workloadSignal.value)
    (hparty : ∀ e ∈ events, e.party ≠ .present) : c'.PresentFacts (log ++ events) := by
  have hrequested : ∀ {k : Nat} {q : Present}, log.requested[k]? = some q →
      (log ++ events).requested[k]? = some q := by
    intro k q hq
    rw [History.requested_append, List.getElem?_append_left (List.getElem?_eq_some_iff.mp hq).1]
    exact hq
  simp only [PresentFacts, hpresent, hvalue, History.presentsConsumed_append,
    History.presentsConsumed_of_party hparty, Nat.add_zero, History.admitted?_append,
    History.foldl_letIn_of_party hparty] at h ⊢
  cases hphase : c.present with
  | claim => simpa [hphase] using h
  | await => simpa [hphase] using h
  | release => simpa [hphase] using h
  | finish => simpa [hphase] using h
  | leave | stopped | lost =>
    simp only [hphase] at h ⊢
    refine ⟨h.1, fun q hq => ?_⟩
    obtain ⟨hin, hle⟩ := h.2 q hq
    exact ⟨hrequested hin, hle.trans hworkload⟩
  | _ =>
    simp only [hphase] at h ⊢
    obtain ⟨hvalue, q, hq, hin, hle⟩ := h
    exact ⟨hvalue, q, hq, hrequested hin, hle.trans hworkload⟩

/-- A step of the present worker leads to a phase whose facts hold. -/
lemma PresentFacts.present (ho : c.Ordered log) (h : c.PresentFacts log)
    (m : c.PresentMove events c') : c'.PresentFacts (log ++ events) := by
  have hbroken : ∀ lost : Bool, c.presentSignal.value = log.presentsConsumed →
      (∃ q, log.admitted? = some q ∧ log.requested[log.presentsConsumed]? = some q ∧
        q.workloadId ≤ c.workloadSignal.value) → (c.breakPresent lost).PresentFacts log := by
    rintro lost hvalue ⟨q, hq, hin, hle⟩
    have hfacts : ∀ q', log.admitted? = some q' →
        log.requested[log.presentsConsumed]? = some q' ∧
          q'.workloadId ≤ c.workloadSignal.value := by
      intro q' hq'
      obtain rfl := Option.some.inj (hq.symm.trans hq')
      exact ⟨hin, hle⟩
    cases lost <;> exact ⟨hvalue, hfacts⟩
  simp only [PresentFacts] at h
  cases m with
  | claim at_ =>
    simp only [at_] at h
    simpa [PresentFacts] using h
  | close at_ =>
    simp only [at_] at h
    simp [PresentFacts, h]
  | @pass place q at_ reached =>
    simp only [at_] at h
    have hin := ho.presents.inHand q (by rw [at_]; rfl)
    have hc : History.presentsConsumed [.entered q] = 0 := rfl
    have hr : History.requested [.entered q] = [] := rfl
    simp only [PresentFacts, History.presentsConsumed_append, History.requested_append, hc, hr,
      Nat.add_zero, List.append_nil]
    exact ⟨h.1, q, by simp [History.letIn], hin, reached⟩
  | giveUp at_ =>
    simp only [at_] at h
    simp [PresentFacts, h]
  | uploadBroken at_ =>
    simp only [at_] at h
    rw [List.append_nil]
    exact hbroken _ h.1 h.2
  | @composeBroken job slot at_ lost =>
    simp only [at_] at h
    have hc : History.presentsConsumed [.composed job.present slot] = 0 := rfl
    have hr : History.requested [.composed job.present slot] = [] := rfl
    have hfacts := hbroken lost h.1 h.2
    cases lost <;>
      simpa [PresentFacts, Control.breakPresent, hc, hr, History.letIn] using hfacts
  | @compose job slot at_ =>
    simp only [at_] at h
    have hc : History.presentsConsumed [.composed job.present slot] = 0 := rfl
    have hr : History.requested [.composed job.present slot] = [] := rfl
    simpa [PresentFacts, hc, hr, History.letIn] using h
  | @conclude place id at_ =>
    simp only [at_] at h
    obtain rfl := ho.presents.concluding place id at_
    have hc : History.presentsConsumed [.done (log.presentsConsumed + 1)] = 0 := rfl
    simp [PresentFacts, hc, History.letIn, Signal.advance, h.1]
  | finish at_ =>
    simp only [at_] at h
    have hc : History.presentsConsumed [.presentConsumed] = 1 := rfl
    simpa [PresentFacts, hc, History.letIn] using h
  | finishLost at_ =>
    simp only [at_] at h
    have hc : History.presentsConsumed [.presentConsumed] = 1 := rfl
    have hstop : c.presentSignal.stop.value = c.presentSignal.value := rfl
    simp [PresentFacts, Control.breakPresent, halted, hc, hstop, History.letIn, h]
  | release at_ =>
    simp only [at_] at h
    simpa [PresentFacts] using h
  | leave at_ =>
    simp only [at_] at h
    simpa [PresentFacts] using h
  | _ =>
    -- the present in hand stays the same
    simp_all [PresentFacts]

lemma PresentFacts.move (ho : c.Ordered log) (h : c.PresentFacts log) (m : c.Move events c') :
    c'.PresentFacts (log ++ events) := by
  cases m with
  | render m =>
    have hframe := m.frame
    exact h.other hframe.present hframe.presentValue m.workloadValue_le fun e he => by
      simp [m.party e he]
  | present m => exact h.present ho m
  | producer m =>
    have hframe := m.frame
    exact h.other hframe.present hframe.presentValue hframe.workloadValue.ge fun e he => by
      simp [hframe.party e he]

variable {n m : Nat}

lemma Reached.renderFacts (h : Reached n m log c) : c.RenderFacts log.workloadsConsumed := by
  induction h with
  | start => exact ⟨rfl, rfl, .inl ⟨rfl, rfl, rfl⟩⟩
  | step before move ih => exact ih.move before.ordered move

lemma Reached.presentFacts (h : Reached n m log c) : c.PresentFacts log := by
  induction h with
  | start => exact ⟨rfl, rfl⟩
  | step before move ih => exact ih.move before.ordered move

end Control

end Scanout
