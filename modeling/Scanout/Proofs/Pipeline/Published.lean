import Scanout.Proofs.Pipeline.Treatment

/-!
# What the numbers told stand for

The render worker tells the number of a workload when its first image is rendered, and the present
worker the number of a present when it is done. `Control.Publishes` says that the numbers told are
consecutive, and that each of them stands for what was done before it was told. So whoever has
waited for a number can rely on it, also after everybody was told to stop.
-/

namespace Scanout

/-- The workloads before one are rendered completely, and an image of its own was handed over. -/
structure Deed.Rendered (workloadId : Nat) (deeds : List Deed) : Prop where
  earlier : ∀ v, 0 < v → v < workloadId → Slot.Finished (images v deeds)
  first : ∃ slot, .handed (.image workloadId slot) ∈ deeds

/-- All that a present asks for was done. -/
structure Present.Handled (q : Present) (log : History) (deeds : List Deed) : Prop
    extends q.Treated log deeds where
  announced : 0 < q.workloadId → .announced q.workloadId ∈ deeds

/-- What must have been done before a deed. -/
def Deed.Backed (log : History) (before : List Deed) : Deed → Prop
  | .announced v => Rendered v before
  | .handed (.uploads q) => 0 < q.workloadId → .announced q.workloadId ∈ before
  | .treated id _ =>
    ∃ q ∈ log.requested, q.id = id ∧ (0 < q.workloadId → .announced q.workloadId ∈ before)
  | .done id => ∃ q ∈ log.requested, q.id = id ∧ q.Handled log before
  | .handed (.image ..) => True

/-- What was done stands behind a deed, whatever else happens that is not for a present that is
done. -/
lemma Deed.Backed.mono {log events : History} {before : List Deed} {d : Deed}
    (h : d.Backed log before) (hcomposed : ∀ q, .done q.id = d → events.composedBy q = []) :
    d.Backed (log ++ events) before := by
  have hrequested : ∀ q ∈ log.requested, q ∈ History.requested (log ++ events) := by
    intro q hq
    rw [History.requested_append]
    exact List.mem_append_left _ hq
  cases d with
  | announced => exact h
  | handed d => cases d <;> exact h
  | treated id o =>
    obtain ⟨q, hq, hid, hannounced⟩ := h
    exact ⟨q, hrequested q hq, hid, hannounced⟩
  | done id =>
    obtain ⟨q, hq, rfl, htreated, hannounced⟩ := h
    have htreated : q.Treated (log ++ events) (before ++ []) :=
      htreated.append (hcomposed q rfl) rfl
    rw [List.append_nil] at htreated
    exact ⟨q, hrequested q hq, rfl, htreated, hannounced⟩

namespace Control

/-- The numbers told are consecutive, and there is something behind every deed. -/
structure Publishes (c : Control) (log : History) (deeds : List Deed) : Prop where
  announcements : Deed.announcements deeds = List.range' 1 c.workloadSignal.value
  conclusions : Deed.conclusions deeds = List.range' 1 c.presentSignal.value
  backed : ∀ before d after, deeds = before ++ d :: after → d.Backed log before

variable {c c' : Control} {log events : History} {deeds new : List Deed} {job : RenderJob}
  {d : Deed} {n m v id : Nat}

/-- The workloads that are consumed are rendered completely. -/
lemma Reached.finished_of_consumed (h : Reached n m log c) (hpos : 0 < v)
    (hle : v ≤ log.workloadsConsumed) : Slot.Finished (log.produced v) := by
  induction h with
  | start => exact absurd hpos (Nat.not_lt.mpr hle)
  | @step log events c c' before move ih =>
    rw [History.produced_append]
    by_cases hold : v ≤ log.workloadsConsumed
    · rw [before.produced_of_finished move (ih hold), List.append_nil]
      exact ih hold
    · -- the workload is consumed by this step, so its worker has concluded it
      have hconcluded : (∃ place paused, c.render = .finish place paused) ∧
          events = [.workloadConsumed] := by
        rw [History.workloadsConsumed_append] at hle
        cases move with
        | render m =>
          cases m with
          | finish at_ | finishLost at_ => exact ⟨⟨_, _, at_⟩, rfl⟩
          | _ => exact absurd hle hold
        | present m =>
          rw [m.frame.workloadsConsumed] at hle
          exact absurd hle hold
        | producer m =>
          have hnone : events.workloadsConsumed = 0 :=
            History.workloadsConsumed_of_party fun e he => by simp [m.frame.party e he]
          rw [hnone] at hle
          exact absurd hle hold
      obtain ⟨⟨place, paused, at_⟩, rfl⟩ := hconcluded
      have hfacts := before.renderFacts
      simp only [RenderFacts, at_] at hfacts
      obtain ⟨hid, hclosed, -⟩ := hfacts
      have hone : History.workloadsConsumed [.workloadConsumed] = 1 := rfl
      have hv : v = c.production.workloadId := by
        rw [History.workloadsConsumed_append, hone] at hle
        omega
      have hnone : History.produced [.workloadConsumed] v = [] := rfl
      rw [hnone, List.append_nil, hv, before.images.current]
      exact hclosed.2

/-- The signal was raised to a present only when it was done. -/
lemma Reached.done_of_le (h : Reached n m log c) (hpos : 0 < id)
    (hle : id ≤ c.presentSignal.value) : .done id ∈ log := by
  induction h with
  | start => exact absurd hpos (Nat.not_lt.mpr hle)
  | @step log events c c' before move ih =>
    rw [List.mem_append]
    by_cases hold : id ≤ c.presentSignal.value
    · exact .inl (ih hold)
    cases move with
    | render m =>
      rw [m.frame.presentValue] at hle
      exact absurd hle hold
    | producer m =>
      rw [m.frame.presentValue] at hle
      exact absurd hle hold
    | present m =>
      cases m with
      | @conclude place id' at_ =>
        have hfacts := before.presentFacts
        simp only [PresentFacts, at_] at hfacts
        have hid := before.ordered.presents.concluding place id' at_
        have hle : id ≤ max c.presentSignal.value id' := hle
        have hsame : id = id' := by omega
        exact .inr (hsame ▸ List.mem_singleton_self _)
      | uploadBroken _ lost => cases lost <;> exact absurd hle hold
      | composeBroken _ lost => cases lost <;> exact absurd hle hold
      | _ => exact absurd hle hold

/-- A slot is put together only for a present that is not done. -/
lemma Reached.value_lt_of_composed (h : Reached n m log c) (move : c.Move events c') {q : Present}
    {slot : Slot} (he : .composed q slot ∈ events) : c.presentSignal.value < q.id := by
  cases move with
  | render m => cases m.party _ he
  | producer m => cases m.frame.party _ he
  | present m =>
    have hfacts := h.presentFacts
    cases m with
    | @compose job slot at_ | @composeBroken job slot at_ =>
      simp only [List.mem_singleton, Event.composed.injEq] at he
      simp only [PresentFacts, at_] at hfacts
      have hid := h.ordered.id_present? (q := job.present) (by rw [at_]; rfl)
      rw [he.1]
      omega
    | _ => simp at he

/-- When a workload is announced, it is rendered as far as that means. -/
lemma Reached.rendered (h : Reached n m log c) (at_ : c.render = .announce job)
    (himages : Delivery.images (Deed.deliveries deeds) = log.images ++ c.unpublished) :
    Deed.Rendered (c.workloadAt job.place).id deeds := by
  have hid := h.ordered.id_workloadAt job.place (by rw [at_]; rfl)
  have hfacts := h.renderFacts
  simp only [RenderFacts, at_] at hfacts
  have hproduced : ∀ v, Deed.images v deeds = log.produced v := by
    intro v
    have hunpublished : c.unpublished = [] := by
      rw [unpublished, at_]
      rfl
    rw [Deed.images, himages, hunpublished, List.append_nil, History.slotsOf_images]
  constructor
  · intro v hpos hlt
    rw [hproduced]
    exact h.finished_of_consumed hpos (by omega)
  · obtain ⟨slot, hslot⟩ := List.exists_mem_of_ne_nil _ (h.told.announcing job at_)
    refine ⟨slot, Deed.mem_images.mp ?_⟩
    rw [hproduced, hid, ← hfacts.1, h.images.current]
    exact hslot

namespace Publishes

lemma start : (Control.start n m).Publishes [] [] :=
  ⟨rfl, rfl, by simp⟩

/-- The workloads up to the value of the signal were announced. -/
lemma announced_iff (h : c.Publishes log deeds) :
    .announced v ∈ deeds ↔ 0 < v ∧ v ≤ c.workloadSignal.value := by
  rw [← Deed.mem_announcements, h.announcements, List.mem_range'_1]
  omega

/-- The presents up to the value of the signal are done. -/
lemma done_iff (h : c.Publishes log deeds) :
    .done id ∈ deeds ↔ 0 < id ∧ id ≤ c.presentSignal.value := by
  rw [← Deed.mem_conclusions, h.conclusions, List.mem_range'_1]
  omega

/-- What is behind the deeds stays there. -/
lemma mono (hreached : Reached n m log c) (move : c.Move events c') (h : c.Publishes log deeds) :
    ∀ before d after, deeds = before ++ d :: after → d.Backed (log ++ events) before := by
  intro before d after hdeeds
  refine (h.backed before d after hdeeds).mono fun q hd => ?_
  refine History.composedBy_eq_nil fun slot he => ?_
  have hdone : .done q.id ∈ deeds := by
    rw [hdeeds, hd]
    exact List.mem_append_right _ List.mem_cons_self
  have hlt := hreached.value_lt_of_composed move he
  have hle := (h.done_iff.mp hdone).2
  omega

/-- Nothing is done. -/
lemma idle (hreached : Reached n m log c) (move : c.Move events c') (h : c.Publishes log deeds)
    (hworkload : c'.workloadSignal.value = c.workloadSignal.value)
    (hpresent : c'.presentSignal.value = c.presentSignal.value) :
    c'.Publishes (log ++ events) (deeds ++ []) := by
  rw [List.append_nil]
  exact ⟨by rw [hworkload, h.announcements], by rw [hpresent, h.conclusions],
    h.mono hreached move⟩

/-- Something is done for which what was done before is enough. -/
lemma add (hreached : Reached n m log c) (move : c.Move events c') (h : c.Publishes log deeds)
    (hannouncements : Deed.announcements (deeds ++ [d]) = List.range' 1 c'.workloadSignal.value)
    (hconclusions : Deed.conclusions (deeds ++ [d]) = List.range' 1 c'.presentSignal.value)
    (hd : d.Backed (log ++ events) deeds) : c'.Publishes (log ++ events) (deeds ++ [d]) := by
  refine ⟨hannouncements, hconclusions, fun before d' after hdeeds => ?_⟩
  rcases List.eq_nil_or_concat after with rfl | ⟨after', d'', rfl⟩
  · obtain ⟨rfl, heq⟩ := List.append_inj' hdeeds rfl
    cases heq
    exact hd
  · rw [List.concat_eq_append, ← List.cons_append, ← List.append_assoc] at hdeeds
    exact h.mono hreached move before d' after' (List.append_inj' hdeeds rfl).1

/-- Something is done that tells no number. -/
lemma aside (hreached : Reached n m log c) (move : c.Move events c') (h : c.Publishes log deeds)
    (hworkload : c'.workloadSignal.value = c.workloadSignal.value)
    (hpresent : c'.presentSignal.value = c.presentSignal.value)
    (hannouncements : Deed.announcements [d] = []) (hconclusions : Deed.conclusions [d] = [])
    (hd : d.Backed (log ++ events) deeds) : c'.Publishes (log ++ events) (deeds ++ [d]) := by
  refine h.add hreached move ?_ ?_ hd
  · rw [Deed.announcements_append, hannouncements, List.append_nil, hworkload, h.announcements]
  · rw [Deed.conclusions_append, hconclusions, List.append_nil, hpresent, h.conclusions]

/-- What is done for the present in hand comes after its workload was announced. -/
lemma announced_hand (hreached : Reached n m log c) (h : c.Publishes log deeds) {q : Present}
    (hq : c.present.present? = some q) (hpast : ∀ place, c.present ≠ .await place q) :
    q ∈ log.requested ∧ (0 < q.workloadId → .announced q.workloadId ∈ deeds) := by
  refine ⟨List.mem_of_getElem? (hreached.ordered.presents.inHand q hq), fun hpos => ?_⟩
  exact h.announced_iff.mpr ⟨hpos, hreached.workloadId_le (hreached.admitted_of_present? hq hpast)⟩

/-- The present in hand is treated after its workload was announced. -/
lemma treat (hreached : Reached n m log c) (move : c.Move events c') (h : c.Publishes log deeds)
    (hworkload : c'.workloadSignal.value = c.workloadSignal.value)
    (hpresent : c'.presentSignal.value = c.presentSignal.value) {q : Present}
    (hq : c.present.present? = some q) (hpast : ∀ place, c.present ≠ .await place q) {o : Outcome}
    (hevents : events = []) : c'.Publishes (log ++ events) (deeds ++ [.treated q.id o]) := by
  subst hevents
  obtain ⟨hin, hannounced⟩ := h.announced_hand hreached hq hpast
  exact h.aside hreached move hworkload hpresent rfl rfl ⟨q, by simpa using hin, rfl, hannounced⟩

lemma present (hreached : Reached n m log c) (htreats : c.Treats log deeds)
    (h : c.Publishes log deeds) (move : c.PresentMove events c') (does : c.Does c' new) :
    c'.Publishes (log ++ events) (deeds ++ new) := by
  have hworkload := move.frame.workloadValue
  have hmove := Move.present move
  simp only [Does] at does
  cases move with
  | showAgain at_ | «show» at_ =>
    simp only [at_] at does
    obtain ⟨o, rfl, -⟩ := does
    exact h.treat hreached hmove rfl rfl (by rw [at_]; rfl) (by simp [at_]) rfl
  | blank at_ blank =>
    simp only [at_, blank, Bool.false_eq_true, if_false] at does
    subst does
    exact h.treat hreached hmove rfl rfl (by rw [at_]; rfl) (by simp [at_]) rfl
  | inspect at_ visible =>
    simp only [at_, visible, if_true] at does
    subst does
    exact h.idle hreached hmove rfl rfl
  | @upload job at_ =>
    simp only [at_] at does
    subst does
    split
    · exact h.idle hreached hmove rfl rfl
    · obtain ⟨-, hannounced⟩ :=
        h.announced_hand hreached (q := job.present) (by rw [at_]; rfl) (by simp [at_])
      exact h.aside hreached hmove rfl rfl rfl rfl hannounced
  | uploadBroken at_ lost =>
    simp only [at_] at does
    rw [does, if_pos (.inr (by cases lost <;> rfl))]
    exact h.idle hreached hmove hworkload (by cases lost <;> rfl)
  | composeBroken at_ lost =>
    simp only [at_] at does
    rw [does]
    exact h.idle hreached hmove hworkload (by cases lost <;> rfl)
  | @conclude place id at_ =>
    simp only [at_] at does
    subst does
    have hfacts := hreached.presentFacts
    have hphase := htreats.phase
    simp only [PresentFacts, at_] at hfacts
    simp only [PhaseTreats, at_] at hphase
    obtain ⟨hvalue, q, -, hin, hle⟩ := hfacts
    have hnumber := (hreached.ordered.stamped.present _ _ hin).1
    have hid := hreached.ordered.presents.concluding place id at_
    refine h.add hreached hmove ?_ ?_ ?_
    · rw [Deed.announcements_append, h.announcements]
      exact List.append_nil _
    · have hmax : (c.presentSignal.advance id).value = c.presentSignal.value + 1 := by
        rw [Signal.advance, hvalue, hid]
        exact Nat.max_eq_right (Nat.le_succ _)
      rw [Deed.conclusions_append, h.conclusions, hmax, List.range'_1_concat, hid, hvalue,
        Nat.add_comm 1]
      rfl
    · have htreated : q.Treated (log ++ [.done id]) (deeds ++ []) := (hphase q hin).append rfl rfl
      rw [List.append_nil] at htreated
      refine ⟨q, ?_, hnumber.trans hid.symm, htreated, fun hpos => h.announced_iff.mpr ⟨hpos, hle⟩⟩
      rw [History.requested_append]
      exact List.mem_append_left _ (List.mem_of_getElem? hin)
  | claim at_ | close at_ | pass at_ | giveUp at_ | enterAgain at_ | enter at_ | selectNone at_
  | select at_ | compose at_ | settle at_ | finish at_ | finishLost at_ | release at_ | leave at_ =>
    simp only [at_] at does
    subst does
    exact h.idle hreached hmove rfl rfl

/-- The producer does nothing that the workers rely on in this way. -/
lemma producer (hreached : Reached n m log c) (h : c.Publishes log deeds)
    (move : c.ProducerMove events c') : c'.Publishes (log ++ events) (deeds ++ []) :=
  h.idle hreached (.producer move) move.frame.workloadValue move.frame.presentValue

end Publishes

/-- Only an announcement raises the signal. -/
lemma RenderMove.workloadValue_eq (m : c.RenderMove events c')
    (hother : ∀ job, c.render ≠ .announce job) :
    c'.workloadSignal.value = c.workloadSignal.value := by
  cases m with
  | announce at_ => exact absurd at_ (hother _)
  | drawBroken _ lost => cases lost <;> rfl
  | _ => rfl

end Control

namespace Pipeline

variable {start p q : Pipeline} {log : History} {deeds : List Deed} {n m : Nat}

/-- An action hands over nothing, or one command list. -/
lemma deliveries_cases (p : Pipeline) (a : Action) :
    p.deliveries a = [] ∨ ∃ d, p.purpose a = some d ∧ p.deliveries a = [d] := by
  simp only [deliveries]
  split
  · split
    · cases hpurpose : p.purpose a with
      | none => exact .inl rfl
      | some d => exact .inr ⟨d, rfl, rfl⟩
    · exact .inl rfl
  · exact .inl rfl

/-- The render worker announces a workload, hands over an image, or does nothing that the others
rely on. -/
lemma deeds_render_cases (p : Pipeline) :
    (∃ job, p.render = .announce job ∧
      p.deeds .render = [.announced (p.workloadAt job.place).id]) ∨
    (∀ job, p.render ≠ .announce job) ∧
      (p.deeds .render = [] ∨ ∃ v slot, p.deeds .render = [.handed (.image v slot)]) := by
  by_cases hannounce : ∃ job, p.render = .announce job
  · obtain ⟨job, at_⟩ := hannounce
    have hpurpose : p.purpose .render = none := by simp only [purpose, at_]
    have hnone : p.deliveries .render = [] := by
      rcases p.deliveries_cases .render with hnone | ⟨d, hd, -⟩
      · exact hnone
      · cases hpurpose.symm.trans hd
    exact .inl ⟨job, at_, by simp [Pipeline.deeds, renderDeeds, hnone, at_]⟩
  · have hother : p.renderDeeds = [] := by
      simp only [renderDeeds]
      split
      · exact absurd ⟨_, ‹_›⟩ hannounce
      · rfl
    refine .inr ⟨fun job at_ => hannounce ⟨job, at_⟩, ?_⟩
    simp only [Pipeline.deeds, hother, List.append_nil]
    rcases p.deliveries_cases .render with hnone | ⟨d, hd, hone⟩
    · exact .inl (by rw [hnone]; rfl)
    · simp only [purpose] at hd
      split at hd
      · obtain ⟨index, -, rfl⟩ := Option.map_eq_some_iff.mp hd
        exact .inr ⟨_, _, by rw [hone]; rfl⟩
      · cases hd

lemma publishes_render (hreached : Control.Reached n m log p.control)
    (himages : Delivery.images (Deed.deliveries deeds) = log.images ++ p.control.unpublished)
    (h : p.control.Publishes log deeds) (hstep : p.renderStep = some q) :
    q.control.Publishes (log ++ p.events .render q) (deeds ++ p.deeds .render) := by
  have hmove := renderMove_of_renderStep hstep
  rw [events_render hstep]
  rcases p.deeds_render_cases with ⟨job, at_, hdeeds⟩ | ⟨hother, hdeeds⟩
  · have hphase : p.control.render = .announce job := at_
    have hid := hreached.ordered.id_workloadAt job.place (by rw [hphase]; rfl)
    have hfacts := hreached.renderFacts
    simp only [Control.RenderFacts, hphase] at hfacts
    have hvalue : q.control.workloadSignal.value = p.control.workloadSignal.value + 1 := by
      obtain rfl : p.announceWorkload job = q := by simpa [renderStep, at_] using hstep
      have hadvance : (p.announceWorkload job).control.workloadSignal.value =
          max p.control.workloadSignal.value (p.control.workloadAt job.place).id := rfl
      omega
    have hpresent : q.control.presentSignal.value = p.control.presentSignal.value :=
      hmove.frame.presentValue
    have hrendered := hreached.rendered hphase himages
    rw [hdeeds]
    refine h.add hreached (.render hmove) ?_ ?_ hrendered
    · have hnumber : (p.workloadAt job.place).id = 1 + p.control.workloadSignal.value := by
        rw [hfacts.2.2.2.2.2, Nat.add_comm]
        exact hid
      rw [Deed.announcements_append, h.announcements, hvalue, List.range'_1_concat, ← hnumber]
      rfl
    · rw [Deed.conclusions_append, h.conclusions, hpresent]
      exact List.append_nil _
  · have hvalue := hmove.workloadValue_eq hother
    have hpresent := hmove.frame.presentValue
    rcases hdeeds with hdeeds | ⟨v, slot, hdeeds⟩
    · rw [hdeeds]
      exact h.idle hreached (.render hmove) hvalue hpresent
    · rw [hdeeds]
      exact h.aside hreached (.render hmove) hvalue hpresent rfl rfl trivial

/-- Nothing but the workers' own steps is done for others to rely on. -/
lemma deeds_of_other {a : Action} (hrender : a ≠ .render) (hpresent : a ≠ .present) :
    p.deeds a = [] := by
  rcases p.deliveries_cases a with hnone | ⟨d, hd, -⟩
  · cases a with
    | render => exact absurd rfl hrender
    | present => exact absurd rfl hpresent
    | _ => simp [Pipeline.deeds, hnone]
  · cases a with
    | render => exact absurd rfl hrender
    | present => exact absurd rfl hpresent
    | _ => cases hd

/-- What is told in a run has been done, and the presents were treated one after the other. -/
lemma DeedRun.publishes (hstart : start.control = .start n m) (h : DeedRun start log deeds p) :
    p.control.Treats log deeds ∧ p.control.Publishes log deeds := by
  induction h with
  | nil =>
    rw [hstart]
    exact ⟨.start, .start⟩
  | @step log deeds p q before a hact ih =>
    obtain ⟨htreats, hpublishes⟩ := ih
    have hreached := before.delivery.run.reached hstart
    have himages := before.delivery.images_eq hstart
    obtain ⟨_, hworkloads, -⟩ := hreached.ordered.workloads.counts
    obtain ⟨_, hpresents, -⟩ := hreached.ordered.presents.counts
    by_cases hrender : a = .render
    · subst hrender
      have hmove := renderMove_of_renderStep hact
      refine ⟨?_, publishes_render hreached himages hpublishes hact⟩
      rw [events_render hact]
      refine htreats.other hreached.ordered (fun e he => by simp [hmove.party e he])
        hmove.frame.present ?_
      rcases p.deeds_render_cases with ⟨job, -, hdeeds⟩ | ⟨-, hdeeds | ⟨v, slot, hdeeds⟩⟩ <;>
        simp [hdeeds]
    by_cases hpresent : a = .present
    · subst hpresent
      have hmove := presentMove_of_presentStep hact
      have hdoes := does_of_presentStep hact
      rw [events_present hact]
      exact ⟨htreats.present hreached.ordered hmove hdoes,
        hpublishes.present hreached htreats hmove hdoes⟩
    · have hmove := producerMove_of_act hact hrender hpresent hworkloads hpresents
      rw [deeds_of_other hrender hpresent]
      exact ⟨htreats.other hreached.ordered (fun e he => by simp [hmove.frame.party e he])
        hmove.frame.present (by simp), hpublishes.producer hreached hmove⟩

/-- Each worker tells the numbers 1, 2, 3, ... in order, and a wait comes to a good end exactly for
those that were told. When a workload is told, those before it are rendered completely, and its
first image was handed to the device. When a present is told, it and those before it were treated
as they ask for, and each of them only after its workload was told. -/
theorem published_numbers_mean_done_work (h : Acted log deeds p) :
    Deed.announcements deeds = List.range' 1 p.shared.workloadSignal.value ∧
    Deed.conclusions deeds = List.range' 1 p.shared.presentSignal.value ∧
    (∀ n, p.shared.workloadSignal.wait n = some true ↔ n = 0 ∨ .announced n ∈ deeds) ∧
    (∀ n, p.shared.presentSignal.wait n = some true ↔ n = 0 ∨ .done n ∈ deeds) ∧
    (∀ n, 0 < n → p.shared.workloadSignal.wait n = some true →
      ∃ before after, deeds = before ++ .announced n :: after ∧ Deed.Rendered n before) ∧
    (∀ n id, p.shared.presentSignal.wait n = some true → 0 < id → id ≤ n →
      ∃ before after, deeds = before ++ .done id :: after ∧
        ∃ q ∈ log.requested, q.id = id ∧ q.Handled log before ∧
          (p.shared.running = true → log.Shown q)) ∧
    (∀ before id o after, deeds = before ++ .treated id o :: after →
      ∃ q ∈ log.requested, q.id = id ∧
        (0 < q.workloadId → .announced q.workloadId ∈ before)) := by
  obtain ⟨host, config, start, hstart, hrun⟩ := h
  obtain ⟨hcontrol, -, -⟩ := control_of_start hstart
  have hreached := hrun.delivery.run.reached hcontrol
  obtain ⟨-, hpublishes⟩ := hrun.publishes hcontrol
  have hworkload : ∀ n, p.shared.workloadSignal.wait n = some true ↔
      n = 0 ∨ .announced n ∈ deeds := by
    intro n
    rw [Signal.wait_eq_some_true_iff, hpublishes.announced_iff]
    have hvalue : p.control.workloadSignal.value = p.shared.workloadSignal.value := rfl
    omega
  have hpresent : ∀ n, p.shared.presentSignal.wait n = some true ↔ n = 0 ∨ .done n ∈ deeds := by
    intro n
    rw [Signal.wait_eq_some_true_iff, hpublishes.done_iff]
    have hvalue : p.control.presentSignal.value = p.shared.presentSignal.value := rfl
    omega
  refine ⟨hpublishes.announcements, hpublishes.conclusions, hworkload, hpresent, ?_, ?_, ?_⟩
  · intro n hpos hwait
    have hn : .announced n ∈ deeds := ((hworkload n).mp hwait).resolve_left hpos.ne'
    obtain ⟨before, after, hdeeds⟩ := List.append_of_mem hn
    exact ⟨before, after, hdeeds, hpublishes.backed before _ after hdeeds⟩
  · intro n id hwait hpos hle
    rw [Signal.wait_eq_some_true_iff] at hwait
    have hid : id ≤ p.control.presentSignal.value := hle.trans hwait
    obtain ⟨before, after, hdeeds⟩ := List.append_of_mem (hpublishes.done_iff.mpr ⟨hpos, hid⟩)
    obtain ⟨q, hq, rfl, hhandled⟩ := hpublishes.backed before _ after hdeeds
    exact ⟨before, after, hdeeds, q, hq, rfl, hhandled, fun hrunning =>
      hreached.shown_of_done hrunning hq (hreached.done_of_le hpos hid)⟩
  · intro before id o after hdeeds
    exact hpublishes.backed before _ after hdeeds

/-- The byte that changes is brought in while its frame is drawn, and the screen is shown. -/
def dotShown : List Action := dotOverdrawn ++ List.replicate 11 .present

/-- The present is done when the byte is brought in and both images of its frame are shown. -/
theorem changed_dot_done :
    (sample displayed dotShown).2.shared.presentSignal.wait 1 = some true ∧
    ∃ before after, (fresh displayed).deedsOf dotShown = before ++ .done 1 :: after ∧
      ∃ q ∈ (sample displayed dotShown).1.requested, q.id = 1 ∧
        q.Handled (sample displayed dotShown).1 before ∧ (sample displayed dotShown).1.Shown q := by
  have hacted : Acted (sample displayed dotShown).1 ((fresh displayed).deedsOf dotShown)
      (sample displayed dotShown).2 :=
    acted_sample (by decide +kernel) dotShown
  have hwait : (sample displayed dotShown).2.shared.presentSignal.wait 1 = some true := by
    decide +kernel
  obtain ⟨-, -, -, -, -, hdone, -⟩ := published_numbers_mean_done_work hacted
  obtain ⟨before, after, hdeeds, q, hq, hid, hhandled, hshown⟩ :=
    hdone 1 1 hwait Nat.one_pos le_rfl
  exact ⟨hwait, before, after, hdeeds, q, hq, hid, hhandled, hshown (by decide +kernel)⟩

/-- A screen is reported where nothing was rendered and no memory is, and one of bytes in memory
after the window was lost. -/
def unshownScreens : List Action :=
  .call (.submitPresent smallScreen ByteArray.empty) :: (List.replicate 11 .present ++
    .host (.window { SwapChain.new 60 (640, 480) with lost := true }) ::
      .call (.submitPresent smallScreen (oneByte 0)) :: List.replicate 13 .present)

/-- What the workers do for the two screens. -/
def unshownDeeds : List Deed :=
  [.treated 1 .nothing, .done 1, .treated 2 (.refused ⟨1, ⟨0, 0, 4, 4⟩⟩), .done 2]

/-- There is no image for the one screen, and the window does not take that of the other. Both
presents are done, although none of their images was shown, or skipped for the state of the window,
and neither screen is blank. -/
theorem unshown_screens_done :
    Acted (sample displayed unshownScreens).1 unshownDeeds (sample displayed unshownScreens).2 ∧
      (sample displayed unshownScreens).2.shared.presentSignal.wait 2 = some true ∧
      (∀ id ∈ [1, 2], ∀ o ∈ Deed.outcomes id unshownDeeds,
        o ≠ .blank ∧ ∀ image, o ≠ .shown image ∧ o ≠ .skipped image) ∧
      (sample displayed unshownScreens).2.shared.stats.framesPresented = 0 ∧
      (sample displayed unshownScreens).2.shared.stats.presentsSkipped = 0 := by
  have hacted : Acted (sample displayed unshownScreens).1
      ((fresh displayed).deedsOf unshownScreens) (sample displayed unshownScreens).2 :=
    acted_sample (by decide +kernel) unshownScreens
  have hdeeds : (fresh displayed).deedsOf unshownScreens = unshownDeeds := by decide +kernel
  have hfirst : Deed.outcomes 1 unshownDeeds = [.nothing] := by decide
  have hsecond : Deed.outcomes 2 unshownDeeds = [.refused ⟨1, ⟨0, 0, 4, 4⟩⟩] := by decide
  rw [hdeeds] at hacted
  refine ⟨hacted, by decide +kernel, ?_, by decide +kernel, by decide +kernel⟩
  simp [hfirst, hsecond]

end Pipeline

end Scanout
