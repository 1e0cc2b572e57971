import Scanout.Proofs.Pipeline.Deeds

/-!
# How presents are treated

`Control.Treats` follows the present worker through the presents of a run, whether anything is
stopped or not, and counts what became of their images. When a present is done, it has been treated
once for every slot that was put together for it; a blank screen and an image shown again count as
one.
-/

namespace Scanout

/-- All that a present asks for was done, the waiting for its workload apart. -/
structure Present.Treated (q : Present) (log : History) (deeds : List Deed) : Prop where
  uploads : q.again = false → q.operations ≠ [] → .handed (.uploads q) ∈ deeds
  again : q.again = true → ∃ o, Deed.outcomes q.id deeds = [o] ∧ o ≠ .blank
  blank : q.again = false → q.screen.visible = false → Deed.outcomes q.id deeds = [.blank]
  visible : q.visible = true → Deed.outcomes q.id deeds ≠ [] ∧
    .blank ∉ Deed.outcomes q.id deeds ∧
    (Deed.outcomes q.id deeds).length = (log.composedBy q).length

namespace Control

/-- What holds while the images of a present are shown, and `count` slots were put together. -/
structure Treating (log : History) (deeds : List Deed) (job : PresentJob) (count : Nat) :
    Prop where
  visible : job.present.visible = true
  uploads : job.present.operations ≠ [] → .handed (.uploads job.present) ∈ deeds
  total : 0 < job.total
  treated : (Deed.outcomes job.present.id deeds).length = job.index
  notBlank : .blank ∉ Deed.outcomes job.present.id deeds
  composed : (log.composedBy job.present).length = count

/-- What the phase of the present worker says about the present in hand. -/
def PhaseTreats (c : Control) (log : History) (deeds : List Deed) : Prop :=
  match c.present with
  | .showAgain job => job.present.again = true
  | .upload job => job.present.again = false ∧ job.index = 0
  | .inspect job => job.present.again = false ∧ job.index = 0 ∧
    (job.present.operations ≠ [] → .handed (.uploads job.present) ∈ deeds)
  | .select job | .compose job _ => Treating log deeds job job.index
  | .settle job .. | .show job _ => Treating log deeds job (job.index + 1)
  | .conclude .. =>
    ∀ q, log.requested[log.presentsConsumed]? = some q → q.Treated log deeds
  | _ => True

/-- The presents were treated one after the other. -/
structure Treats (c : Control) (log : History) (deeds : List Deed) : Prop where
  treated : c.present.leaving = false → ∀ id o, .treated id o ∈ deeds →
    id ≤ log.presentsConsumed + c.present.inspected
  composed : c.present.leaving = false → ∀ q slot, .composed q slot ∈ log →
    q.id ≤ log.presentsConsumed + c.present.inspected
  phase : c.PhaseTreats log deeds

/-- What a step of the present worker to another state does for the present in hand. -/
def Does (c c' : Control) (new : List Deed) : Prop :=
  match c.present with
  | .showAgain job | .show job _ => ∃ o, new = [.treated job.present.id o] ∧ o ≠ .blank
  | .upload job =>
    new = if job.present.operations.isEmpty ∨ c'.present.leaving then []
      else [.handed (.uploads job.present)]
  | .inspect job =>
    new = if job.present.screen.visible then [] else [.treated job.present.id .blank]
  | .conclude _ id => new = [.done id]
  | _ => new = []

end Control

namespace Pipeline

variable {p q : Pipeline}

lemma outcomeOf_ne_blank {valid : Bool} {image : Option Shown} :
    p.outcomeOf valid image ≠ .blank := by
  cases image with
  | none => simp [outcomeOf]
  | some image =>
    simp only [outcomeOf]
    split
    · simp
    · split <;> simp

lemma does_of_presentStep (h : p.presentStep = some q) :
    p.control.Does q.control (p.deeds .present) := by
  have hquiet : (∀ job, p.present ≠ .upload job) → p.deliveries .present = [] := by
    intro hupload
    have hpurpose : p.purpose .present = none := by
      cases hphase : p.present with
      | upload job => exact absurd hphase (hupload job)
      | _ => simp only [purpose, hphase]
    simp [deliveries, act, h, hpurpose]
  simp only [Control.Does, control, deeds, presentDeeds]
  cases hphase : p.present with
  | upload job =>
    have hq : q = p.uploadChanges job := by simpa [presentStep, hphase, eq_comm] using h
    simp only [deliveries_uploadChanges hphase, hq, List.append_nil]
    split <;> rfl
  | showAgain job =>
    simp only [hquiet (by simp [hphase]), outcome?, hphase]
    exact ⟨_, rfl, outcomeOf_ne_blank⟩
  | «show» job image =>
    simp only [hquiet (by simp [hphase]), outcome?, hphase]
    exact ⟨_, rfl, outcomeOf_ne_blank⟩
  | inspect job =>
    simp only [hquiet (by simp [hphase]), outcome?, hphase]
    split <;> rfl
  | _ => simp [hquiet (by simp [hphase])]

end Pipeline

/-- The present was treated as it asks for, and nothing more is done for it. -/
lemma Present.Treated.append {q : Present} {log events : History} {deeds new : List Deed}
    (h : q.Treated log deeds) (hcomposed : events.composedBy q = [])
    (htreated : Deed.outcomes q.id new = []) : q.Treated (log ++ events) (deeds ++ new) where
  uploads hagain hops := List.mem_append_left _ (h.uploads hagain hops)
  again := by simpa [htreated] using h.again
  blank := by simpa [htreated] using h.blank
  visible := by simpa [htreated, hcomposed] using h.visible

namespace Control

variable {c c' : Control} {log events : History} {deeds new : List Deed} {job : PresentJob}
  {n m count : Nat} {slot : Slot}

lemma Treating.append (h : Treating log deeds job count)
    (hcomposed : events.composedBy job.present = [])
    (htreated : Deed.outcomes job.present.id new = []) :
    Treating (log ++ events) (deeds ++ new) job count where
  visible := h.visible
  uploads hops := List.mem_append_left _ (h.uploads hops)
  total := h.total
  treated := by simpa [htreated] using h.treated
  notBlank := by simpa [htreated] using h.notBlank
  composed := by simpa [hcomposed] using h.composed

/-- A slot was put together for every image that was treated. -/
lemma Treating.done (h : Treating log deeds job job.index) (hindex : 0 < job.index) :
    job.present.Treated log deeds := by
  have hvisible := h.visible
  simp only [Present.visible, Bool.and_eq_true, Bool.not_eq_true'] at hvisible
  obtain ⟨hagain, hscreen⟩ := hvisible
  refine ⟨fun _ => h.uploads, ?_, ?_, fun _ => ⟨?_, h.notBlank, ?_⟩⟩
  · rw [hagain]
    simp
  · rw [hscreen]
    simp
  · rw [← List.length_pos_iff, h.treated]
    exact hindex
  · rw [h.treated, h.composed]

/-- The first image is never left out. -/
lemma index_pos_of_imageSlot (h : c.imageSlot job = some none) : 0 < job.index := by
  rw [Nat.pos_iff_ne_zero]
  intro hzero
  simp only [imageSlot, hzero, if_true] at h
  split at h
  · cases h
  · split at h
    · obtain ⟨_, -, heq⟩ := Option.map_eq_some_iff.mp h
      cases heq
    · obtain ⟨slot?, -, heq⟩ := Option.map_eq_some_iff.mp h
      cases slot? <;> cases heq

/-- The present in hand has the next number. -/
lemma Ordered.id_present? (h : c.Ordered log) {q : Present} (hq : c.present.present? = some q) :
    q.id = log.presentsConsumed + 1 :=
  (h.stamped.present _ _ (h.presents.inHand q hq)).1

namespace Treats

lemma start : (Control.start n m).Treats [] [] :=
  ⟨by simp, by simp, trivial⟩

/-- Nothing is said of a worker that leaves. -/
lemma of_leaving (h : c.present.leaving = true) : c.Treats log deeds := by
  refine ⟨by simp [h], by simp [h], ?_⟩
  simp only [PhaseTreats]
  cases hphase : c.present <;> simp [hphase, PresentPhase.leaving] at h ⊢

/-- Nothing is treated, and no slot put together. -/
lemma keep (h : c.Treats log deeds) (hgoes : c.present.leaving = false)
    (htreated : ∀ id o, .treated id o ∉ new) (hcomposed : ∀ q slot, .composed q slot ∉ events)
    (hinspected : log.presentsConsumed + c.present.inspected ≤
      (log ++ events).presentsConsumed + c'.present.inspected)
    (hphase : c'.PhaseTreats (log ++ events) (deeds ++ new)) :
    c'.Treats (log ++ events) (deeds ++ new) := by
  refine ⟨fun _ id o hd => ?_, fun _ q slot he => ?_, hphase⟩
  · have hd := (List.mem_append.mp hd).resolve_right (htreated id o)
    exact (h.treated hgoes id o hd).trans hinspected
  · have he := (List.mem_append.mp he).resolve_right (hcomposed q slot)
    exact (h.composed hgoes q slot he).trans hinspected

/-- No present is taken up or consumed, nothing treated, and no slot put together. -/
lemma stay (h : c.Treats log deeds) (hgoes : c.present.leaving = false)
    (htreated : ∀ id o, .treated id o ∉ new) (hcomposed : ∀ q slot, .composed q slot ∉ events)
    (hconsumed : events.presentsConsumed = 0)
    (hinspected : c'.present.inspected = c.present.inspected)
    (hphase : c'.PhaseTreats (log ++ events) (deeds ++ new)) :
    c'.Treats (log ++ events) (deeds ++ new) := by
  refine h.keep hgoes htreated hcomposed ?_ hphase
  rw [History.presentsConsumed_append, hconsumed, hinspected, Nat.add_zero]

/-- The other parties leave what was treated. -/
lemma other (ho : c.Ordered log) (h : c.Treats log deeds)
    (hparty : ∀ e ∈ events, e.party ≠ .present) (hpresent : c'.present = c.present)
    (htreated : ∀ id o, .treated id o ∉ new) :
    c'.Treats (log ++ events) (deeds ++ new) := by
  cases hgoes : c.present.leaving with
  | true => exact of_leaving (hpresent ▸ hgoes)
  | false =>
    have hcomposed : ∀ q slot, .composed q slot ∉ events := fun q slot he => hparty _ he rfl
    have hconsumed := History.presentsConsumed_of_party hparty
    have houtcomes : ∀ id, Deed.outcomes id new = [] := fun id =>
      Deed.outcomes_eq_nil (htreated id)
    have happend : ∀ {job : PresentJob} {count : Nat}, Treating log deeds job count →
        Treating (log ++ events) (deeds ++ new) job count := fun h =>
      h.append (History.composedBy_eq_nil (hcomposed _)) (houtcomes _)
    refine h.stay hgoes htreated hcomposed hconsumed (by rw [hpresent]) ?_
    have hphase := h.phase
    simp only [PhaseTreats] at hphase ⊢
    rw [hpresent]
    cases at_ : c.present with
    | select | compose | settle | «show» =>
      simp only [at_] at hphase
      exact happend hphase
    | inspect job =>
      simp only [at_] at hphase
      exact ⟨hphase.1, hphase.2.1, fun hops => List.mem_append_left _ (hphase.2.2 hops)⟩
    | conclude place id =>
      simp only [at_] at hphase
      intro q hq
      have hlt := (ho.presents.claimed place (by rw [at_]; rfl)).1
      rw [History.presentsConsumed_append, hconsumed, Nat.add_zero, History.requested_append,
        List.getElem?_append_left hlt] at hq
      exact (hphase q hq).append (History.composedBy_eq_nil (hcomposed q)) (houtcomes _)
    | showAgain | upload => simpa [at_] using hphase
    | _ => trivial

/-- The present in hand was not treated before it is looked at. -/
lemma outcomes_hand (h : c.Treats log deeds) (hgoes : c.present.leaving = false)
    (hinspected : c.present.inspected = 0) {id : Nat} (hid : id = log.presentsConsumed + 1) :
    Deed.outcomes id deeds = [] := by
  refine Deed.outcomes_eq_nil fun o hd => ?_
  have hle := h.treated hgoes id o hd
  omega

/-- No slot was put together for the present in hand before it is looked at. -/
lemma composedBy_hand (h : c.Treats log deeds) (hgoes : c.present.leaving = false)
    (hinspected : c.present.inspected = 0) {q : Present} (hid : q.id = log.presentsConsumed + 1) :
    log.composedBy q = [] := by
  refine History.composedBy_eq_nil fun slot he => ?_
  have hle := h.composed hgoes q slot he
  omega

/-- The present in hand is treated. -/
lemma treat (h : c.Treats log deeds) (hgoes : c.present.leaving = false) {id : Nat} {o : Outcome}
    (hid : id = log.presentsConsumed + 1) (hinspected' : c'.present.inspected = 1)
    (hphase : c'.PhaseTreats log (deeds ++ [.treated id o])) :
    c'.Treats log (deeds ++ [.treated id o]) := by
  have hle : c.present.inspected ≤ 1 := by cases c.present <;> simp [PresentPhase.inspected]
  refine ⟨fun _ id' o' hd => ?_, fun _ q slot he => ?_, hphase⟩
  · rcases List.mem_append.mp hd with hd | hd
    · have hbound := h.treated hgoes id' o' hd
      omega
    · simp only [List.mem_singleton, Deed.treated.injEq] at hd
      omega
  · have hbound := h.composed hgoes q slot he
    omega

/-- A present without images of its own is treated once. -/
lemma treat_once (ho : c.Ordered log) (h : c.Treats log deeds) (hgoes : c.present.leaving = false)
    (hinspected : c.present.inspected = 0) (hq : c.present.present? = some job.present)
    {place id : Nat} (at_' : c'.present = .conclude place id) {o : Outcome}
    (hdone : Deed.outcomes job.present.id (deeds ++ [.treated job.present.id o]) = [o] →
      job.present.Treated log (deeds ++ [.treated job.present.id o])) :
    c'.Treats log (deeds ++ [.treated job.present.id o]) := by
  have hid := ho.id_present? hq
  refine h.treat hgoes hid (by rw [at_']; rfl) ?_
  simp only [PhaseTreats, at_']
  intro q hq'
  obtain rfl := Option.some.inj ((ho.presents.inHand _ hq).symm.trans hq')
  apply hdone
  rw [Deed.outcomes_append, h.outcomes_hand hgoes hinspected hid]
  simp [Deed.outcomes]

lemma present (ho : c.Ordered log) (h : c.Treats log deeds) (m : c.PresentMove events c')
    (does : c.Does c' new) : c'.Treats (log ++ events) (deeds ++ new) := by
  have hphase := h.phase
  simp only [PhaseTreats] at hphase
  simp only [Does] at does
  cases m with
  | close | giveUp | finishLost | leave => exact of_leaving rfl
  | uploadBroken at_ lost => cases lost <;> exact of_leaving rfl
  | composeBroken at_ lost => cases lost <;> exact of_leaving rfl
  | claim at_ | pass at_ | release at_ =>
    simp only [at_] at does
    subst does
    exact h.stay (by rw [at_]; rfl) (by simp) (by simp) rfl (by rw [at_]; rfl) trivial
  | enterAgain at_ again =>
    simp only [at_] at does
    subst does
    exact h.stay (by rw [at_]; rfl) (by simp) (by simp) rfl (by rw [at_]; rfl) again
  | enter at_ again =>
    simp only [at_] at does
    subst does
    exact h.stay (by rw [at_]; rfl) (by simp) (by simp) rfl (by rw [at_]; rfl) ⟨again, rfl⟩
  | @showAgain job at_ =>
    simp only [at_] at does hphase
    obtain ⟨o, rfl, ho'⟩ := does
    rw [List.append_nil]
    refine h.treat_once ho (by rw [at_]; rfl) (by rw [at_]; rfl) (by rw [at_]; rfl) rfl ?_
    intro hone
    exact ⟨by simp [hphase], fun _ => ⟨o, hone, ho'⟩, by simp [hphase],
      by simp [Present.visible, hphase]⟩
  | @upload job at_ =>
    simp only [at_, PresentPhase.leaving, Bool.false_eq_true, or_false] at does hphase
    refine h.stay (by rw [at_]; rfl) ?_ (by simp) rfl (by rw [at_]; rfl)
      ⟨hphase.1, hphase.2, fun hops => ?_⟩
    · intro id o hd
      rw [does] at hd
      split at hd <;> simp at hd
    · rw [does, if_neg (by simpa using hops)]
      exact List.mem_append_right _ (List.mem_singleton_self _)
  | @blank job at_ blank =>
    simp only [at_, blank, Bool.false_eq_true, if_false] at does hphase
    subst does
    rw [List.append_nil]
    refine h.treat_once ho (by rw [at_]; rfl) (by rw [at_]; rfl) (by rw [at_]; rfl) rfl ?_
    intro hone
    exact ⟨fun _ hops => List.mem_append_left _ (hphase.2.2 hops), by simp [hphase],
      fun _ _ => hone, by simp [Present.visible, blank]⟩
  | @inspect job at_ visible =>
    simp only [at_, visible, if_true] at does hphase
    subst does
    obtain ⟨hagain, hindex, huploads⟩ := hphase
    have hgoes : c.present.leaving = false := by rw [at_]; rfl
    have hinspected : c.present.inspected = 0 := by rw [at_]; rfl
    have hid := ho.id_present? (q := job.present) (by rw [at_]; rfl)
    have houtcomes := h.outcomes_hand hgoes hinspected hid
    have hcomposed := h.composedBy_hand hgoes hinspected hid
    rw [List.append_nil, List.append_nil]
    refine ⟨fun _ id o hd => (h.treated hgoes id o hd).trans (by rw [hinspected]; omega),
      fun _ q slot he => (h.composed hgoes q slot he).trans (by rw [hinspected]; omega), ?_⟩
    refine ⟨by simp [Present.visible, hagain, visible], huploads, ?_, ?_, ?_, ?_⟩
    · dsimp only
      split <;> omega
    · simp [houtcomes, hindex]
    · simp [houtcomes]
    · simp [hcomposed, hindex]
  | @selectNone job at_ none_left =>
    simp only [at_] at does hphase
    subst does
    have hindex : 0 < job.index := by
      rcases none_left with hle | hnone
      · exact Nat.lt_of_lt_of_le hphase.total hle
      · exact index_pos_of_imageSlot hnone
    refine h.stay (by rw [at_]; rfl) (by simp) (by simp) rfl (by rw [at_]; rfl) ?_
    rw [List.append_nil, List.append_nil]
    intro q hq
    have hin := ho.presents.inHand job.present (by rw [at_]; rfl)
    obtain rfl := Option.some.inj (hin.symm.trans hq)
    exact hphase.done hindex
  | select at_ =>
    simp only [at_] at does hphase
    subst does
    exact h.stay (by rw [at_]; rfl) (by simp) (by simp) rfl (by rw [at_]; rfl)
      (hphase.append rfl rfl)
  | @compose job slot at_ image =>
    simp only [at_] at does hphase
    subst does
    have hgoes : c.present.leaving = false := by rw [at_]; rfl
    have hid := ho.id_present? (q := job.present) (by rw [at_]; rfl)
    have hc : History.presentsConsumed [.composed job.present slot] = 0 := rfl
    have hinspected : c.present.inspected = 1 := by rw [at_]; rfl
    rw [List.append_nil]
    refine ⟨fun _ id o hd => ?_, fun _ q slot' he => ?_, ?_⟩
    · rw [History.presentsConsumed_append, hc]
      have hle := h.treated hgoes id o hd
      rwa [hinspected] at hle
    · rw [History.presentsConsumed_append, hc]
      rcases List.mem_append.mp he with he | he
      · have hle := h.composed hgoes q slot' he
        rwa [hinspected] at hle
      · simp only [List.mem_singleton, Event.composed.injEq] at he
        rw [he.1, hid]
        exact le_rfl
    · refine ⟨hphase.visible, hphase.uploads, hphase.total, hphase.treated, hphase.notBlank, ?_⟩
      rw [History.composedBy_append, List.length_append, hphase.composed]
      simp [History.composedBy]
  | settle at_ =>
    simp only [at_] at does hphase
    subst does
    exact h.stay (by rw [at_]; rfl) (by simp) (by simp) rfl (by rw [at_]; rfl)
      (hphase.append rfl rfl)
  | @«show» job image at_ valid =>
    simp only [at_] at does hphase
    obtain ⟨o, rfl, ho'⟩ := does
    have hid := ho.id_present? (q := job.present) (by rw [at_]; rfl)
    have hone : Deed.outcomes job.present.id [.treated job.present.id o] = [o] := by
      simp [Deed.outcomes]
    rw [List.append_nil]
    refine h.treat (by rw [at_]; rfl) hid rfl ?_
    refine ⟨hphase.visible, fun hops => List.mem_append_left _ (hphase.uploads hops),
      hphase.total, ?_, ?_, hphase.composed⟩
    · rw [Deed.outcomes_append, hone, List.length_append, hphase.treated]
      rfl
    · rw [Deed.outcomes_append, hone, List.mem_append, not_or]
      exact ⟨hphase.notBlank, by simpa using ho'.symm⟩
  | conclude at_ =>
    simp only [at_] at does
    subst does
    exact h.stay (by rw [at_]; rfl) (by simp) (by simp) rfl (by rw [at_]; rfl) trivial
  | finish at_ =>
    simp only [at_] at does
    subst does
    have hc : History.presentsConsumed [.presentConsumed] = 1 := rfl
    refine h.keep (by rw [at_]; rfl) (by simp) (by simp) ?_ trivial
    rw [History.presentsConsumed_append, hc, at_]
    exact le_rfl

end Treats

end Control

end Scanout
