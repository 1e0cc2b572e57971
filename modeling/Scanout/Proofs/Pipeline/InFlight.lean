import Scanout.Proofs.Pipeline.Showing

/-!
# Images in flight

The intermediate images that were rendered and not yet shown are counted. The count is exact from
the plan of a workload until the next one gives up what nobody has shown, so it never has to be
lowered below zero. With it the order in which images are shown is complete.
-/

namespace Scanout

/-- The image is not the final one. -/
def Slot.isIntermediate : Slot → Bool
  | .main => false
  | .intermediate _ => true

/-- The intermediate images that were put together and are still counted as in flight. -/
def PresentPhase.settling : PresentPhase → Nat
  | .settle _ slot _ => slot.isIntermediate.toNat
  | _ => 0

/-- The images in flight were given up, and those of the next workload are not planned. -/
def RenderPhase.abandoned : RenderPhase → Bool
  | .configure _ | .plan _ => true
  | _ => false

namespace Production

variable {p : Production} {slot : Slot} {skipped : Bool}

lemma inFlight_publish :
    (p.publish slot skipped).inFlight = p.inFlight + slot.isIntermediate.toNat := by
  cases slot <;> rfl

lemma inFlight_settle : (p.settle slot).inFlight = p.inFlight - slot.isIntermediate.toNat := by
  cases slot <;> rfl

@[simp] lemma workloadId_settle : (p.settle slot).workloadId = p.workloadId := by
  cases slot <;> rfl

end Production

namespace History

variable {log events : History} {q : Present} {v : Nat}

/-- The intermediate images of a workload that were made known. -/
def intermediatesProduced (log : History) (workloadId : Nat) : Nat :=
  (log.produced workloadId).countP Slot.isIntermediate

/-- The intermediate images of a workload that were put together for the screen. -/
def intermediatesComposed (log : History) (workloadId : Nat) : Nat :=
  (log.composedFor workloadId).countP Slot.isIntermediate

@[simp] lemma intermediatesProduced_append :
    intermediatesProduced (log ++ events) v =
      log.intermediatesProduced v + events.intermediatesProduced v := by
  simp [intermediatesProduced]

@[simp] lemma intermediatesComposed_append :
    intermediatesComposed (log ++ events) v =
      log.intermediatesComposed v + events.intermediatesComposed v := by
  simp [intermediatesComposed]

lemma intermediatesProduced_singleton {slot : Slot} :
    intermediatesProduced [.produced v slot] v = slot.isIntermediate.toNat := by
  cases slot <;> simp [intermediatesProduced, produced, Slot.isIntermediate]

lemma intermediatesComposed_singleton {slot : Slot} (h : slot = .main ∨ q.workloadId = v) :
    intermediatesComposed [.composed q slot] v = slot.isIntermediate.toNat := by
  rcases h with rfl | rfl
  · by_cases hworkload : q.workloadId = v <;>
      simp [intermediatesComposed, composedFor, Slot.isIntermediate, hworkload]
  · cases slot <;> simp [intermediatesComposed, composedFor, Slot.isIntermediate]

lemma intermediatesComposed_of_party (h : ∀ e ∈ events, e.party ≠ .present) :
    events.intermediatesComposed v = 0 := by
  have hnil : events.composedFor v = [] := by
    rw [composedFor, List.filterMap_eq_nil_iff]
    intro e he
    have hparty := h e he
    cases e <;> simp [Event.party] at hparty ⊢
  rw [intermediatesComposed, hnil]
  rfl

lemma intermediatesProduced_of_party (h : ∀ e ∈ events, e.party ≠ .render) :
    events.intermediatesProduced v = 0 := by
  rw [intermediatesProduced, produced_of_party h]
  rfl

/-- If only one present of a workload shows intermediate images, its slots are those that count. -/
lemma intermediatesComposed_eq (hv : q.workloadId = v)
    (h : ∀ q' i, .composed q' (.intermediate i) ∈ log → q'.workloadId = v → q' = q) :
    log.intermediatesComposed v = (log.composedBy q).countP Slot.isIntermediate := by
  rw [intermediatesComposed, composedFor, composedBy, List.countP_filterMap, List.countP_filterMap]
  refine List.countP_congr fun e he => ?_
  cases e with
  | composed q' slot =>
    cases slot with
    | main =>
      dsimp only
      split <;> split <;> simp [Slot.isIntermediate]
    | intermediate i =>
      have hiff : q'.workloadId = v ↔ q' = q := ⟨h q' i he, fun heq => heq ▸ hv⟩
      simp only [hiff]
  | _ => rfl

end History

namespace Control

variable {c c' : Control} {log events : History} {n m : Nat} {v : Nat}

/-- Only the first visible present of a workload shows intermediate images. -/
lemma Reached.isFirst_of_intermediate (h : Reached n m log c) (hrunning : c.running = true)
    {q : Present} {i : Nat} (hq : .composed q (.intermediate i) ∈ log) :
    q ∈ log.requested ∧ q.visible = true ∧ 0 < q.workloadId ∧ log.IsFirst q := by
  obtain ⟨hvisible, hmain, j, -, hin⟩ := (h.showing hrunning).composed q _ hq
  have hpos : 0 < q.workloadId := by
    rw [Nat.pos_iff_ne_zero]
    intro hzero
    cases hmain hzero
  have hmem := List.mem_of_getElem? hin
  refine ⟨hmem, hvisible, hpos, ?_⟩
  by_contra hfirst
  have hdue := (h.composedBy_due hrunning hmem hpos).2 hfirst
  have hslot : .intermediate i ∈ log.composedBy q :=
    List.mem_filterMap.mpr ⟨_, hq, if_pos rfl⟩
  cases List.mem_singleton.mp (hdue.subset hslot)

/-- No more intermediate images are shown than were rendered. -/
lemma Reached.intermediatesComposed_le (h : Reached n m log c) (hrunning : c.running = true) :
    log.intermediatesComposed v ≤ log.intermediatesProduced v := by
  by_cases hexists : ∃ q i, .composed q (.intermediate i) ∈ log ∧ q.workloadId = v
  · obtain ⟨q, i, hq, rfl⟩ := hexists
    obtain ⟨hmem, hvisible, hpos, hfirst⟩ := h.isFirst_of_intermediate hrunning hq
    rw [History.intermediatesComposed_eq rfl]
    · exact ((h.composedBy_due hrunning hmem hpos).1 hfirst).sublist.countP_le
    · intro q' i' hq' hworkload
      obtain ⟨hmem', hvisible', -, hfirst'⟩ := h.isFirst_of_intermediate hrunning hq'
      have hle := hfirst q' hmem' hvisible' hworkload
      have hle' := hfirst' q hmem hvisible hworkload.symm
      exact h.ordered.stamped.eq_of_id_eq hmem' hmem (Nat.le_antisymm hle' hle)
  · have hzero : log.intermediatesComposed v = 0 := by
      rw [History.intermediatesComposed, List.countP_eq_zero]
      intro slot hslot hintermediate
      obtain ⟨e, he, heq⟩ := List.mem_filterMap.mp hslot
      cases e with
      | composed q slot' =>
        dsimp only at heq
        split at heq
        · cases heq
          cases slot with
          | main => cases hintermediate
          | intermediate i => exact hexists ⟨q, i, he, ‹_›⟩
        · cases heq
      | _ => cases heq
    rw [hzero]
    exact Nat.zero_le _

/-- Nothing is put together while the next workload is taken up. -/
lemma Reached.settling_eq_zero (h : Reached n m log c) {place : Nat}
    (at_ : c.render = .abandon place ∨ c.render = .configure place ∨ c.render = .plan place) :
    c.present.settling = 0 := by
  have hnone := h.admitted?_eq_none at_
  cases hphase : c.present with
  | settle job slot image =>
    have hq := h.admitted_of_present? (q := job.present) (by rw [hphase]; rfl) (by simp [hphase])
    cases hnone.symm.trans hq
  | _ => rfl

/-- The count of images in flight is exact. -/
def Accounted (c : Control) (log : History) : Prop :=
  if c.render.abandoned then c.production.inFlight = 0
  else c.production.inFlight + log.intermediatesComposed c.production.workloadId =
    log.intermediatesProduced c.production.workloadId + c.present.settling

namespace Accounted

/-- What does not touch intermediate images does not change the count. -/
lemma same (h : c.Accounted log) (hid : c'.production.workloadId = c.production.workloadId)
    (hinFlight : c'.production.inFlight = c.production.inFlight)
    (hsettling : c'.present.settling = c.present.settling)
    (hrender : c'.render.abandoned = c.render.abandoned)
    (hcomposed : events.intermediatesComposed c.production.workloadId = 0)
    (hproduced : events.intermediatesProduced c.production.workloadId = 0) :
    c'.Accounted (log ++ events) := by
  simp only [Accounted] at h ⊢
  simpa [hid, hinFlight, hsettling, hrender, hcomposed, hproduced] using h

lemma render (before : Reached n m log c) (h : c.Accounted log) (m : c.RenderMove events c')
    (hrunning : c'.running = true) : c'.Accounted (log ++ events) := by
  have hcomposed : ∀ v, events.intermediatesComposed v = 0 := fun v =>
    History.intermediatesComposed_of_party fun e he => by simp [m.party e he]
  cases m with
  | planLost => cases hrunning
  | drawBroken at_ lost => cases lost <;> cases hrunning
  | finishLost => cases hrunning
  | abandon at_ => rfl
  | @plan place at_ plan rates images =>
    have hfacts := before.renderFacts
    simp only [RenderFacts, at_] at hfacts
    have hid := before.ordered.id_workloadAt place (by rw [at_]; rfl)
    have hnew : log.intermediatesProduced (c.workloadAt place).id = 0 := by
      rw [History.intermediatesProduced, before.images.later _ (by omega)]
      rfl
    have hle := before.intermediatesComposed_le (v := (c.workloadAt place).id) hrunning
    have hsettling := before.settling_eq_zero (.inr (.inr at_))
    simp only [Accounted, List.append_nil, RenderPhase.abandoned, Production.start,
      Production.new, hsettling, Bool.false_eq_true, if_false]
    omega
  | @publish job index at_ =>
    have hfacts := before.renderFacts
    simp only [RenderFacts, at_] at hfacts
    have hid := before.ordered.id_workloadAt job.place (by rw [at_]; rfl)
    have hrender : (if job.rendered.length = 1 then RenderPhase.announce job
        else .draw job).abandoned = false := by
      split <;> rfl
    have hcurrent : (c.workloadAt job.place).id = c.production.workloadId := by omega
    rw [hcurrent] at hcomposed ⊢
    simp only [Accounted, at_, RenderPhase.abandoned, Bool.false_eq_true, if_false] at h
    simp only [Accounted, hrender, Bool.false_eq_true, if_false, Production.workloadId_publish,
      Production.inFlight_publish, History.intermediatesComposed_append,
      History.intermediatesProduced_append, hcomposed, History.intermediatesProduced_singleton]
    omega
  | _ => exact h.same rfl rfl rfl (by simp [*, RenderPhase.abandoned]) (hcomposed _) rfl

lemma present (before : Reached n m log c) (h : c.Accounted log) (m : c.PresentMove events c')
    (hrunning : c'.running = true) : c'.Accounted (log ++ events) := by
  have hproduced : ∀ v, events.intermediatesProduced v = 0 := fun v =>
    History.intermediatesProduced_of_party fun e he => by simp [m.party e he]
  cases m with
  | uploadBroken at_ lost => cases lost <;> cases hrunning
  | composeBroken at_ lost => cases lost <;> cases hrunning
  | finishLost => cases hrunning
  | @compose job slot at_ image =>
    have hphase := (before.showing hrunning).phase
    simp only [PhaseShows, at_] at hphase
    have hslot : slot = .main ∨ job.present.workloadId = c.production.workloadId := by
      rcases Nat.eq_zero_or_pos job.present.workloadId with hzero | hpos
      · exact .inl (hphase.2.main hzero)
      · exact .inr (before.production_of_admitted (before.admitted_of_present?
          (by rw [at_]; rfl) (by simp [at_])) hpos).symm
    simp only [Accounted, at_, PresentPhase.settling, History.intermediatesComposed_append,
      History.intermediatesProduced_append, hproduced,
      History.intermediatesComposed_singleton hslot] at h ⊢
    split <;> split at h <;> first | contradiction | omega
  | @settle job slot image at_ =>
    have hle := before.intermediatesComposed_le (v := c.production.workloadId) hrunning
    simp only [Accounted, at_, PresentPhase.settling, List.append_nil,
      Production.workloadId_settle, Production.inFlight_settle] at h ⊢
    split <;> split at h <;> first | contradiction | omega
  | _ => exact h.same rfl rfl (by simp [*, PresentPhase.settling]) rfl rfl (hproduced _)

end Accounted

lemma Reached.accounted (h : Reached n m log c) (hrunning : c.running = true) :
    c.Accounted log := by
  induction h with
  | start => rfl
  | step before move ih =>
    have haccounted := ih (move.running hrunning)
    cases move with
    | render m => exact haccounted.render before m hrunning
    | present m => exact haccounted.present before m hrunning
    | producer m =>
      have hframe := m.frame
      refine haccounted.same ?_ ?_ (by rw [hframe.present]) (by rw [hframe.render])
        (History.intermediatesComposed_of_party fun e he => by simp [hframe.party e he])
        (History.intermediatesProduced_of_party fun e he => by simp [hframe.party e he])
      all_goals rw [hframe.production]

/-- A move brings about at most one event. -/
lemma Move.events_eq (move : c.Move events c') : events = [] ∨ ∃ e, events = [e] := by
  cases move with
  | render m => cases m <;> simp
  | present m => cases m <;> simp
  | producer m =>
    cases m with
    | @publish item c₁ offers =>
      cases item with
      | workload number =>
        rcases hadvance : c₁.workloads.advance with ⟨attempt, ring⟩
        simp only [Control.publish, hadvance]
        cases attempt <;> cases c₁.workloads.current? <;> simp
      | present number =>
        rcases hadvance : c₁.presents.advance with ⟨attempt, ring⟩
        simp only [Control.publish, hadvance]
        cases attempt <;> cases c₁.presents.current? <;> simp
    | _ => exact .inl rfl

/-- Before each event of a run there is a state in which it comes about. -/
lemma Reached.of_append_cons (h : Reached n m log c) {before after : History} {e : Event}
    (hlog : log = before ++ e :: after) (hrunning : c.running = true) :
    ∃ c₀ c₁, Reached n m before c₀ ∧ c₀.Move [e] c₁ ∧ c₀.running = true := by
  induction h generalizing after with
  | start => simp at hlog
  | @step log events c₀ c₁ reached move ih =>
    rcases move.events_eq with rfl | ⟨e', rfl⟩
    · rw [List.append_nil] at hlog
      exact ih hlog (move.running hrunning)
    · rcases List.eq_nil_or_concat after with rfl | ⟨after', e'', rfl⟩
      · obtain ⟨rfl, heq⟩ := List.append_inj' hlog rfl
        rw [heq] at move
        exact ⟨_, _, reached, move, move.running hrunning⟩
      · rw [List.concat_eq_append, ← List.cons_append, ← List.append_assoc] at hlog
        exact ih (List.append_inj' hlog rfl).1 (move.running hrunning)

lemma PresentMove.of_composed {q : Present} {slot : Slot}
    (m : c.PresentMove [.composed q slot] c') :
    ∃ job, c.present = .compose job slot ∧ job.present = q := by
  cases m <;> exact ⟨_, ‹_›, rfl⟩

/-- A later present shows the final image after it was made known. -/
lemma Reached.produced_of_composed (h : Reached n m log c) (hrunning : c.running = true)
    {before after : History} {q : Present} {slot : Slot}
    (hlog : log = before ++ .composed q slot :: after) (hpos : 0 < q.workloadId)
    (hlater : ¬ log.IsFirst q) : .produced q.workloadId .main ∈ before := by
  obtain ⟨c₀, c₁, hbefore, move, hrunning₀⟩ := h.of_append_cons hlog hrunning
  cases move with
  | render m => cases m.party _ (List.mem_singleton_self _)
  | producer m => cases m.frame.party _ (List.mem_singleton_self _)
  | present m =>
    obtain ⟨job, at_, rfl⟩ := m.of_composed
    have hphase := (hbefore.showing hrunning₀).phase
    simp only [PhaseShows, at_] at hphase
    obtain ⟨hshows, hdue⟩ := hphase
    have hin := List.mem_of_getElem?
      (hbefore.ordered.presents.inHand job.present (by rw [at_]; rfl))
    have hid := hbefore.production_of_admitted
      (hbefore.admitted_of_present? (by rw [at_]; rfl) (by simp [at_])) hpos
    have hstamped := h.ordered.stamped
    rw [hlog] at hstamped
    rw [hlog, History.isFirst_append hstamped hin, ← hshows.isFirst hpos] at hlater
    have hslot := hdue.due hpos
    rw [Production.due, if_neg hlater] at hslot
    -- something is due only because the production is complete
    split at hslot
    · obtain ⟨-, indices, hproduced, -⟩ := hbefore.closed hrunning₀ ‹_›
      apply History.mem_produced
      rw [← hid, hbefore.images.current, hproduced]
      simp
    · simp at hslot

/-- Lowering the count of images in flight does not go below zero. -/
lemma Reached.settling_le (h : Reached n m log c) (hrunning : c.running = true) :
    c.present.settling ≤ c.production.inFlight := by
  have haccounted := h.accounted hrunning
  have hle := h.intermediatesComposed_le (v := c.production.workloadId) hrunning
  simp only [Accounted] at haccounted
  split at haccounted
  · rename_i habandoned
    have hzero : c.present.settling = 0 := by
      cases hphase : c.render with
      | configure place => exact h.settling_eq_zero (.inr (.inl hphase))
      | plan place => exact h.settling_eq_zero (.inr (.inr hphase))
      | _ => simp [hphase, RenderPhase.abandoned] at habandoned
    omega
  · omega

end Control

namespace Pipeline

variable {p : Pipeline} {log : History}

/-- As long as nothing is stopped, the first visible present of a workload shows exactly the images
that were rendered for it, in order; every later one shows the final image, once it is known; and
the count of images in flight is exact until the next workload gives them up, so lowering it never
goes below zero. -/
theorem presents_show_images_in_order (h : Ran log p) (hrunning : p.shared.running = true) :
    (∀ q ∈ log.requested, q.visible = true → 0 < q.workloadId → log.IsFirst q →
      log.composedBy q <+: log.produced q.workloadId ∧
        (.done q.id ∈ log → log.composedBy q = log.produced q.workloadId ∧
          Slot.Finished (log.produced q.workloadId))) ∧
    (∀ q ∈ log.requested, q.visible = true → 0 < q.workloadId → ¬ log.IsFirst q →
      log.composedBy q <+: [.main] ∧ (.done q.id ∈ log → log.composedBy q = [.main]) ∧
        ∀ before after slot, log = before ++ .composed q slot :: after →
          .produced q.workloadId .main ∈ before) ∧
    (if p.render.abandoned then p.shared.production.inFlight = 0
      else p.shared.production.inFlight +
          log.intermediatesComposed p.shared.production.workloadId =
        log.intermediatesProduced p.shared.production.workloadId + p.present.settling) ∧
    p.present.settling ≤ p.shared.production.inFlight := by
  obtain ⟨n, m, -, -, h⟩ := h.reached
  have hrunning : p.control.running = true := hrunning
  refine ⟨?_, ?_, h.accounted hrunning, h.settling_le hrunning⟩
  · intro q hq hvisible hpos hfirst
    refine ⟨(h.composedBy_due hrunning hq hpos).1 hfirst, fun hdone => ?_⟩
    have hshown := h.shown_of_done hrunning hq hdone
    exact ⟨hshown.first hvisible hpos hfirst, hshown.finished hvisible hpos⟩
  · intro q hq hvisible hpos hlater
    refine ⟨(h.composedBy_due hrunning hq hpos).2 hlater, fun hdone => ?_, ?_⟩
    · exact (h.shown_of_done hrunning hq hdone).later hvisible hpos hlater
    · intro before after slot hlog
      exact h.produced_of_composed hrunning hlog hpos hlater

/-- A screen of four columns and four lines. -/
def smallScreen : Screen := ⟨2, 0, 4, 0x6C0070, 0x25002D, 0x400, 0x400⟩

/-- A present of the small screen. -/
def smallPresent (id workloadId : Nat) : Present :=
  ⟨id, smallScreen, workloadId, [], ByteArray.empty, false⟩

/-- The settings of a user who wants images at the rate of the display. -/
def displayed : Config := { Config.default with refreshRate := .display }

/-- Two empty frames are rendered and shown, the second one twice. -/
def twoFrames : List Action :=
  .call (.submitWorkload ByteArray.empty 20) ::
    .call (.submitPresent smallScreen ByteArray.empty) ::
    .call (.submitWorkload ByteArray.empty 20) ::
    .call (.submitPresent smallScreen ByteArray.empty) ::
    .call (.submitPresent smallScreen ByteArray.empty) ::
    (List.replicate 13 .render ++ List.replicate 14 .present ++ List.replicate 15 .render ++
      List.replicate 33 .present)

theorem second_frame_shown_twice :
    (sample displayed twoFrames).1.produced 2 = [.intermediate 0, .intermediate 1, .main] ∧
      (sample displayed twoFrames).1.composedBy (smallPresent 2 2) =
        (sample displayed twoFrames).1.produced 2 ∧
      (sample displayed twoFrames).1.composedBy (smallPresent 3 2) = [.main] := by
  have hran : Ran (sample displayed twoFrames).1 (sample displayed twoFrames).2 :=
    ran_sample (by decide +kernel) twoFrames
  obtain ⟨hfirst, hlater, -⟩ := presents_show_images_in_order hran (by decide +kernel)
  refine ⟨by decide +kernel, ?_, ?_⟩
  · exact ((hfirst (smallPresent 2 2) (by decide +kernel) (by decide +kernel) (by decide +kernel)
      (by decide +kernel)).2 (by decide +kernel)).1
  · exact (hlater (smallPresent 3 2) (by decide +kernel) (by decide +kernel) (by decide +kernel)
      (by decide +kernel)).2.1 (by decide +kernel)

end Pipeline

end Scanout
