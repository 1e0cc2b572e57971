import Scanout.Proofs.Pipeline.Release

/-!
# The images of a workload are accounted for

The render worker draws the images of a workload in a loop. In each turn it looks whether the
producer is blocked, and draws the next image or goes straight to the last one. Whatever it sees,
the loop comes to its end with the last image, and the images drawn, the number of those left out,
the record of the workload and what the present worker is told agree.
-/

namespace Scanout

section

variable {last : Option Nat} {count index : Nat} {blocked : Bool}

lemma subFrameAfter_eq_none_iff :
    subFrameAfter last count blocked = none ↔ count ≤ last.elim 0 (· + 1) := by
  refine ⟨Control.of_subFrameAfter_eq_none, fun h => ?_⟩
  simp only [subFrameAfter, if_pos h]

/-- An image is followed by the next one, or by the last. -/
lemma subFrameAfter_cases (h : subFrameAfter last count blocked = some index) :
    index = last.elim 0 (· + 1) ∨ index = count - 1 := by
  simp only [subFrameAfter] at h
  split at h
  · cases h
  · split at h
    · exact .inr (Option.some.inj h).symm
    · exact .inl (Option.some.inj h).symm

end

namespace RenderJob

/-- The job and the images drawn after turns in which the producer was seen blocked or not. -/
inductive Turned (place : Nat) (plan : FramePlan) : List Bool → List Nat → RenderJob → Prop where
  | start (images : 0 < plan.size) : Turned place plan [] [] ⟨place, plan, none, [], 0⟩
  | turn {seen : List Bool} {indices : List Nat} {job : RenderJob} {index : Nat}
      (before : Turned place plan seen indices job) (blocked : Bool)
      (image : subFrameAfter job.last plan.size blocked = some index) :
      Turned place plan (seen ++ [blocked]) (indices ++ [index])
        (job.advance index (plan.subFrames.getD index .direct))

/-- The images drawn so far are those before the next one, unless the loop went straight to the last
one after the first `k`. -/
inductive Course (job : RenderJob) (indices : List Nat) : Prop where
  | even (drawn : indices = List.range job.next) (next : job.next ≤ job.plan.size)
      (skipped : job.skipped = 0)
  | jumped (k : Nat) (drawn : indices = List.range k ++ [job.plan.size - 1])
      (next : job.next = job.plan.size) (skipped : k + 1 + job.skipped = job.plan.size)

/-- The images of a job have been drawn: in order, up to the last one, with none left out but
directly before it, and what the job has kept of them agrees. -/
structure Drawn (job : RenderJob) (indices : List Nat) : Prop where
  increasing : indices.Pairwise (· < ·)
  below : ∀ i ∈ indices, i < job.plan.size
  last : indices.getLast? = some (job.plan.size - 1)
  once : indices.count (job.plan.size - 1) = 1
  gap : ∀ k i, indices[k]? = some i → k + 1 < indices.length → i = k
  rendered : job.rendered.map some = indices.map (job.plan.subFrames[·]?)
  total : job.rendered.length + job.skipped = job.plan.size

variable {place : Nat} {plan : FramePlan} {seen : List Bool} {indices : List Nat} {job : RenderJob}

namespace Turned

lemma of_plan (h : job.Turned place plan seen indices) :
    job.place = place ∧ job.plan = plan ∧ 0 < plan.size := by
  induction h with
  | start images => exact ⟨rfl, rfl, images⟩
  | turn _ _ _ ih => exact ih

lemma rendered (h : job.Turned place plan seen indices) :
    job.rendered.map some = indices.map (plan.subFrames[·]?) := by
  induction h with
  | start => rfl
  | @turn _ _ job index _ _ image ih =>
    have hindex : index < plan.subFrames.length := (Control.of_subFrameAfter image).2
    simp [advance, ih, hindex]

lemma course (h : job.Turned place plan seen indices) : job.Course indices := by
  induction h with
  | start => exact .even rfl (Nat.zero_le _) rfl
  | @turn _ indices job index before _ image ih =>
    obtain ⟨-, rfl, -⟩ := before.of_plan
    obtain ⟨hnext, hindex⟩ := Control.of_subFrameAfter image
    have hnext : job.next ≤ index := hnext
    have hskipped : ∀ s, (job.advance index s).skipped = job.skipped + (index - job.next) :=
      fun _ => rfl
    cases ih with
    | even drawn next skipped =>
      rcases subFrameAfter_cases image with heq | heq
      · have heq : index = job.next := heq
        refine .even ?_ hindex ?_
        · change indices ++ [index] = List.range (index + 1)
          rw [drawn, heq, List.range_succ]
        · rw [hskipped, skipped, heq, Nat.sub_self]
      · refine .jumped job.next ?_ ?_ ?_
        · rw [drawn, heq]
          rfl
        · change index + 1 = job.plan.size
          omega
        · change job.next + 1 + (job.skipped + (index - job.next)) = job.plan.size
          omega
    | jumped k drawn next skipped => omega

/-- While an image is left, no image drawn is the last one. -/
lemma main_notMem (h : job.Turned place plan seen indices) (hleft : job.next < plan.size) :
    Slot.main ∉ indices.map job.slot := by
  obtain ⟨-, rfl, -⟩ := h.of_plan
  intro hmem
  obtain ⟨i, hi, hslot⟩ := List.mem_map.mp hmem
  cases h.course with
  | even drawn =>
    rw [drawn, List.mem_range] at hi
    rw [slot, if_neg (by omega)] at hslot
    cases hslot
  | jumped k drawn next => omega

/-- At the end all images before some image were drawn, and the last one. -/
lemma exists_eq_range (h : job.Turned place plan seen indices) (hend : plan.size ≤ job.next) :
    ∃ k, indices = List.range k ++ [plan.size - 1] ∧ k + 1 + job.skipped = plan.size ∧
      ∀ i ∈ List.range k, i + 1 < plan.size := by
  obtain ⟨k, hindices, hskipped⟩ :
      ∃ k, indices = List.range k ++ [plan.size - 1] ∧ k + 1 + job.skipped = plan.size := by
    obtain ⟨-, rfl, himages⟩ := h.of_plan
    cases h.course with
    | even drawn next skipped =>
      have hnext : job.next = job.plan.size - 1 + 1 := by omega
      refine ⟨job.plan.size - 1, ?_, by omega⟩
      rw [drawn, hnext, List.range_succ]
    | jumped k drawn next skipped => exact ⟨k, drawn, skipped⟩
  refine ⟨k, hindices, hskipped, fun i hi => ?_⟩
  have hlt := List.mem_range.mp hi
  omega

lemma drawn (h : job.Turned place plan seen indices) (hend : plan.size ≤ job.next) :
    job.Drawn indices := by
  have hrendered := h.rendered
  obtain ⟨k, rfl, hskipped, hbelow⟩ := h.exists_eq_range hend
  obtain ⟨-, rfl, -⟩ := h.of_plan
  constructor
  · rw [List.pairwise_append]
    refine ⟨List.pairwise_lt_range, List.pairwise_singleton _ _, ?_⟩
    intro i hi j hj
    rw [List.mem_singleton.mp hj]
    exact Nat.lt_sub_of_add_lt (hbelow i hi)
  · intro i hi
    rcases List.mem_append.mp hi with hi | hi
    · exact Nat.lt_of_succ_lt (hbelow i hi)
    · rw [List.mem_singleton.mp hi]
      omega
  · simp
  · have hnotMem : job.plan.size - 1 ∉ List.range k := by
      intro hmem
      have hlt := hbelow _ hmem
      omega
    rw [List.count_append, List.count_eq_zero.mpr hnotMem, List.count_singleton_self]
  · intro i j hj hi
    rw [List.length_append, List.length_range, List.length_singleton] at hi
    rw [List.getElem?_append_left (by rw [List.length_range]; omega),
      List.getElem?_range (by omega)] at hj
    exact (Option.some.inj hj).symm
  · exact hrendered
  · have hlength : job.rendered.length = k + 1 := by
      simpa using congrArg List.length hrendered
    omega

/-- At the end the slots are those of the intermediate images drawn, and the main one. -/
lemma map_slot (h : job.Turned place plan seen indices) (hend : plan.size ≤ job.next) :
    indices.map job.slot =
      (indices.filter (· < plan.size - 1)).map .intermediate ++ [.main] := by
  obtain ⟨k, rfl, hskipped, hbelow⟩ := h.exists_eq_range hend
  obtain ⟨-, rfl, -⟩ := h.of_plan
  have hlast : job.slot (job.plan.size - 1) = .main := if_pos (by omega)
  have hfilter : (List.range k).filter (· < job.plan.size - 1) = List.range k := by
    rw [List.filter_eq_self]
    intro i hi
    simpa using Nat.lt_sub_of_add_lt (hbelow i hi)
  have hslots : (List.range k).map job.slot = (List.range k).map .intermediate :=
    List.map_congr_left fun i hi => if_neg (hbelow i hi).ne
  rw [List.map_append, hslots, List.map_singleton, hlast, List.filter_append, hfilter]
  simp

/-- The loop comes to its end, whatever it sees. -/
lemma exists_end {n : Nat} (blocked : Nat → Bool)
    (h : job.Turned place plan ((List.range n).map blocked) indices) :
    ∃ n indices, ∃ job : RenderJob, job.Turned place plan ((List.range n).map blocked) indices ∧
      plan.size ≤ job.next := by
  -- on the images left
  induction hleft : plan.size - job.next using Nat.strong_induction_on
    generalizing n indices job with
  | _ left ih =>
    cases himage : subFrameAfter job.last plan.size (blocked n) with
    | none => exact ⟨n, indices, job, h, subFrameAfter_eq_none_iff.mp himage⟩
    | some index =>
      have hturn := h.turn (blocked n) himage
      obtain ⟨hnext, hindex⟩ := Control.of_subFrameAfter himage
      have hnext : job.next ≤ index := hnext
      rw [← List.map_singleton (f := blocked), ← List.map_append, ← List.range_succ] at hturn
      refine ih _ ?_ hturn rfl
      change plan.size - (index + 1) < left
      omega

end Turned

end RenderJob

namespace Production

variable {p : Production} {job : RenderJob} {indices : List Nat} {index : Nat} {slot : Slot}
  {skipped : Bool}

/-- The images drawn are known, and the production is closed as soon as the last one is. -/
structure Tells (p : Production) (job : RenderJob) (indices : List Nat) : Prop where
  produced : p.produced = indices.map job.slot
  complete : p.complete = true ↔ .main ∈ p.produced
  skipped : p.skipped = (p.complete && decide (0 < job.skipped))

/-- A production is closed exactly when its final image is made known. -/
lemma complete_publish_iff (h : p.complete = true ↔ .main ∈ p.produced) :
    (p.publish slot skipped).complete = true ↔ .main ∈ (p.publish slot skipped).produced := by
  rw [produced_publish, List.mem_append, ← h]
  cases slot <;> simp [publish, produce, finish]

namespace Tells

/-- Nothing is known of a plan that was just made. -/
lemma start {id planned place : Nat} {plan : FramePlan} {rates : Rates} :
    (Production.start id planned rates).Tells ⟨place, plan, none, [], 0⟩ [] :=
  ⟨rfl, by simp [Production.start, new], rfl⟩

/-- An image that is not known yet changes nothing. -/
lemma advance (h : p.Tells job indices) (hmain : .main ∉ indices.map job.slot) {s : SubFrame} :
    p.Tells (job.advance index s) indices where
  produced := h.produced
  complete := h.complete
  skipped := by
    have hopen : p.complete = false := by
      rw [← Bool.not_eq_true, h.complete, h.produced]
      exact hmain
    rw [h.skipped, hopen, Bool.false_and, Bool.false_and]

lemma publish (h : p.Tells job indices) :
    (p.publish (job.slot index) (0 < job.skipped)).Tells job (indices ++ [index]) where
  produced := by rw [produced_publish, h.produced, List.map_append, List.map_singleton]
  complete := complete_publish_iff h.complete
  skipped := by
    have hskipped := h.skipped
    cases job.slot index with
    | main => exact (Bool.true_and _).symm
    | intermediate i => exact hskipped

end Tells

end Production

/-- The worker draws the images of a workload. -/
def RenderPhase.drawing : RenderPhase → Bool
  | .draw _ | .publish .. | .announce _ => true
  | _ => false

namespace Control

/-- While the images of a plan are drawn, they are known up to the one drawn last. -/
def Accounts (c : Control) (place : Nat) (plan : FramePlan) : Prop :=
  match c.render with
  | .draw job | .announce job =>
    ∃ seen indices, job.Turned place plan seen indices ∧ c.production.Tells job indices
  | .publish job index =>
    ∃ seen indices, job.Turned place plan seen (indices ++ [index]) ∧
      c.production.Tells job indices
  | .conclude job =>
    ∃ seen indices, job.Turned place plan seen indices ∧ plan.size ≤ job.next ∧
      c.production.Tells job indices
  | _ => True

/-- What others leave alone while the render worker draws. They may fill and empty the ring. -/
structure Aside (c c' : Control) : Prop where
  render : c'.render = c.render
  produced : c'.production.produced = c.production.produced
  complete : c'.production.complete = c.production.complete
  skipped : c'.production.skipped = c.production.skipped

variable {c c' : Control} {log events : History} {place n m : Nat} {plan : FramePlan}

lemma PresentMove.aside (m : c.PresentMove events c') : c.Aside c' :=
  ⟨m.frame.render, m.frame.produced, m.frame.complete, m.frame.skipped⟩

lemma ProducerMove.aside (m : c.ProducerMove events c') : c.Aside c' := by
  refine ⟨m.frame.render, ?_, ?_, ?_⟩ <;> rw [m.frame.production]

lemma Aside.tells {job : RenderJob} {indices : List Nat} (h : c.Aside c')
    (htells : c.production.Tells job indices) : c'.production.Tells job indices where
  produced := h.produced.trans htells.produced
  complete := by
    rw [h.complete, h.produced]
    exact htells.complete
  skipped := by
    rw [h.skipped, h.complete]
    exact htells.skipped

namespace Accounts

lemma aside (h : c.Accounts place plan) (haside : c.Aside c') : c'.Accounts place plan := by
  simp only [Accounts, haside.render] at h ⊢
  cases hphase : c.render with
  | draw job | announce job | publish job index =>
    simp only [hphase] at h ⊢
    obtain ⟨seen, indices, hturned, htells⟩ := h
    exact ⟨seen, indices, hturned, haside.tells htells⟩
  | conclude job =>
    simp only [hphase] at h ⊢
    obtain ⟨seen, indices, hturned, hend, htells⟩ := h
    exact ⟨seen, indices, hturned, hend, haside.tells htells⟩
  | _ => trivial

/-- A step of the render worker that neither plans nor draws keeps the account. -/
lemma render (h : c.Accounts place plan) (m : c.RenderMove events c')
    (hplan : ∀ place, c.render ≠ .plan place) (hdraw : ∀ job, c.render ≠ .draw job) :
    c'.Accounts place plan := by
  simp only [Accounts] at h
  cases m with
  | plan at_ | planLost at_ => exact absurd at_ (hplan _)
  | draw at_ | drawBroken at_ | exhaust at_ => exact absurd at_ (hdraw _)
  | @publish job index at_ =>
    simp only [at_] at h
    obtain ⟨seen, indices, hturned, htells⟩ := h
    by_cases hone : job.rendered.length = 1
    · simp only [Accounts, if_pos hone]
      exact ⟨seen, _, hturned, htells.publish⟩
    · simp only [Accounts, if_neg hone]
      exact ⟨seen, _, hturned, htells.publish⟩
  | announce at_ =>
    simp only [at_] at h
    exact h
  | _ => trivial

end Accounts

/-- The account begins with a plan. -/
lemma RenderMove.accounts (m : c.RenderMove events c') (at_ : c.render = .plan place) :
    ∃ plan, c'.Accounts place plan := by
  cases m with
  | @plan place' at' plan rates images =>
    obtain rfl := RenderPhase.plan.inj (at_.symm.trans at')
    exact ⟨plan, [], [], .start images, .start⟩
  | planLost => exact ⟨.direct, trivial⟩
  | _ => simp_all

/-- A step of the render worker from within the loop stays in it, ends it or breaks it off. -/
lemma RenderMove.drawing (m : c.RenderMove events c') (h : c.render.drawing = true) :
    c'.render.drawing = true ∨ (∃ job, c'.render = .conclude job) ∨ c'.render.leaving = true := by
  cases m with
  | draw | announce => exact .inl rfl
  | exhaust => exact .inr (.inl ⟨_, rfl⟩)
  | drawBroken at_ lost => cases lost <;> exact .inr (.inr rfl)
  | publish =>
    dsimp only
    split <;> exact .inl rfl
  | _ => simp_all [RenderPhase.drawing]

/-- A production is closed exactly if its final image is known. -/
lemma RenderMove.complete_iff (m : c.RenderMove events c')
    (h : c.production.complete = true ↔ .main ∈ c.production.produced) :
    c'.production.complete = true ↔ .main ∈ c'.production.produced := by
  cases m with
  | plan => simp [Production.start, Production.new]
  | publish => exact Production.complete_publish_iff h
  | drawBroken _ lost => cases lost <;> exact h
  | _ => exact h

lemma Aside.complete_iff (haside : c.Aside c')
    (h : c.production.complete = true ↔ .main ∈ c.production.produced) :
    c'.production.complete = true ↔ .main ∈ c'.production.produced := by
  rw [haside.complete, haside.produced]
  exact h

lemma Move.complete_iff (move : c.Move events c')
    (h : c.production.complete = true ↔ .main ∈ c.production.produced) :
    c'.production.complete = true ↔ .main ∈ c'.production.produced := by
  cases move with
  | render m => exact m.complete_iff h
  | present m => exact m.aside.complete_iff h
  | producer m => exact m.aside.complete_iff h

lemma Reached.complete_iff (h : Reached n m log c) :
    c.production.complete = true ↔ .main ∈ c.production.produced := by
  induction h with
  | start => simp [Control.start, Production.new]
  | step _ move ih => exact move.complete_iff ih

end Control

namespace Pipeline

variable {p q : Pipeline} {log : History} {place n : Nat} {plan : FramePlan} {job : RenderJob}

/-- All images of a workload are drawn, and the worker is about to make its record. -/
structure Settled (p : Pipeline) (job : RenderJob) (indices : List Nat) : Prop where
  drawn : job.Drawn indices
  produced : p.shared.production.produced =
    (indices.filter (· < job.plan.size - 1)).map .intermediate ++ [.main]
  complete : p.shared.production.complete = true
  skipped : p.shared.production.skipped = true ↔ 0 < job.skipped
  record : p.renderStep.map (·.shared.stats.frames) =
    some (⟨(p.workloadAt job.place).id, job.rendered, 0 < job.skipped, job.plan.matched⟩ ::
      p.shared.stats.frames)

/-- Steps of the render worker from within its loop, `n` in number, with any steps of others in
between. -/
inductive Draws (p : Pipeline) : Nat → Pipeline → Prop where
  | start : Draws p 0 p
  | work {n : Nat} {q r : Pipeline} (before : Draws p n q) (at_ : q.render.drawing = true)
      (h : q.renderStep = some r) : Draws p (n + 1) r
  | others {n : Nat} {q r : Pipeline} (before : Draws p n q) (h : q.control.Aside r.control) :
      Draws p n r

/-- The image to be drawn next cannot be drawn. -/
def Fails (p : Pipeline) : Prop :=
  ∃ job index e, p.render = .draw job ∧
    subFrameAfter job.last job.plan.size p.workloads.blocked = some index ∧
    (p.shared.render ((p.workloadAt job.place).renderImage p.matcher
      (job.plan.subFrames.getD index .direct) (job.slot index))).1 = .error e

lemma frames_concludeWorkload : (p.concludeWorkload job).shared.stats.frames =
    ⟨(p.workloadAt job.place).id, job.rendered, 0 < job.skipped, job.plan.matched⟩ ::
      p.shared.stats.frames := by
  unfold concludeWorkload
  dsimp only
  split <;> rfl

/-- Drawing an image is a turn of the loop. -/
lemma accounts_drawImage (h : p.control.Accounts place plan) (at_ : p.render = .draw job) :
    (p.drawImage job).control.Accounts place plan := by
  have hphase : p.control.render = .draw job := at_
  simp only [Control.Accounts, hphase] at h
  obtain ⟨seen, indices, hturned, htells⟩ := h
  obtain ⟨-, rfl, -⟩ := hturned.of_plan
  unfold drawImage
  dsimp only
  split
  · rename_i himage
    exact ⟨seen, indices, hturned, subFrameAfter_eq_none_iff.mp himage, htells⟩
  · rename_i index himage
    obtain ⟨hnext, hindex⟩ := Control.of_subFrameAfter himage
    have hmain := hturned.main_notMem (Nat.lt_of_le_of_lt hnext hindex)
    split
    · rename_i shared hrender
      have hproduction : shared.production = p.shared.production :=
        congrArg Control.production (control_render hrender)
      refine ⟨_, indices, hturned.turn _ himage, ?_⟩
      change shared.production.Tells _ indices
      rw [hproduction]
      exact htells.advance hmain
    · rename_i e shared hrender
      cases e <;> trivial

lemma accounts_of_renderStep (h : p.control.Accounts place plan) (hstep : p.renderStep = some q)
    (hplan : ∀ place, p.render ≠ .plan place) : q.control.Accounts place plan := by
  by_cases hdraw : ∃ job, p.render = .draw job
  · obtain ⟨job, at_⟩ := hdraw
    obtain rfl : p.drawImage job = q := by simpa [renderStep, at_] using hstep
    exact accounts_drawImage h at_
  · push Not at hdraw
    exact h.render (renderMove_of_renderStep hstep) hplan hdraw

/-- At the end of its loop, the worker has drawn the images of its plan. -/
lemma settled_of_accounts (h : p.control.Accounts place plan) (at_ : p.render = .conclude job) :
    job.place = place ∧ job.plan = plan ∧ ∃ indices, p.Settled job indices := by
  have hphase : p.control.render = .conclude job := at_
  simp only [Control.Accounts, hphase] at h
  obtain ⟨seen, indices, hturned, hend, htells⟩ := h
  have hproduced := htells.produced.trans (hturned.map_slot hend)
  have hcomplete : p.shared.production.complete = true := by
    apply htells.complete.mpr
    rw [hproduced]
    exact List.mem_append_right _ List.mem_cons_self
  have hskipped : p.shared.production.skipped = decide (0 < job.skipped) := by
    have hskipped : p.shared.production.skipped = (p.shared.production.complete && _) :=
      htells.skipped
    rw [hskipped, hcomplete, Bool.true_and]
  obtain ⟨hplace, rfl, -⟩ := hturned.of_plan
  refine ⟨hplace, rfl, indices, hturned.drawn hend, hproduced, hcomplete, ?_, ?_⟩
  · rw [hskipped, decide_eq_true_iff]
  · simp only [renderStep, at_, Option.map_some, frames_concludeWorkload]

/-- In its loop the worker never waits, and breaks off only if an image fails. -/
lemma exists_renderStep (h : p.render.drawing = true) :
    ∃ q, p.renderStep = some q ∧ (q.render.leaving = true → p.Fails) := by
  cases hphase : p.render with
  | draw job =>
    refine ⟨p.drawImage job, by simp [renderStep, hphase], ?_⟩
    unfold drawImage
    dsimp only
    split
    · rintro ⟨⟩
    · rename_i index himage
      split
      · rintro ⟨⟩
      · rename_i e shared hrender
        exact fun _ => ⟨job, index, e, hphase, himage, congrArg Prod.fst hrender⟩
  | publish job index =>
    refine ⟨p.publishImage job index, by simp [renderStep, hphase], ?_⟩
    intro hleaving
    simp only [publishImage] at hleaving
    split at hleaving <;> cases hleaving
  | announce job =>
    refine ⟨p.announceWorkload job, by simp [renderStep, hphase], ?_⟩
    rintro ⟨⟩
  | _ => simp [hphase, RenderPhase.drawing] at h

lemma render_ne_plan_of_drawing (h : p.render.drawing = true) (place : Nat) :
    p.render ≠ .plan place := by
  intro at_
  simp [at_, RenderPhase.drawing] at h

namespace Draws

lemma accounts (h : p.Draws n q) (hp : p.control.Accounts place plan) :
    q.control.Accounts place plan := by
  induction h with
  | start => exact hp
  | work _ at_ hstep ih => exact accounts_of_renderStep ih hstep (render_ne_plan_of_drawing at_)
  | others _ haside ih => exact ih.aside haside

lemma complete_iff (h : p.Draws n q)
    (hp : p.shared.production.complete = true ↔ .main ∈ p.shared.production.produced) :
    q.shared.production.complete = true ↔ .main ∈ q.shared.production.produced := by
  induction h with
  | start => exact hp
  | work _ _ hstep ih => exact (renderMove_of_renderStep hstep).complete_iff ih
  | others _ haside ih => exact haside.complete_iff ih

lemma drawing (h : p.Draws n q) (hp : p.render.drawing = true) :
    q.render.drawing = true ∨ (∃ job, q.render = .conclude job) ∨ q.render.leaving = true := by
  induction h with
  | start => exact .inl hp
  | work _ at_ hstep => exact (renderMove_of_renderStep hstep).drawing at_
  | @others _ q r _ haside ih =>
    have hrender : r.render = q.render := haside.render
    rwa [hrender]

/-- Each step of the worker brings it nearer to its record, which is eight steps from where it plans
again. -/
lemma steps_le (h : p.Draws n q) :
    n + (q.render.stepsLeft - 8) ≤ p.render.stepsLeft - 8 := by
  induction h with
  | start => exact (Nat.zero_add _).le
  | @work n q r _ at_ hstep ih =>
    have hlt : r.render.stepsLeft < q.render.stepsLeft :=
      (renderMove_of_renderStep hstep).stepsLeft_lt (render_ne_plan_of_drawing at_)
    have hge : 9 ≤ q.render.stepsLeft := by
      cases hphase : q.render <;> simp [hphase, RenderPhase.drawing, RenderPhase.stepsLeft] at at_ ⊢
    omega
  | @others _ q r _ haside ih =>
    have hrender : r.render = q.render := haside.render
    rwa [hrender]

end Draws

/-- The steps of the others leave the loop of the render worker alone. -/
lemma Ran.aside (h : Ran log p) {a : Action} (hact : p.act a = some q) (ha : a ≠ .render) :
    p.control.Aside q.control := by
  by_cases hpresent : a = .present
  · subst hpresent
    exact (presentMove_of_presentStep hact).aside
  · obtain ⟨_, _, -, -, hreached⟩ := h.reached
    obtain ⟨_, hworkloads, -⟩ := hreached.ordered.workloads.counts
    obtain ⟨_, hpresents, -⟩ := hreached.ordered.presents.counts
    exact (producerMove_of_act hact ha hpresent hworkloads hpresents).aside

lemma Ran.accounts (h : Ran log p) : ∃ place plan, p.control.Accounts place plan := by
  obtain ⟨host, config, start, hstart, hrun⟩ := h
  induction hrun with
  | nil =>
    obtain ⟨-, swapChain, rfl⟩ := of_start hstart
    exact ⟨0, .direct, trivial⟩
  | @step _ p q before a hact ih =>
    obtain ⟨place, plan, hp⟩ := ih
    by_cases ha : a = .render
    · subst ha
      by_cases hplan : ∃ place, p.render = .plan place
      · obtain ⟨place, at_⟩ := hplan
        exact ⟨place, (renderMove_of_renderStep hact).accounts at_⟩
      · push Not at hplan
        exact ⟨place, plan, accounts_of_renderStep hp hact hplan⟩
    · have hran : Ran _ p := ⟨host, config, start, hstart, before⟩
      exact ⟨place, plan, hp.aside (hran.aside hact ha)⟩

/-- The images of a workload are accounted for. Whatever is seen of the producer, the loop over a
plan ends with the last image, with none left out but directly before it. So it does in the steps of
the worker, whatever others do in between: the loop comes to its end unless an image fails, and then
the record and the production agree with the images drawn. In a run others do nothing but that. -/
theorem images_accounted_for :
    (∀ (place : Nat) (plan : FramePlan) (blocked : Nat → Bool), 0 < plan.size →
      ∃ n indices, ∃ job : RenderJob, job.Turned place plan ((List.range n).map blocked) indices ∧
        job.plan = plan ∧ (∀ b, subFrameAfter job.last plan.size b = none) ∧ job.Drawn indices) ∧
    (∀ {p q : Pipeline} {place n id : Nat} {plan : FramePlan} {rates : Rates}, 0 < plan.size →
      p.render = .draw ⟨place, plan, none, [], 0⟩ →
      p.shared.production = .start id plan.size rates → p.Draws n q →
        n ≤ 3 * plan.size + 1 ∧
        (q.render.drawing = true → ∃ r, q.renderStep = some r ∧
          (r.render.leaving = true → q.Fails)) ∧
        (q.render.drawing = true ∨ (∃ job, q.render = .conclude job) ∨ q.render.leaving = true) ∧
        (q.shared.production.complete = true ↔ .main ∈ q.shared.production.produced) ∧
        ∀ job, q.render = .conclude job →
          job.place = place ∧ job.plan = plan ∧ ∃ indices, q.Settled job indices) ∧
    ∀ {log : History} {p : Pipeline}, Ran log p →
      (∀ {a : Action} {q : Pipeline}, p.act a = some q → a ≠ .render →
        p.control.Aside q.control) ∧
      (p.shared.production.complete = true ↔ .main ∈ p.shared.production.produced) ∧
      ∀ job, p.render = .conclude job → ∃ indices, p.Settled job indices := by
  refine ⟨?_, ?_, ?_⟩
  · intro place plan blocked images
    have hstart : RenderJob.Turned place plan [] [] ⟨place, plan, none, [], 0⟩ := .start images
    obtain ⟨n, indices, job, hturned, hend⟩ := hstart.exists_end (n := 0) blocked
    exact ⟨n, indices, job, hturned, hturned.of_plan.2.1,
      fun b => subFrameAfter_eq_none_iff.mpr hend, hturned.drawn hend⟩
  · intro p q place n id plan rates images at_ hproduction hdraws
    have hphase : p.control.render = .draw ⟨place, plan, none, [], 0⟩ := at_
    have htells : p.shared.production.Tells ⟨place, plan, none, [], 0⟩ [] := by
      rw [hproduction]
      exact .start
    have haccounts : p.control.Accounts place plan := by
      simp only [Control.Accounts, hphase]
      exact ⟨[], [], .start images, htells⟩
    refine ⟨?_, exists_renderStep, ?_, ?_, ?_⟩
    · have hsteps := hdraws.steps_le
      simp only [at_, RenderPhase.stepsLeft, RenderJob.next, Option.elim_none] at hsteps
      omega
    · exact hdraws.drawing (by rw [at_]; rfl)
    · exact hdraws.complete_iff htells.complete
    · intro job hconclude
      exact settled_of_accounts (hdraws.accounts haccounts) hconclude
  · intro log p hran
    obtain ⟨_, _, -, -, hreached⟩ := hran.reached
    refine ⟨hran.aside, hreached.complete_iff, ?_⟩
    intro job at_
    obtain ⟨place, plan, haccounts⟩ := hran.accounts
    exact (settled_of_accounts haccounts at_).2.2

/-- In a row of actions, the steps of the render worker are steps of its loop. -/
def within (p : Pipeline) : List Action → Bool
  | [] => true
  | a :: actions =>
    match p.act a with
    | some q =>
      (match a with
        | .render => p.render.drawing
        | _ => true) && q.within actions
    | none => p.within actions

/-- In a run, what happens within the loop makes steps of the worker and steps of others. -/
lemma Draws.follow (h : p.Draws n q) (hran : Ran log q) (actions : List Action)
    (hwithin : q.within actions = true) : ∃ n, p.Draws n (q.follow actions).2 := by
  induction actions generalizing q log n with
  | nil => exact ⟨n, h⟩
  | cons a actions ih =>
    cases hact : q.act a with
    | none =>
      simp only [within, Pipeline.follow, hact] at hwithin ⊢
      exact ih h hran hwithin
    | some r =>
      simp only [within, Pipeline.follow, hact, Bool.and_eq_true] at hwithin ⊢
      obtain ⟨hloop, hwithin⟩ := hwithin
      obtain ⟨host, config, start, hstart, hrun⟩ := id hran
      have hran' : Ran _ r := ⟨host, config, start, hstart, hrun.step a hact⟩
      by_cases ha : a = .render
      · subst ha
        exact ih (h.work hloop hact) hran' hwithin
      · exact ih (h.others (hran.aside hact ha)) hran' hwithin

/-- Eight images for each frame, and a ring of three workloads. -/
def fluent : Config :=
  { Config.default with
    refreshRate := .manual, refreshRateTarget := 240, workloadRingSize := 3 }

/-- The images of a second workload are planned. -/
def opening : List Action :=
  List.replicate 2 (.call (.submitWorkload ByteArray.empty 30)) ++ List.replicate 17 .render

/-- Three of them are drawn. Then the producer fills the ring and waits. -/
def crowd : List Action :=
  List.replicate 7 .render ++ List.replicate 3 (.call (.submitWorkload ByteArray.empty 30)) ++
    List.replicate 3 .render

/-- The plan of the second workload. -/
def eightImages : FramePlan :=
  match (sample fluent opening).2.render with
  | .draw job => job.plan
  | _ => .direct

/-- The number of images that are left out by a worker at the end of its loop. -/
def leftOut (p : Pipeline) : Option Nat :=
  match p.render with
  | .conclude job => some job.skipped
  | _ => none

theorem crowded_images_accounted_for :
    (∃ n indices, ∃ job : RenderJob,
      job.Turned 1 eightImages ((List.range n).map (· == 3)) indices ∧ job.Drawn indices) ∧
    (∃ n job indices, n ≤ 25 ∧ job.skipped = 4 ∧
      (sample fluent opening).2.Draws n ((sample fluent opening).2.follow crowd).2 ∧
      ((sample fluent opening).2.follow crowd).2.Settled job indices) ∧
    ∃ job indices, job.skipped = 4 ∧
      (sample fluent (opening ++ crowd)).2.Settled job indices := by
  obtain ⟨hloop, hdraws, hruns⟩ := images_accounted_for
  have himages : eightImages.size = 8 := by decide +kernel
  have hconcludes : ∀ {p : Pipeline}, p.leftOut = some 4 →
      ∃ job, p.render = .conclude job ∧ job.skipped = 4 := by
    intro p h
    unfold leftOut at h
    split at h
    · exact ⟨_, ‹_›, Option.some.inj h⟩
    · cases h
  refine ⟨?_, ?_, ?_⟩
  · obtain ⟨n, indices, job, hturned, -, -, hdrawn⟩ := hloop 1 eightImages (· == 3) (by omega)
    exact ⟨n, indices, job, hturned, hdrawn⟩
  · have hran : Ran (sample fluent opening).1 (sample fluent opening).2 :=
      ran_sample (by decide +kernel) opening
    obtain ⟨n, hn⟩ := Draws.start.follow hran crowd (by decide +kernel)
    have at_ : (sample fluent opening).2.render = .draw ⟨1, eightImages, none, [], 0⟩ := by
      decide +kernel
    have hproduction : (sample fluent opening).2.shared.production =
        .start 2 eightImages.size ⟨30, 240⟩ := by
      decide +kernel
    obtain ⟨hle, -, -, -, hsettled⟩ := hdraws (by omega) at_ hproduction hn
    obtain ⟨job, at_, hskipped⟩ := hconcludes (p := ((sample fluent opening).2.follow crowd).2)
      (by decide +kernel)
    obtain ⟨-, -, indices, hindices⟩ := hsettled job at_
    exact ⟨n, job, indices, by omega, hskipped, hn, hindices⟩
  · have hran : Ran (sample fluent (opening ++ crowd)).1 (sample fluent (opening ++ crowd)).2 :=
      ran_sample (by decide +kernel) (opening ++ crowd)
    obtain ⟨-, -, hsettled⟩ := hruns hran
    obtain ⟨job, at_, hskipped⟩ := hconcludes (p := (sample fluent (opening ++ crowd)).2)
      (by decide +kernel)
    obtain ⟨indices, hindices⟩ := hsettled job at_
    exact ⟨job, indices, hskipped, hindices⟩

end Pipeline

end Scanout
