import Scanout.Proofs.Pipeline.Copying
import Scanout.Proofs.Target.Marks

/-!
# Two memories of one write

The producer's table knows how each image was last drawn, and the render targets are marked with how
they were last written. At rest the two agree on an image unless depths were drawn to it last and it
has been marked since without being drawn to: by draws that were clipped away, or by an upload.
-/

namespace Scanout

/-- How many workloads are in hand of which an image was drawn. -/
def RenderPhase.begun : RenderPhase → Nat
  | .draw job => if job.last.isSome then 1 else 0
  | .publish .. | .announce _ | .conclude _ | .finish .. => 1
  | _ => 0

namespace Control

variable {c c' : Control} {log events : History} {n : Nat}

/-- A workload is begun when an image is drawn, and no longer when it is consumed. -/
lemma RenderMove.begun (m : c.RenderMove events c') (h : c.RenderFacts n)
    (hrunning : c'.running = true) :
    (∃ job index, c.render = .draw job ∧
      subFrameAfter job.last job.plan.size c.workloads.blocked = some index ∧
        events.workloadsConsumed = 0 ∧ c'.render.begun = 1) ∨
    (∀ job, c.render = .draw job →
      subFrameAfter job.last job.plan.size c.workloads.blocked = none) ∧
        events.workloadsConsumed + c'.render.begun = c.render.begun := by
  simp only [RenderFacts] at h
  cases m with
  | draw at_ s image => exact .inl ⟨_, _, at_, image, rfl, rfl⟩
  | drawBroken at_ lost => cases lost <;> cases hrunning
  | planLost => cases hrunning
  | @exhaust job at_ image =>
    simp only [at_] at h
    have hnext := of_subFrameAfter_eq_none image
    refine .inr ⟨fun job' hjob => ?_, ?_⟩
    · cases at_.symm.trans hjob
      exact image
    · cases hlast : job.last with
      | none =>
        rw [hlast] at hnext
        exact absurd h.2.2.1 (Nat.not_lt.mpr hnext)
      | some index =>
        rw [at_]
        simp [RenderPhase.begun, hlast]
  | @publish job index at_ =>
    simp only [at_] at h
    refine .inr ⟨fun job' hjob => (by cases at_.symm.trans hjob), ?_⟩
    have hevents : History.workloadsConsumed
        [.produced (c.workloadAt job.place).id (job.slot index)] = 0 := rfl
    rw [at_, hevents]
    dsimp only
    split <;> simp [RenderPhase.begun, h.2.2.2.2.1]
  | @announce job at_ =>
    simp only [at_] at h
    refine .inr ⟨fun job' hjob => (by cases at_.symm.trans hjob), ?_⟩
    rw [at_]
    simp [RenderPhase.begun, Option.isSome_iff_ne_none.mpr h.2.2.2.2.1]
  | _ at_ =>
    refine .inr ⟨fun job' hjob => (by cases at_.symm.trans hjob), ?_⟩
    rw [at_]
    rfl

/-- What is begun was submitted. -/
lemma WorkloadsOrdered.begun_le (h : c.WorkloadsOrdered log) :
    log.workloadsConsumed + c.render.begun ≤ log.submitted.length := by
  obtain ⟨released, hcounts, -⟩ := h.counts
  have hconsumed := hcounts.consumed_le
  have hclaimed := h.claimed
  cases hphase : c.render with
  | draw job =>
    have hlt := (hclaimed job.place (by rw [hphase]; rfl)).1
    simp only [RenderPhase.begun]
    split <;> omega
  | publish job | announce job | conclude job =>
    exact (hclaimed job.place (by rw [hphase]; rfl)).1
  | finish place paused => exact (hclaimed place (by rw [hphase]; rfl)).1
  | _ => exact hconsumed

end Control

namespace Present

variable {q : Present} {allowed : Action → Prop}

lemma PreparedBy.color_of_marks (h : q.PreparedBy allowed) : ∀ m ∈ q.marks, m.2.1 = .color := by
  intro m hm
  obtain ⟨op, hop, hmark⟩ := List.mem_filterMap.mp hm
  obtain ⟨change, -, rfl⟩ := h.uploads op hop
  cases hmark
  rfl

end Present

namespace Pipeline

/-- The marks that an action leaves. -/
def marksOf (p : Pipeline) : Action → List Mark
  | .render =>
    match p.render with
    | .draw job =>
      if (subFrameAfter job.last job.plan.size p.workloads.blocked).isSome then
        (p.workloadAt job.place).marks
      else []
    | _ => []
  | .present =>
    match p.present with
    | .upload job => job.present.marks
    | _ => []
  | _ => []

/-- The marks that are left by those actions in a row that are possible. -/
def marked (p : Pipeline) : List Action → List Mark
  | [] => []
  | a :: actions =>
    match p.act a with
    | some q => p.marksOf a ++ q.marked actions
    | none => p.marked actions

/-- Everything that was published is consumed, and nothing waits to be published. -/
structure AtRest (log : History) (p : Pipeline) : Prop where
  running : p.shared.running = true
  idle : p.producer.pending = none
  workloads : log.workloadsConsumed = log.submitted.length
  presents : log.presentsConsumed = log.requested.length

/-- The marks left so far are those of the render targets, and where something was drawn, they tell
the same as the writes of the workloads begun. -/
structure Marked (log : History) (marks : List Mark) (p : Pipeline) : Prop where
  ways : ∀ address, p.shared.renderer.writtenAs.lookup address = lastWriteTo? marks address
  drawn : ∀ address, lastWriteTo? (marks.filter Mark.isDrawn) address =
    lastWriteTo? ((log.submitted.take (log.workloadsConsumed + p.render.begun)).flatMap
      Workload.writes) address
  strays : ∀ m ∈ marks, m.isDrawn = false → m.2.1 = .color

variable {p q : Pipeline} {log : History} {marks : List Mark} {allowed : Action → Prop}

lemma marksOf_of_quiet {a : Action} (h : p.Quiet a) : p.marksOf a = [] := by
  cases a with
  | render =>
    cases hphase : p.render with
    | draw job => simp [marksOf, hphase, h job hphase]
    | _ => simp [marksOf, hphase]
  | present =>
    cases hphase : p.present with
    | upload job => simp [marksOf, hphase, Present.marks, h job hphase]
    | _ => simp [marksOf, hphase]
  | _ => rfl

/-- As long as the pipeline runs, an action leaves its marks. -/
lemma lookup_of_act {a : Action} {address : Nat} (hact : p.act a = some q)
    (hrunning : q.shared.running = true) :
    q.shared.renderer.writtenAs.lookup address =
      (lastWriteTo? (p.marksOf a) address).or (p.shared.renderer.writtenAs.lookup address) := by
  cases rendered_of_act hact with
  | same quiet renderer =>
    rw [marksOf_of_quiet quiet, renderer]
    rfl
  | memory renderer =>
    rw [renderer]
    rfl
  | configured at_ renderer =>
    have hmarks : p.marksOf .render = [] := by simp [marksOf, at_]
    rw [hmarks, renderer, Renderer.setConfig]
    split <;> rfl
  | @image job index at_ next renderer succeeds =>
    have hmarks : p.marksOf .render = (p.workloadAt job.place).marks := by
      simp [marksOf, at_, next]
    rw [hmarks, renderer]
    exact Workload.leaves_renderImage _ _ (Rendering.eq_ok_of_succeeds (succeeds hrunning)) address
  | @uploads job at_ renderer succeeds =>
    have hmarks : p.marksOf .present = job.present.marks := by simp [marksOf, at_]
    rw [hmarks, renderer]
    exact Rendering.leaves_upload _ _ (Rendering.eq_ok_of_succeeds (succeeds hrunning)) address
  | @scratch job slot command at_ fills renderer =>
    have hmarks : p.marksOf .present = [] := by simp [marksOf, at_]
    rw [hmarks, renderer, Rendering.markless_throughScratch _ rfl]
    rfl

namespace Marked

/-- What does not concern the render worker's progress leaves what was drawn. -/
lemma drawn_of_idle {events : History} {marks' : List Mark} (h : p.Marked log marks)
    (hordered : p.control.Ordered log) (hrender : q.render = p.render)
    (hconsumed : events.workloadsConsumed = 0) (hmarks : marks'.filter Mark.isDrawn = [])
    (address : Nat) :
    lastWriteTo? ((marks ++ marks').filter Mark.isDrawn) address =
      lastWriteTo? (((log ++ events).submitted.take
        ((log ++ events).workloadsConsumed + q.render.begun)).flatMap Workload.writes) address := by
  have hle : log.workloadsConsumed + p.render.begun ≤ log.submitted.length :=
    hordered.workloads.begun_le
  rw [List.filter_append, hmarks, List.append_nil, History.submitted_append,
    History.workloadsConsumed_append, hconsumed, hrender, Nat.add_zero,
    List.take_append_of_le_length hle]
  exact h.drawn address

/-- A step of the render worker draws the workload in hand, or goes on without drawing. -/
lemma drawn_of_render {size size' : Nat} (h : p.Marked log marks)
    (hsupplied : p.Supplied allowed log) (hreached : Control.Reached size size' log p.control)
    (hact : p.act .render = some q) (hrunning : q.shared.running = true) (address : Nat) :
    lastWriteTo? ((marks ++ p.marksOf .render).filter Mark.isDrawn) address =
      lastWriteTo? (((log ++ p.events .render q).submitted.take
        ((log ++ p.events .render q).workloadsConsumed + q.render.begun)).flatMap
          Workload.writes) address := by
  have hmove := renderMove_of_renderStep hact
  rw [events_render hact, History.submitted_append, hmove.frame.submitted, List.append_nil,
    History.workloadsConsumed_append]
  rcases hmove.begun hreached.renderFacts hrunning with
    ⟨job, index, at_, next, hconsumed, hbegun⟩ | ⟨hquiet, hsum⟩
  · have hmarks : p.marksOf .render = (p.workloadAt job.place).marks := by
      have at_ : p.render = .draw job := at_
      have next : subFrameAfter job.last job.plan.size p.workloads.blocked = some index := next
      simp [marksOf, at_, next]
    have hworkload : log.submitted[log.workloadsConsumed]? = some (p.workloadAt job.place) :=
      hreached.ordered.workloads.workloadAt job.place (by rw [at_]; rfl)
    have hsynced := hsupplied.submitted _ (List.mem_of_getElem? hworkload)
    have hbegun' : q.render.begun = 1 := hbegun
    rw [hmarks, List.filter_append, hsynced.filter_marks, lastWriteTo?_append, h.drawn, hconsumed,
      hbegun', Nat.add_zero, List.take_add_one, hworkload, Option.toList_some, List.flatMap_append,
      List.flatMap_singleton, lastWriteTo?_append]
    have hphase : p.render.begun = if job.last.isSome then 1 else 0 :=
      congrArg RenderPhase.begun at_
    rw [hphase]
    split
    · -- an image of the workload was drawn before
      rw [List.take_add_one, hworkload, Option.toList_some, List.flatMap_append,
        List.flatMap_singleton, lastWriteTo?_append, ← Option.or_assoc, Option.or_self]
    · rfl
  · have hsum' : History.workloadsConsumed p.renderEvents + q.render.begun = p.render.begun := hsum
    rw [marksOf_of_quiet (a := .render) hquiet, List.append_nil, h.drawn, Nat.add_assoc, hsum']

/-- Only colors are marked where an action draws nothing. -/
lemma color_of_marksOf (hsupplied : p.Supplied allowed log)
    (hordered : p.control.Ordered log) {a : Action} :
    ∀ m ∈ p.marksOf a, m.isDrawn = false → m.2.1 = .color := by
  intro m hm hclipped
  cases a with
  | render =>
    cases hphase : p.render with
    | draw job =>
      simp only [marksOf, hphase] at hm
      split at hm
      · exact Workload.color_of_marks m hm hclipped
      · cases hm
    | _ => simp [marksOf, hphase] at hm
  | present =>
    cases hphase : p.present with
    | upload job =>
      simp only [marksOf, hphase] at hm
      have hrequested := hordered.presents.inHand job.present
        (by rw [show p.control.present = .upload job from hphase]; rfl)
      exact (hsupplied.requested _ (List.mem_of_getElem? hrequested)).color_of_marks m hm
    | _ => simp [marksOf, hphase] at hm
  | _ => cases hm

lemma act {a : Action} {size size' : Nat} (h : p.Marked log marks)
    (hsupplied : p.Supplied allowed log) (hreached : Control.Reached size size' log p.control)
    (hact : p.act a = some q) (hrunning : q.shared.running = true) :
    q.Marked (log ++ p.events a q) (marks ++ p.marksOf a) where
  ways address := by rw [lookup_of_act hact hrunning, lastWriteTo?_append, h.ways]
  strays m hm :=
    (List.mem_append.mp hm).elim (h.strays m) (color_of_marksOf hsupplied hreached.ordered m)
  drawn address := by
    obtain ⟨_, hw, -⟩ := hreached.ordered.workloads.counts
    obtain ⟨_, hp, -⟩ := hreached.ordered.presents.counts
    cases a with
    | render => exact h.drawn_of_render hsupplied hreached hact hrunning address
    | present =>
      have hframe := (presentMove_of_presentStep hact).frame
      rw [events_present hact]
      refine h.drawn_of_idle hreached.ordered hframe.render hframe.workloadsConsumed ?_ address
      rw [List.filter_eq_nil_iff]
      intro m hm
      cases hphase : p.present with
      | upload job =>
        rw [marksOf, hphase] at hm
        simp [Present.not_isDrawn m hm]
      | _ => simp [marksOf, hphase] at hm
    | _ =>
      have hframe := (producerMove_of_act hact (by simp) (by simp) hw hp).frame
      refine h.drawn_of_idle hreached.ordered hframe.render ?_ rfl address
      refine List.count_eq_zero.mpr fun hmem => ?_
      cases hframe.party _ hmem

/-- Nothing was marked at the start. -/
lemma start {host : Host} {config : Config} (h : Pipeline.start host config = .ok p) :
    p.Marked [] [] := by
  obtain ⟨-, swapChain, rfl⟩ := of_start h
  exact ⟨fun _ => rfl, fun _ => rfl, by simp⟩

end Marked

lemma marked_concat (p : Pipeline) (actions : List Action) (a : Action) :
    p.marked (actions ++ [a]) =
      match (p.follow actions).2.act a with
      | some _ => p.marked actions ++ (p.follow actions).2.marksOf a
      | none => p.marked actions := by
  induction actions generalizing p with
  | nil => cases hact : p.act a <;> simp [marked, follow, hact]
  | cons b actions ih =>
    simp only [List.cons_append, marked, follow]
    cases p.act b with
    | none => exact ih p
    | some q =>
      simp only [ih q]
      cases (q.follow actions).2.act a with
      | none => rfl
      | some r => simp only [List.append_assoc]

/-- As long as the pipeline runs, the render targets are marked by what was drawn and uploaded. -/
lemma marked_follow {host : Host} {config : Config} {start : Pipeline} {actions : List Action}
    (hstart : Pipeline.start host config = .ok start) (hbuilds : ∀ a ∈ actions, a.Builds)
    (hrunning : (start.follow actions).2.shared.running = true) :
    (start.follow actions).2.Marked (start.follow actions).1 (start.marked actions) := by
  induction actions using List.reverseRecOn with
  | nil => exact .start hstart
  | append_singleton actions a ih =>
    obtain ⟨hbuilds, -⟩ := List.forall_mem_append.mp hbuilds
    have hsupplied : (start.follow actions).2.Supplied (fun _ => True) (start.follow actions).1 :=
      supplied_follow hstart hbuilds fun _ _ => trivial
    have hran := ran_follow hstart actions
    obtain ⟨_, _, -, -, hreached⟩ := hran.reached
    rw [follow_concat] at hrunning ⊢
    rw [marked_concat]
    cases hact : (start.follow actions).2.act a with
    | none =>
      simp only [hact] at hrunning
      exact ih hbuilds hrunning
    | some q =>
      simp only [hact] at hrunning
      exact (ih hbuilds (hran.running hact hrunning)).act hsupplied hreached hact hrunning

/-- At rest, an image that was drawn to is marked with the way in which it was last drawn exactly if
that is as colors, or the last mark of the image is one for which something was drawn to it. -/
theorem ways_agree_iff {host : Host} {config : Config} {start : Pipeline} {actions : List Action}
    (hstart : Pipeline.start host config = .ok start) (hbuilds : ∀ a ∈ actions, a.Builds)
    (hrest : (start.follow actions).2.AtRest (start.follow actions).1) {address : Nat}
    {type : WriteType}
    (hwritten : (start.follow actions).2.producer.table.lastWrite? address = some type) :
    (start.rendererAfter actions).writtenAs.lookup address = some type ↔
      type = .color ∨
        ∃ m, lastMark? (start.marked actions) address = some m ∧ m.isDrawn = true := by
  have hmarked := marked_follow hstart hbuilds hrest.running
  have hsupplied : (start.follow actions).2.Supplied (fun _ => True) (start.follow actions).1 :=
    supplied_follow hstart hbuilds fun _ _ => trivial
  obtain ⟨_, _, -, -, hreached⟩ := (ran_follow hstart actions).reached
  rw [rendererAfter, hmarked.ways]
  refine lastWriteTo?_eq_iff hmarked.strays ?_
  rw [hmarked.drawn]
  -- everything that was submitted is drawn
  have hle := hreached.ordered.workloads.begun_le
  have hnone : (start.follow actions).2.render.begun = 0 := by
    have hworkloads := hrest.workloads
    change _ + (start.follow actions).2.render.begun ≤ _ at hle
    omega
  rw [hnone, Nat.add_zero, hrest.workloads, List.take_length]
  obtain ⟨k, -, hknown⟩ := hsupplied.known hrest.running
  rw [hknown, waiting_of_idle hrest.idle, List.append_nil] at hwritten
  rw [← List.take_append_drop k (start.follow actions).1.submitted, List.flatMap_append,
    lastWriteTo?_append, hwritten]
  rfl

/-- A frame is filled, submitted, drawn and released. -/
def rendered (fill : Workload → Workload) : List Action := drawn fill ++ List.replicate 6 .render

lemma builds_rendered {fill : Workload → Workload}
    (h : ∀ w : Workload, w.Built → (fill w).Built) : ∀ a ∈ rendered fill, a.Builds :=
  List.forall_mem_append.mpr ⟨builds_drawn h, fun a ha => by
    rw [List.eq_of_mem_replicate ha]
    trivial⟩

/-- The image of the depths is marked as depths after colors were drawn next to it. -/
theorem depths_stay_marked :
    ((fresh .default).follow (rendered (drawOver 0 none))).2.producer.table.lastWrite? 16 =
        some .depth ∧
      ((fresh .default).rendererAfter (rendered (drawOver 0 none))).writtenAs.lookup 16 =
        some .depth := by
  have hbuilds : ∀ a ∈ rendered (drawOver 0 none), a.Builds :=
    builds_rendered fun _ => built_drawOver
  have hrest : ((fresh .default).follow (rendered (drawOver 0 none))).2.AtRest
      ((fresh .default).follow (rendered (drawOver 0 none))).1 :=
    ⟨by decide +kernel, by decide +kernel, by decide +kernel, by decide +kernel⟩
  have hdepth : ((fresh .default).follow (rendered (drawOver 0 none))).2.producer.table.lastWrite?
      16 = some .depth := by decide +kernel
  have hmark : lastMark? ((fresh .default).marked (rendered (drawOver 0 none))) 16 =
      some (16, .depth, ⟨0, 0, 1, 1⟩) := by decide +kernel
  refine ⟨hdepth, (ways_agree_iff (start_fresh (by decide +kernel)) hbuilds hrest hdepth).mpr ?_⟩
  exact .inr ⟨_, hmark, by decide⟩

/-- Draw depths, then draw colors over them that are clipped away. -/
def drawClipped (w : Workload) : Workload :=
  let w := ((w.setColorImage 32 .bits16 1).setDepthImage 16).addDraw
    ⟨0, 3, none, ⟨0, 0, 1, 1⟩, .zero, true⟩
  (w.setColorImage 16 .bits16 1).addDraw ⟨0, 3, none, Rect.none, .zero, false⟩

lemma built_drawClipped {w : Workload} (h : w.Built) : (drawClipped w).Built :=
  .addDraw (.setColorImage (.addDraw (.setDepthImage (.setColorImage h _ _ _) _) _) _ _ _) _

/-- Draws that were clipped away mark the image of the depths as colors. -/
theorem clipped_colors_marked :
    (∀ a ∈ rendered drawClipped, a.Builds) ∧
      ((fresh .default).follow (rendered drawClipped)).2.AtRest
        ((fresh .default).follow (rendered drawClipped)).1 ∧
      ((fresh .default).follow (rendered drawClipped)).2.producer.table.lastWrite? 16 =
        some .depth ∧
      ((fresh .default).rendererAfter (rendered drawClipped)).writtenAs.lookup 16 =
        some .color := by
  refine ⟨builds_rendered fun _ => built_drawClipped, ?_, by decide +kernel, by decide +kernel⟩
  exact ⟨by decide +kernel, by decide +kernel, by decide +kernel, by decide +kernel⟩

end Pipeline

end Scanout
