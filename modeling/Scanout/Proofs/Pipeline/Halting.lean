import Scanout.Proofs.Pipeline.Phases

/-!
# When everybody is told to stop

The pipeline runs until a worker meets an error or is lost, or it is shut down; after that it never
runs again. `Control.Halts` says how the flags of the signals and of the rings, and the phases in
which a worker has left, go together with that.
-/

namespace Scanout

namespace RenderPhase

/-- The worker is about to leave, or has left. -/
def leaving : RenderPhase → Bool
  | .leave | .stopped | .lost => true
  | _ => false

/-- The worker has left. -/
def gone : RenderPhase → Bool
  | .stopped | .lost => true
  | _ => false

end RenderPhase

namespace PresentPhase

/-- The worker is about to leave, or has left. -/
def leaving : PresentPhase → Bool
  | .leave | .stopped | .lost => true
  | _ => false

/-- The worker has left. -/
def gone : PresentPhase → Bool
  | .stopped | .lost => true
  | _ => false

end PresentPhase

namespace Control

/-- Who is told to stop. -/
structure Flags where
  running : Bool
  workloadSignal : Bool
  presentSignal : Bool
  workloads : Bool
  presents : Bool

def flags (c : Control) : Flags :=
  ⟨c.running, c.workloadSignal.stopped, c.presentSignal.stopped, c.workloads.running,
    c.presents.running⟩

/-- How the parties are told to stop. -/
structure Halts (c : Control) : Prop where
  workloadSignal : c.workloadSignal.stopped = !c.running
  presentSignal : c.presentSignal.stopped = !c.running
  workloads : c.running = true → c.workloads.running = true
  presents : c.running = true → c.presents.running = true
  renderLeaving : c.render.leaving = true → c.running = false
  presentLeaving : c.present.leaving = true → c.running = false
  renderGone : c.render.gone = true → c.workloads.running = false
  presentGone : c.present.gone = true → c.presents.running = false

variable {c c' : Control} {log events : History} {n m : Nat}

lemma publish_flags (item : Pending) : (c.publish item).2.flags = c.flags := by
  have hring : ∀ {α : Type} {r r' : Ring α} {attempt : Attempt Nat},
      r.advance = (attempt, r') → r'.running = r.running := by
    intro α r r' attempt h
    rcases Ring.advance_cases h with ⟨_, -, rfl⟩ | ⟨_, -, rfl⟩ <;> rfl
  cases item with
  | workload number =>
    rcases hadvance : c.workloads.advance with ⟨attempt, ring⟩
    simp only [publish, hadvance]
    cases attempt <;> simp [flags, hring hadvance, Ring.modifyCurrent]
  | present number =>
    rcases hadvance : c.presents.advance with ⟨attempt, ring⟩
    simp only [publish, hadvance]
    cases attempt <;> simp [flags, hring hadvance]

/-- The producer tells nobody to stop, and the host everybody. -/
lemma ProducerMove.flags (m : c.ProducerMove events c') :
    c'.flags = c.flags ∨ c'.flags = ⟨false, true, true, false, false⟩ := by
  cases m with
  | stay => exact .inl rfl
  | fill => exact .inl rfl
  | publish offers =>
    refine .inl ((publish_flags _).trans ?_)
    cases offers <;> rfl
  | shutdown => exact .inr rfl

/-- A pipeline that was stopped does not run again. -/
lemma Move.running (move : c.Move events c') (h : c'.running = true) : c.running = true := by
  cases move with
  | render m =>
    cases m with
    | drawBroken at_ lost => cases lost <;> cases h
    | planLost => cases h
    | finishLost => cases h
    | _ => exact h
  | present m =>
    cases m with
    | uploadBroken at_ lost => cases lost <;> cases h
    | composeBroken at_ lost => cases lost <;> cases h
    | finishLost => cases h
    | _ => exact h
  | producer m =>
    rcases m.flags with hflags | hflags
    · exact (congrArg Flags.running hflags).symm.trans h
    · cases h.symm.trans (congrArg Flags.running hflags)

namespace Halts

lemma start : (Control.start n m).Halts := by
  constructor <;> simp [Control.start, Signal.new, Ring.new, RenderPhase.leaving,
    RenderPhase.gone, PresentPhase.leaving, PresentPhase.gone]

/-- Once everybody was told to stop, it matters only whose ring was stopped. -/
lemma of_stopped (hworkload : c.workloadSignal.stopped = true)
    (hpresent : c.presentSignal.stopped = true) (hrunning : c.running = false)
    (hrenderGone : c.render.gone = true → c.workloads.running = false)
    (hpresentGone : c.present.gone = true → c.presents.running = false) : c.Halts := by
  constructor <;> simp_all

/-- A step tells nobody to stop. -/
lemma same (h : c.Halts) (hflags : c'.flags = c.flags)
    (hrender : c'.render.leaving = false ∨ c'.render = c.render)
    (hpresent : c'.present.leaving = false ∨ c'.present = c.present) : c'.Halts := by
  have hrenderGone : c'.render.leaving = false → c'.render.gone = false := by
    cases c'.render <;> simp [RenderPhase.leaving, RenderPhase.gone]
  have hpresentGone : c'.present.leaving = false → c'.present.gone = false := by
    cases c'.present <;> simp [PresentPhase.leaving, PresentPhase.gone]
  simp only [flags, Flags.mk.injEq] at hflags
  obtain ⟨hrunning, hworkload, hpresentSignal, hworkloads, hpresents⟩ := hflags
  constructor
  · rw [hworkload, hrunning, h.workloadSignal]
  · rw [hpresentSignal, hrunning, h.presentSignal]
  · rw [hrunning, hworkloads]
    exact h.workloads
  · rw [hrunning, hpresents]
    exact h.presents
  · rw [hrunning]
    rcases hrender with hrender | hrender
    · simp [hrender]
    · rw [hrender]
      exact h.renderLeaving
  · rw [hrunning]
    rcases hpresent with hpresent | hpresent
    · simp [hpresent]
    · rw [hpresent]
      exact h.presentLeaving
  · rw [hworkloads]
    rcases hrender with hrender | hrender
    · simp [hrenderGone hrender]
    · rw [hrender]
      exact h.renderGone
  · rw [hpresents]
    rcases hpresent with hpresent | hpresent
    · simp [hpresentGone hpresent]
    · rw [hpresent]
      exact h.presentGone

/-- A pipeline in which anything was stopped does not run. -/
lemma running_eq_false (h : c.Halts)
    (hstopped : c.workloads.running = false ∨ c.presents.running = false ∨
      c.workloadSignal.stopped = true ∨ c.presentSignal.stopped = true) : c.running = false := by
  by_contra hrunning
  have hrunning : c.running = true := by simpa using hrunning
  have hworkloads := h.workloads hrunning
  have hpresents := h.presents hrunning
  have hworkload := h.workloadSignal
  have hpresent := h.presentSignal
  simp_all

/-- The render worker is on its way out after it was told to stop. -/
lemma renderLeaves (h : c.Halts) (hrunning : c.running = false) :
    { c with render := .leave }.Halts := by
  refine of_stopped ?_ ?_ hrunning (by simp [RenderPhase.gone]) h.presentGone
  · rw [h.workloadSignal, hrunning, Bool.not_false]
  · rw [h.presentSignal, hrunning, Bool.not_false]

/-- The present worker is on its way out after it was told to stop. -/
lemma presentLeaves (h : c.Halts) (hrunning : c.running = false) :
    { c with present := .leave }.Halts := by
  refine of_stopped ?_ ?_ hrunning h.renderGone (by simp [PresentPhase.gone])
  · rw [h.workloadSignal, hrunning, Bool.not_false]
  · rw [h.presentSignal, hrunning, Bool.not_false]

lemma breakRender (h : c.Halts) (lost : Bool) : (c.breakRender lost).Halts := by
  cases lost with
  | true => exact of_stopped rfl rfl rfl (fun _ => rfl) h.presentGone
  | false => exact of_stopped rfl rfl rfl (fun hgone => by cases hgone) h.presentGone

lemma breakPresent (h : c.Halts) (lost : Bool) : (c.breakPresent lost).Halts := by
  cases lost with
  | true => exact of_stopped rfl rfl rfl h.renderGone (fun _ => rfl)
  | false => exact of_stopped rfl rfl rfl h.renderGone fun hgone => by cases hgone

lemma render (h : c.Halts) (m : c.RenderMove events c') : c'.Halts := by
  cases m with
  | close at_ stopped =>
    exact h.renderLeaves (h.running_eq_false (.inl (Ring.of_claim_eq_stopped stopped)))
  | giveUp at_ stopped =>
    exact h.renderLeaves (h.running_eq_false (.inr (.inr (.inr stopped))))
  | planLost => exact h.breakRender true
  | drawBroken at_ lost => exact h.breakRender lost
  | finish at_ done =>
    obtain ⟨-, rfl⟩ := Ring.of_finish done
    exact h.same rfl (.inl rfl) (.inr rfl)
  | finishLost => exact h.breakRender true
  | leave at_ =>
    have hrunning := h.renderLeaving (by rw [at_]; rfl)
    refine of_stopped ?_ ?_ hrunning (fun _ => rfl) h.presentGone
    · rw [h.workloadSignal, hrunning, Bool.not_false]
    · rw [h.presentSignal, hrunning, Bool.not_false]
  | publish at_ =>
    refine h.same rfl (.inl ?_) (.inr rfl)
    dsimp only
    split <;> rfl
  | _ => exact h.same rfl (.inl rfl) (.inr rfl)

lemma present (h : c.Halts) (m : c.PresentMove events c') : c'.Halts := by
  cases m with
  | close at_ stopped =>
    exact h.presentLeaves (h.running_eq_false (.inr (.inl (Ring.of_claim_eq_stopped stopped))))
  | giveUp at_ stopped =>
    exact h.presentLeaves (h.running_eq_false (.inr (.inr (.inl stopped))))
  | uploadBroken at_ lost => exact h.breakPresent lost
  | composeBroken at_ lost => exact h.breakPresent lost
  | finish at_ done =>
    obtain ⟨-, rfl⟩ := Ring.of_finish done
    exact h.same rfl (.inr rfl) (.inl rfl)
  | finishLost => exact h.breakPresent true
  | leave at_ =>
    have hrunning := h.presentLeaving (by rw [at_]; rfl)
    refine of_stopped ?_ ?_ hrunning h.renderGone (fun _ => rfl)
    · rw [h.workloadSignal, hrunning, Bool.not_false]
    · rw [h.presentSignal, hrunning, Bool.not_false]
  | _ => exact h.same rfl (.inr rfl) (.inl rfl)

lemma move (h : c.Halts) (m : c.Move events c') : c'.Halts := by
  cases m with
  | render m => exact h.render m
  | present m => exact h.present m
  | producer m =>
    have hframe := m.frame
    rcases m.flags with hflags | hflags
    · exact h.same hflags (.inr hframe.render) (.inr hframe.present)
    · simp only [flags, Flags.mk.injEq] at hflags
      exact of_stopped hflags.2.1 hflags.2.2.1 hflags.1 (fun _ => hflags.2.2.2.1)
        (fun _ => hflags.2.2.2.2)

end Halts

lemma Reached.halts (h : Reached n m log c) : c.Halts := by
  induction h with
  | start => exact .start
  | step _ move ih => exact ih.move move

end Control

end Scanout
