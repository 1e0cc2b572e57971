import Scanout.Proofs.Pipeline.Run
import Scanout.Proofs.Ring
import Scanout.Proofs.Workload.Filling

/-!
# Slots that are used again

When the ring has come round, the slot of an old workload is filled again. Resetting it leaves the
stamps of the last submission and nothing else. Every step of filling commutes with a change of
these stamps, and the next submission overwrites them. So a frame that is filled in a used slot is
submitted as if the slot were new.
-/

namespace Scanout

/-- The place that a step answers for what it adds. -/
def FillStep.place? (w : Workload) : FillStep → Option Nat
  | .transform .. => some w.transforms.length
  | .projection .. => some w.projectionCount
  | .tile _ => some w.tiles.length
  | .draw _ => some w.draws.length
  | .colorImage .. | .depthImage _ | .reset => none

namespace Workload

variable {w other : Workload} {s : FillStep} {steps : List FillStep}

/-- The places that steps answer. -/
def places (w : Workload) : List FillStep → List (Option Nat)
  | [] => []
  | s :: steps => s.place? w :: (s.perform w).places steps

/-- The workload with the stamps of another one. -/
def stampedAs (w other : Workload) : Workload :=
  { w with
    id := other.id
    presentId := other.presentId
    submissionFrame := other.submissionFrame
    gameRate := other.gameRate }

lemma reset_eq (w : Workload) : w.reset = empty.stampedAs w := rfl

lemma modifyPair_stampedAs {f : Pair → Pair} :
    (w.stampedAs other).modifyPair f = (w.modifyPair f).stampedAs other := rfl

lemma addProjection_stampedAs {kind : ProjectionKind} {matrix : Matrix} :
    (w.stampedAs other).addProjection kind matrix =
      (w.addProjection kind matrix).stampedAs other := rfl

lemma openPair_stampedAs : (w.stampedAs other).openPair = w.openPair.stampedAs other := by
  have hpairs : (w.stampedAs other).pairs = w.pairs := rfl
  rw [openPair, openPair, hpairs]
  cases w.pairs.getLast? with
  | none => rfl
  | some p => cases hempty : p.isEmpty <;> simp only [hempty] <;> rfl

lemma withProjection_stampedAs :
    (w.stampedAs other).withProjection = w.withProjection.stampedAs other := by
  have hcurrent : (w.stampedAs other).currentProjection = w.currentProjection := rfl
  rw [withProjection, withProjection, hcurrent]
  cases w.currentProjection with
  | none => exact addProjection_stampedAs
  | some place => rfl

/-- A step does not look at the stamps, and leaves them. -/
lemma perform_stampedAs : s.perform (w.stampedAs other) = (s.perform w).stampedAs other := by
  have hpairs : (w.stampedAs other).pairs = w.pairs := rfl
  cases s with
  | colorImage address size width =>
    simp only [FillStep.perform, setColorImage, hpairs, openPair_stampedAs, modifyPair_stampedAs]
    split <;> rfl
  | depthImage address =>
    simp only [FillStep.perform, setDepthImage, hpairs, openPair_stampedAs, modifyPair_stampedAs]
    split <;> rfl
  | transform id matrix => rfl
  | projection kind matrix => exact addProjection_stampedAs
  | tile added => rfl
  | draw added =>
    simp only [FillStep.perform, addDraw, withProjection_stampedAs]
    rfl
  | reset => rfl

lemma place?_stampedAs : s.place? (w.stampedAs other) = s.place? w := by
  cases s <;> rfl

lemma fill_stampedAs : (w.stampedAs other).fill steps = (w.fill steps).stampedAs other := by
  induction steps generalizing w with
  | nil => rfl
  | cons s steps ih =>
    rw [fill, List.foldl_cons, perform_stampedAs]
    exact ih

lemma places_stampedAs : (w.stampedAs other).places steps = w.places steps := by
  induction steps generalizing w with
  | nil => rfl
  | cons s steps ih => rw [places, places, place?_stampedAs, perform_stampedAs, ih]

end Workload

namespace Pipeline

open Workload

variable {p q : Pipeline} {w other : Workload} {gameRate : Nat} {ram : ByteArray}

lemma modifyWorkload_modifyWorkload {f g : Workload → Workload} :
    (p.modifyWorkload f).modifyWorkload g = p.modifyWorkload (g ∘ f) := by
  simp only [modifyWorkload, Ring.modifyCurrent_modifyCurrent]

/-- Submitting overwrites the stamps. -/
lemma stampWorkload_stampedAs :
    (p.modifyWorkload fun _ => w.stampedAs other).stampWorkload gameRate =
      (p.modifyWorkload fun _ => w).stampWorkload gameRate := by
  rw [stampWorkload, stampWorkload, modifyWorkload_modifyWorkload, modifyWorkload_modifyWorkload]
  rfl

lemma submitWorkload_congr (hp : p.shared.running = true) (hq : q.shared.running = true)
    (h : p.stampWorkload gameRate = q.stampWorkload gameRate) :
    p.submitWorkload ram gameRate = q.submitWorkload ram gameRate := by
  simp only [submitWorkload, hp, hq, h, Bool.not_true, Bool.false_eq_true, if_false]

/-- The slot that the ring moves on to is reset, whatever it holds. -/
lemma currentWorkload_of_accepted {id n : Nat}
    (h : p.tryPublish (.workload id) = (.accepted n, q)) :
    q.currentWorkload =
      { p with workloads := p.workloads.advance.2 : Pipeline }.currentWorkload.reset := by
  rcases hadvance : p.workloads.advance with ⟨attempt, ring⟩
  cases attempt with
  | done place =>
    simp only [tryPublish, hadvance, Prod.mk.injEq] at h
    obtain ⟨-, rfl⟩ := h
    unfold acceptWorkload currentWorkload modifyWorkload
    rw [Ring.current?_modifyCurrent_of_advance hadvance]
    cases ring.current? <;> rfl
  | waiting =>
    simp only [tryPublish, hadvance, Prod.mk.injEq] at h
    exact absurd h.1 Reply.noConfusion
  | stopped =>
    simp only [tryPublish, hadvance, refuse, Prod.mk.injEq] at h
    exact absurd h.1 Reply.noConfusion

end Pipeline

/-- A slot that is used again is reset, and then each frame comes to the same as in a new slot. The
workload is the same up to the stamps, with the same places and the same topology; and submitting
it, which compares it with memory, comes to the same reply and the same pipeline. -/
theorem Workload.reused_slot_leaks_nothing (left : Workload) (steps : List FillStep) :
    left.reset.fill steps = (empty.fill steps).stampedAs left ∧
      left.reset.places steps = empty.places steps ∧
      (left.reset.fill steps).topology = (empty.fill steps).topology ∧
      ∀ p : Pipeline,
        (∀ id n q, p.tryPublish (.workload id) = (.accepted n, q) → q.currentWorkload =
          { p with workloads := p.workloads.advance.2 : Pipeline }.currentWorkload.reset) ∧
        ∀ gameRate,
          (p.modifyWorkload fun _ => left.reset.fill steps).stampWorkload gameRate =
            (p.modifyWorkload fun _ => empty.fill steps).stampWorkload gameRate ∧
          (p.shared.running = true → ∀ ram,
            (p.modifyWorkload fun _ => left.reset.fill steps).submitWorkload ram gameRate =
              (p.modifyWorkload fun _ => empty.fill steps).submitWorkload ram gameRate) := by
  have hfill : left.reset.fill steps = (empty.fill steps).stampedAs left := by
    rw [reset_eq, fill_stampedAs]
  refine ⟨hfill, ?_, ?_, fun p => ⟨?_, fun gameRate => ?_⟩⟩
  · rw [reset_eq, places_stampedAs]
  · rw [hfill]
    rfl
  · exact fun id n q => Pipeline.currentWorkload_of_accepted
  · have hstamp : (p.modifyWorkload fun _ => left.reset.fill steps).stampWorkload gameRate =
        (p.modifyWorkload fun _ => empty.fill steps).stampWorkload gameRate := by
      rw [hfill, Pipeline.stampWorkload_stampedAs]
    exact ⟨hstamp, fun hrunning ram => Pipeline.submitWorkload_congr hrunning hrunning hstamp⟩

namespace Workload

/-- A paused frame with a dot that was submitted. -/
def pausedDot : Workload :=
  { empty.fill [.colorImage 16 .bits8 1, .draw ⟨0, 3, none, ⟨0, 0, 1, 1⟩, .zero, false⟩] with
    id := 7, presentId := 3, submissionFrame := 3, gameRate := 30, paused := true }

/-- A pipeline that has the frame left in its slots. -/
def dotLeft : Pipeline := { Pipeline.fresh .default with workloads := .new 2 pausedDot }

/-- The next slot holds no dot any more, and a projection that is added there has the first
place. -/
theorem no_dot_in_next_slot :
    (∃ q, dotLeft.tryPublish (.workload 7) = (.accepted 7, q) ∧
      q.currentWorkload = pausedDot.reset) ∧
    pausedDot.reset.places [.projection .perspective .identity] = [some 0] ∧
    dotLeft.shared.running = true ∧ ∀ ram,
      (dotLeft.modifyWorkload fun _ => pausedDot.reset).submitWorkload ram 30 =
        (dotLeft.modifyWorkload fun _ => empty).submitWorkload ram 30 := by
  have hrunning : dotLeft.shared.running = true := by decide +kernel
  obtain ⟨-, hplaces, -, -⟩ := reused_slot_leaks_nothing pausedDot
    [.projection .perspective .identity]
  obtain ⟨-, -, -, hall⟩ := reused_slot_leaks_nothing pausedDot []
  obtain ⟨hreset, hsubmit⟩ := hall dotLeft
  refine ⟨⟨_, rfl, ?_⟩, ?_, hrunning, (hsubmit 30).2 hrunning⟩
  · rw [hreset 7 7 _ rfl]
    rfl
  · rw [hplaces]
    rfl

end Workload

end Scanout
