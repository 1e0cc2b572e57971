import Mathlib.Data.List.Induction
import Scanout.Proofs.Workload.Synced

/-!
# Filling workloads

A workload is filled step by step. A ledger keeps what the steps so far amount to: the images in
force, and the draws added, each with the images in force at the time. A workload follows the ledger
of its steps: its pairs hold these draws in this order, and whatever a draw refers to is there.
-/

namespace Scanout

/-- What can be done to a workload that is being filled. -/
inductive FillStep where
  | colorImage (address : Nat) (size : PixelSize) (width : Nat)
  | depthImage (address : Nat)
  | transform (id : Nat) (matrix : Matrix)
  | projection (kind : ProjectionKind) (matrix : Matrix)
  | tile (added : Tile)
  | draw (added : Draw)
  | reset
  deriving DecidableEq

namespace FillStep

def perform (w : Workload) : FillStep → Workload
  | .colorImage address size width => w.setColorImage address size width
  | .depthImage address => w.setDepthImage address
  | .transform id matrix => w.addTransform id matrix
  | .projection kind matrix => w.addProjection kind matrix
  | .tile added => w.addTile added
  | .draw added => w.addDraw added
  | .reset => w.reset

end FillStep

/-- A draw with the images that were in force when it was added. -/
structure LedgerDraw where
  draw : Draw
  colorImage : Option ColorImage
  depthImage : Option Nat
  deriving DecidableEq

/-- What the steps since the last reset amount to. -/
structure Ledger where
  /-- the color image set last, if any -/
  colorImage : Option ColorImage
  /-- the depth image set last, if any -/
  depthImage : Option Nat
  draws : List LedgerDraw
  deriving DecidableEq

namespace Ledger

def empty : Ledger := ⟨none, none, []⟩

def enter (l : Ledger) : FillStep → Ledger
  | .colorImage address size width =>
    { l with colorImage := some ⟨Workload.imageAddress address, size, width⟩ }
  | .depthImage address => { l with depthImage := some (Workload.imageAddress address) }
  | .draw added => { l with draws := l.draws ++ [⟨added, l.colorImage, l.depthImage⟩] }
  | .reset => empty
  | .transform .. | .projection .. | .tile .. => l

def ofSteps (steps : List FillStep) : Ledger := steps.foldl enter empty

@[simp] lemma ofSteps_concat {steps : List FillStep} {s : FillStep} :
    ofSteps (steps ++ [s]) = (ofSteps steps).enter s := by
  simp [ofSteps]

end Ledger

/-- For each draw of a pair the images that it is drawn to. -/
def Pair.drawnTo (p : Pair) : List (Option ColorImage × Option Nat) :=
  p.calls.map fun _ => (p.colorImage, p.depthImage)

/-- The draws of a pair refer to projections of the pair. -/
def Pair.Projected (p : Pair) : Prop := ∀ c ∈ p.calls, c.projection < p.projections.length

namespace Workload

variable {w w' : Workload} {p : Pair} {f : Pair → Pair} {l : Ledger} {steps : List FillStep}

def fill (w : Workload) (steps : List FillStep) : Workload := steps.foldl FillStep.perform w

@[simp] lemma fill_concat {s : FillStep} : w.fill (steps ++ [s]) = s.perform (w.fill steps) := by
  simp [fill]

/-- The pairs that no draw is added to any more. -/
def closedPairs (w : Workload) : List Pair := w.pairs.dropLast

/-- The pair that draws are added to. -/
def lastPair (w : Workload) : Pair := w.pairs.getLast?.getD .empty

lemma pairs_eq_nil_or (w : Workload) :
    w.pairs = [] ∧ w.closedPairs = [] ∧ w.lastPair = .empty ∨
      w.pairs = w.closedPairs ++ [w.lastPair] := by
  rcases w.pairs.eq_nil_or_concat with hnil | ⟨closed, last, hconcat⟩
  · exact .inl ⟨hnil, by simp [closedPairs, hnil], by simp [lastPair, hnil]⟩
  · exact .inr (by simp [closedPairs, lastPair, hconcat])

/-- What is read off pair by pair, if there is nothing to be read off a pair without draws. -/
lemma flatMap_pairs {β : Type} {g : Pair → List β} (hg : g .empty = []) :
    w.pairs.flatMap g = w.closedPairs.flatMap g ++ g w.lastPair := by
  rcases w.pairs_eq_nil_or with ⟨hpairs, hclosed, hlast⟩ | hpairs
  · simp [hpairs, hclosed, hlast, hg]
  · simp [hpairs]

lemma forall_mem_pairs {P : Pair → Prop} (hclosed : ∀ p ∈ w.closedPairs, P p)
    (hlast : P w.lastPair) : ∀ p ∈ w.pairs, P p := by
  rcases w.pairs_eq_nil_or with ⟨hpairs, -, -⟩ | hpairs
  · simp [hpairs]
  · rw [hpairs]
    simpa [or_imp, forall_and] using ⟨hclosed, hlast⟩

@[simp] lemma closedPairs_modifyPair : (w.modifyPair f).closedPairs = w.closedPairs := by
  simp [closedPairs, modifyPair, updateLast]

@[simp] lemma lastPair_modifyPair : (w.modifyPair f).lastPair = f w.lastPair := by
  simp [lastPair, modifyPair, updateLast]

@[simp] lemma draws_modifyPair : (w.modifyPair f).draws = w.draws := rfl

@[simp] lemma currentProjection_modifyPair :
    (w.modifyPair f).currentProjection = w.currentProjection := rfl

@[simp] lemma closedPairs_addProjection {kind : ProjectionKind} {matrix : Matrix} :
    (w.addProjection kind matrix).closedPairs = w.closedPairs := by
  simp [closedPairs, addProjection, modifyPair, updateLast]

@[simp] lemma lastPair_addProjection {kind : ProjectionKind} {matrix : Matrix} :
    (w.addProjection kind matrix).lastPair =
      { w.lastPair with projections := w.lastPair.projections ++ [⟨kind, matrix⟩] } := by
  simp [lastPair, addProjection, modifyPair, updateLast]

@[simp] lemma closedPairs_addDraw {added : Draw} :
    (w.addDraw added).closedPairs = w.withProjection.closedPairs := by
  simp [closedPairs, addDraw, modifyPair, updateLast]

/-- The call that a draw is added as. -/
def nextCall (w : Workload) : Call := ⟨w.currentProjection.getD 0, w.draws.length⟩

lemma lastPair_addDraw (w : Workload) (added : Draw) :
    ∃ colorRect depthRect, (w.addDraw added).lastPair = { w.withProjection.lastPair with
      calls := w.withProjection.lastPair.calls ++ [w.withProjection.nextCall]
      colorRect, depthRect } := by
  refine ⟨w.withProjection.lastPair.colorRect.merge added.scissor, if added.writesDepth then
    w.withProjection.lastPair.depthRect.merge added.scissor
    else w.withProjection.lastPair.depthRect, ?_⟩
  simp only [lastPair, addDraw, modifyPair, updateLast, List.getLast?_concat, Option.getD_some]
  rfl

@[simp] lemma draws_addDraw {added : Draw} :
    (w.addDraw added).draws = w.withProjection.draws ++ [added] := rfl

lemma colorImage_lastPair : w.lastPair.colorImage = w.pairs.getLast?.bind Pair.colorImage := by
  rw [lastPair]
  cases w.pairs.getLast? <;> rfl

lemma depthImage_lastPair : w.lastPair.depthImage = w.pairs.getLast?.bind Pair.depthImage := by
  rw [lastPair]
  cases w.pairs.getLast? <;> rfl

/-- A pair without draws is kept open; otherwise a new one is opened for the same images. -/
lemma openPair_cases (w : Workload) :
    w.lastPair.calls = [] ∧ w.openPair = w ∨
      w.lastPair.calls ≠ [] ∧ w.openPair = { w with
        pairs := w.pairs ++ [w.lastPair.withSameImages], currentProjection := none } := by
  rw [openPair, lastPair]
  cases w.pairs.getLast? with
  | none => exact .inl ⟨rfl, rfl⟩
  | some p =>
    dsimp only [Option.getD_some]
    split
    · rename_i hempty
      exact .inl ⟨List.isEmpty_iff.mp hempty, rfl⟩
    · rename_i hdrawn
      exact .inr ⟨fun hnil => hdrawn (List.isEmpty_iff.mpr hnil), rfl⟩

/-- A workload is as its ledger says, and its tables hold what its draws refer to. -/
structure Follows (w : Workload) (l : Ledger) : Prop where
  colorImage : w.lastPair.colorImage = l.colorImage
  depthImage : w.lastPair.depthImage = l.depthImage
  draws : w.draws = l.draws.map LedgerDraw.draw
  drawnTo : w.closedPairs.flatMap Pair.drawnTo ++ w.lastPair.drawnTo =
    l.draws.map fun d => (d.colorImage, d.depthImage)
  places : (w.closedPairs.flatMap Pair.calls ++ w.lastPair.calls).map Call.draw =
    List.range w.draws.length
  closed : ∀ p ∈ w.closedPairs, p.Projected ∧ p.calls ≠ []
  last : w.lastPair.Projected
  current : ∀ place ∈ w.currentProjection, place < w.lastPair.projections.length
  tiles : w.tileCopies.length = w.tiles.length

namespace Follows

lemma reset (w : Workload) : w.reset.Follows .empty where
  colorImage := rfl
  depthImage := rfl
  draws := rfl
  drawnTo := rfl
  places := rfl
  closed := by simp [closedPairs, Workload.reset]
  last := by simp [lastPair, Workload.reset, Pair.Projected, Pair.empty]
  current := by simp [Workload.reset]
  tiles := rfl

/-- A pair without draws may still be given other images. -/
lemma modifyImages (h : w.Follows l) (hempty : w.lastPair.calls = [])
    (hcalls : (f w.lastPair).calls = [])
    (hprojections : (f w.lastPair).projections = w.lastPair.projections) :
    (w.modifyPair f).Follows { l with
      colorImage := (f w.lastPair).colorImage, depthImage := (f w.lastPair).depthImage } where
  colorImage := by simp
  depthImage := by simp
  draws := h.draws
  drawnTo := by simpa [Pair.drawnTo, hempty, hcalls] using h.drawnTo
  places := by simpa [hempty, hcalls] using h.places
  closed := by simpa using h.closed
  last := by simp [Pair.Projected, hcalls]
  current := by simpa [hprojections] using h.current
  tiles := h.tiles

/-- The pair that is open for other images has no draws yet. -/
lemma openPair (h : w.Follows l) : w.openPair.Follows l ∧ w.openPair.lastPair.calls = [] := by
  rcases w.openPair_cases with ⟨hempty, hopen⟩ | ⟨hdrawn, hopen⟩
  · rw [hopen]
    exact ⟨h, hempty⟩
  · have hpairs : w.pairs = w.closedPairs ++ [w.lastPair] := by
      rcases w.pairs_eq_nil_or with ⟨-, -, hlast⟩ | hpairs
      · exact absurd (congrArg Pair.calls hlast) hdrawn
      · exact hpairs
    have hclosed : w.openPair.closedPairs = w.closedPairs ++ [w.lastPair] := by
      rw [closedPairs, hopen, List.dropLast_concat, hpairs]
    have hlast : w.openPair.lastPair = w.lastPair.withSameImages := by
      simp [hopen, lastPair]
    have hdraws : w.openPair.draws = w.draws := by rw [hopen]
    refine ⟨⟨?_, ?_, ?_, ?_, ?_, ?_, ?_, ?_, ?_⟩, by rw [hlast]; rfl⟩
    · rw [hlast]
      exact h.colorImage
    · rw [hlast]
      exact h.depthImage
    · rw [hdraws]
      exact h.draws
    · rw [hclosed, hlast]
      simpa [Pair.drawnTo, Pair.withSameImages, Pair.empty] using h.drawnTo
    · rw [hclosed, hlast, hdraws]
      simpa [Pair.withSameImages, Pair.empty] using h.places
    · rw [hclosed]
      simpa [or_imp, forall_and] using ⟨⟨fun p hp => (h.closed p hp).1, h.last⟩,
        fun p hp => (h.closed p hp).2, hdrawn⟩
    · simp [hlast, Pair.Projected, Pair.withSameImages, Pair.empty]
    · simp [hopen]
    · rw [hopen]
      exact h.tiles

lemma setColorImage (h : w.Follows l) (address : Nat) (size : PixelSize) (width : Nat) :
    (w.setColorImage address size width).Follows (l.enter (.colorImage address size width)) := by
  rw [Workload.setColorImage]
  split
  · rename_i hsame
    rw [← colorImage_lastPair, h.colorImage] at hsame
    rwa [Ledger.enter, ← hsame]
  · obtain ⟨hopen, hempty⟩ := h.openPair
    rw [Ledger.enter, ← hopen.depthImage]
    exact hopen.modifyImages hempty hempty rfl

lemma setDepthImage (h : w.Follows l) (address : Nat) :
    (w.setDepthImage address).Follows (l.enter (.depthImage address)) := by
  rw [Workload.setDepthImage]
  split
  · rename_i hsame
    rw [← depthImage_lastPair, h.depthImage] at hsame
    rwa [Ledger.enter, ← hsame]
  · obtain ⟨hopen, hempty⟩ := h.openPair
    rw [Ledger.enter, ← hopen.colorImage]
    exact hopen.modifyImages hempty hempty rfl

lemma addProjection (h : w.Follows l) (kind : ProjectionKind) (matrix : Matrix) :
    (w.addProjection kind matrix).Follows l where
  colorImage := by simpa using h.colorImage
  depthImage := by simpa using h.depthImage
  draws := h.draws
  drawnTo := by simpa [Pair.drawnTo] using h.drawnTo
  places := by
    rw [closedPairs_addProjection, lastPair_addProjection]
    exact h.places
  closed := by simpa using h.closed
  last c hc := by
    simp only [lastPair_addProjection, List.length_append, List.length_singleton] at hc ⊢
    exact Nat.lt_succ_of_lt (h.last c hc)
  current place hplace := by
    cases hplace
    rw [lastPair_addProjection, List.length_append]
    exact Nat.lt_succ_self _
  tiles := h.tiles

/-- There is a projection to draw under. -/
lemma withProjection (h : w.Follows l) :
    w.withProjection.Follows l ∧ ∃ place, w.withProjection.currentProjection = some place := by
  rw [Workload.withProjection]
  cases hcurrent : w.currentProjection with
  | some place => exact ⟨h, place, hcurrent⟩
  | none => exact ⟨h.addProjection _ _, _, rfl⟩

lemma addDraw (h : w.Follows l) (added : Draw) :
    (w.addDraw added).Follows (l.enter (.draw added)) := by
  obtain ⟨h, place, hplace⟩ := h.withProjection
  obtain ⟨colorRect, depthRect, hlast⟩ := lastPair_addDraw w added
  have hcall : w.withProjection.nextCall = ⟨place, w.withProjection.draws.length⟩ := by
    rw [nextCall, hplace, Option.getD_some]
  rw [hcall] at hlast
  have hbelow := h.current place hplace
  refine ⟨?_, ?_, ?_, ?_, ?_, ?_, ?_, ?_, h.tiles⟩
  · rw [hlast]
    exact h.colorImage
  · rw [hlast]
    exact h.depthImage
  · rw [draws_addDraw, h.draws, Ledger.enter, List.map_append]
    rfl
  · rw [closedPairs_addDraw, hlast, Ledger.enter, List.map_append, ← h.drawnTo]
    simp [Pair.drawnTo, h.colorImage, h.depthImage]
  · rw [closedPairs_addDraw, hlast, draws_addDraw, List.length_append, List.length_singleton,
      List.range_succ, ← h.places]
    simp
  · rw [closedPairs_addDraw]
    exact h.closed
  · intro c hc
    rw [hlast] at hc ⊢
    rcases List.mem_append.mp hc with hc | hc
    · exact h.last c hc
    · rw [List.mem_singleton.mp hc]
      exact hbelow
  · rw [hlast]
    exact h.current

lemma perform (h : w.Follows l) (s : FillStep) : (s.perform w).Follows (l.enter s) := by
  cases s with
  | colorImage address size width => exact h.setColorImage address size width
  | depthImage address => exact h.setDepthImage address
  | transform id matrix => exact ⟨h.1, h.2, h.3, h.4, h.5, h.6, h.7, h.8, h.9⟩
  | projection kind matrix => exact h.addProjection kind matrix
  | tile added => exact { h with tiles := by simp [FillStep.perform, addTile, h.tiles] }
  | draw added => exact h.addDraw added
  | reset => exact .reset w

lemma fill (w : Workload) (steps : List FillStep) :
    (w.reset.fill steps).Follows (.ofSteps steps) := by
  induction steps using List.reverseRecOn with
  | nil => exact .reset w
  | append_singleton steps s ih =>
    rw [fill_concat, Ledger.ofSteps_concat]
    exact ih.perform s

end Follows

end Workload

end Scanout
