import Scanout.Proofs.Rect
import Scanout.Proofs.Workload.Filling

/-!
# What the draws of a pair reach

The regions of a pair are the smallest rectangles around the scissors of its draws, and of those
that write depth. Its height goes down to the bottom of these regions. So it is the height of what
is drawn, unless a region is empty: then the last of its scissors counts, although it has no pixels.
-/

namespace Scanout

namespace Pair

variable {p q : Pair} {draws later : List Draw} {added : Draw}

/-- The draws of the pair. -/
def drawn (p : Pair) (draws : List Draw) : List Draw :=
  p.calls.filterMap fun call => draws[call.draw]?

/-- The scissors of the pair's draws. -/
def scissors (p : Pair) (draws : List Draw) : List Rect := (p.drawn draws).map Draw.scissor

/-- The scissors of the pair's draws that write depth. -/
def depthScissors (p : Pair) (draws : List Draw) : List Rect :=
  ((p.drawn draws).filter Draw.writesDepth).map Draw.scissor

/-- The regions of the pair are its scissors merged. -/
structure Merges (p : Pair) (draws : List Draw) : Prop where
  inTable : ∀ call ∈ p.calls, call.draw < draws.length
  colorRect : p.colorRect = .mergeAll (p.scissors draws)
  depthRect : p.depthRect = .mergeAll (p.depthScissors draws)

/-- The pair with one more draw, which is the next one in the table. -/
def withDraw (p : Pair) (projection : Nat) (draws : List Draw) (added : Draw) : Pair :=
  { p with
    calls := p.calls ++ [⟨projection, draws.length⟩]
    colorRect := p.colorRect.merge added.scissor
    depthRect := if added.writesDepth then p.depthRect.merge added.scissor else p.depthRect }

namespace Merges

lemma empty : Pair.empty.Merges draws := ⟨fun _ h => absurd h List.not_mem_nil, rfl, rfl⟩

/-- Only the draws and the regions matter. -/
lemma congr (h : p.Merges draws) (hcalls : q.calls = p.calls) (hcolor : q.colorRect = p.colorRect)
    (hdepth : q.depthRect = p.depthRect) : q.Merges draws := by
  have hdrawn : q.drawn draws = p.drawn draws := by rw [drawn, drawn, hcalls]
  refine ⟨hcalls ▸ h.inTable, ?_, ?_⟩
  · rw [hcolor, h.colorRect, scissors, scissors, hdrawn]
  · rw [hdepth, h.depthRect, depthScissors, depthScissors, hdrawn]

lemma drawn_append (h : p.Merges draws) : p.drawn (draws ++ later) = p.drawn draws :=
  List.filterMap_congr fun call hcall => List.getElem?_append_left (h.inTable call hcall)

/-- Draws that are added to other pairs do not matter. -/
lemma append (h : p.Merges draws) : p.Merges (draws ++ later) where
  inTable call hcall := by
    rw [List.length_append]
    exact Nat.lt_add_right _ (h.inTable call hcall)
  colorRect := by rw [h.colorRect, scissors, scissors, h.drawn_append]
  depthRect := by rw [h.depthRect, depthScissors, depthScissors, h.drawn_append]

/-- Its scissor is merged with the draw. -/
lemma withDraw (h : p.Merges draws) {projection : Nat} :
    (p.withDraw projection draws added).Merges (draws ++ [added]) := by
  have hdrawn : (p.withDraw projection draws added).drawn (draws ++ [added]) =
      p.drawn draws ++ [added] := by
    have happend : p.drawn (draws ++ [added]) = p.drawn draws := h.drawn_append
    rw [← happend, Pair.withDraw, drawn, drawn, List.filterMap_append]
    simp
  refine ⟨?_, ?_, ?_⟩
  · intro call hcall
    rw [List.length_append, List.length_singleton]
    rcases List.mem_append.mp hcall with hcall | hcall
    · exact Nat.lt_succ_of_lt (h.inTable call hcall)
    · rw [List.mem_singleton.mp hcall]
      exact Nat.lt_succ_self _
  · rw [scissors, hdrawn, List.map_append, List.map_singleton, Rect.mergeAll_concat]
    exact congrArg (Rect.merge · added.scissor) h.colorRect
  · rw [depthScissors, hdrawn, List.filter_append, List.map_append]
    cases hwrites : added.writesDepth with
    | true =>
      rw [List.filter_cons_of_pos hwrites, List.filter_nil, List.map_singleton,
        Rect.mergeAll_concat, ← depthScissors, ← h.depthRect, Pair.withDraw, if_pos hwrites]
    | false =>
      rw [List.filter_cons_of_neg (by simp [hwrites]), List.filter_nil, List.map_nil,
        List.append_nil, ← depthScissors, ← h.depthRect, Pair.withDraw, hwrites]
      rfl

/-- The height of the pair, by the scissors of its draws. -/
lemma drawHeight_eq (h : p.Merges draws) : p.drawHeight =
    max (max (Rect.rows (p.scissors draws)) (Rect.rows (p.depthScissors draws)))
      (max (Rect.strayRows (p.scissors draws)) (Rect.strayRows (p.depthScissors draws))) := by
  have hheight : p.drawHeight =
      max (max 1 p.colorRect.bottom.toNat) (max 1 p.depthRect.bottom.toNat) := by
    rw [drawHeight]
    omega
  rw [hheight, h.colorRect, h.depthRect, Rect.max_bottom_mergeAll, Rect.max_bottom_mergeAll]
  exact max_max_max_comm _ _ _ _

end Merges

end Pair

namespace Workload

variable {w : Workload} {f : Pair → Pair}

/-- The regions of all pairs are their scissors merged. -/
def Merged (w : Workload) : Prop := ∀ p ∈ w.pairs, p.Merges w.draws

namespace Merged

lemma lastPair (h : w.Merged) : w.lastPair.Merges w.draws := by
  rw [Workload.lastPair]
  cases hlast : w.pairs.getLast? with
  | none => exact .empty
  | some p => exact h p (List.mem_of_getLast? hlast)

lemma modifyPair (h : w.Merged) (hf : (f w.lastPair).Merges w.draws) : (w.modifyPair f).Merged := by
  apply forall_mem_pairs
  · rw [closedPairs_modifyPair]
    exact fun p hp => h p (List.dropLast_subset _ hp)
  · rwa [lastPair_modifyPair]

lemma openPair (h : w.Merged) : w.openPair.Merged := by
  rcases w.openPair_cases with ⟨-, hopen⟩ | ⟨-, hopen⟩
  · rwa [hopen]
  · rw [hopen]
    intro p hp
    rcases List.mem_append.mp hp with hp | hp
    · exact h p hp
    · rw [List.mem_singleton.mp hp]
      exact Pair.Merges.empty.congr rfl rfl rfl

lemma addProjection (h : w.Merged) (kind : ProjectionKind) (matrix : Matrix) :
    (w.addProjection kind matrix).Merged :=
  have hmodified : (w.modifyPair fun p =>
      { p with projections := p.projections ++ [⟨kind, matrix⟩] }).Merged :=
    h.modifyPair (h.lastPair.congr rfl rfl rfl)
  hmodified

lemma withProjection (h : w.Merged) : w.withProjection.Merged := by
  rw [Workload.withProjection]
  split
  · exact h
  · exact h.addProjection _ _

lemma addDraw (h : w.Merged) (added : Draw) : (w.addDraw added).Merged := by
  have h := h.withProjection
  apply forall_mem_pairs
  · rw [closedPairs_addDraw, draws_addDraw]
    exact fun p hp => (h p (List.dropLast_subset _ hp)).append
  · have hlast : (w.addDraw added).lastPair = w.withProjection.lastPair.withDraw
        (w.withProjection.currentProjection.getD 0) w.withProjection.draws added := by
      rw [Workload.lastPair, Workload.addDraw, Workload.modifyPair, updateLast]
      simp only [List.getLast?_concat, Option.getD_some]
      rfl
    rw [hlast, draws_addDraw]
    exact h.lastPair.withDraw

end Merged

lemma Built.merged (h : w.Built) : w.Merged := by
  induction h with
  | empty => exact fun _ hp => absurd hp List.not_mem_nil
  | reset before ih => exact fun _ hp => absurd hp List.not_mem_nil
  | setColorImage before address size width ih =>
    rw [Workload.setColorImage]
    split
    · exact ih
    · exact ih.openPair.modifyPair (ih.openPair.lastPair.congr rfl rfl rfl)
  | setDepthImage before address ih =>
    rw [Workload.setDepthImage]
    split
    · exact ih
    · exact ih.openPair.modifyPair (ih.openPair.lastPair.congr rfl rfl rfl)
  | addTransform before id matrix ih => exact ih
  | addProjection before kind matrix ih => exact ih.addProjection kind matrix
  | addTile before tile ih => exact ih
  | addDraw before added ih => exact ih.addDraw added
  | stamp before id presentId submissionFrame gameRate paused ih => exact ih

/-- The color region of a pair is the smallest rectangle around the scissors of its draws, the depth
region that around those of the draws that write depth, and each is empty if all of these are. And
the height of the pair is that of the pixels in the scissors exactly if none is counted in that has
no pixels. -/
theorem drawHeight_eq_rows_iff (w : Workload) (hw : w.Built) (p : Pair) (hp : p ∈ w.pairs) :
    let scissors := p.scissors w.draws
    let depthScissors := p.depthScissors w.draws
    let rows := max (Rect.rows scissors) (Rect.rows depthScissors)
    (p.colorRect.Around scissors ∧ p.depthRect.Around depthScissors) ∧
      (p.colorRect.isEmpty = scissors.all Rect.isEmpty ∧
        p.depthRect.isEmpty = depthScissors.all Rect.isEmpty) ∧
      (p.drawHeight = rows ↔
        Rect.strayRows scissors ≤ rows ∧ Rect.strayRows depthScissors ≤ rows) := by
  intro scissors depthScissors rows
  have hmerges := hw.merged p hp
  refine ⟨⟨?_, ?_⟩, ⟨?_, ?_⟩, ?_⟩
  · rw [hmerges.colorRect]
    exact Rect.around_mergeAll _
  · rw [hmerges.depthRect]
    exact Rect.around_mergeAll _
  · rw [hmerges.colorRect, Rect.isEmpty_mergeAll]
  · rw [hmerges.depthRect, Rect.isEmpty_mergeAll]
  · rw [hmerges.drawHeight_eq, max_eq_left_iff, Nat.max_le]

/-- An image that is drawn to within each of the scissors in turn. -/
def cut (scissors : List Rect) : Workload :=
  scissors.foldl (fun w scissor => w.addDraw ⟨0, 3, none, scissor, .zero, false⟩)
    (empty.setColorImage 16 .bits8 1)

lemma built_cut {scissors : List Rect} : (cut scissors).Built := by
  induction scissors using List.reverseRecOn with
  | nil => exact .setColorImage .empty _ _ _
  | append_singleton scissors scissor ih =>
    rw [cut, List.foldl_concat, ← cut]
    exact .addDraw ih _

/-- An empty scissor that goes further down does not count after one with pixels. -/
theorem low_empty_scissor_ignored : (cut [⟨0, 0, 1, 2⟩, ⟨0, 0, 0, 5⟩]).Built ∧
    ∃ p ∈ (cut [⟨0, 0, 1, 2⟩, ⟨0, 0, 0, 5⟩]).pairs, p.drawHeight = 2 := by
  have hmem : (cut [⟨0, 0, 1, 2⟩, ⟨0, 0, 0, 5⟩]).lastPair ∈
      (cut [⟨0, 0, 1, 2⟩, ⟨0, 0, 0, 5⟩]).pairs := by decide
  obtain ⟨-, -, hheight⟩ := drawHeight_eq_rows_iff _ built_cut _ hmem
  exact ⟨built_cut, _, hmem, hheight.mpr (by decide)⟩

/-- It counts if it is alone. -/
theorem lone_empty_scissor_counts : (cut [⟨0, 0, 0, 5⟩]).pairs.map Pair.drawHeight = [5] ∧
    ∀ p ∈ (cut [⟨0, 0, 0, 5⟩]).pairs,
      (p.scissors (cut [⟨0, 0, 0, 5⟩]).draws).all Rect.isEmpty = true ∧
        Rect.rows (p.scissors (cut [⟨0, 0, 0, 5⟩]).draws) = 1 := by
  decide

end Workload

end Scanout
