import Scanout.Proofs.Target.Inventory
import Scanout.Proofs.Workload.Filling

/-!
# What draws refer to

The draws of a pair are kept as places in tables. A workload that was filled step by step holds
everything at these places, and synchronizing it changes none of them. So rendering it, whatever
else may stop it, never looks beyond the end of a table.
-/

namespace Scanout

lemma fetch_of_lt {α : Type} {table : List α} {place : Nat} (h : place < table.length) :
    fetch table place = .ok table[place] := by
  rw [fetch, List.getElem?_eq_getElem h]

lemma Rect.width_ne_outOfBounds {r : Rect} : r.width ≠ .error .outOfBounds := by
  rw [width, signed32]
  split <;> simp [bind, Except.bind, pure, Except.pure]

lemma Rect.height_ne_outOfBounds {r : Rect} : r.height ≠ .error .outOfBounds := by
  rw [height, signed32]
  split <;> simp [bind, Except.bind, pure, Except.pure]

namespace Rendering

variable {α β : Type} {r : Renderer} {x : Rendering α} {f : α → Rendering β}

/-- The computation does not look beyond the end of a table. -/
def InBounds (x : Rendering α) (r : Renderer) : Prop := ∀ r', x r ≠ .error (.fault .outOfBounds) r'

namespace InBounds

lemma bind (hx : InBounds x r) (hf : ∀ a r', InBounds (f a) r') : InBounds (x >>= f) r := by
  intro r' h
  rcases bind_eq_error.mp h with h | ⟨a, r₁, -, h⟩
  · exact hx r' h
  · exact hf a r₁ r' h

/-- A computation that looks at the state first depends on it. -/
lemma get_bind {f : Renderer → Rendering β} (hf : InBounds (f r) r) :
    InBounds ((get : Rendering Renderer) >>= f) r := hf

lemma pure {a : α} : InBounds (Pure.pure a : Rendering α) r := by
  intro r' h
  cases h

lemma ofFault {y : Except Fault α} (hy : y ≠ .error .outOfBounds) :
    InBounds (liftM y : Rendering α) r := by
  cases y with
  | ok a => exact pure
  | error e =>
    intro r' h
    cases h
    exact hy rfl

lemma update {g : Renderer → Renderer} : InBounds (modify g : Rendering PUnit) r := by
  intro r' h
  cases h

lemma request {key : TargetKey} {slot : Slot} {width height : Nat} :
    InBounds (Target.request key slot width height) r := by
  intro r' h
  obtain ⟨-, shape, -, hrefused⟩ := (Target.of_request_error h).1
  cases hrefused

lemma submit : InBounds Rendering.submit r := by
  intro r' h
  cases hmissing : r.device.missing? r.commands with
  | some t =>
    rw [submit_of_missing hmissing] at h
    cases h
  | none =>
    rw [submit_of_none_missing hmissing] at h
    cases h

lemma forM {f : α → Rendering Unit} {as : List α} (hf : ∀ a ∈ as, ∀ r', InBounds (f a) r') :
    InBounds (as.forM f) r := by
  induction as generalizing r with
  | nil => exact pure
  | cons a as ih =>
    refine bind (hf a List.mem_cons_self r) fun _ r' => ?_
    exact ih fun b hb => hf b (List.mem_cons_of_mem _ hb)

end InBounds

end Rendering

open Rendering

variable {r : Renderer} {slot : Slot} {m : Matcher} {s : SubFrame} {w : Workload} {p : Pair}
  {place : Nat}

namespace Operation

lemma inBounds_record (op : Operation) : InBounds (op.record slot) r := by
  cases op with
  | upload type change => exact .bind .request fun _ _ => .update
  | copyTile copy =>
    refine .get_bind ?_
    split
    · refine .bind (.ofFault Rect.width_ne_outOfBounds) fun _ _ => ?_
      refine .bind (.ofFault Rect.height_ne_outOfBounds) fun _ _ => ?_
      exact .bind .request fun _ _ => .update
    · exact .update
  | reinterpret =>
    refine .get_bind ?_
    split
    · split
      · exact .bind .request fun _ _ => .update
      · exact .pure
    · exact .pure
  | synchronize =>
    refine .get_bind ?_
    split
    · exact .update
    · exact .pure

lemma inBounds_recordAll {ops : List Operation} : InBounds (recordAll slot ops) r :=
  .forM fun op _ _ => op.inBounds_record

end Operation

namespace Workload

/-- The draws of the pairs are in the table, and the projections in their pairs. -/
structure Resolves (w : Workload) : Prop where
  draws : ∀ p ∈ w.pairs, ∀ c ∈ p.calls, c.draw < w.draws.length
  projections : ∀ p ∈ w.pairs, p.Projected

/-- Nothing that is looked up to render the workload lies beyond the end of a table. -/
structure RendersInBounds (w : Workload) : Prop where
  projection : ∀ (m : Matcher) (s : SubFrame) place p, w.pairs[place]? = some p →
    ∀ c ∈ p.calls, ∃ matrix, m.projection w place c.projection s = .ok matrix
  renderImage : ∀ (m : Matcher) (s : SubFrame) slot r, InBounds (w.renderImage m s slot) r

lemma exists_projection (hp : w.pairs[place]? = some p) {projection : Nat}
    (h : projection < p.projections.length) :
    ∃ matrix, m.projection w place projection s = .ok matrix := by
  have hpair : fetch w.pairs place = .ok p := by rw [fetch, hp]
  simp only [Matcher.projection, hpair, fetch_of_lt h, bind, Except.bind]
  split
  · exact ⟨_, rfl⟩
  · exact ⟨_, rfl⟩

lemma blendedTransform_ne_outOfBounds {transform : Nat} :
    w.blendedTransform m s transform ≠ .error .outOfBounds := by
  rw [blendedTransform]
  split
  · rename_i hlt
    simp [Matcher.transform, fetch_of_lt hlt, bind, Except.bind, pure, Except.pure]
  · simp [pure, Except.pure]

lemma inBounds_recordCall (hp : w.pairs[place]? = some p) {c : Call}
    (hdraw : c.draw < w.draws.length) (hprojection : c.projection < p.projections.length)
    {color : Target} {depth : Option Target} :
    InBounds (w.recordCall m s slot place color depth c) r := by
  obtain ⟨matrix, hmatrix⟩ := exists_projection (m := m) (s := s) hp hprojection
  refine .bind (.ofFault (by simp [fetch_of_lt hdraw])) fun _ _ => ?_
  refine .bind (.ofFault blendedTransform_ne_outOfBounds) fun _ _ => ?_
  refine .bind (.ofFault (by simp [hmatrix])) fun _ _ => .bind (.ofFault ?_) fun _ _ => ?_
  · simp [Matcher.scroll, fetch_of_lt hdraw, bind, Except.bind, pure, Except.pure]
  · exact .get_bind .update

lemma inBounds_depthTarget? {width : Nat} : InBounds (depthTarget? p width slot) r := by
  unfold depthTarget?
  split
  · split
    · exact .pure
    · exact .bind .request fun _ _ => .pure
  · exact .pure

namespace Resolves

variable {start w' : Workload} {l : Ledger} {table table' : FramebufferTable} {ram : ByteArray}
  {stats : SyncStats}

lemma inBounds_recordDraws (h : w.Resolves) (hp : w.pairs[place]? = some p) :
    InBounds (w.recordDraws m s slot place p) r := by
  have hmem : p ∈ w.pairs := List.mem_of_getElem? hp
  unfold recordDraws
  split
  · split
    · exact .pure
    · refine .bind .request fun _ _ => .bind inBounds_depthTarget? fun depth _ => ?_
      refine .bind (.forM fun c hc _ => ?_) fun _ _ => .bind .update fun _ _ => ?_
      · exact inBounds_recordCall hp (h.draws p hmem c hc) (h.projections p hmem c hc)
      · cases depth with
        | none => exact .pure
        | some target => exact .update
  · exact .pure

lemma rendersInBounds (h : w.Resolves) : w.RendersInBounds where
  projection m s place p hp c hc :=
    exists_projection hp (h.projections p (List.mem_of_getElem? hp) c hc)
  renderImage m s slot r := by
    refine .bind .update fun _ _ => .bind (.forM fun pair hpair _ => ?_) fun _ _ => .submit
    have hp : w.pairs[pair.2]? = some pair.1 := List.mem_zipIdx_iff_getElem?.mp hpair
    exact .bind Operation.inBounds_recordAll fun _ _ =>
      .bind (h.inBounds_recordDraws hp) fun _ _ => Operation.inBounds_recordAll

/-- Synchronizing changes neither the draws nor what they refer to. -/
lemma synchronize (h : w.Resolves)
    (hsync : (w.synchronize table ram).outcome = .ok (stats, w', table')) : w'.Resolves := by
  have hpair : ∀ p' ∈ w'.pairs, ∃ p ∈ w.pairs, p'.calls = p.calls ∧
      p'.projections = p.projections := by
    intro p' hp'
    obtain ⟨place, hplace, rfl⟩ := List.getElem_of_mem hp'
    have hlt : place < w.pairs.length := length_synchronize hsync ▸ hplace
    obtain ⟨_, _, _, _, q, -, -, -, -, hq, hunmarked⟩ :=
      exists_syncedPair hsync (List.getElem?_eq_getElem hlt)
    obtain rfl := Option.some.inj ((List.getElem?_eq_getElem hplace).symm.trans hq)
    exact ⟨_, List.getElem_mem hlt, (congrArg Pair.calls hunmarked :),
      (congrArg Pair.projections hunmarked :)⟩
  obtain ⟨_, -, hw', -⟩ := exists_synced hsync
  have hdraws : w'.draws = w.draws := by rw [hw']
  constructor
  · intro p' hp' c hc
    obtain ⟨p, hp, hcalls, -⟩ := hpair p' hp'
    rw [hdraws]
    exact h.draws p hp c (hcalls ▸ hc)
  · intro p' hp' c hc
    obtain ⟨p, hp, hcalls, hprojections⟩ := hpair p' hp'
    rw [hprojections]
    exact h.projections p hp c (hcalls ▸ hc)

end Resolves

variable {l : Ledger}

namespace Follows

lemma calls_draw (h : w.Follows l) :
    (w.pairs.flatMap Pair.calls).map Call.draw = List.range w.draws.length := by
  rw [flatMap_pairs rfl]
  exact h.places

lemma projected (h : w.Follows l) : ∀ p ∈ w.pairs, p.Projected :=
  forall_mem_pairs (fun p hp => (h.closed p hp).1) h.last

lemma resolves (h : w.Follows l) : w.Resolves where
  draws p hp c hc := by
    rw [← List.mem_range, ← h.calls_draw]
    exact List.mem_map_of_mem (List.mem_flatMap_of_mem hp hc)
  projections := h.projected

end Follows

/-- A workload that is filled step by step keeps its draws in the order in which they were added,
each in a pair with the images that were in force then, under a projection of this pair; only the
last pair may be without draws. So rendering it looks at nothing beyond the end of a table, nor does
it once the workload is stamped and synchronized. (A new workload is one that was reset.) -/
theorem filled_draws_resolve (start : Workload) (steps : List FillStep) :
    let w := start.reset.fill steps
    let ledger := Ledger.ofSteps steps
    (w.pairs.flatMap Pair.calls).map Call.draw = List.range w.draws.length ∧
    (∀ p ∈ w.pairs, ∀ c ∈ p.calls, c.projection < p.projections.length) ∧
    w.tileCopies.length = w.tiles.length ∧
    (∀ p ∈ w.pairs.dropLast, p.calls ≠ []) ∧
    w.draws = ledger.draws.map LedgerDraw.draw ∧
    (w.pairs.flatMap fun p => p.calls.map fun _ => (p.colorImage, p.depthImage)) =
      ledger.draws.map (fun d => (d.colorImage, d.depthImage)) ∧
    w.RendersInBounds ∧
    ∀ id presentId submissionFrame gameRate paused table ram stats w' table',
      ({ w with id, presentId, submissionFrame, gameRate, paused }.synchronize table ram).outcome =
        .ok (stats, w', table') → w'.RendersInBounds := by
  intro w ledger
  have h : w.Follows ledger := .fill start steps
  refine ⟨h.calls_draw, h.projected, h.tiles, fun p hp => (h.closed p hp).2, h.draws, ?_,
    h.resolves.rendersInBounds, ?_⟩
  · exact (flatMap_pairs rfl).trans h.drawnTo
  · intro id presentId submissionFrame gameRate paused table ram stats w' table' hsync
    have hresolves : { w with id, presentId, submissionFrame, gameRate, paused }.Resolves :=
      ⟨h.resolves.draws, h.resolves.projections⟩
    exact (hresolves.synchronize hsync).rendersInBounds

/-- A second change of images without a draw in between opens no further pair. -/
example :
    let dot : Draw := ⟨0, 3, none, ⟨0, 0, 1, 1⟩, .zero, false⟩
    let steps : List FillStep := [.colorImage 0x100 .bits16 320, .draw dot, .draw dot,
      .colorImage 0x200 .bits16 320, .depthImage 0x1000300, .draw dot]
    (empty.fill steps).pairs.map (fun p => (p.colorAddress, p.depthImage, p.calls)) =
      [(0x100, none, [⟨0, 0⟩, ⟨0, 1⟩]), (0x200, some 0x300, [⟨0, 2⟩])] := by
  decide +kernel

end Workload

end Scanout
