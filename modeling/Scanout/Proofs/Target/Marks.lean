import Mathlib.Data.List.Induction
import Scanout.Proofs.Target.Chronicle
import Scanout.Proofs.Workload.Synced

/-!
# How images are marked as written

While an image is rendered, each pair with draws marks its color image as written, and its depth
image if the draws write depths; the uploads of a present mark their images. Besides the address and
the way of writing, a mark is told the region drawn. That is empty if the draws were clipped away,
and for an upload, for which nothing was drawn.
-/

namespace Scanout

/-- An image is marked as written; the region was drawn. -/
abbrev Mark := Nat × WriteType × Rect

/-- Something was drawn. -/
def Mark.isDrawn (m : Mark) : Bool := !m.2.2.isEmpty

/-- The marks that the draws of a pair leave. -/
def Pair.marks (p : Pair) : List Mark :=
  match p.colorImage with
  | some image =>
    if p.isEmpty then []
    else
      (image.address, .color, p.colorRect) ::
        (Sync.writtenDepth p).toList.map (·, .depth, p.depthRect)
  | none => []

/-- The marks that an image of a workload leaves. -/
def Workload.marks (w : Workload) : List Mark := w.pairs.flatMap Pair.marks

/-- The mark that an upload leaves. -/
def Operation.mark? : Operation → Option Mark
  | .upload type change => some (change.address, type, Rect.none)
  | _ => none

/-- The marks that the uploads of a present leave. -/
def Present.marks (q : Present) : List Mark := q.operations.filterMap Operation.mark?

/-- Where something was drawn, the marks of a pair are its writes. -/
lemma Pair.Prepared.filter_marks {p : Pair} (h : p.Prepared) :
    p.marks.filter Mark.isDrawn = p.writes := by
  simp only [marks, writes]
  cases p.colorImage with
  | none => rfl
  | some image =>
    cases hempty : p.isEmpty with
    | true =>
      have hdepth : Sync.writtenDepth p = none := if_pos (h.depthRect hempty)
      simp [h.colorRect hempty, hdepth]
    | false =>
      have hdepths : ((Sync.writtenDepth p).toList.map (·, WriteType.depth, p.depthRect)).filter
          Mark.isDrawn = (Sync.writtenDepth p).toList.map (·, .depth, p.depthRect) := by
        rw [List.filter_eq_self]
        intro m hm
        obtain ⟨address, haddress, rfl⟩ := List.mem_map.mp hm
        have hdrawn : p.depthRect.isEmpty = false := by
          by_contra hclipped
          simp [Sync.writtenDepth, hclipped] at haddress
        simp [Mark.isDrawn, hdrawn]
      simp only [Bool.false_eq_true, if_false, List.filter_cons, hdepths, Mark.isDrawn]
      cases p.colorRect.isEmpty <;> rfl

lemma Workload.Synced.filter_marks {w : Workload} (h : w.Synced) :
    w.marks.filter Mark.isDrawn = w.writes := by
  rw [marks, List.filter_flatMap, writes]
  exact List.flatMap_congr fun p hp => (h.prepared p hp).filter_marks

/-- Only colors are marked where nothing was drawn. -/
lemma Workload.color_of_marks {w : Workload} :
    ∀ m ∈ w.marks, m.isDrawn = false → m.2.1 = .color := by
  intro m hm hclipped
  obtain ⟨p, -, hm⟩ := List.mem_flatMap.mp hm
  simp only [Pair.marks] at hm
  split at hm
  · split at hm
    · cases hm
    · rcases List.mem_cons.mp hm with rfl | hm
      · rfl
      · obtain ⟨address, haddress, rfl⟩ := List.mem_map.mp hm
        have hempty : p.depthRect.isEmpty = true := by simpa [Mark.isDrawn] using hclipped
        simp [Sync.writtenDepth, hempty] at haddress
  · cases hm

/-- Nothing was drawn for an upload. -/
lemma Present.not_isDrawn {q : Present} : ∀ m ∈ q.marks, m.isDrawn = false := by
  intro m hm
  obtain ⟨op, -, hop⟩ := List.mem_filterMap.mp hm
  cases op with
  | upload type change =>
    cases hop
    rfl
  | _ => cases hop

/-- The last of the marks of an address. -/
def lastMark? (marks : List Mark) (address : Nat) : Option Mark :=
  marks.reverse.find? (·.1 = address)

variable {marks : List Mark} {m : Mark} {address : Nat}

lemma lastMark?_concat :
    lastMark? (marks ++ [m]) address =
      if m.1 = address then some m else lastMark? marks address := by
  by_cases h : m.1 = address <;> simp [lastMark?, h]

lemma lastWriteTo?_concat :
    lastWriteTo? (marks ++ [m]) address =
      if m.1 = address then some m.2.1 else lastWriteTo? marks address := by
  by_cases h : m.1 = address <;> simp [lastWriteTo?, h]

/-- If only colors are marked where nothing was drawn, the last mark agrees with what was last drawn
exactly if that is color, or if something was drawn for the mark. -/
lemma lastWriteTo?_eq_iff {type : WriteType}
    (hstrays : ∀ m ∈ marks, m.isDrawn = false → m.2.1 = .color)
    (hdrawn : lastWriteTo? (marks.filter Mark.isDrawn) address = some type) :
    lastWriteTo? marks address = some type ↔
      type = .color ∨ ∃ m, lastMark? marks address = some m ∧ m.isDrawn = true := by
  induction marks using List.reverseRecOn with
  | nil => cases hdrawn
  | append_singleton marks m ih =>
    simp only [List.forall_mem_append, List.forall_mem_singleton] at hstrays
    rw [lastMark?_concat, lastWriteTo?_concat]
    rw [List.filter_append] at hdrawn
    cases hm : m.isDrawn with
    | true =>
      rw [List.filter_cons_of_pos hm, List.filter_nil, lastWriteTo?_concat] at hdrawn
      by_cases haddress : m.1 = address
      · simp_all
      · simp only [haddress, if_false] at hdrawn ⊢
        exact ih hstrays.1 hdrawn
    | false =>
      rw [List.filter_cons_of_neg (by simp [hm]), List.filter_nil, List.append_nil] at hdrawn
      by_cases haddress : m.1 = address
      · have hcolor : m.2.1 = .color := hstrays.2 hm
        simp only [haddress, if_true, hcolor, Option.some.injEq, exists_eq_left', hm,
          Bool.false_eq_true, or_false]
        exact eq_comm
      · simp only [haddress, if_false]
        exact ih hstrays.1 hdrawn

namespace Rendering

variable {α β : Type} {x : Rendering α} {f : α → Rendering β} {r r' : Renderer}
  {marks' : List Mark}

/-- The computation, if it succeeds, leaves these marks. -/
def Leaves (marks : List Mark) (x : Rendering α) (r : Renderer) : Prop :=
  ∀ a r', x r = .ok a r' → ∀ address, r'.writtenAs.lookup address =
    (lastWriteTo? marks address).or (r.writtenAs.lookup address)

/-- The computation leaves no marks, also if it fails. -/
def Markless (x : Rendering α) (r : Renderer) : Prop :=
  ∀ ways, Keeps (fun r => r.writtenAs = ways) x r

lemma Markless.leaves (h : Markless x r) : Leaves [] x r := by
  intro a r' hx address
  have hsame := h _ rfl
  simp only [final, hx] at hsame
  rw [hsame]
  rfl

namespace Leaves

lemma bind (hx : Leaves marks x r) (hf : ∀ a r', x r = .ok a r' → Leaves marks' (f a) r') :
    Leaves (marks ++ marks') (x >>= f) r := by
  intro b r' h address
  obtain ⟨a, r₁, hxr, h⟩ := bind_eq_ok.mp h
  rw [hf a r₁ hxr b r' h, hx a r₁ hxr, lastWriteTo?_append, Option.or_assoc]

/-- What comes before the marks does not matter if it leaves none. -/
lemma after (hx : Markless x r) (hf : ∀ a r', x r = .ok a r' → Leaves marks (f a) r') :
    Leaves marks (x >>= f) r := hx.leaves.bind hf

/-- What comes after the marks does not matter if it leaves none. -/
lemma before (hx : Leaves marks x r) (hf : ∀ a r', Markless (f a) r') :
    Leaves marks (x >>= f) r := by
  rw [← List.append_nil marks]
  exact hx.bind fun a r' _ => (hf a r').leaves

lemma markWritten {address : Nat} {type : WriteType} (rect : Rect) :
    Leaves [(address, type, rect)] (Rendering.markWritten address type) r := by
  intro _ r' h other
  cases h
  rw [List.lookup_cons]
  by_cases hother : other = address
  · subst hother
    simp [lastWriteTo?]
  · rw [beq_eq_false_iff_ne.mpr hother, lookup_filter_of_ne hother]
    simp [lastWriteTo?, Ne.symm hother]

lemma forM {γ : Type} {g : γ → Rendering Unit} {marksOf : γ → List Mark} {cs : List γ}
    (h : ∀ c ∈ cs, ∀ r', Leaves (marksOf c) (g c) r') :
    Leaves (cs.flatMap marksOf) (cs.forM g) r := by
  induction cs generalizing r with
  | nil => exact Markless.leaves fun _ => .pure
  | cons c cs ih =>
    rw [List.flatMap_cons]
    exact (h c List.mem_cons_self r).bind fun _ _ _ =>
      ih fun c' hc' => h c' (List.mem_cons_of_mem _ hc')

end Leaves

namespace Markless

lemma bind (hx : Markless x r) (hf : ∀ a r', Markless (f a) r') : Markless (x >>= f) r :=
  fun ways => (hx ways).bind fun a r' _ => hf a r' ways

lemma pure {a : α} : Markless (Pure.pure a : Rendering α) r := fun _ => .pure

lemma update {g : Renderer → Renderer} (h : (g r).writtenAs = r.writtenAs) :
    Markless (modify g : Rendering PUnit) r := fun _ hways => h.trans hways

lemma forM {γ : Type} {g : γ → Rendering Unit} {cs : List γ} (h : ∀ c r', Markless (g c) r') :
    Markless (cs.forM g) r := fun ways => .forM fun c _ r' => h c r' ways

lemma submit : Markless Rendering.submit r := by
  intro ways hways
  rw [final]
  cases hmissing : r.device.missing? r.commands with
  | some x => rwa [submit_of_missing hmissing]
  | none => rwa [submit_of_none_missing hmissing]

end Markless

end Rendering

open Rendering

variable {r r' : Renderer} {slot : Slot}

namespace Workload

variable {w : Workload} {m : Matcher} {s : SubFrame} {p : Pair} {place : Nat}

/-- Recording the draws of a pair leaves its marks. -/
lemma leaves_recordDraws : Leaves p.marks (w.recordDraws m s slot place p) r := by
  unfold recordDraws
  cases himage : p.colorImage with
  | none =>
    rw [Pair.marks, himage]
    exact Markless.pure.leaves
  | some image =>
    cases hempty : p.isEmpty with
    | true =>
      simp only [Pair.marks, himage, hempty, if_true]
      exact Markless.pure.leaves
    | false =>
      simp only [Pair.marks, himage, hempty, Bool.false_eq_true, if_false]
      refine .after (fun _ => aside_writtenAs.request) fun color r₁ _ => ?_
      refine .after (fun _ => aside_writtenAs.depthTarget?) fun depth r₂ hdepth => ?_
      refine .after (.forM fun _ _ _ => aside_writtenAs.recordCall) fun _ r₃ _ => ?_
      refine Leaves.bind (.markWritten p.colorRect) fun _ _ _ => ?_
      obtain ⟨hnone, rfl, -⟩ | ⟨address, t, hsome, rfl, hrequested⟩ := of_depthTarget? hdepth
      · rw [hnone]
        exact Markless.pure.leaves
      · obtain ⟨-, hkey, -⟩ := hrequested.mem
        have haddress : t.key.address = address := congrArg TargetKey.address hkey
        rw [hsome, ← haddress]
        exact .markWritten p.depthRect

/-- Rendering an image of a workload leaves its marks. -/
lemma leaves_renderImage : Leaves w.marks (w.renderImage m s slot) r := by
  have hpairs : w.marks = w.pairs.zipIdx.flatMap fun part => part.1.marks := by
    rw [marks, ← List.zipIdx_map_fst 0 w.pairs, List.flatMap_map, List.zipIdx_map_fst]
  refine .after (.update rfl) fun _ r₁ _ => .before ?_ fun _ _ => .submit
  rw [hpairs]
  refine .forM fun part _ r₂ => ?_
  refine .after (fun _ => aside_writtenAs.recordAll) fun _ _ _ => .before ?_ fun _ _ _ =>
    aside_writtenAs.recordAll
  exact leaves_recordDraws

end Workload

/-- Performing the uploads of a present leaves their marks. -/
lemma Rendering.leaves_upload {ops : List Operation} :
    Leaves (ops.filterMap Operation.mark?) (upload ops) r := by
  have hmarks : ops.filterMap Operation.mark? = ops.flatMap fun op => op.mark?.toList := by
    rw [List.filterMap_eq_flatMap_toList]
  refine .after (.update rfl) fun _ r₁ _ => ?_
  refine .after (fun _ => aside_writtenAs.recordAll) fun _ r₂ _ => .before ?_ fun _ _ => .submit
  rw [hmarks]
  refine .forM fun op _ r₃ => ?_
  cases op with
  | upload type change => exact .markWritten Rect.none
  | _ => exact Markless.pure.leaves

/-- Filling the scratch image leaves no marks. -/
lemma Rendering.markless_throughScratch {screen : Screen} {command : TextureId → Command} :
    Markless (throughScratch screen command) r :=
  .bind (fun _ => aside_writtenAs.request) fun _ _ => .bind (.update rfl) fun _ _ =>
    .bind (.update rfl) fun _ _ => .bind .submit fun _ _ => .pure

end Scanout
