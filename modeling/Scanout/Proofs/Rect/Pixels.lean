import Scanout.Proofs.Rect

/-!
# Operations on rectangles, as operations on pixels

What is done to rectangles is what is done to the sets of their pixels, however the edges of those
without pixels may lie. Rectangles may therefore be merged in any order, and any of them first: the
result holds the same pixels. Its edges need not be the same.
-/

namespace Scanout

namespace Rect

variable {a b r : Rect} {rects rects' : List Rect} {x y : Int}

/-- The rectangles hold the same pixels. -/
def SamePixels (a b : Rect) : Prop := ∀ x y, a.Holds x y ↔ b.Holds x y

lemma Within.antisymm (hab : a.Within b) (hba : b.Within a) : a.SamePixels b :=
  fun x y => ⟨hab x y, hba x y⟩

lemma forall_not_holds_iff : (∀ x y, ¬ r.Holds x y) ↔ r.isEmpty = true := by
  constructor
  · intro hnone
    by_contra hempty
    exact hnone _ _ (holds_corner (Bool.eq_false_iff.mpr hempty))
  · intro hempty x y hholds
    rw [isEmpty_eq_false_of_holds hholds] at hempty
    cases hempty

lemma isEmpty_iff : r.isEmpty = true ↔ r.right ≤ r.left ∨ r.bottom ≤ r.top := by
  simp [isEmpty]

/-! ### Overlaps -/

lemma holds_overlap : (a.overlap b).Holds x y ↔ a.Holds x y ∧ b.Holds x y := by
  simp only [Holds, overlap, Int.max_le, Int.lt_min]
  constructor
  · rintro ⟨⟨hal, hbl⟩, ⟨har, hbr⟩, ⟨hat, hbt⟩, hab, hbb⟩
    exact ⟨⟨hal, har, hat, hab⟩, hbl, hbr, hbt, hbb⟩
  · rintro ⟨⟨hal, har, hat, hab⟩, hbl, hbr, hbt, hbb⟩
    exact ⟨⟨hal, hbl⟩, ⟨har, hbr⟩, ⟨hat, hbt⟩, hab, hbb⟩

lemma holds_intersection : (a.intersection b).Holds x y ↔ a.Holds x y ∧ b.Holds x y := by
  rw [← holds_overlap, intersection]
  split
  · rename_i hempty
    exact iff_of_false (forall_not_holds_iff.mpr rfl x y) (forall_not_holds_iff.mpr hempty x y)
  · rfl

lemma intersects_iff : a.intersects b = true ↔ ∃ x y, a.Holds x y ∧ b.Holds x y := by
  rw [intersects, Bool.not_eq_true', ← Bool.not_eq_true, ← forall_not_holds_iff]
  push Not
  exact exists_congr fun x => exists_congr fun y => holds_intersection

/-- The edges of a rectangle with pixels lie within those of another as its pixels do. -/
lemma contains_iff_within (h : b.isEmpty = false) : a.contains b = true ↔ b.Within a := by
  rw [within_iff h]
  simp only [contains, Bool.and_eq_true, decide_eq_true_eq]
  omega

/-! ### Merging in any order and grouping -/

/-- A way to merge rectangles: in which order, and which of them first. -/
inductive Grouping where
  | nothing
  | single (r : Rect)
  | both (first second : Grouping)

namespace Grouping

/-- The rectangles, from left to right. -/
def members : Grouping → List Rect
  | nothing => []
  | single r => [r]
  | both g g' => g.members ++ g'.members

/-- What becomes of them. -/
def merged : Grouping → Rect
  | nothing => none
  | single r => r
  | both g g' => g.merged.merge g'.merged

lemma around_merged (g : Grouping) : g.merged.Around g.members := by
  induction g with
  | nothing => exact .nil
  | single r => exact .single
  | both g g' ih ih' => exact ih.merge ih'

end Grouping

lemma Around.perm (h : r.Around rects) (hperm : rects.Perm rects') : r.Around rects' where
  covers r' hr' := h.covers r' (hperm.mem_iff.mpr hr')
  least other hother := h.least other fun r' hr' => hother r' (hperm.mem_iff.mp hr')

/-- The smallest rectangle around others is one set of pixels. -/
lemma Around.samePixels (ha : a.Around rects) (hb : b.Around rects) : a.SamePixels b :=
  (ha.least b hb.covers).antisymm (hb.least a ha.covers)

/-- An intersection holds the common pixels, and there are some exactly if the rectangles intersect;
a rectangle contains another with pixels exactly if it holds them all; merging two makes the
smallest that holds the pixels of both. And however rectangles are merged, the result holds the same
pixels as if they are merged one after the other. -/
theorem operations_act_on_pixels (a b : Rect) (rects : List Rect) (g : Grouping) :
    ((∀ x y, ¬ a.Holds x y) ↔ a.right ≤ a.left ∨ a.bottom ≤ a.top) ∧
      (∀ x y, (a.intersection b).Holds x y ↔ a.Holds x y ∧ b.Holds x y) ∧
      (a.intersects b = true ↔ ∃ x y, a.Holds x y ∧ b.Holds x y) ∧
      (b.isEmpty = false → (a.contains b = true ↔ b.Within a)) ∧
      (a.Within (a.merge b) ∧ b.Within (a.merge b) ∧
        ∀ c : Rect, a.Within c → b.Within c → (a.merge b).Within c) ∧
      (g.members.Perm rects → g.merged.SamePixels (mergeAll rects)) := by
  refine ⟨forall_not_holds_iff.trans isEmpty_iff, fun x y => holds_intersection, intersects_iff,
    contains_iff_within, ⟨within_merge_left, within_merge_right, fun c => merge_within⟩, ?_⟩
  intro hperm
  exact (g.around_merged.perm hperm).samePixels (around_mergeAll rects)

/-- A rectangle without pixels is merged last instead of first: the pixels are the same, and those of
the strip are among them. -/
theorem stray_edges_merged_last :
    let dot : Rect := ⟨0, 0, 1, 1⟩
    let stray : Rect := ⟨9, 9, 9, 0⟩
    let strip : Rect := ⟨0, 2, 4, 3⟩
    let late : Grouping := .both (.both (.single strip) (.single dot)) (.single stray)
    (late.members.Perm [stray, dot, strip] ∧
        late.merged.SamePixels (mergeAll [stray, dot, strip])) ∧
      strip.isEmpty = false ∧ late.merged.contains strip = true ∧ strip.Within late.merged := by
  intro dot stray strip late
  obtain ⟨-, -, -, hcontains, -, hmerged⟩ :=
    operations_act_on_pixels late.merged strip [stray, dot, strip] late
  have hperm : late.members.Perm [stray, dot, strip] := by decide
  have hnonempty : strip.isEmpty = false := by decide
  have hwithin : late.merged.contains strip = true := by decide
  exact ⟨⟨hperm, hmerged hperm⟩, hnonempty, hwithin, (hcontains hnonempty).mp hwithin⟩

/-- The edges of rectangles without pixels depend on the order. -/
example : mergeAll [⟨0, 0, 0, 5⟩, ⟨9, 9, 9, 0⟩] ≠ mergeAll [⟨9, 9, 9, 0⟩, ⟨0, 0, 0, 5⟩] := by decide

end Rect

end Scanout
