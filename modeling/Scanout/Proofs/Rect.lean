import Mathlib.Data.List.Induction
import Mathlib.Tactic.Lemma
import Scanout.Rect

/-!
# Rectangles as sets of pixels

A rectangle stands for the pixels that it holds. Merging rectangles one after the other makes the
smallest one that holds the pixels of all. Its edges can say more than that: as long as all are
empty, they are those of the last one.
-/

namespace Scanout

namespace Rect

variable {a b c r : Rect} {rects : List Rect} {x y : Int}

lemma isEmpty_eq_false_iff : r.isEmpty = false ↔ r.left < r.right ∧ r.top < r.bottom := by
  simp [isEmpty]

lemma holds_corner (h : r.isEmpty = false) : r.Holds r.left r.top :=
  have hedges := isEmpty_eq_false_iff.mp h
  ⟨Int.le_refl _, hedges.1, Int.le_refl _, hedges.2⟩

lemma isEmpty_eq_false_of_holds (h : r.Holds x y) : r.isEmpty = false :=
  isEmpty_eq_false_iff.mpr ⟨Int.lt_of_le_of_lt h.1 h.2.1, Int.lt_of_le_of_lt h.2.2.1 h.2.2.2⟩

/-- All pixels of the first rectangle are pixels of the second. -/
def Within (a b : Rect) : Prop := ∀ x y, a.Holds x y → b.Holds x y

namespace Within

lemma refl : a.Within a := fun _ _ h => h

lemma trans (hab : a.Within b) (hbc : b.Within c) : a.Within c :=
  fun x y h => hbc x y (hab x y h)

lemma of_isEmpty (h : a.isEmpty = true) : a.Within b := by
  intro x y hholds
  rw [isEmpty_eq_false_of_holds hholds] at h
  cases h

end Within

/-- Rectangles with pixels lie within each other as their edges do. -/
lemma within_iff (h : a.isEmpty = false) : a.Within b ↔
    b.left ≤ a.left ∧ a.right ≤ b.right ∧ b.top ≤ a.top ∧ a.bottom ≤ b.bottom := by
  have hedges := isEmpty_eq_false_iff.mp h
  constructor
  · intro hwithin
    have hfirst := hwithin a.left a.top (holds_corner h)
    have hlast := hwithin (a.right - 1) (a.bottom - 1) (by simp only [Holds]; omega)
    simp only [Holds] at hfirst hlast
    omega
  · intro hle x y hholds
    simp only [Holds] at hholds ⊢
    omega

lemma merge_of_isEmpty_left (h : a.isEmpty = true) : a.merge b = b := if_pos h

lemma merge_of_isEmpty_right (ha : a.isEmpty = false) (hb : b.isEmpty = true) : a.merge b = a := by
  rw [merge, ha, hb]
  rfl

lemma merge_of_nonempty (ha : a.isEmpty = false) (hb : b.isEmpty = false) : a.merge b =
    ⟨min a.left b.left, min a.top b.top, max a.right b.right, max a.bottom b.bottom⟩ := by
  rw [merge, ha, hb]
  rfl

lemma isEmpty_merge : (a.merge b).isEmpty = (a.isEmpty && b.isEmpty) := by
  cases ha : a.isEmpty with
  | true => rw [merge_of_isEmpty_left ha, Bool.true_and]
  | false =>
    rw [Bool.false_and]
    cases hb : b.isEmpty with
    | true => rw [merge_of_isEmpty_right ha hb, ha]
    | false =>
      rw [merge_of_nonempty ha hb]
      rw [isEmpty_eq_false_iff] at ha hb ⊢
      dsimp only
      omega

lemma within_merge_left : a.Within (a.merge b) := by
  cases ha : a.isEmpty with
  | true => exact .of_isEmpty ha
  | false =>
    cases hb : b.isEmpty with
    | true =>
      rw [merge_of_isEmpty_right ha hb]
      exact .refl
    | false =>
      rw [merge_of_nonempty ha hb, within_iff ha]
      exact ⟨Int.min_le_left _ _, Int.le_max_left _ _, Int.min_le_left _ _, Int.le_max_left _ _⟩

lemma within_merge_right : b.Within (a.merge b) := by
  cases ha : a.isEmpty with
  | true =>
    rw [merge_of_isEmpty_left ha]
    exact .refl
  | false =>
    cases hb : b.isEmpty with
    | true => exact .of_isEmpty hb
    | false =>
      rw [merge_of_nonempty ha hb, within_iff hb]
      exact ⟨Int.min_le_right _ _, Int.le_max_right _ _, Int.min_le_right _ _,
        Int.le_max_right _ _⟩

lemma merge_within (ha : a.Within c) (hb : b.Within c) : (a.merge b).Within c := by
  cases hea : a.isEmpty with
  | true => rwa [merge_of_isEmpty_left hea]
  | false =>
    cases heb : b.isEmpty with
    | true => rwa [merge_of_isEmpty_right hea heb]
    | false =>
      have hmerged : (a.merge b).isEmpty = false := by rw [isEmpty_merge, hea, Bool.false_and]
      rw [within_iff hmerged, merge_of_nonempty hea heb]
      rw [within_iff hea] at ha
      rw [within_iff heb] at hb
      simp only [Int.le_min, Int.max_le]
      exact ⟨⟨ha.1, hb.1⟩, ⟨ha.2.1, hb.2.1⟩, ⟨ha.2.2.1, hb.2.2.1⟩, ha.2.2.2, hb.2.2.2⟩

/-- The smallest rectangle that holds the pixels of all the others. -/
structure Around (box : Rect) (rects : List Rect) : Prop where
  covers : ∀ r ∈ rects, r.Within box
  least : ∀ other : Rect, (∀ r ∈ rects, r.Within other) → box.Within other

namespace Around

lemma nil : none.Around [] :=
  ⟨fun _ hr => absurd hr List.not_mem_nil, fun _ _ => .of_isEmpty rfl⟩

lemma single : r.Around [r] where
  covers := List.forall_mem_singleton.mpr .refl
  least _ hother := hother r (List.mem_singleton_self r)

lemma merge {others : List Rect} (ha : a.Around rects) (hb : b.Around others) :
    (a.merge b).Around (rects ++ others) := by
  constructor
  · rw [List.forall_mem_append]
    exact ⟨fun r hr => (ha.covers r hr).trans within_merge_left,
      fun r hr => (hb.covers r hr).trans within_merge_right⟩
  · intro other hother
    rw [List.forall_mem_append] at hother
    exact merge_within (ha.least other hother.1) (hb.least other hother.2)

end Around

/-- All rectangles merged, one after the other. -/
def mergeAll (rects : List Rect) : Rect := rects.foldl merge none

@[simp] lemma mergeAll_concat : mergeAll (rects ++ [r]) = (mergeAll rects).merge r := by
  simp [mergeAll]

lemma around_mergeAll (rects : List Rect) : (mergeAll rects).Around rects := by
  induction rects using List.reverseRecOn with
  | nil => exact .nil
  | append_singleton rects r ih =>
    rw [mergeAll_concat]
    exact ih.merge .single

lemma isEmpty_mergeAll : (mergeAll rects).isEmpty = rects.all isEmpty := by
  induction rects using List.reverseRecOn with
  | nil => rfl
  | append_singleton rects r ih => simp [isEmpty_merge, ih]

/-- Of rectangles without pixels only the last one counts. -/
lemma mergeAll_of_isEmpty (h : rects.all isEmpty = true) :
    mergeAll rects = rects.getLast?.getD none := by
  induction rects using List.reverseRecOn with
  | nil => rfl
  | append_singleton rects r ih =>
    have hbefore : (mergeAll rects).isEmpty = true := by
      rw [isEmpty_mergeAll]
      simp only [List.all_append, Bool.and_eq_true] at h
      exact h.1
    rw [mergeAll_concat, merge_of_isEmpty_left hbefore, List.getLast?_concat, Option.getD_some]

/-- The rows down to the lowest pixel of the rectangles, at least one. -/
def rows (rects : List Rect) : Nat :=
  rects.foldl (fun rows r => if r.isEmpty then rows else max rows r.bottom.toNat) 1

/-- The rows down to the bottom of the last rectangle, if none of them has a pixel. -/
def strayRows (rects : List Rect) : Nat :=
  if rects.all isEmpty then (rects.getLast?.getD none).bottom.toNat else 0

lemma rows_concat :
    rows (rects ++ [r]) = if r.isEmpty then rows rects else max (rows rects) r.bottom.toNat := by
  simp [rows]

lemma rows_of_isEmpty (h : rects.all isEmpty = true) : rows rects = 1 := by
  induction rects using List.reverseRecOn with
  | nil => rfl
  | append_singleton rects r ih =>
    simp only [List.all_append, List.all_cons, List.all_nil, Bool.and_true, Bool.and_eq_true] at h
    rw [rows_concat, if_pos h.2, ih h.1]

lemma rows_of_nonempty (h : (mergeAll rects).isEmpty = false) :
    rows rects = max 1 (mergeAll rects).bottom.toNat := by
  induction rects using List.reverseRecOn with
  | nil => cases h
  | append_singleton rects r ih =>
    rw [mergeAll_concat] at h ⊢
    rw [rows_concat]
    cases hbefore : (mergeAll rects).isEmpty with
    | true =>
      rw [merge_of_isEmpty_left hbefore] at h ⊢
      rw [h, if_neg Bool.false_ne_true, rows_of_isEmpty (isEmpty_mergeAll ▸ hbefore)]
    | false =>
      cases hr : r.isEmpty with
      | true => rw [merge_of_isEmpty_right hbefore hr, if_pos rfl, ih hbefore]
      | false =>
        rw [merge_of_nonempty hbefore hr, if_neg Bool.false_ne_true, ih hbefore]
        dsimp only
        omega

/-- Merged rectangles reach as far down as their pixels, or as the last one of those without. -/
lemma max_bottom_mergeAll :
    max 1 (mergeAll rects).bottom.toNat = max (rows rects) (strayRows rects) := by
  cases h : (mergeAll rects).isEmpty with
  | true =>
    have hall : rects.all isEmpty = true := isEmpty_mergeAll ▸ h
    rw [rows_of_isEmpty hall, strayRows, if_pos hall, mergeAll_of_isEmpty hall]
  | false =>
    have hall : rects.all isEmpty = false := isEmpty_mergeAll ▸ h
    rw [strayRows, hall, if_neg Bool.false_ne_true, Nat.max_zero, rows_of_nonempty h]

end Rect

end Scanout
