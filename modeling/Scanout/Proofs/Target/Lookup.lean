import Mathlib.Data.List.Perm.Basic
import Scanout.Proofs.Target.Request

/-!
# Looking up render targets by address

A lookup by address goes along the targets in some order. The first one of the kind that is asked
for ends it; of the drawn targets of another kind the last one is the answer if none of the kind
comes. So a target of the kind is found in every order, but which one may depend on the order.
-/

namespace Scanout

namespace Renderer

variable {r : Renderer} {address : Nat} {kind : TargetKind} {slot : Slot} {s t : Target}
  {order : List Target}

/-- The renderer has a target of an image of the given kind. -/
def Holds (r : Renderer) (address : Nat) (kind : TargetKind) (slot : Slot) (t : Target) : Prop :=
  t ∈ r.targets ∧ t.key.address = address ∧ t.key.kind = kind ∧ t.slot = slot

/-- A color or depth target at the address, preferring one of the given kind. -/
def Prefers (r : Renderer) (address : Nat) (kind : TargetKind) (slot : Slot) (t : Target) : Prop :=
  r.Holds address kind slot t ∨
    (∀ s, ¬ r.Holds address kind slot s) ∧
      ∃ other, other.isDrawn = true ∧ r.Holds address other slot t

/-- The renderer with its targets visited in another order. -/
def visiting (r : Renderer) (order : List Target) : Renderer := { r with targets := order }

lemma holds_visiting (horder : order.Perm r.targets) :
    (r.visiting order).Holds address kind slot t ↔ r.Holds address kind slot t :=
  and_congr_left fun _ => horder.mem_iff

/-- A target of the kind is found if there is one. -/
lemma findByAddress?_of_holds (h : r.Holds address kind slot t) :
    ∃ s, r.findByAddress? address kind slot = some s ∧ r.Holds address kind slot s := by
  obtain ⟨hmem, haddress, hkind, hslot⟩ := h
  cases hfound : (r.targets.filter fun t => t.key.address = address && t.slot = slot).find?
      (·.key.kind = kind) with
  | none =>
    have := List.find?_eq_none.mp hfound t
    simp [hmem, haddress, hkind, hslot] at this
  | some s =>
    have hs := List.mem_of_find?_eq_some hfound
    have hskind := List.find?_some hfound
    simp only [List.mem_filter, Bool.and_eq_true, decide_eq_true_eq] at hs hskind
    exact ⟨s, by simp [findByAddress?, hfound], hs.1, hs.2.1, hskind, hs.2.2⟩

/-- Each target of the kind is the one found if it is visited first. -/
lemma exists_visiting (h : r.Holds address kind slot t) :
    ∃ order : List Target, order.Perm r.targets ∧
      (r.visiting order).findByAddress? address kind slot = some t := by
  refine ⟨t :: r.targets.erase t, (List.perm_cons_erase h.1).symm, ?_⟩
  simp [findByAddress?, visiting, h.2.1, h.2.2.1, h.2.2.2]

/-- A target is found in every order exactly if it is the only one of the kind. -/
lemma found_visiting_iff (h : r.Holds address kind slot t) :
    (∀ order, order.Perm r.targets →
        (r.visiting order).findByAddress? address kind slot = some t) ↔
      ∀ s, r.Holds address kind slot s → s = t := by
  constructor
  · intro hall s hs
    obtain ⟨order, horder, hfound⟩ := exists_visiting hs
    exact Option.some.inj (hfound.symm.trans (hall order horder))
  · intro honly order horder
    obtain ⟨s, hfound, hs⟩ := findByAddress?_of_holds ((holds_visiting horder).mpr h)
    rw [hfound, honly s ((holds_visiting horder).mp hs)]

/-- What is found is a target of the kind, or another drawn target if there is none. -/
lemma prefers_of_findByAddress? (h : r.findByAddress? address kind slot = some t) :
    r.Prefers address kind slot t := by
  obtain ⟨hmem, haddress, hslot, hkind⟩ := mem_of_findByAddress? h
  by_cases hnone : ∃ s, r.Holds address kind slot s
  · obtain ⟨s, hs⟩ := hnone
    obtain ⟨s', hfound, hs'⟩ := findByAddress?_of_holds hs
    rw [h] at hfound
    obtain rfl := Option.some.inj hfound
    exact .inl hs'
  · refine .inr ⟨not_exists.mp hnone, t.key.kind, ?_, hmem, haddress, rfl, hslot⟩
    refine hkind.resolve_left fun hk => ?_
    exact hnone ⟨t, hmem, haddress, hk, hslot⟩

/-- If nothing is found, there is nothing to prefer. -/
lemma not_prefers_of_none (h : r.findByAddress? address kind slot = none) :
    ¬ r.Prefers address kind slot t := by
  rw [findByAddress?, Option.or_eq_none_iff, List.find?_eq_none, List.find?_eq_none] at h
  rintro (⟨hmem, haddress, hkind, hslot⟩ | ⟨-, other, hdrawn, hmem, haddress, rfl, hslot⟩)
  · exact h.1 t (by simp [hmem, haddress, hslot]) (by simp [hkind])
  · exact h.2 t (by simp [hmem, haddress, hslot]) hdrawn

end Renderer

end Scanout
