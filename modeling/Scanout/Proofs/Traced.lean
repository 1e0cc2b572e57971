import Mathlib.Tactic.Common
import Scanout.Note

/-!
# Traced computations that succeed

A computation that leaves notes is taken apart into its steps, the notes set aside.
-/

namespace Scanout

namespace Traced

variable {α β : Type}

lemma bind_eq_ok {x : Traced α} {f : α → Traced β} {b : β} :
    (x >>= f).outcome = .ok b ↔ ∃ a, x.outcome = .ok a ∧ (f a).outcome = .ok b := by
  change (Traced.bind x f).outcome = _ ↔ _
  simp only [Traced.bind]
  cases x.outcome <;> simp

lemma bind_eq_error {x : Traced α} {f : α → Traced β} {e : Fault} :
    (x >>= f).outcome = .error e ↔
      x.outcome = .error e ∨ ∃ a, x.outcome = .ok a ∧ (f a).outcome = .error e := by
  change (Traced.bind x f).outcome = _ ↔ _
  simp only [Traced.bind]
  cases x.outcome <;> simp

lemma pure_eq_ok {a b : α} : (pure a : Traced α).outcome = .ok b ↔ a = b := by
  change Except.ok a = _ ↔ _
  simp

lemma lift_eq_ok {x : Except Fault α} {a : α} :
    (liftM x : Traced α).outcome = .ok a ↔ x = .ok a := Iff.rfl

/-- What every step keeps holds after all of them. -/
lemma foldlM_induct {motive : β → Prop} {f : β → α → Traced β} {as : List α} {b b' : β}
    (h : (as.foldlM f b).outcome = .ok b') (hb : motive b)
    (hstep : ∀ a ∈ as, ∀ b b', motive b → (f b a).outcome = .ok b' → motive b') : motive b' := by
  induction as generalizing b with
  | nil =>
    rw [List.foldlM_nil, pure_eq_ok] at h
    exact h ▸ hb
  | cons a as ih =>
    rw [List.foldlM_cons, bind_eq_ok] at h
    obtain ⟨next, hnext, h⟩ := h
    apply ih h (hstep a List.mem_cons_self b next hb hnext)
    intro a' ha'
    exact hstep a' (List.mem_cons_of_mem a ha')

lemma foldlM_append_eq_ok {f : β → α → Traced β} {as as' : List α} {b b' : β} :
    ((as ++ as').foldlM f b).outcome = .ok b' ↔
      ∃ next, (as.foldlM f b).outcome = .ok next ∧ (as'.foldlM f next).outcome = .ok b' := by
  induction as generalizing b with
  | nil => simp [pure_eq_ok]
  | cons a as ih =>
    simp only [List.cons_append, List.foldlM_cons, bind_eq_ok, ih]
    constructor
    · rintro ⟨c, hc, next, hnext, h⟩
      exact ⟨next, ⟨c, hc, hnext⟩, h⟩
    · rintro ⟨next, ⟨c, hc, hnext⟩, h⟩
      exact ⟨c, hc, next, hnext, h⟩

end Traced

lemma Except.bind_eq_ok_iff {ε α β : Type} {x : Except ε α} {f : α → Except ε β} {b : β} :
    (x >>= f) = .ok b ↔ ∃ a, x = .ok a ∧ f a = .ok b := by
  cases x <;> simp [bind, Except.bind]

/-- A list is mapped to one of the same length. -/
lemma length_of_mapM_eq_ok {α β : Type} {f : α → Except Fault β} {as : List α} {bs : List β}
    (h : as.mapM f = .ok bs) : bs.length = as.length := by
  induction as generalizing bs with
  | nil =>
    rw [List.mapM_nil] at h
    cases h
    rfl
  | cons a as ih =>
    simp only [List.mapM_cons, Except.bind_eq_ok_iff] at h
    obtain ⟨b, -, rest, hrest, h⟩ := h
    cases h
    rw [List.length_cons, List.length_cons, ih hrest]

end Scanout
