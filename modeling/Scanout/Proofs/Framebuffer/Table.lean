import Scanout.Framebuffer.Table
import Scanout.Proofs.Framebuffer.Check

/-!
# Tables of framebuffers

What a table of framebuffers holds at an address after it was changed at one. In a sound table every
framebuffer stands at its own address, and what it remembers of its memory belongs together.
-/

namespace Scanout

namespace FramebufferTable

variable {t t' : FramebufferTable} {address other : Nat} {fb : Framebuffer}

lemma lookup_entry {rest : List (Nat × Framebuffer)} :
    ((address, fb) :: rest).lookup other =
      if other = address then some fb else rest.lookup other := by
  by_cases h : other = address
  · rw [h, List.lookup_cons_self, if_pos rfl]
  · rw [List.lookup_cons, beq_false_of_ne h, if_neg h]

lemma lookup_insertEntry {entries : List (Nat × Framebuffer)} :
    (insertEntry address fb entries).lookup other =
      if other = address then some fb else entries.lookup other := by
  induction entries with
  | nil => rw [insertEntry, lookup_entry]
  | cons entry rest ih =>
    obtain ⟨a, f⟩ := entry
    rw [insertEntry]
    split
    · rw [lookup_entry]
    · split
      · rename_i h
        subst h
        simp only [lookup_entry]
        split <;> rfl
      · rename_i hne
        rw [lookup_entry, lookup_entry, ih]
        by_cases h : other = a
        · rw [if_pos h, if_pos h, if_neg (h ▸ Ne.symm hne)]
        · rw [if_neg h, if_neg h]

@[simp] lemma find?_insert_self : (t.insert address fb).find? address = some fb := by
  rw [find?, insert, lookup_insertEntry, if_pos rfl]

lemma find?_insert_of_ne (h : other ≠ address) :
    (t.insert address fb).find? other = t.find? other := by
  rw [find?, insert, lookup_insertEntry, if_neg h, find?]

lemma modify_of_find?_eq_some {f : Framebuffer → Framebuffer} (h : t.find? address = some fb) :
    t.modify address f = t.insert address (f fb) := by
  rw [modify, h]

lemma modify_of_find?_eq_none {f : Framebuffer → Framebuffer} (h : t.find? address = none) :
    t.modify address f = t := by
  rw [modify, h]

lemma find?_modify_of_ne {f : Framebuffer → Framebuffer} (h : other ≠ address) :
    (t.modify address f).find? other = t.find? other := by
  rw [modify]
  split
  · exact find?_insert_of_ne h
  · rfl

/-- The framebuffer of the table in the given format, or a new one. -/
def requested (t : FramebufferTable) (address : Nat) (size : PixelSize) (width height : Nat) :
    Framebuffer :=
  match t.find? address with
  | some fb => fb.withFormat size width height
  | none => .new address size width height

lemma get_eq_ok {size : PixelSize} {width height : Nat}
    (h : (t.get address size width height).outcome = .ok (fb, t')) :
    fb = t.requested address size width height ∧ t' = t.insert address fb := by
  simp only [get] at h
  rw [requested]
  cases hfind : t.find? address with
  | some known =>
    simp only [hfind, Traced.bind_eq_ok, Framebuffer.reformat_eq_ok] at h
    obtain ⟨_, rfl, h⟩ := h
    cases Traced.pure_eq_ok.mp h
    exact ⟨rfl, rfl⟩
  | none =>
    simp only [hfind, Traced.bind_eq_ok, Traced.pure_eq_ok] at h
    obtain ⟨_, -, _, rfl, h⟩ := h
    cases h
    exact ⟨rfl, rfl⟩

lemma check_eq_ok {ram : ByteArray} {change : Option MemoryChange}
    (h : (t.check address ram).outcome = .ok (change, t')) :
    (∃ fb fb', t.find? address = some fb ∧ (fb.check ram).outcome = .ok (change, fb') ∧
      t' = t.insert address fb') ∨ (change = none ∧ t' = t) := by
  rw [check] at h
  cases hfind : t.find? address with
  | some fb =>
    simp only [hfind, Traced.bind_eq_ok] at h
    obtain ⟨⟨_, fb'⟩, hcheck, h⟩ := h
    cases Traced.pure_eq_ok.mp h
    exact .inl ⟨fb, fb', rfl, hcheck, rfl⟩
  | none =>
    simp only [hfind] at h
    cases Traced.pure_eq_ok.mp h
    exact .inr ⟨rfl, rfl⟩

/-- Every framebuffer stands at its own address and remembers what belongs together. -/
def Sound (t : FramebufferTable) : Prop :=
  ∀ address fb, t.find? address = some fb → fb.address = address ∧ fb.Remembers

namespace Sound

lemma empty : FramebufferTable.empty.Sound := by
  intro address fb h
  cases h

lemma insert (h : t.Sound) (haddress : fb.address = address) (hfb : fb.Remembers) :
    (t.insert address fb).Sound := by
  intro other fb' hfind
  by_cases hother : other = address
  · subst hother
    rw [find?_insert_self] at hfind
    cases hfind
    exact ⟨haddress, hfb⟩
  · rw [find?_insert_of_ne hother] at hfind
    exact h other fb' hfind

lemma modify (h : t.Sound) {f : Framebuffer → Framebuffer}
    (hf : ∀ fb : Framebuffer, fb.Remembers → (f fb).address = fb.address ∧ (f fb).Remembers) :
    (t.modify address f).Sound := by
  cases hfind : t.find? address with
  | some fb =>
    obtain ⟨haddress, hfb⟩ := h address fb hfind
    rw [modify_of_find?_eq_some hfind]
    exact h.insert ((hf fb hfb).1.trans haddress) (hf fb hfb).2
  | none =>
    rw [modify_of_find?_eq_none hfind]
    exact h

lemma recordWrite (h : t.Sound) {type : WriteType} {rect : Rect} {stamp : Nat} :
    (t.recordWrite address type rect stamp).Sound :=
  h.modify fun _ hfb => ⟨rfl, hfb.recordWrite⟩

lemma requested (h : t.Sound) {size : PixelSize} {width height : Nat} :
    (t.requested address size width height).address = address ∧
      (t.requested address size width height).Remembers := by
  rw [FramebufferTable.requested]
  cases hfind : t.find? address with
  | some known =>
    obtain ⟨haddress, hknown⟩ := h address known hfind
    exact ⟨Framebuffer.address_withFormat.trans haddress, hknown.withFormat⟩
  | none => exact ⟨rfl, .new⟩

lemma get (h : t.Sound) {size : PixelSize} {width height : Nat}
    (hget : (t.get address size width height).outcome = .ok (fb, t')) : t'.Sound := by
  obtain ⟨rfl, rfl⟩ := get_eq_ok hget
  exact h.insert h.requested.1 h.requested.2

lemma check (h : t.Sound) {ram : ByteArray} {change : Option MemoryChange}
    (hcheck : (t.check address ram).outcome = .ok (change, t')) : t'.Sound := by
  rcases check_eq_ok hcheck with ⟨fb, fb', hfind, hfound, rfl⟩ | ⟨-, rfl⟩
  · obtain ⟨haddress, hfb⟩ := h address fb hfind
    exact h.insert ((Framebuffer.address_of_check hfound).trans haddress) (hfb.check hfound)
  · exact h

end Sound

end FramebufferTable

end Scanout
