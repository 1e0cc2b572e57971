import Mathlib.Data.Nat.ModEq
import Scanout.Ring

/-!
# What a ring stands for

A ring stands for the sequence of all items that were ever published in it. Item number `k` is
published in the slot `k` modulo the size and keeps it until it is released, so the three places of
a ring are counts: of the items published, consumed and released.
-/

namespace Scanout

namespace Ring

variable {α : Type} {r : Ring α} {items : List α} {consumed released i j k : Nat} {a : α}

/-- The slot being filled is published, or nothing but the mark of a waiting producer changes. -/
lemma advance_cases {attempt : Attempt Nat} {r' : Ring α} (h : r.advance = (attempt, r')) :
    (∃ place, attempt = .done place ∧
      r' = { r with write := r.after r.write, blocked := false }) ∨
    (∃ blocked, (attempt = .waiting ∨ attempt = .stopped) ∧ r' = { r with blocked }) := by
  simp only [advance] at h
  split at h
  · obtain ⟨rfl, rfl⟩ := Prod.mk.inj h
    exact .inr ⟨true, .inl rfl, rfl⟩
  · split at h
    · obtain ⟨rfl, rfl⟩ := Prod.mk.inj h
      exact .inl ⟨r.write, rfl, rfl⟩
    · obtain ⟨rfl, rfl⟩ := Prod.mk.inj h
      exact .inr ⟨false, .inr rfl, rfl⟩

lemma of_claim {place : Nat} (h : r.claim = .done place) : r.next ≠ r.write ∧ place = r.next := by
  simp only [claim] at h
  split at h
  · cases h
  · split at h
    · cases h
    · cases h
      exact ⟨‹_›, rfl⟩

lemma of_claim_eq_stopped (h : r.claim = .stopped) : r.running = false := by
  simp only [claim] at h
  split at h
  · simpa using ‹(!r.running) = true›
  · split at h <;> cases h

lemma of_finish {r' : Ring α} {place : Nat} (h : r.finish place = .ok r') :
    r.next = place ∧ r' = { r with next := r.after place } := by
  simp only [finish] at h
  split at h
  · exact ⟨‹_›, (Except.ok.inj h).symm⟩
  · cases h

lemma of_advance_eq_stopped {r' : Ring α} (h : r.advance = (.stopped, r')) :
    r.running = false := by
  simp only [advance] at h
  split at h
  · cases h
  · split at h
    · cases h
    · exact eq_false_of_ne_true ‹¬ r.running = true›

/-- The places of a ring stand for counts of items. -/
structure Counts (r : Ring α) (published consumed released : Nat) : Prop where
  size : 2 ≤ r.size
  released_le : released ≤ consumed
  consumed_le : consumed ≤ published
  room : published < released + r.size
  write : r.write = published % r.size
  next : r.next = consumed % r.size
  barrier : r.barrier = released % r.size

/-- The rings have the same slots and places. -/
structure Same (r r' : Ring α) : Prop where
  slots : r'.slots = r.slots
  write : r'.write = r.write
  next : r'.next = r.next
  barrier : r'.barrier = r.barrier

lemma Same.refl : r.Same r := ⟨rfl, rfl, rfl, rfl⟩

lemma Same.current?_eq {r' : Ring α} (h : r.Same r') : r'.current? = r.current? := by
  simp only [current?, slot?, size, h.slots, h.write]

lemma Same.stop : r.Same r.stop := ⟨rfl, rfl, rfl, rfl⟩

lemma size_of_advance {attempt : Attempt Nat} {r' : Ring α} (h : r.advance = (attempt, r')) :
    r'.size = r.size := by
  rcases advance_cases h with ⟨_, -, rfl⟩ | ⟨_, -, rfl⟩ <;> rfl

lemma same_of_advance {attempt : Attempt Nat} {r' : Ring α} (h : r.advance = (attempt, r'))
    (hnot : ∀ place, attempt ≠ .done place) : r.Same r' := by
  rcases advance_cases h with ⟨place, rfl, -⟩ | ⟨blocked, -, rfl⟩
  · exact absurd rfl (hnot place)
  · exact ⟨rfl, rfl, rfl, rfl⟩

/-- The slots hold the items from number `start` on. -/
def Holds (r : Ring α) (items : List α) (start : Nat) : Prop :=
  ∀ k, start ≤ k → ∀ a, items[k]? = some a → r.slot? k = some a

/-- Numbers less than a turn apart have different places. -/
lemma mod_eq_mod_iff {n : Nat} (hij : i ≤ j) (hn : j < i + n) : i % n = j % n ↔ i = j := by
  constructor
  · intro h
    have hdvd : n ∣ j - i := (Nat.modEq_iff_dvd' hij).mp h
    have hzero : j - i = 0 := Nat.eq_zero_of_dvd_of_lt hdvd (by omega)
    omega
  · rintro rfl
    rfl

lemma after_mod : r.after (k % r.size) = (k + 1) % r.size := by
  simp [after, Nat.add_mod]

lemma size_setSlot : (r.setSlot i a).size = r.size := by
  simp [setSlot, size]

lemma size_modifyCurrent {f : α → α} : (r.modifyCurrent f).size = r.size := by
  simp [modifyCurrent, size]

lemma slot?_setSlot_self (h : i < r.size) : (r.setSlot i a).slot? i = some a := by
  rw [slot?, size_setSlot, Nat.mod_eq_of_lt h]
  exact List.getElem?_set_self h

lemma slot?_setSlot_ne (h : k % r.size ≠ i) : (r.setSlot i a).slot? k = r.slot? k := by
  rw [slot?, size_setSlot]
  exact List.getElem?_set_ne h.symm

lemma modifyCurrent_modifyCurrent {f g : α → α} :
    (r.modifyCurrent f).modifyCurrent g = r.modifyCurrent (g ∘ f) := by
  simp only [modifyCurrent, List.modify_modify_eq]

lemma current?_modifyCurrent (h : r.write < r.size) {f : α → α} :
    (r.modifyCurrent f).current? = r.current?.map f := by
  have hsize : r.size = r.slots.length := rfl
  simp only [current?, slot?, size_modifyCurrent]
  rw [show (r.modifyCurrent f).write = r.write from rfl, Nat.mod_eq_of_lt h]
  simp [modifyCurrent]

/-- The slot that a ring moves on to can be changed. -/
lemma current?_modifyCurrent_of_advance {r' : Ring α} {place : Nat}
    (h : r.advance = (.done place, r')) {f : α → α} :
    (r'.modifyCurrent f).current? = r'.current?.map f := by
  rcases Nat.eq_zero_or_pos r.size with hnone | hsome
  · have hslots : r'.slots = [] := List.length_eq_zero_iff.mp ((size_of_advance h).trans hnone)
    simp [current?, slot?, modifyCurrent, hslots]
  · apply current?_modifyCurrent
    rcases advance_cases h with ⟨-, -, rfl⟩ | ⟨-, hnot, -⟩
    · exact Nat.mod_lt _ hsome
    · rcases hnot with hnot | hnot <;> cases hnot

lemma slot?_modifyCurrent_ne {f : α → α} (h : k % r.size ≠ r.write) :
    (r.modifyCurrent f).slot? k = r.slot? k := by
  rw [slot?, size_modifyCurrent]
  exact List.getElem?_modify_ne f _ h.symm

namespace Counts

variable {published : Nat}

lemma size_pos (h : r.Counts published consumed released) : 0 < r.size :=
  Nat.lt_of_lt_of_le Nat.two_pos h.size

/-- Nothing was published in a new ring. -/
lemma new {n : Nat} : (Ring.new n a).Counts 0 0 0 := by
  have hsize : (Ring.new n a).size = max n 2 := List.length_replicate
  constructor <;> simp [hsize] <;> rfl

lemma write_lt (h : r.Counts published consumed released) : r.write < r.size := by
  rw [h.write]
  exact Nat.mod_lt _ h.size_pos

/-- There is always a slot being filled. -/
lemma exists_current? (h : r.Counts published consumed released) : ∃ a, r.current? = some a := by
  rw [current?, slot?, Nat.mod_eq_of_lt h.write_lt]
  exact ⟨_, List.getElem?_eq_getElem h.write_lt⟩

/-- The slot after the one being filled is another one. -/
lemma after_write_ne_write (h : r.Counts published consumed released) :
    r.after r.write ≠ r.write := by
  have hsize := h.size
  rw [h.write, after_mod, Ne, eq_comm, mod_eq_mod_iff (by omega) (by omega)]
  omega

/-- The ring is full if its size is reached by the items that keep their slots, and the slot being
filled. -/
lemma after_write_eq_barrier_iff (h : r.Counts published consumed released) :
    r.after r.write = r.barrier ↔ published + 1 = released + r.size := by
  have hroom := h.room
  have hle := Nat.le_trans h.released_le h.consumed_le
  have hsize := h.size
  rw [h.write, h.barrier, after_mod, eq_comm]
  by_cases hfull : published + 1 = released + r.size
  · simp [hfull]
  · rw [mod_eq_mod_iff (by omega) (by omega)]
    omega

/-- All items are consumed exactly if the consumer has caught up with the producer. -/
lemma next_eq_write_iff (h : r.Counts published consumed released) :
    r.next = r.write ↔ consumed = published := by
  have hroom := h.room
  have hle := h.released_le
  rw [h.next, h.write, mod_eq_mod_iff h.consumed_le (by omega)]

/-- The consumer waits only if everything published was consumed. -/
lemma of_claim_waiting (h : r.Counts published consumed released) (hc : r.claim = .waiting) :
    consumed = published := by
  simp only [claim] at hc
  split at hc
  · cases hc
  · split at hc
    · exact h.next_eq_write_iff.mp ‹_›
    · cases hc

lemma congr (h : r.Counts published consumed released) {β : Type} {r' : Ring β}
    (hs : r'.size = r.size) (hw : r'.write = r.write) (hn : r'.next = r.next)
    (hb : r'.barrier = r.barrier) : r'.Counts published consumed released where
  size := hs ▸ h.size
  released_le := h.released_le
  consumed_le := h.consumed_le
  room := hs ▸ h.room
  write := by rw [hs, hw, h.write]
  next := by rw [hs, hn, h.next]
  barrier := by rw [hs, hb, h.barrier]

lemma same (h : r.Counts published consumed released) {r' : Ring α} (hs : r.Same r') :
    r'.Counts published consumed released :=
  h.congr (congrArg List.length hs.slots) hs.write hs.next hs.barrier

/-- A slot is published only if the ring is not full. -/
lemma of_advance (h : r.Counts published consumed released) {place : Nat} {r' : Ring α}
    (ha : r.advance = (.done place, r')) :
    r'.slots = r.slots ∧ r'.Counts (published + 1) consumed released := by
  have hroom := h.room
  simp only [advance] at ha
  split at ha
  · cases ha
  · split at ha
    · rename_i hfull hrunning
      obtain ⟨-, rfl⟩ := Prod.mk.inj ha
      have hfull : ¬published + 1 = released + r.size := by
        rw [← h.after_write_eq_barrier_iff]
        intro he
        exact hfull ⟨he, hrunning⟩
      exact ⟨rfl, h.size, h.released_le, Nat.le_succ_of_le h.consumed_le,
        by change published + 1 < released + r.size; omega, by rw [h.write, after_mod]; rfl, h.next,
        h.barrier⟩
    · cases ha

/-- The producer waits only if the ring is full. -/
lemma of_advance_waiting (h : r.Counts published consumed released) {r' : Ring α}
    (ha : r.advance = (.waiting, r')) : published + 1 = released + r.size ∧ r.running = true := by
  simp only [advance] at ha
  split at ha
  · rename_i hfull
    exact ⟨h.after_write_eq_barrier_iff.mp hfull.1, hfull.2⟩
  · split at ha <;> cases ha

/-- The item that was claimed can be consumed. -/
lemma consume (h : r.Counts published consumed released) (hlt : consumed < published) :
    r.finish (consumed % r.size) = .ok { r with next := r.after (consumed % r.size) } ∧
      { r with next := r.after (consumed % r.size) : Ring α }.Counts published (consumed + 1)
        released := by
  refine ⟨by simp [finish, h.next], ?_⟩
  exact ⟨h.size, Nat.le_succ_of_le h.released_le, hlt, h.room, h.write, after_mod, h.barrier⟩

/-- Slots can be released up to any item that was consumed. -/
lemma release (h : r.Counts published consumed released) (hle : released ≤ k) (hlt : k < consumed) :
    (r.releaseThrough (k % r.size)).Counts published consumed (k + 1) := by
  have hroom := h.room
  exact ⟨h.size, hlt, h.consumed_le, by change published < k + 1 + r.size; omega, h.write, h.next,
    after_mod⟩

/-- Slots can be released up to the item before one that was consumed. -/
lemma release_before (h : r.Counts published consumed released) (hle : released ≤ k)
    (hlt : k < consumed) :
    (r.releaseThrough (r.before (k % r.size))).Counts published consumed k := by
  have hroom := h.room
  have hpos := h.size_pos
  refine ⟨h.size, Nat.le_of_lt hlt, h.consumed_le, by change published < k + r.size; omega, h.write,
    h.next, ?_⟩
  change r.after (r.before (k % r.size)) = k % r.size
  have hk := Nat.mod_lt k hpos
  have hback : k % r.size + r.size - 1 + 1 = k % r.size + r.size := by omega
  rw [after, before, Nat.mod_add_mod, hback, Nat.add_mod_right, Nat.mod_mod]

end Counts

namespace Holds

variable {start : Nat}

lemma mono (h : r.Holds items start) {start' : Nat} (hle : start ≤ start') :
    r.Holds items start' :=
  fun k hk => h k (Nat.le_trans hle hk)

lemma of_slots_eq (h : r.Holds items start) {r' : Ring α} (hs : r'.slots = r.slots) :
    r'.Holds items start := by
  intro k hk a ha
  have := h k hk a ha
  simpa only [slot?, size, hs] using this

/-- Filling a slot leaves the items in theirs. -/
lemma of_slot?_eq (h : r.Holds items start)
    (hc : r.Counts items.length consumed released) (hstart : released ≤ start) {r' : Ring α}
    (hslot : ∀ k, k % r.size ≠ r.write → r'.slot? k = r.slot? k) : r'.Holds items start := by
  intro k hk a ha
  have hlt : k < items.length := (List.getElem?_eq_some_iff.mp ha).1
  have hroom := hc.room
  have hne : k % r.size ≠ r.write := by
    rw [hc.write, Ne, mod_eq_mod_iff (Nat.le_of_lt hlt) (by omega)]
    omega
  rw [hslot k hne]
  exact h k hk a ha

lemma modifyCurrent (h : r.Holds items start) (hc : r.Counts items.length consumed released)
    (hstart : released ≤ start) {f : α → α} : (r.modifyCurrent f).Holds items start :=
  h.of_slot?_eq hc hstart fun _ => slot?_modifyCurrent_ne

lemma setCurrent (h : r.Holds items start) (hc : r.Counts items.length consumed released)
    (hstart : released ≤ start) : (r.setCurrent a).Holds items start :=
  h.of_slot?_eq hc hstart fun _ => slot?_setSlot_ne

/-- The item that is published was in the slot being filled. -/
lemma publish (h : r.Holds items start) (hc : r.Counts items.length consumed released)
    (ha : r.current? = some a) : r.Holds (items ++ [a]) start := by
  intro k hk b hb
  rcases Nat.lt_trichotomy k items.length with hlt | rfl | hgt
  · rw [List.getElem?_append_left hlt] at hb
    exact h k hk b hb
  · rw [List.getElem?_concat_length, Option.some.injEq] at hb
    subst hb
    rw [← ha, current?, hc.write]
    simp only [slot?, Nat.mod_mod]
  · rw [List.getElem?_eq_none (by rw [List.length_append]; exact hgt)] at hb
    cases hb

/-- The oldest item can be taken out of its slot. -/
lemma take (h : r.Holds items start) (hc : r.Counts items.length consumed released)
    (hstart : released ≤ start) : (r.setSlot (start % r.size) a).Holds items (start + 1) := by
  intro k hk b hb
  have hlt : k < items.length := (List.getElem?_eq_some_iff.mp hb).1
  have hroom := hc.room
  have hne : k % r.size ≠ start % r.size := by
    rw [Ne, eq_comm, mod_eq_mod_iff (by omega) (by omega)]
    omega
  rw [slot?_setSlot_ne hne]
  exact h k (by omega) b hb

end Holds

end Ring

end Scanout
