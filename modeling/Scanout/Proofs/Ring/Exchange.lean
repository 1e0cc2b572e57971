import Mathlib.Tactic.Common
import Scanout.Proofs.Ring

/-!
# Exchanges

A producer and a consumer exchange items through a ring. The producer fills the slot in hand and
publishes it. The consumer claims a slot, reads it, has it consumed and releases it, or keeps it
until a later item was consumed. Whatever the order of their steps, the items arrive one after the
other as they were published, and no slot is filled again before it was released.
-/

namespace Scanout

namespace Ring

variable {α : Type}

/-- Where the consumer of a ring stands. -/
inductive Consumer where
  | idle
  /-- a slot was claimed, and its item is in use -/
  | holds (place : Nat)
  /-- the item was consumed, and its slot is about to be released, or kept -/
  | owes (place : Nat) (kept : Bool)
  | left
  deriving DecidableEq, Repr

/-- A ring between a producer and a consumer, and what was done with it so far. -/
structure Exchange (α : Type) where
  ring : Ring α
  consumer : Consumer
  /-- the items published, with their slots -/
  published : List (Nat × α)
  /-- the slots claimed -/
  claimed : List Nat
  /-- what was found in claimed slots, with the number of the claim -/
  reads : List (Nat × α)
  /-- the slots of the items consumed, and whether they were kept -/
  consumed : List (Nat × Bool)
  /-- the number of items whose slots were released -/
  released : Nat
  deriving DecidableEq

namespace Exchange

/-- A step of the producer or of the consumer. -/
inductive Move (α : Type) where
  /-- change the slot being filled -/
  | fill (f : α → α)
  /-- try to publish the slot being filled -/
  | advance
  | claim
  | read
  | finish (kept : Bool)
  | release
  /-- the consumer gives up the item in hand -/
  | quit
  | stop

/-- Nothing was exchanged yet. -/
def start (n : Nat) (a : α) : Exchange α := ⟨.new n a, .idle, [], [], [], [], 0⟩

/-- The exchange after a step; a step that is not possible changes nothing. -/
def act (s : Exchange α) : Move α → Exchange α
  | .fill f => { s with ring := s.ring.modifyCurrent f }
  | .advance =>
    match s.ring.advance with
    | (.done place, ring) =>
      { s with ring, published := s.published ++ s.ring.current?.toList.map (place, ·) }
    | (_, ring) => { s with ring }
  | .claim =>
    match s.consumer, s.ring.claim with
    | .idle, .done place =>
      { s with consumer := .holds place, claimed := s.claimed ++ [place] }
    | .idle, .stopped => { s with consumer := .left }
    | _, _ => s
  | .read =>
    match s.consumer with
    | .holds place =>
      { s with reads :=
          s.reads ++ (s.ring.slot? place).toList.map (s.claimed.length - 1, ·) }
    | _ => s
  | .finish kept =>
    match s.consumer with
    | .holds place =>
      match s.ring.finish place with
      | .ok ring =>
        { s with ring, consumer := .owes place kept, consumed := s.consumed ++ [(place, kept)] }
      | .error _ => { s with consumer := .left }
    | _ => s
  | .release =>
    match s.consumer with
    | .owes place kept =>
      { s with
        ring := s.ring.releaseThrough (if kept then s.ring.before place else place)
        consumer := .idle
        released := s.consumed.length - kept.toNat }
    | _ => s
  | .quit =>
    match s.consumer with
    | .holds _ => { s with consumer := .left }
    | _ => s
  | .stop => { s with ring := s.ring.stop }

/-- The exchange after several steps. -/
def follow (s : Exchange α) (moves : List (Move α)) : Exchange α := moves.foldl act s

@[simp] lemma follow_append {s : Exchange α} {moves moves' : List (Move α)} :
    s.follow (moves ++ moves') = (s.follow moves).follow moves' := List.foldl_append

end Exchange

/-- The places of the first items. -/
def places (r : Ring α) (count : Nat) : List Nat := (List.range count).map (· % r.size)

section Places

variable {r r' : Ring α} {i j k : Nat}

lemma places_succ : r.places (k + 1) = r.places k ++ [k % r.size] := by
  simp [places, List.range_succ]

lemma places_congr (h : r'.size = r.size) : r'.places k = r.places k := by
  simp only [places, h]

lemma places_prefix (h : i ≤ j) : r.places i <+: r.places j := by
  obtain ⟨d, rfl⟩ := Nat.exists_eq_add_of_le h
  induction d with
  | zero => exact List.prefix_rfl
  | succ d ih =>
    rw [← Nat.add_assoc, places_succ]
    exact (ih (Nat.le_add_right _ _)).trans (List.prefix_append _ _)

lemma getElem?_places (h : k < i) : (r.places i)[k]? = some (k % r.size) := by
  simp [places, List.getElem?_map, List.getElem?_range h]

end Places

lemma place_of_advance {r r' : Ring α} {place : Nat} (h : r.advance = (.done place, r')) :
    place = r.write := by
  simp only [advance] at h
  split at h
  · cases h
  · split at h
    · exact (Attempt.done.inj (Prod.mk.inj h).1).symm
    · cases h

namespace Exchange

variable {s : Exchange α}

/-- Where the consumer stands agrees with what it did. -/
def Stands (s : Exchange α) : Prop :=
  match s.consumer with
  | .idle => s.claimed.length = s.consumed.length
  | .holds place =>
    s.claimed.length = s.consumed.length + 1 ∧ place = s.consumed.length % s.ring.size
  | .owes place kept =>
    s.claimed.length = s.consumed.length ∧ s.released < s.consumed.length ∧
      s.consumed.getLast? = some (place, kept)
  | .left => True

/-- The places of the ring stand for what was done with it. -/
structure Consistent (s : Exchange α) : Prop where
  counts : s.ring.Counts s.published.length s.consumed.length s.released
  holds : s.ring.Holds (s.published.map Prod.snd) s.released
  published : s.published.map Prod.fst = s.ring.places s.published.length
  claimed : s.claimed = s.ring.places s.claimed.length
  consumed : s.consumed.map Prod.fst = s.ring.places s.consumed.length
  claimed_le : s.claimed.length ≤ s.published.length
  reads : ∀ k item, (k, item) ∈ s.reads →
    k < s.claimed.length ∧ (s.published.map Prod.snd)[k]? = some item
  stands : s.Stands
  kept : ∀ place, s.consumed.getLast? = some (place, true) → s.released < s.consumed.length

namespace Consistent

lemma start {n : Nat} {a : α} : (start n a).Consistent where
  counts := .new
  holds k _ b hb := by simp [Exchange.start] at hb
  published := rfl
  claimed := rfl
  consumed := rfl
  claimed_le := le_rfl
  reads k item h := by simp [Exchange.start] at h
  stands := rfl
  kept place h := by simp [Exchange.start] at h

/-- The ring may change as long as its places and the published items stay. -/
lemma withRing (h : s.Consistent) {ring : Ring α} (hsize : ring.size = s.ring.size)
    (hcounts : ring.Counts s.published.length s.consumed.length s.released)
    (hholds : ring.Holds (s.published.map Prod.snd) s.released) :
    { s with ring }.Consistent where
  counts := hcounts
  holds := hholds
  published := by
    rw [places_congr hsize]
    exact h.published
  claimed := by
    rw [places_congr hsize]
    exact h.claimed
  consumed := by
    rw [places_congr hsize]
    exact h.consumed
  claimed_le := h.claimed_le
  reads := h.reads
  stands := by
    have hstands := h.stands
    simp only [Stands] at hstands ⊢
    split <;> simp_all
  kept := h.kept

lemma fill (h : s.Consistent) {f : α → α} :
    { s with ring := s.ring.modifyCurrent f }.Consistent := by
  have hcounts : s.ring.Counts (s.published.map Prod.snd).length s.consumed.length s.released := by
    rw [List.length_map]
    exact h.counts
  apply h.withRing size_modifyCurrent
  · exact h.counts.congr size_modifyCurrent rfl rfl rfl
  · exact h.holds.modifyCurrent hcounts le_rfl

lemma same (h : s.Consistent) {ring : Ring α} (hsame : s.ring.Same ring) :
    { s with ring }.Consistent :=
  h.withRing (congrArg List.length hsame.slots) (h.counts.same hsame)
    (h.holds.of_slots_eq hsame.slots)

/-- The slot being filled is published. -/
lemma publish (h : s.Consistent) {place : Nat} {ring : Ring α} {a : α}
    (hadvance : s.ring.advance = (.done place, ring)) (ha : s.ring.current? = some a) :
    { s with ring, published := s.published ++ [(place, a)] }.Consistent := by
  obtain ⟨hslots, hcounts⟩ := h.counts.of_advance hadvance
  have hsize : ring.size = s.ring.size := congrArg List.length hslots
  have hplace : place = s.published.length % s.ring.size := by
    rw [place_of_advance hadvance, h.counts.write]
  have hitems : s.ring.Counts (s.published.map Prod.snd).length s.consumed.length s.released := by
    rw [List.length_map]
    exact h.counts
  constructor
  · simpa using hcounts
  · rw [List.map_append]
    exact (h.holds.publish hitems ha).of_slots_eq hslots
  · rw [places_congr hsize, List.map_append, List.length_append, List.length_singleton,
      places_succ, h.published, ← hplace]
    rfl
  · rw [places_congr hsize]
    exact h.claimed
  · rw [places_congr hsize]
    exact h.consumed
  · rw [List.length_append]
    exact Nat.le_add_right_of_le h.claimed_le
  · intro k item hread
    obtain ⟨hlt, hitem⟩ := h.reads k item hread
    refine ⟨hlt, ?_⟩
    rw [List.map_append, List.getElem?_append_left (List.getElem?_eq_some_iff.mp hitem).1]
    exact hitem
  · have hstands := h.stands
    simp only [Stands] at hstands ⊢
    split <;> simp_all
  · exact h.kept

lemma advance (h : s.Consistent) : (s.act .advance).Consistent := by
  simp only [act]
  rcases hadvance : s.ring.advance with ⟨attempt, ring⟩
  cases attempt with
  | done place =>
    obtain ⟨a, ha⟩ := h.counts.exists_current?
    rw [ha]
    exact h.publish hadvance ha
  | waiting => exact h.same (same_of_advance hadvance (by simp))
  | stopped => exact h.same (same_of_advance hadvance (by simp))

/-- An idle consumer claims the next item. -/
lemma claim (h : s.Consistent) : (s.act .claim).Consistent := by
  simp only [act]
  split
  · rename_i place hidle hclaim
    obtain ⟨hnext, rfl⟩ := of_claim hclaim
    have hstands := h.stands
    simp only [Stands, hidle] at hstands
    rw [Ne, h.counts.next_eq_write_iff] at hnext
    have hlt := lt_of_le_of_ne h.counts.consumed_le hnext
    have hplace : s.ring.next = s.claimed.length % s.ring.size := by
      rw [h.counts.next, hstands]
    refine ⟨h.counts, h.holds, h.published, ?_, h.consumed, ?_, ?_, ?_, h.kept⟩
    · rw [List.length_append, List.length_singleton, places_succ, ← h.claimed, ← hplace]
    · rw [List.length_append, List.length_singleton, hstands]
      exact hlt
    · intro k item hread
      obtain ⟨hk, hitem⟩ := h.reads k item hread
      rw [List.length_append]
      exact ⟨Nat.lt_add_right _ hk, hitem⟩
    · refine ⟨?_, h.counts.next⟩
      rw [List.length_append, hstands]
      rfl
  · exact ⟨h.counts, h.holds, h.published, h.claimed, h.consumed, h.claimed_le, h.reads, trivial,
      h.kept⟩
  · exact h

/-- The item in hand is as it was published. -/
lemma slot?_hand (h : s.Consistent) {place : Nat} (hholds : s.consumer = .holds place) :
    (s.published.map Prod.snd)[s.consumed.length]? = s.ring.slot? place := by
  have hstands := h.stands
  simp only [Stands, hholds] at hstands
  obtain ⟨hclaimed, rfl⟩ := hstands
  have hlt : s.consumed.length < (s.published.map Prod.snd).length := by
    rw [List.length_map]
    have hle := h.claimed_le
    omega
  have hslot := h.holds _ h.counts.released_le _ (List.getElem?_eq_getElem hlt)
  rw [List.getElem?_eq_getElem hlt, ← hslot]
  simp only [slot?, Nat.mod_mod]

lemma read (h : s.Consistent) : (s.act .read).Consistent := by
  simp only [act]
  split
  · rename_i place hholds
    have hstands := h.stands
    simp only [Stands, hholds] at hstands
    refine ⟨h.counts, h.holds, h.published, h.claimed, h.consumed, h.claimed_le, ?_, h.stands,
      h.kept⟩
    intro k item hread
    rcases List.mem_append.mp hread with hread | hread
    · exact h.reads k item hread
    · obtain ⟨item', hitem, heq⟩ := List.mem_map.mp hread
      obtain ⟨rfl, rfl⟩ := Prod.mk.inj heq
      rw [Option.mem_toList, ← h.slot?_hand hholds] at hitem
      rw [hstands.1, Nat.add_sub_cancel]
      exact ⟨Nat.lt_succ_self _, hitem⟩
  · exact h

/-- The item in hand is consumed. -/
lemma finish (h : s.Consistent) {kept : Bool} : (s.act (.finish kept)).Consistent := by
  simp only [act]
  split
  · rename_i place hholds
    have hstands := h.stands
    simp only [Stands, hholds] at hstands
    obtain ⟨hclaimed, rfl⟩ := hstands
    have hle := h.claimed_le
    have hreleased := h.counts.released_le
    obtain ⟨hfinish, hcounts⟩ := h.counts.consume (by omega)
    rw [hfinish]
    refine ⟨?_, h.holds.of_slots_eq rfl, h.published, h.claimed, ?_, h.claimed_le, h.reads, ?_, ?_⟩
    · simpa using hcounts
    · rw [List.map_append, List.length_append, List.length_singleton]
      exact (congrArg (· ++ _) h.consumed).trans places_succ.symm
    · simp [Stands, hclaimed, Nat.lt_succ_of_le hreleased]
    · intro _ _
      rw [List.length_append]
      exact Nat.lt_succ_of_le hreleased
  · exact h

/-- Places of items that were consumed. -/
lemma place_of_consumed (h : s.Consistent) {k place : Nat} {kept : Bool}
    (hk : s.consumed[k]? = some (place, kept)) : place = k % s.ring.size := by
  have hlt : k < s.consumed.length := (List.getElem?_eq_some_iff.mp hk).1
  have hplace : (s.consumed.map Prod.fst)[k]? = some place := by
    rw [List.getElem?_map, hk]
    rfl
  rw [h.consumed, getElem?_places hlt] at hplace
  exact (Option.some.inj hplace).symm

/-- The slot of the item that was consumed last is released, or kept. -/
lemma release (h : s.Consistent) : (s.act .release).Consistent := by
  simp only [act]
  split
  · rename_i place kept howes
    have hstands := h.stands
    simp only [Stands, howes] at hstands
    obtain ⟨hclaimed, hreleased, hlast⟩ := hstands
    obtain ⟨k, hk⟩ := Nat.exists_eq_succ_of_ne_zero (Nat.ne_zero_of_lt hreleased)
    have hlt : k < s.consumed.length := by omega
    have hle : s.released ≤ k := by omega
    obtain rfl : place = k % s.ring.size := by
      rw [List.getLast?_eq_getElem?, hk, Nat.succ_sub_one] at hlast
      exact h.place_of_consumed hlast
    cases kept with
    | true =>
      refine ⟨?_, (h.holds.mono ?_).of_slots_eq rfl, h.published, h.claimed, h.consumed,
        h.claimed_le, h.reads, hclaimed, ?_⟩
      · simpa [hk] using h.counts.release_before hle hlt
      · simpa [hk] using hle
      · intro _ _
        simp [hk]
    | false =>
      refine ⟨?_, (h.holds.mono ?_).of_slots_eq rfl, h.published, h.claimed, h.consumed,
        h.claimed_le, h.reads, hclaimed, ?_⟩
      · simpa [hk] using h.counts.release hle hlt
      · exact h.counts.released_le
      · intro place hlast'
        cases hlast.symm.trans hlast'
  · exact h

/-- A consumer that has left makes no claims. -/
lemma leave (h : s.Consistent) : { s with consumer := .left }.Consistent :=
  ⟨h.counts, h.holds, h.published, h.claimed, h.consumed, h.claimed_le, h.reads, trivial, h.kept⟩

/-- Every step keeps the places of the ring in step with what was done. -/
lemma act (h : s.Consistent) (m : Move α) : (s.act m).Consistent := by
  cases m with
  | fill f => exact h.fill
  | advance => exact h.advance
  | claim => exact h.claim
  | read => exact h.read
  | finish kept => exact h.finish
  | release => exact h.release
  | quit =>
    simp only [Exchange.act]
    split
    · exact h.leave
    · exact h
  | stop => exact h.same .stop

end Consistent

/-- Whatever the order of the steps, the places of the ring stand for what was done. -/
lemma Consistent.follow (h : s.Consistent) (moves : List (Move α)) :
    (s.follow moves).Consistent := by
  induction moves generalizing s with
  | nil => exact h
  | cons m moves ih => exact ih (h.act m)

/-- The slot of an item is not the one being filled until it is released. -/
lemma Consistent.place_ne_write (h : s.Consistent) {k : Nat} (hreleased : s.released ≤ k)
    (hpublished : k < s.published.length) : k % s.ring.size ≠ s.ring.write := by
  have hroom := h.counts.room
  rw [h.counts.write, Ne, mod_eq_mod_iff (Nat.le_of_lt hpublished) (by omega)]
  omega

/-- An idle consumer is not kept waiting while an item is left. -/
lemma Consistent.claim_eq_done (h : s.Consistent) (hidle : s.consumer = .idle)
    (hrunning : s.ring.running = true) (hlt : s.claimed.length < s.published.length) :
    s.ring.claim = .done (s.claimed.length % s.ring.size) := by
  have hstands := h.stands
  simp only [Stands, hidle] at hstands
  have hne : s.ring.next ≠ s.ring.write := by
    rw [Ne, h.counts.next_eq_write_iff]
    omega
  rw [hstands, ← h.counts.next]
  simp [Ring.claim, hrunning, hne]

/-- The number of an item says in which slot it was published. -/
lemma Consistent.place_of_published (h : s.Consistent) {k place : Nat} {item : α}
    (hk : s.published[k]? = some (place, item)) : place = k % s.ring.size := by
  have hlt : k < s.published.length := (List.getElem?_eq_some_iff.mp hk).1
  have hplace : (s.published.map Prod.fst)[k]? = some place := by
    rw [List.getElem?_map, hk]
    rfl
  rw [h.published, getElem?_places hlt] at hplace
  exact (Option.some.inj hplace).symm

lemma Consistent.exists_published (h : s.Consistent) {k : Nat} (hlt : k < s.published.length) :
    ∃ item, s.published[k]? = some (k % s.ring.size, item) := by
  have hk : s.published[k]? = some (s.published[k].1, s.published[k].2) :=
    List.getElem?_eq_getElem hlt
  refine ⟨s.published[k].2, ?_⟩
  rw [hk, h.place_of_published hk]

/-- In an exchange the consumer claims the slots in which the items were published, in their order,
and finds in them what was published; an idle consumer is not kept waiting while an item is left.
The slot of an item is unchanged, and not the one being filled, until it is released: so a slot that
is claimed and not consumed is never filled, and a slot that is kept is not released until a later
item was consumed. -/
theorem items_arrive_in_order (n : Nat) (a : α) (moves : List (Move α)) {s : Exchange α}
    (hs : (start n a).follow moves = s) :
    s.claimed <+: s.published.map Prod.fst ∧
    (∀ k item, (k, item) ∈ s.reads →
      ∃ place, s.claimed[k]? = some place ∧ s.published[k]? = some (place, item)) ∧
    (s.consumer = .idle → s.ring.running = true → s.claimed.length < s.published.length →
      ∃ place item, s.ring.claim = .done place ∧
        s.published[s.claimed.length]? = some (place, item)) ∧
    (∀ k place item, s.released ≤ k → s.published[k]? = some (place, item) →
      s.ring.slot? place = some item ∧ place ≠ s.ring.write) ∧
    (∀ place, s.consumer = .holds place →
      place ≠ s.ring.write ∧ ∃ ring, s.ring.finish place = .ok ring) ∧
    (∀ k place, s.consumed[k]? = some (place, true) → s.consumed.length = k + 1 →
      s.released ≤ k ∧ place ≠ s.ring.write) := by
  have h : s.Consistent := hs ▸ Consistent.start.follow moves
  have hreleased := h.counts.released_le
  have hconsumed := h.counts.consumed_le
  refine ⟨?_, ?_, ?_, ?_, ?_, ?_⟩
  · rw [h.claimed, h.published]
    exact places_prefix h.claimed_le
  · intro k item hread
    obtain ⟨hlt, hitem⟩ := h.reads k item hread
    obtain ⟨item', hpublished⟩ := h.exists_published (hlt.trans_le h.claimed_le)
    refine ⟨k % s.ring.size, ?_, ?_⟩
    · rw [h.claimed]
      exact getElem?_places hlt
    · rw [List.getElem?_map, hpublished] at hitem
      obtain rfl := Option.some.inj hitem
      exact hpublished
  · intro hidle hrunning hlt
    obtain ⟨item, hitem⟩ := h.exists_published hlt
    exact ⟨_, item, h.claim_eq_done hidle hrunning hlt, hitem⟩
  · intro k place item hk hitem
    obtain rfl := h.place_of_published hitem
    have hslot := h.holds k hk item (by rw [List.getElem?_map, hitem]; rfl)
    refine ⟨?_, h.place_ne_write hk (List.getElem?_eq_some_iff.mp hitem).1⟩
    rw [← hslot]
    simp only [slot?, Nat.mod_mod]
  · intro place hholds
    have hstands := h.stands
    simp only [Stands, hholds] at hstands
    obtain ⟨hclaimed, rfl⟩ := hstands
    have hle := h.claimed_le
    have hlt : s.consumed.length < s.published.length := by omega
    exact ⟨h.place_ne_write hreleased hlt, _, (h.counts.consume hlt).1⟩
  · intro k place hk hlast
    obtain rfl := h.place_of_consumed hk
    have hkept := h.kept _ (by rw [List.getLast?_eq_getElem?, hlast]; exact hk)
    have hle : s.released ≤ k := by omega
    exact ⟨hle, h.place_ne_write hle (by omega)⟩

/-- Three items go through a ring of three slots. The second is kept, so its slot is passed over
until the third was consumed. -/
def threeItems : List (Move Nat) :=
  [.fill fun _ => 7, .advance, .claim, .fill fun _ => 8, .read, .advance, .advance, .finish false,
    .release, .claim, .read, .finish true, .release, .fill fun _ => 9, .advance, .advance, .claim,
    .fill fun _ => 10, .read]

theorem kept_slot_passed_over :
    (∃ place, ((start 3 0).follow threeItems).claimed[2]? = some place ∧
      ((start 3 0).follow threeItems).published[2]? = some (place, 9)) ∧
    ((start 3 0).follow threeItems).released ≤ 1 ∧
    1 ≠ ((start 3 0).follow threeItems).ring.write := by
  obtain ⟨-, hreads, -, -, -, hkept⟩ := items_arrive_in_order 3 0 threeItems rfl
  exact ⟨hreads 2 9 (by decide), hkept 1 1 (by decide) (by decide)⟩

end Exchange

end Ring

end Scanout
