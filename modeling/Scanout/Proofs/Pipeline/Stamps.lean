import Mathlib.Order.Nat
import Scanout.Proofs.Pipeline.Run

/-!
# Stamps

The workloads and the presents of a run are numbered in the order in which they are submitted, and
each is stamped with the number of the last one of the other kind. So of a workload and a present
exactly one knows of the other.
-/

namespace Scanout

/-- The elements of a list with one more at its end. -/
lemma getElem?_concat {α : Type} {l : List α} {a b : α} {k : Nat} (h : (l ++ [a])[k]? = some b) :
    l[k]? = some b ∨ (k = l.length ∧ b = a) := by
  rcases Nat.lt_trichotomy k l.length with hlt | rfl | hgt
  · rw [List.getElem?_append_left hlt] at h
    exact .inl h
  · rw [List.getElem?_concat_length, Option.some.injEq] at h
    exact .inr ⟨rfl, h.symm⟩
  · rw [List.getElem?_eq_none (by rw [List.length_append]; exact hgt)] at h
    cases h

namespace History

variable {log events : History}

@[simp] lemma submitted_nil : submitted [] = [] := rfl

@[simp] lemma requested_nil : requested [] = [] := rfl

@[simp] lemma workloadsConsumed_nil : workloadsConsumed [] = 0 := rfl

@[simp] lemma presentsConsumed_nil : presentsConsumed [] = 0 := rfl

@[simp] lemma submitted_append : submitted (log ++ events) = log.submitted ++ events.submitted :=
  List.filterMap_append

@[simp] lemma requested_append : requested (log ++ events) = log.requested ++ events.requested :=
  List.filterMap_append

@[simp] lemma workloadsConsumed_append :
    workloadsConsumed (log ++ events) = log.workloadsConsumed + events.workloadsConsumed :=
  List.count_append

@[simp] lemma presentsConsumed_append :
    presentsConsumed (log ++ events) = log.presentsConsumed + events.presentsConsumed :=
  List.count_append

/-- Workloads and presents are stamped in the order in which they are submitted. -/
structure Stamped (log : History) : Prop where
  workload : ∀ (k : Nat) (w : Workload), log.submitted[k]? = some w →
    w.id = k + 1 ∧ w.presentId ≤ log.requested.length
  present : ∀ (j : Nat) (q : Present), log.requested[j]? = some q →
    q.id = j + 1 ∧ q.workloadId ≤ log.submitted.length
  /-- of a workload and a present, exactly one knows of the other -/
  precedes : ∀ w ∈ log.submitted, ∀ q ∈ log.requested, q.id ≤ w.presentId ↔ q.workloadId < w.id

namespace Stamped

lemma nil : Stamped [] := ⟨by simp, by simp, by simp⟩

/-- Events that submit nothing change nothing. -/
lemma congr (h : log.Stamped) (hs : events.submitted = []) (hr : events.requested = []) :
    Stamped (log ++ events) := by
  constructor
  · simpa [hs, hr] using h.workload
  · simpa [hs, hr] using h.present
  · simpa [hs, hr] using h.precedes

lemma id_le_of_mem_submitted (h : log.Stamped) {w : Workload} (hw : w ∈ log.submitted) :
    w.id ≤ log.submitted.length ∧ w.presentId ≤ log.requested.length := by
  obtain ⟨k, hk, rfl⟩ := List.getElem_of_mem hw
  obtain ⟨hid, hle⟩ := h.workload k _ (List.getElem?_eq_getElem hk)
  exact ⟨by omega, hle⟩

lemma id_le_of_mem_requested (h : log.Stamped) {q : Present} (hq : q ∈ log.requested) :
    q.id ≤ log.requested.length ∧ q.workloadId ≤ log.submitted.length := by
  obtain ⟨j, hj, rfl⟩ := List.getElem_of_mem hq
  obtain ⟨hid, hle⟩ := h.present j _ (List.getElem?_eq_getElem hj)
  exact ⟨by omega, hle⟩

/-- A workload that is submitted knows of all presents so far. -/
lemma submit (h : log.Stamped) {w : Workload} (hid : w.id = log.submitted.length + 1)
    (hpresentId : w.presentId = log.requested.length) : Stamped (log ++ [Event.submitted w]) := by
  have hs : submitted [.submitted w] = [w] := rfl
  have hr : requested [.submitted w] = [] := rfl
  constructor
  · intro k v hv
    simp only [submitted_append, requested_append, hs, hr, List.append_nil] at hv ⊢
    rcases getElem?_concat hv with hv | ⟨rfl, rfl⟩
    · exact h.workload k v hv
    · exact ⟨hid, hpresentId.le⟩
  · intro j q hq
    simp only [submitted_append, requested_append, hs, hr, List.append_nil, List.length_append,
      List.length_singleton] at hq ⊢
    obtain ⟨hj, hle⟩ := h.present j q hq
    exact ⟨hj, Nat.le_succ_of_le hle⟩
  · simp only [submitted_append, requested_append, hs, hr, List.append_nil, List.mem_append,
      List.mem_singleton]
    rintro v (hv | rfl) q hq
    · exact h.precedes v hv q hq
    · obtain ⟨hle, hle'⟩ := h.id_le_of_mem_requested hq
      constructor <;> intro <;> omega

/-- A present that is submitted knows of all workloads so far. -/
lemma request (h : log.Stamped) {q : Present} (hid : q.id = log.requested.length + 1)
    (hworkloadId : q.workloadId = log.submitted.length) : Stamped (log ++ [Event.requested q]) := by
  have hs : submitted [.requested q] = [] := rfl
  have hr : requested [.requested q] = [q] := rfl
  constructor
  · intro k w hw
    simp only [submitted_append, requested_append, hs, hr, List.append_nil, List.length_append,
      List.length_singleton] at hw ⊢
    obtain ⟨hk, hle⟩ := h.workload k w hw
    exact ⟨hk, Nat.le_succ_of_le hle⟩
  · intro j v hv
    simp only [submitted_append, requested_append, hs, hr, List.append_nil] at hv ⊢
    rcases getElem?_concat hv with hv | ⟨rfl, rfl⟩
    · exact h.present j v hv
    · exact ⟨hid, hworkloadId.le⟩
  · simp only [submitted_append, requested_append, hs, hr, List.append_nil, List.mem_append,
      List.mem_singleton]
    rintro w hw v (hv | rfl)
    · exact h.precedes w hw v hv
    · obtain ⟨hle, hle'⟩ := h.id_le_of_mem_submitted hw
      constructor <;> intro <;> omega

/-- Presents are stamped with workloads in order. -/
lemma workloadId_le (h : log.Stamped) {i j : Nat} {q q' : Present} (hij : i ≤ j)
    (hq : log.requested[i]? = some q) (hq' : log.requested[j]? = some q') :
    q.workloadId ≤ q'.workloadId := by
  obtain ⟨hid, hle⟩ := h.present i q hq
  obtain ⟨hid', -⟩ := h.present j q' hq'
  by_contra hlt
  -- the workload that `q` knows of and `q'` does not
  have hbound : q.workloadId - 1 < log.submitted.length := by omega
  have hw := List.getElem?_eq_getElem hbound
  have hwid := (h.workload _ _ hw).1
  have hprecedes := h.precedes _ (List.mem_of_getElem? hw) q (List.mem_of_getElem? hq)
  have hprecedes' := h.precedes _ (List.mem_of_getElem? hw) q' (List.mem_of_getElem? hq')
  omega

/-- Presents are told apart by their numbers. -/
lemma eq_of_id_eq (h : log.Stamped) {q q' : Present} (hq : q ∈ log.requested)
    (hq' : q' ∈ log.requested) (hid : q.id = q'.id) : q = q' := by
  obtain ⟨j, hj⟩ := List.getElem?_of_mem hq
  obtain ⟨j', hj'⟩ := List.getElem?_of_mem hq'
  have hnumber := (h.present j q hj).1
  have hnumber' := (h.present j' q' hj').1
  obtain rfl : j = j' := by omega
  exact Option.some.inj (hj.symm.trans hj')

end Stamped

end History

end Scanout
