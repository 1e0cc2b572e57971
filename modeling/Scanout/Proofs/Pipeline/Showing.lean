import Scanout.Proofs.Pipeline.Images

/-!
# Presents show the images of their workloads

The first visible present of a workload shows all images that were rendered for it, each once and
in order, and every later one shows the final image. `Control.Showing` follows the present worker
through the presents of a run, as long as nothing is stopped.
-/

namespace Scanout

/-- A present shows something of its own. -/
def Present.visible (q : Present) : Bool := !q.again && q.screen.visible

/-- The images that a present has to show, as far as they are known. -/
def Production.due (p : Production) (first : Bool) : List Slot :=
  if first then p.produced else if p.complete then [.main] else []

/-- The present in hand counts among those that were looked at. -/
def PresentPhase.inspected : PresentPhase → Nat
  | .select _ | .compose .. | .settle .. | .show .. | .conclude .. | .finish _ => 1
  | _ => 0

namespace History

variable {log events : History} {q : Present}

/-- No earlier present showed something of the same workload. -/
def IsFirst (log : History) (q : Present) : Prop :=
  ∀ q' ∈ log.requested, q'.visible = true → q'.workloadId = q.workloadId → q.id ≤ q'.id

instance : Decidable (log.IsFirst q) :=
  inferInstanceAs (Decidable (∀ q' ∈ log.requested, _ → _ → _))

/-- A present has shown what it had to. -/
structure Shown (log : History) (q : Present) : Prop where
  hidden : q.visible = false → log.composedBy q = []
  finished : q.visible = true → 0 < q.workloadId → Slot.Finished (log.produced q.workloadId)
  first : q.visible = true → 0 < q.workloadId → log.IsFirst q →
    log.composedBy q = log.produced q.workloadId
  later : q.visible = true → 0 < q.workloadId → ¬ log.IsFirst q → log.composedBy q = [.main]

/-- Presents to come are not earlier. -/
lemma isFirst_append (h : Stamped (log ++ events)) (hq : q ∈ log.requested) :
    IsFirst (log ++ events) q ↔ log.IsFirst q := by
  constructor
  · intro hfirst q' hq'
    exact hfirst q' (by rw [requested_append]; exact List.mem_append_left _ hq')
  · intro hfirst q' hq'
    rw [requested_append] at hq'
    rcases List.mem_append.mp hq' with hq' | hq'
    · exact hfirst q' hq'
    · intro _ _
      obtain ⟨i, hi, rfl⟩ := List.getElem_of_mem hq
      obtain ⟨j, hj, rfl⟩ := List.getElem_of_mem hq'
      have hi' := (h.present i _ (by
        rw [requested_append, List.getElem?_append_left hi, List.getElem?_eq_getElem hi])).1
      have hj' := (h.present (log.requested.length + j) _ (by
        rw [requested_append, List.getElem?_append_right (Nat.le_add_right _ _),
          Nat.add_sub_cancel_left, List.getElem?_eq_getElem hj])).1
      omega

lemma isFirst_congr (h : events.requested = []) :
    IsFirst (log ++ events) q ↔ log.IsFirst q := by
  simp [IsFirst, h]

/-- What was shown stays so. -/
lemma Shown.append (h : log.Shown q) (hstamped : Stamped (log ++ events)) (hq : q ∈ log.requested)
    (hcomposed : events.composedBy q = [])
    (hproduced : Slot.Finished (log.produced q.workloadId) → events.produced q.workloadId = []) :
    Shown (log ++ events) q := by
  constructor
  · simpa [hcomposed] using h.hidden
  · intro hvisible hpos
    have hfinished := h.finished hvisible hpos
    simpa [hproduced hfinished] using hfinished
  · rw [isFirst_append hstamped hq]
    intro hvisible hpos hfirst
    simpa [hcomposed, hproduced (h.finished hvisible hpos)] using h.first hvisible hpos hfirst
  · rw [isFirst_append hstamped hq]
    intro hvisible hpos hfirst
    simpa [hcomposed] using h.later hvisible hpos hfirst

end History

namespace Production

variable {p p' : Production}

/-- More images are due, in the same order. -/
lemma Extends.due (h : p.Extends p') (first : Bool) : p.due first <+: p'.due first := by
  cases first with
  | true => exact h.produced
  | false =>
    by_cases hcomplete : p.complete = true
    · simp [Production.due, hcomplete, (h.closed hcomplete).1]
    · simp [Production.due, hcomplete]

end Production

namespace Control

/-- What holds while a visible present is shown and `count` slots were put together for it. -/
structure Shows (c : Control) (log : History) (job : PresentJob) (count : Nat) : Prop where
  visible : job.present.visible = true
  isFirst : 0 < job.present.workloadId → (job.first = true ↔ log.IsFirst job.present)
  notFirst : job.present.workloadId = 0 → job.first = false
  total : job.total = if job.first then max c.production.planned 1 else 1
  count_le : 0 < job.present.workloadId → count ≤ (c.production.due job.first).length
  composed : 0 < job.present.workloadId →
    log.composedBy job.present = (c.production.due job.first).take count

/-- The slot in hand is the one that is due. -/
structure Due (c : Control) (job : PresentJob) (slot : Slot) : Prop where
  due : 0 < job.present.workloadId → (c.production.due job.first)[job.index]? = some slot
  main : job.present.workloadId = 0 → slot = .main

/-- What holds in the phase of the present worker. -/
def PhaseShows (c : Control) (log : History) : Prop :=
  match c.present with
  | .showAgain job => job.present.again = true
  | .upload job | .inspect job => job.present.again = false ∧ job.index = 0
  | .select job => c.Shows log job job.index
  | .compose job slot => c.Shows log job job.index ∧ c.Due job slot
  | .settle job slot _ => c.Shows log job (job.index + 1) ∧ c.Due job slot
  | .show job _ => c.Shows log job (job.index + 1)
  | .conclude .. | .finish _ =>
    ∀ q, log.requested[log.presentsConsumed]? = some q → log.Shown q
  | _ => True

/-- The presents were shown one after the other. -/
structure Showing (c : Control) (log : History) : Prop where
  past : ∀ j q, j < log.presentsConsumed → log.requested[j]? = some q → log.Shown q
  composed : ∀ q slot, .composed q slot ∈ log → q.visible = true ∧
    (q.workloadId = 0 → slot = .main) ∧
    ∃ j, j < log.presentsConsumed + c.present.inspected ∧ log.requested[j]? = some q
  shown_le : ∀ j q, j < log.presentsConsumed + c.present.inspected →
    log.requested[j]? = some q → q.visible = true → q.workloadId ≤ c.shownWorkloadId
  shown : c.shownWorkloadId = 0 ∨ ∃ j q, j < log.presentsConsumed + c.present.inspected ∧
    log.requested[j]? = some q ∧ q.visible = true ∧ q.workloadId = c.shownWorkloadId
  phase : c.PhaseShows log

variable {c c' : Control} {log events : History} {n m : Nat} {job : PresentJob} {slot : Slot}

lemma Shows.append {count : Nat} (h : c.Shows log job count) (hstamped : (log ++ events).Stamped)
    (hin : job.present ∈ log.requested) (hcomposed : events.composedBy job.present = []) :
    c.Shows (log ++ events) job count where
  visible := h.visible
  isFirst hpos := by
    rw [History.isFirst_append hstamped hin]
    exact h.isFirst hpos
  notFirst := h.notFirst
  total := h.total
  count_le := h.count_le
  composed hpos := by
    rw [History.composedBy_append, hcomposed, List.append_nil, h.composed hpos]

lemma Shows.mono {count : Nat} (h : c.Shows log job count)
    (hextends : c.production.Extends c'.production) : c'.Shows log job count where
  visible := h.visible
  isFirst := h.isFirst
  notFirst := h.notFirst
  total := by
    rw [hextends.planned]
    exact h.total
  count_le hpos := (h.count_le hpos).trans (hextends.due _).length_le
  composed hpos := by
    obtain ⟨more, hmore⟩ := hextends.due job.first
    rw [h.composed hpos, ← hmore, List.take_append_of_le_length (h.count_le hpos)]

lemma Due.mono (h : c.Due job slot) (hextends : c.production.Extends c'.production) :
    c'.Due job slot where
  due hpos := by
    obtain ⟨more, hmore⟩ := hextends.due job.first
    have hdue := h.due hpos
    rw [← hmore, List.getElem?_append_left (List.getElem?_eq_some_iff.mp hdue).1]
    exact hdue
  main := h.main

/-- Presents that were looked at are requested already. -/
lemma Ordered.inspected_le (h : c.Ordered log) :
    log.presentsConsumed + c.present.inspected ≤ log.requested.length := by
  obtain ⟨_, hcounts, -⟩ := h.presents.counts
  have hle := hcounts.consumed_le
  cases hphase : c.present with
  | select | compose | settle | «show» | conclude | finish =>
    have hlt := (h.presents.claimed _ (by rw [hphase]; rfl)).1
    simp only [PresentPhase.inspected]
    omega
  | _ => exact hle

/-- The present in hand was let in, once its workload was waited for. -/
lemma Reached.admitted_of_present? (h : Reached n m log c) {q : Present}
    (hq : c.present.present? = some q) (hpast : ∀ place, c.present ≠ .await place q) :
    log.admitted? = some q := by
  have hin := h.ordered.presents.inHand q hq
  have hfacts := h.presentFacts
  simp only [PresentFacts] at hfacts
  cases hphase : c.present with
  | await place q' =>
    rw [hphase] at hq
    cases hq
    exact absurd hphase (hpast place)
  | claim | conclude | finish | release | leave | stopped | lost =>
    rw [hphase] at hq
    cases hq
  | _ =>
    simp only [hphase] at hfacts
    obtain ⟨-, q', hq', hin', -⟩ := hfacts
    obtain rfl := Option.some.inj (hin.symm.trans hin')
    exact hq'

/-- What was put together for the present in hand stays so. -/
lemma Shows.move (before : Reached n m log c) (move : c.Move events c') {count : Nat}
    (h : c.Shows log job count) (hq : c.present.present? = some job.present)
    (hpast : ∀ place, c.present ≠ .await place job.present)
    (hcomposed : ∀ q slot, .composed q slot ∉ events) : c'.Shows (log ++ events) job count :=
  (h.append (before.ordered.move move).stamped
    (List.mem_of_getElem? (before.ordered.presents.inHand _ hq))
    (History.composedBy_eq_nil (hcomposed _))).mono
    (before.extends move (before.admitted_of_present? hq hpast))

/-- The slot in hand stays the one that is due. -/
lemma Due.move (before : Reached n m log c) (move : c.Move events c') (h : c.Due job slot)
    (hq : c.present.present? = some job.present)
    (hpast : ∀ place, c.present ≠ .await place job.present) : c'.Due job slot :=
  h.mono (before.extends move (before.admitted_of_present? hq hpast))

namespace Showing

lemma start : (Control.start n m).Showing [] :=
  ⟨by simp, by simp, by simp, .inl rfl, trivial⟩

/-- No present is taken up, and no slot put together. -/
lemma keep (before : Reached n m log c) (move : c.Move events c') (h : c.Showing log)
    (hcomposed : ∀ q slot, .composed q slot ∉ events)
    (hinspected : (log ++ events).presentsConsumed + c'.present.inspected =
      log.presentsConsumed + c.present.inspected)
    (hshown : c'.shownWorkloadId = c.shownWorkloadId)
    (hpast : ∀ j q, j < (log ++ events).presentsConsumed → log.requested[j]? = some q →
      log.Shown q)
    (hphase : c'.PhaseShows (log ++ events)) : c'.Showing (log ++ events) := by
  have hle := before.ordered.inspected_le
  have hstamped := (before.ordered.move move).stamped
  have hrequested : ∀ {j : Nat}, j < log.presentsConsumed + c.present.inspected →
      (log ++ events).requested[j]? = log.requested[j]? := by
    intro j hj
    rw [History.requested_append, List.getElem?_append_left (Nat.lt_of_lt_of_le hj hle)]
  constructor
  · intro j q hj hq
    rw [hrequested (by omega)] at hq
    exact (hpast j q hj hq).append hstamped (List.mem_of_getElem? hq)
      (History.composedBy_eq_nil (hcomposed q)) (before.produced_of_finished move)
  · intro q slot hq
    obtain ⟨hvisible, hmain, j, hj, hin⟩ :=
      h.composed q slot ((List.mem_append.mp hq).resolve_right (hcomposed q slot))
    exact ⟨hvisible, hmain, j, hinspected ▸ hj, (hrequested hj).trans hin⟩
  · rw [hinspected, hshown]
    intro j q hj hq
    rw [hrequested hj] at hq
    exact h.shown_le j q hj hq
  · rw [hinspected, hshown]
    apply h.shown.imp_right
    rintro ⟨j, q, hj, hq, hvisible⟩
    exact ⟨j, q, hj, (hrequested hj).trans hq, hvisible⟩
  · exact hphase

/-- No present is taken up or consumed, and no slot put together. -/
lemma stay (before : Reached n m log c) (move : c.Move events c') (h : c.Showing log)
    (hcomposed : ∀ q slot, .composed q slot ∉ events) (hconsumed : events.presentsConsumed = 0)
    (hinspected : c'.present.inspected = c.present.inspected)
    (hshown : c'.shownWorkloadId = c.shownWorkloadId) (hphase : c'.PhaseShows (log ++ events)) :
    c'.Showing (log ++ events) := by
  have hsame : (log ++ events).presentsConsumed = log.presentsConsumed := by
    rw [History.presentsConsumed_append, hconsumed, Nat.add_zero]
  exact h.keep before move hcomposed (by rw [hsame, hinspected]) hshown (hsame ▸ h.past) hphase

/-- The present in hand has shown what it had to. -/
lemma shown_hand (before : Reached n m log c) (move : c.Move events c')
    (h : ∀ q, log.requested[log.presentsConsumed]? = some q → log.Shown q)
    (hlt : log.presentsConsumed < log.requested.length)
    (hcomposed : ∀ q slot, .composed q slot ∉ events) (hconsumed : events.presentsConsumed = 0) :
    ∀ q, (log ++ events).requested[(log ++ events).presentsConsumed]? = some q →
      (log ++ events).Shown q := by
  intro q hq
  rw [History.presentsConsumed_append, hconsumed, Nat.add_zero, History.requested_append,
    List.getElem?_append_left hlt] at hq
  exact (h q hq).append (before.ordered.move move).stamped (List.mem_of_getElem? hq)
    (History.composedBy_eq_nil (hcomposed q)) (before.produced_of_finished move)

/-- The other parties leave what was shown. -/
lemma other (before : Reached n m log c) (move : c.Move events c') (h : c.Showing log)
    (hparty : ∀ e ∈ events, e.party ≠ .present) (hpresent : c'.present = c.present)
    (hshown : c'.shownWorkloadId = c.shownWorkloadId) : c'.Showing (log ++ events) := by
  have hcomposed : ∀ q slot, .composed q slot ∉ events := fun q slot he => hparty _ he rfl
  have hconsumed := History.presentsConsumed_of_party hparty
  apply h.stay before move hcomposed hconsumed (by rw [hpresent]) hshown
  have hphase := h.phase
  simp only [PhaseShows] at hphase ⊢
  rw [hpresent]
  cases at_ : c.present with
  | select job =>
    simp only [at_] at hphase
    exact hphase.move before move (by rw [at_]; rfl) (by simp [at_]) hcomposed
  | compose job slot =>
    simp only [at_] at hphase
    exact ⟨hphase.1.move before move (by rw [at_]; rfl) (by simp [at_]) hcomposed,
      hphase.2.move before move (by rw [at_]; rfl) (by simp [at_])⟩
  | settle job slot image =>
    simp only [at_] at hphase
    exact ⟨hphase.1.move before move (by rw [at_]; rfl) (by simp [at_]) hcomposed,
      hphase.2.move before move (by rw [at_]; rfl) (by simp [at_])⟩
  | «show» job image =>
    simp only [at_] at hphase
    exact hphase.move before move (by rw [at_]; rfl) (by simp [at_]) hcomposed
  | conclude | finish =>
    simp only [at_] at hphase
    exact shown_hand before move hphase (before.ordered.presents.claimed _ (by rw [at_]; rfl)).1
      hcomposed hconsumed
  | showAgain | upload | inspect => simpa [at_] using hphase
  | _ => trivial

/-- Nothing was put together for a present that was not looked at. -/
lemma composedBy_hand (h : c.Showing log) (hstamped : log.Stamped) {q : Present}
    (hq : log.requested[log.presentsConsumed]? = some q) (hinspected : c.present.inspected = 0) :
    log.composedBy q = [] := by
  refine History.composedBy_eq_nil fun slot he => ?_
  obtain ⟨-, -, j, hj, hin⟩ := h.composed q slot he
  have hid := (hstamped.present _ _ hq).1
  have hid' := (hstamped.present _ _ hin).1
  omega

/-- A present that shows nothing has shown what it had to. -/
lemma shown_of_hidden (h : c.Showing log) (hstamped : log.Stamped) {q : Present}
    (hq : log.requested[log.presentsConsumed]? = some q) (hinspected : c.present.inspected = 0)
    (hhidden : q.visible = false) : log.Shown q := by
  refine ⟨fun _ => h.composedBy_hand hstamped hq hinspected, ?_, ?_, ?_⟩
  all_goals
    intro hvisible
    cases hhidden.symm.trans hvisible

/-- The present in hand is looked at. -/
lemma inspect (h : c.Showing log) (hstamped : log.Stamped) {q : Present}
    (hq : log.requested[log.presentsConsumed]? = some q) (hinspected : c.present.inspected = 0)
    (hinspected' : c'.present.inspected = 1)
    (hshown : c'.shownWorkloadId = if q.visible then q.workloadId else c.shownWorkloadId)
    (hphase : c'.PhaseShows log) : c'.Showing log := by
  have hshown_le : ∀ j q', j < log.presentsConsumed → log.requested[j]? = some q' →
      q'.visible = true → q'.workloadId ≤ c'.shownWorkloadId := by
    intro j q' hj hq' hvisible
    rw [hshown]
    split
    · exact hstamped.workloadId_le hj.le hq' hq
    · exact h.shown_le j q' (by omega) hq' hvisible
  constructor
  · exact h.past
  · intro q' slot he
    obtain ⟨hvisible, hmain, j, hj, hin⟩ := h.composed q' slot he
    exact ⟨hvisible, hmain, j, by omega, hin⟩
  · rw [hinspected']
    intro j q' hj hq' hvisible
    rcases Nat.lt_succ_iff_lt_or_eq.mp hj with hj | rfl
    · exact hshown_le j q' hj hq' hvisible
    · obtain rfl := Option.some.inj (hq.symm.trans hq')
      rw [hshown, if_pos hvisible]
  · rw [hinspected', hshown]
    split
    · exact .inr ⟨_, q, Nat.lt_succ_self _, hq, ‹_›, rfl⟩
    · apply h.shown.imp_right
      rintro ⟨j, q', hj, hin⟩
      exact ⟨j, q', by omega, hin⟩
  · exact hphase

/-- A present that shows nothing is passed over. -/
lemma hide (h : c.Showing log) (hstamped : log.Stamped) {q : Present}
    (hq : log.requested[log.presentsConsumed]? = some q) (hinspected : c.present.inspected = 0)
    (hhidden : q.visible = false) {place id : Nat} (at_' : c'.present = .conclude place id)
    (hshown : c'.shownWorkloadId = c.shownWorkloadId) : c'.Showing log := by
  apply h.inspect hstamped hq hinspected (by rw [at_']; rfl) (by simp [hhidden, hshown])
  simp only [PhaseShows, at_']
  intro q' hq'
  obtain rfl := Option.some.inj (hq.symm.trans hq')
  exact h.shown_of_hidden hstamped hq hinspected hhidden

/-- A present is the first one of its workload if the last workload shown is another one. -/
lemma isFirst_iff (h : c.Showing log) (hstamped : log.Stamped) {q : Present}
    (hq : log.requested[log.presentsConsumed]? = some q) (hinspected : c.present.inspected = 0)
    (hpos : 0 < q.workloadId) : q.workloadId ≠ c.shownWorkloadId ↔ log.IsFirst q := by
  have hid := (hstamped.present _ _ hq).1
  constructor
  · intro hne q' hq' hvisible hworkload
    by_contra hlt
    obtain ⟨j, hj⟩ := List.getElem?_of_mem hq'
    have hid' := (hstamped.present _ _ hj).1
    have hle := h.shown_le j q' (by omega) hj hvisible
    -- the last workload shown is not later
    rcases h.shown with hzero | ⟨i, q'', hi, hq'', -, heq⟩
    · omega
    · have hle' := hstamped.workloadId_le (by omega : i ≤ log.presentsConsumed) hq'' hq
      omega
  · intro hfirst heq
    rcases h.shown with hzero | ⟨i, q', hi, hq', hvisible, hworkload⟩
    · omega
    · have hle := hfirst q' (List.mem_of_getElem? hq') hvisible (hworkload.trans heq.symm)
      have hid' := (hstamped.present _ _ hq').1
      omega

/-- Nothing was put together for a visible present when it is looked at. -/
lemma shows (before : Reached n m log c) (h : c.Showing log) (at_ : c.present = .inspect job)
    (hvisible : job.present.visible = true) :
    c.Shows log
      { job with
        first := job.present.workloadId ≠ c.shownWorkloadId
        total :=
          if job.present.workloadId ≠ c.shownWorkloadId ∧
              c.production.workloadId = job.present.workloadId then
            max c.production.planned 1
          else 1 } 0 := by
  have hstamped := before.ordered.stamped
  have hin : log.requested[log.presentsConsumed]? = some job.present :=
    before.ordered.presents.inHand _ (by rw [at_]; rfl)
  have hinspected : c.present.inspected = 0 := by rw [at_]; rfl
  have hnotFirst : job.present.workloadId = 0 → c.shownWorkloadId = 0 := by
    intro hzero
    rcases h.shown with hshown | ⟨j, q, hj, hq, -, hshown⟩
    · exact hshown
    · have hle := hstamped.workloadId_le (by omega : j ≤ log.presentsConsumed) hq hin
      omega
  constructor
  · exact hvisible
  · intro hpos
    simpa using h.isFirst_iff hstamped hin hinspected hpos
  · intro hzero
    have hzero : job.present.workloadId = 0 := hzero
    simp [hzero, hnotFirst hzero]
  · by_cases hfirst : job.present.workloadId = c.shownWorkloadId
    · simp [hfirst]
    · have hid := before.production_of_admitted
        (before.admitted_of_present? (q := job.present) (by rw [at_]; rfl) (by simp [at_]))
        (by omega)
      simp [hfirst, hid]
  · intro _
    exact Nat.zero_le _
  · intro _
    rw [List.take_zero]
    exact h.composedBy_hand hstamped hin hinspected

end Showing

/-- The image of a first present that was selected, or that will not come. -/
lemma of_imageSlot_first (hrunning : c.running = true) (hpos : 0 < job.present.workloadId)
    (hid : c.production.workloadId = job.present.workloadId) (hfirst : job.first = true)
    {slot? : Option Slot} (himage : c.imageSlot job = some slot?) :
    (∃ slot, c.production.produced[job.index]? = some slot ∧ slot? = some slot) ∨
      c.production.produced[job.index]? = none ∧ c.production.complete = true ∧
        slot? = if job.index = 0 then some .main else none := by
  simp only [imageSlot] at himage
  simp only [if_neg hpos.ne', hfirst, Bool.not_true, Bool.false_eq_true, if_false,
    Option.map_eq_some_iff, Production.image, hid, hrunning, ne_eq, not_true_eq_false, false_or]
    at himage
  obtain ⟨known?, hknown, himage⟩ := himage
  cases hslot : c.production.produced[job.index]? with
  | some slot =>
    simp only [hslot, Option.some.injEq] at hknown
    rw [← hknown] at himage
    exact .inl ⟨slot, rfl, himage.symm⟩
  | none =>
    simp only [hslot] at hknown
    split at hknown
    · cases hknown
      exact .inr ⟨rfl, ‹_›, himage.symm⟩
    · cases hknown

/-- The final image is selected for a later present once the workload is complete. -/
lemma of_imageSlot_later (hrunning : c.running = true) (hpos : 0 < job.present.workloadId)
    (hid : c.production.workloadId = job.present.workloadId) (hfirst : job.first = false)
    {slot? : Option Slot} (himage : c.imageSlot job = some slot?) :
    c.production.complete = true ∧ slot? = some .main := by
  simp only [imageSlot] at himage
  simp only [if_neg hpos.ne', hfirst, Bool.not_false, if_true, Option.map_eq_some_iff,
    Production.completion, hid, hrunning, true_and, and_true] at himage
  obtain ⟨_, hcomplete, rfl⟩ := himage
  split at hcomplete
  · cases hcomplete
  · exact ⟨by simpa using ‹¬ (!c.production.complete) = true›, rfl⟩

/-- The slot that was selected is the one that is due. -/
lemma due_of_imageSlot (hrunning : c.running = true)
    (hid : 0 < job.present.workloadId → c.production.workloadId = job.present.workloadId)
    (hclosed : c.production.complete = true → c.production.Closed)
    (hindex : job.first = false → job.index = 0)
    (himage : c.imageSlot job = some (some slot)) : c.Due job slot := by
  constructor
  · intro hpos
    cases hfirst : job.first with
    | false =>
      obtain ⟨hcomplete, hmain⟩ := of_imageSlot_later hrunning hpos (hid hpos) hfirst himage
      simp [Production.due, hcomplete, hindex hfirst, Option.some.inj hmain]
    | true =>
      simp only [Production.due, if_true]
      rcases of_imageSlot_first hrunning hpos (hid hpos) hfirst himage with
        ⟨_, hslot, heq⟩ | ⟨hnone, hc, hmain⟩
      · rw [hslot, heq]
      · -- a complete production has a first image
        split at hmain
        · rename_i hzero
          obtain ⟨-, indices, hproduced, -⟩ := hclosed hc
          simp [hzero, hproduced] at hnone
        · cases hmain
  · intro hzero
    simp only [imageSlot, if_pos hzero, Option.some.injEq] at himage
    exact himage.symm

/-- If nothing is left to select, everything that is due was put together. -/
lemma Shows.due_length_le (h : c.Shows log job job.index) (hrunning : c.running = true)
    (himages : c.Images log) (hpos : 0 < job.present.workloadId)
    (hid : c.production.workloadId = job.present.workloadId)
    (hnone : job.total ≤ job.index ∨ c.imageSlot job = some none) :
    c.production.complete = true ∧ (c.production.due job.first).length ≤ job.index := by
  have hle := h.count_le hpos
  have htotal := h.total
  cases hfirst : job.first with
  | false =>
    simp only [hfirst, Production.due, Bool.false_eq_true, if_false] at htotal hle ⊢
    rcases hnone with hnone | hnone
    · by_cases hcomplete : c.production.complete = true
      · rw [if_pos hcomplete, List.length_singleton]
        exact ⟨hcomplete, by omega⟩
      · rw [if_neg hcomplete, List.length_nil] at hle
        omega
    · cases (of_imageSlot_later hrunning hpos hid hfirst hnone).2
  | true =>
    simp only [hfirst, Production.due, if_true] at htotal hle ⊢
    rcases hnone with hnone | hnone
    · have hlength := himages.length_le
      by_cases hcomplete : c.production.complete = true
      · exact ⟨hcomplete, by omega⟩
      · have hlt := himages.length_lt (by simpa using hcomplete) (by omega)
        omega
    · rcases of_imageSlot_first hrunning hpos hid hfirst hnone with
        ⟨_, -, heq⟩ | ⟨hslot, hcomplete, -⟩
      · cases heq
      · exact ⟨hcomplete, List.getElem?_eq_none_iff.mp hslot⟩

/-- A present for which nothing is left to select has shown what it had to. -/
lemma Shows.shown (h : c.Shows log job job.index) (hrunning : c.running = true)
    (himages : c.Images log) (hclosed : c.production.complete = true → c.production.Closed)
    (hid : 0 < job.present.workloadId → c.production.workloadId = job.present.workloadId)
    (hnone : job.total ≤ job.index ∨ c.imageSlot job = some none) : log.Shown job.present := by
  have hdone : 0 < job.present.workloadId → c.production.complete = true ∧
      log.composedBy job.present = c.production.due job.first := by
    intro hpos
    obtain ⟨hcomplete, hlength⟩ := h.due_length_le hrunning himages hpos (hid hpos) hnone
    exact ⟨hcomplete, (h.composed hpos).trans (List.take_of_length_le hlength)⟩
  constructor
  · intro hhidden
    cases hhidden.symm.trans h.visible
  · intro _ hpos
    rw [← hid hpos, himages.current]
    exact (hclosed (hdone hpos).1).2
  · intro _ hpos hfirst
    rw [(hdone hpos).2, (h.isFirst hpos).mpr hfirst, ← hid hpos, himages.current]
    rfl
  · intro _ hpos hfirst
    have hfalse : job.first = false := by
      rw [← Bool.not_eq_true]
      intro htrue
      exact hfirst ((h.isFirst hpos).mp htrue)
    simp [(hdone hpos).2, hfalse, Production.due, (hdone hpos).1]

/-- The slot that is due is put together. -/
lemma Shows.compose (h : c.Shows log job job.index) (hdue : c.Due job slot) :
    c.Shows (log ++ [.composed job.present slot]) job (job.index + 1) where
  visible := h.visible
  isFirst hpos := by
    rw [History.isFirst_congr rfl]
    exact h.isFirst hpos
  notFirst := h.notFirst
  total := h.total
  count_le hpos := (List.getElem?_eq_some_iff.mp (hdue.due hpos)).1
  composed hpos := by
    have hslot : History.composedBy [.composed job.present slot] job.present = [slot] := by
      simp [History.composedBy]
    rw [History.composedBy_append, h.composed hpos, hslot, List.take_add_one, hdue.due hpos]
    rfl

namespace Showing

/-- The slot that is due is put together. -/
lemma compose (before : Reached n m log c) (move : c.Move [.composed job.present slot] c')
    (h : c.Showing log) (at_ : c.present = .compose job slot) {image : Option Shown}
    (at_' : c'.present = .settle job slot image) (hshown : c'.shownWorkloadId = c.shownWorkloadId) :
    c'.Showing (log ++ [.composed job.present slot]) := by
  have hphase := h.phase
  simp only [PhaseShows, at_] at hphase
  obtain ⟨hshows, hdue⟩ := hphase
  have hq : log.requested[log.presentsConsumed]? = some job.present :=
    before.ordered.presents.inHand _ (by rw [at_]; rfl)
  have hstamped := before.ordered.stamped
  have hextends := before.extends move
    (before.admitted_of_present? (q := job.present) (by rw [at_]; rfl) (by simp [at_]))
  have hc : History.presentsConsumed [.composed job.present slot] = 0 := rfl
  have hr : History.requested [.composed job.present slot] = [] := rfl
  have hinspected : c'.present.inspected = c.present.inspected := by rw [at_, at_']; rfl
  constructor
  · simp only [History.presentsConsumed_append, History.requested_append, hc, hr, Nat.add_zero,
      List.append_nil]
    intro j q hj hin
    have hne : job.present ≠ q := by
      rintro rfl
      have hid := (hstamped.present _ _ hq).1
      have hid' := (hstamped.present _ _ hin).1
      omega
    have hnone : History.composedBy [.composed job.present slot] q = [] := by
      simp [History.composedBy, hne]
    exact (h.past j q hj hin).append (before.ordered.move move).stamped (List.mem_of_getElem? hin)
      hnone fun _ => rfl
  · simp only [History.presentsConsumed_append, History.requested_append, hc, hr, Nat.add_zero,
      List.append_nil, hinspected]
    intro q slot' he
    rcases List.mem_append.mp he with he | he
    · exact h.composed q slot' he
    · simp only [List.mem_singleton, Event.composed.injEq] at he
      rw [he.1, he.2]
      exact ⟨hshows.visible, hdue.main, _, by rw [at_]; exact Nat.lt_succ_self _, hq⟩
  · simpa only [History.presentsConsumed_append, History.requested_append, hc, hr, Nat.add_zero,
      List.append_nil, hinspected, hshown] using h.shown_le
  · simpa only [History.presentsConsumed_append, History.requested_append, hc, hr, Nat.add_zero,
      List.append_nil, hinspected, hshown] using h.shown
  · simp only [PhaseShows, at_']
    exact ⟨(hshows.compose hdue).mono hextends, hdue.mono hextends⟩

lemma present (before : Reached n m log c) (h : c.Showing log) (m : c.PresentMove events c')
    (hrunning : c'.running = true) : c'.Showing (log ++ events) := by
  have move := Move.present m
  have hrunning₀ := move.running hrunning
  have hstamped := before.ordered.stamped
  have hhand := before.ordered.presents.inHand
  have hphase := h.phase
  simp only [PhaseShows] at hphase
  have hleaving : c'.present.leaving = false := by
    by_contra hleaving
    have hhalts := (before.step move).halts.presentLeaving (by simpa using hleaving)
    cases hrunning.symm.trans hhalts
  have hid : ∀ {q : Present}, c.present.present? = some q → (∀ place, c.present ≠ .await place q) →
      0 < q.workloadId → c.production.workloadId = q.workloadId :=
    fun hq hpast => before.production_of_admitted (before.admitted_of_present? hq hpast)
  cases m with
  | close | giveUp | finishLost | leave => cases hleaving
  | uploadBroken at_ lost => cases lost <;> cases hleaving
  | composeBroken at_ lost => cases lost <;> cases hleaving
  | claim at_ got => exact h.stay before move (by simp) rfl (by rw [at_]; rfl) rfl trivial
  | pass at_ reached => exact h.stay before move (by simp) rfl (by rw [at_]; rfl) rfl trivial
  | enterAgain at_ again => exact h.stay before move (by simp) rfl (by rw [at_]; rfl) rfl again
  | enter at_ again => exact h.stay before move (by simp) rfl (by rw [at_]; rfl) rfl ⟨again, rfl⟩
  | @showAgain job at_ =>
    simp only [at_] at hphase
    have hin := hhand job.present (by rw [at_]; rfl)
    rw [List.append_nil]
    exact h.hide hstamped hin (by rw [at_]; rfl) (by simp [Present.visible, hphase]) rfl rfl
  | upload at_ =>
    simp only [at_] at hphase
    exact h.stay before move (by simp) rfl (by rw [at_]; rfl) rfl hphase
  | @blank job at_ blank =>
    have hin := hhand job.present (by rw [at_]; rfl)
    rw [List.append_nil]
    exact h.hide hstamped hin (by rw [at_]; rfl) (by simp [Present.visible, blank]) rfl rfl
  | @inspect job at_ visible =>
    simp only [at_] at hphase
    obtain ⟨hagain, hindex⟩ := hphase
    have hin := hhand job.present (by rw [at_]; rfl)
    have hvisible : job.present.visible = true := by simp [Present.visible, hagain, visible]
    have hshows := h.shows before at_ hvisible
    rw [List.append_nil]
    apply h.inspect hstamped hin (by rw [at_]; rfl) rfl (by simp [hvisible])
    simp only [PhaseShows, hindex]
    exact ⟨hshows.visible, hshows.isFirst, hshows.notFirst, hshows.total, hshows.count_le,
      hshows.composed⟩
  | @selectNone job at_ none_left =>
    simp only [at_] at hphase
    have hin := hhand job.present (by rw [at_]; rfl)
    have hshown := hphase.shown hrunning₀ before.images (before.closed hrunning₀)
      (hid (by rw [at_]; rfl) (by simp [at_])) none_left
    refine h.stay before move (by simp) rfl (by rw [at_]; rfl) rfl
      (shown_hand before move ?_ (before.ordered.presents.claimed _ (by rw [at_]; rfl)).1
        (by simp) rfl)
    intro q hq
    rwa [← Option.some.inj (hin.symm.trans hq)]
  | @select job slot at_ left image =>
    simp only [at_] at hphase
    have hindex : job.first = false → job.index = 0 := by
      intro hfirst
      have htotal := hphase.total
      simp only [hfirst, Bool.false_eq_true, if_false] at htotal
      omega
    have hdue := due_of_imageSlot hrunning₀ (hid (by rw [at_]; rfl) (by simp [at_]))
      (before.closed hrunning₀) hindex image
    exact h.stay before move (by simp) rfl (by rw [at_]; rfl) rfl
      ⟨hphase.move before move (by rw [at_]; rfl) (by simp [at_]) (by simp),
        hdue.move before move (by rw [at_]; rfl) (by simp [at_])⟩
  | compose at_ image => exact h.compose before move at_ rfl rfl
  | settle at_ =>
    simp only [at_] at hphase
    exact h.stay before move (by simp) rfl (by rw [at_]; rfl) rfl
      (hphase.1.move before move (by rw [at_]; rfl) (by simp [at_]) (by simp))
  | «show» at_ valid =>
    simp only [at_] at hphase
    have hshows := hphase.move before move (by rw [at_]; rfl) (by simp [at_]) (by simp)
    exact h.stay before move (by simp) rfl (by rw [at_]; rfl) rfl
      ⟨hshows.visible, hshows.isFirst, hshows.notFirst, hshows.total, hshows.count_le,
        hshows.composed⟩
  | conclude at_ =>
    simp only [at_] at hphase
    exact h.stay before move (by simp) rfl (by rw [at_]; rfl) rfl
      (shown_hand before move hphase (before.ordered.presents.claimed _ (by rw [at_]; rfl)).1
        (by simp) rfl)
  | finish at_ done =>
    simp only [at_] at hphase
    have hc : History.presentsConsumed [.presentConsumed] = 1 := rfl
    refine h.keep before move (by simp) ?_ rfl ?_ trivial
    · rw [History.presentsConsumed_append, hc, at_]
      rfl
    rw [History.presentsConsumed_append, hc]
    intro j q hj hq
    rcases Nat.lt_succ_iff_lt_or_eq.mp hj with hj | rfl
    · exact h.past j q hj hq
    · exact hphase q hq
  | release at_ => exact h.stay before move (by simp) rfl (by rw [at_]; rfl) rfl trivial

end Showing

lemma Reached.showing (h : Reached n m log c) (hrunning : c.running = true) : c.Showing log := by
  induction h with
  | start => exact .start
  | step before move ih =>
    have hshowing := ih (move.running hrunning)
    cases move with
    | render m =>
      exact hshowing.other before (.render m) (fun e he => by simp [m.party e he]) m.frame.present
        m.frame.shownWorkloadId
    | present m => exact hshowing.present before m hrunning
    | producer m =>
      exact hshowing.other before (.producer m) (fun e he => by simp [m.frame.party e he])
        m.frame.present m.frame.shownWorkloadId

/-- What was put together for the present in hand is the beginning of what it has to show. -/
lemma Shows.composedBy_due {count : Nat} (h : c.Shows log job count) (himages : c.Images log)
    (hpos : 0 < job.present.workloadId)
    (hid : c.production.workloadId = job.present.workloadId) :
    (log.IsFirst job.present →
      log.composedBy job.present <+: log.produced job.present.workloadId) ∧
    (¬ log.IsFirst job.present → log.composedBy job.present <+: [.main]) := by
  rw [h.composed hpos, ← h.isFirst hpos, ← hid, himages.current]
  constructor
  · intro hfirst
    simp only [hfirst, Production.due, if_true]
    exact List.take_prefix _ _
  · intro hfirst
    apply (List.take_prefix _ _).trans
    rw [Production.due, if_neg hfirst]
    split
    · exact List.prefix_rfl
    · exact List.nil_prefix

/-- What was put together for a present is the beginning of what it has to show. -/
lemma Reached.composedBy_due (h : Reached n m log c) (hrunning : c.running = true)
    {q : Present} (hq : q ∈ log.requested) (hpos : 0 < q.workloadId) :
    (log.IsFirst q → log.composedBy q <+: log.produced q.workloadId) ∧
      (¬ log.IsFirst q → log.composedBy q <+: [.main]) := by
  have hshowing := h.showing hrunning
  have hstamped := h.ordered.stamped
  obtain ⟨j, hj⟩ := List.getElem?_of_mem hq
  by_cases hcomposed : ∃ slot, .composed q slot ∈ log
  · obtain ⟨slot, he⟩ := hcomposed
    obtain ⟨hvisible, -, i, hi, hin⟩ := hshowing.composed q slot he
    have hshown : log.Shown q → (log.IsFirst q → log.composedBy q <+: log.produced q.workloadId) ∧
        (¬ log.IsFirst q → log.composedBy q <+: [.main]) := fun hshown =>
      ⟨fun hfirst => (hshown.first hvisible hpos hfirst) ▸ List.prefix_rfl,
        fun hfirst => (hshown.later hvisible hpos hfirst) ▸ List.prefix_rfl⟩
    rcases Nat.lt_or_ge i log.presentsConsumed with hlt | hge
    · exact hshown (hshowing.past i q hlt hin)
    · have hphase := hshowing.phase
      have hhand := h.ordered.presents.inHand
      have hle : c.present.inspected ≤ 1 := by cases c.present <;> simp [PresentPhase.inspected]
      obtain rfl : i = log.presentsConsumed := by omega
      have hjob : ∀ {job : PresentJob} {count : Nat}, c.Shows log job count →
          c.present.present? = some job.present →
          (∀ place, c.present ≠ .await place job.present) →
          (log.IsFirst q → log.composedBy q <+: log.produced q.workloadId) ∧
            (¬ log.IsFirst q → log.composedBy q <+: [.main]) := by
        intro job count hshows hq' hpast
        obtain rfl := Option.some.inj (hin.symm.trans (hhand _ hq'))
        exact hshows.composedBy_due h.images hpos
          (h.production_of_admitted (h.admitted_of_present? hq' hpast) hpos)
      simp only [PhaseShows] at hphase
      cases at_ : c.present with
      | select job =>
        simp only [at_] at hphase
        exact hjob hphase (by rw [at_]; rfl) (by simp [at_])
      | compose job slot =>
        simp only [at_] at hphase
        exact hjob hphase.1 (by rw [at_]; rfl) (by simp [at_])
      | settle job slot image =>
        simp only [at_] at hphase
        exact hjob hphase.1 (by rw [at_]; rfl) (by simp [at_])
      | «show» job image =>
        simp only [at_] at hphase
        exact hjob hphase (by rw [at_]; rfl) (by simp [at_])
      | conclude | finish =>
        simp only [at_] at hphase
        exact hshown (hphase q hin)
      | _ => simp [at_, PresentPhase.inspected] at hi
  · have hnil : log.composedBy q = [] :=
      History.composedBy_eq_nil fun slot he => hcomposed ⟨slot, he⟩
    rw [hnil]
    exact ⟨fun _ => List.nil_prefix, fun _ => List.nil_prefix⟩

/-- The signal was raised to every present that is done. -/
lemma Reached.le_of_done (h : Reached n m log c) {id : Nat} (hdone : .done id ∈ log) :
    id ≤ c.presentSignal.value := by
  induction h with
  | start => simp at hdone
  | step before move ih =>
    cases move with
    | render m =>
      rw [m.frame.presentValue]
      exact ih ((List.mem_append.mp hdone).resolve_right fun he => by cases m.party _ he)
    | producer m =>
      rw [m.frame.presentValue]
      exact ih ((List.mem_append.mp hdone).resolve_right fun he => by cases m.frame.party _ he)
    | present m =>
      rcases List.mem_append.mp hdone with hdone | hdone
      · exact (ih hdone).trans m.presentValue_le
      · cases m with
        | conclude at_ =>
          simp only [List.mem_singleton, Event.done.injEq] at hdone
          rw [hdone]
          exact Nat.le_max_right _ _
        | _ => simp at hdone

/-- A present that is done has shown what it had to. -/
lemma Reached.shown_of_done (h : Reached n m log c) (hrunning : c.running = true) {q : Present}
    (hq : q ∈ log.requested) (hdone : .done q.id ∈ log) : log.Shown q := by
  have hshowing := h.showing hrunning
  have hfacts := h.presentFacts
  have hphase := hshowing.phase
  have hle := h.le_of_done hdone
  obtain ⟨j, hj⟩ := List.getElem?_of_mem hq
  have hid := (h.ordered.stamped.present j q hj).1
  simp only [PresentFacts] at hfacts
  simp only [PhaseShows] at hphase
  cases at_ : c.present with
  | finish =>
    simp only [at_] at hfacts hphase
    rcases Nat.lt_or_ge j log.presentsConsumed with hlt | hge
    · exact hshowing.past j q hlt hj
    · obtain rfl : j = log.presentsConsumed := by omega
      exact hphase q hj
  | _ =>
    simp only [at_] at hfacts
    exact hshowing.past j q (by omega) hj

end Control

end Scanout
