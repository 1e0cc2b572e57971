import Scanout.Proofs.Pipeline.Images

/-!
# Who waits for whom

A worker has no step only where it waits: for an item of its ring, for the signal of the other
worker, or for an image. The workloads and presents of a run are ordered by their stamps, so the two
workers never wait for each other, and as long as nothing is stopped one of them can go on while
anything is left to do.
-/

namespace Scanout

namespace Control

/-- The render worker has no step. -/
def RenderWaits (c : Control) : Prop :=
  match c.render with
  | .claim => c.workloads.claim = .waiting
  | .await place => c.presentSignal.wait (c.workloadAt place).presentId = none
  | .stopped | .lost => True
  | _ => False

/-- The present worker has no step. -/
def PresentWaits (c : Control) : Prop :=
  match c.present with
  | .claim => c.presents.claim = .waiting
  | .await _ q => c.workloadSignal.wait q.workloadId = none
  | .select job => job.index < job.total ∧ c.imageSlot job = none
  | .stopped | .lost => True
  | _ => False

/-- The producer's call waits for a slot. -/
def Blocked (c : Control) : Prop :=
  match c.pending with
  | some (.workload _) => c.workloads.advance.1 = .waiting
  | some (.present _) => c.presents.advance.1 = .waiting
  | none => False

end Control

namespace Pipeline

variable {p : Pipeline}

lemma renderStep_eq_none_iff : p.renderStep = none ↔ p.control.RenderWaits := by
  have hrender : p.control.render = p.render := rfl
  unfold Control.RenderWaits renderStep
  rw [hrender]
  cases hphase : p.render with
  | claim =>
    change _ ↔ p.workloads.claim = .waiting
    cases p.workloads.claim <;> simp
  | await place =>
    change _ ↔ p.shared.presentSignal.wait (p.workloadAt place).presentId = none
    dsimp only
    cases p.shared.presentSignal.wait (p.workloadAt place).presentId with
    | none => simp
    | some reached => cases reached <;> simp
  | finish place paused =>
    dsimp only
    cases p.workloads.finish place <;> simp
  | _ => simp

lemma presentStep_eq_none_iff : p.presentStep = none ↔ p.control.PresentWaits := by
  have hpresent : p.control.present = p.present := rfl
  unfold Control.PresentWaits presentStep
  rw [hpresent]
  cases hphase : p.present with
  | claim =>
    change _ ↔ p.presents.claim = .waiting
    cases p.presents.claim <;> simp
  | await place q =>
    change _ ↔ p.shared.workloadSignal.wait q.workloadId = none
    dsimp only
    cases p.shared.workloadSignal.wait q.workloadId with
    | none => simp
    | some reached => cases reached <;> simp
  | select job =>
    change p.selectImage job = none ↔ job.index < job.total ∧ p.imageSlot job = none
    simp only [selectImage]
    split
    · simp [*]
    · simp [*, Nat.lt_of_not_le]
  | finish place =>
    dsimp only
    cases p.presents.finish place <;> simp
  | _ => simp

lemma blocked_of_producerStep_eq_none (hpending : p.producer.pending ≠ none)
    (h : p.producerStep = none) : p.control.Blocked := by
  obtain ⟨item, hitem⟩ := Option.ne_none_iff_exists'.mp hpending
  have hcontrol : p.control.pending = some item := hitem
  simp only [producerStep, hitem, Option.bind_eq_bind, Option.bind_some] at h
  simp only [Control.Blocked]
  rw [hcontrol]
  cases item with
  | workload id =>
    change p.workloads.advance.1 = .waiting
    rcases hadvance : p.workloads.advance with ⟨attempt, ring⟩
    simp only [tryPublish, hadvance] at h
    cases attempt with
    | waiting => rfl
    | _ => cases h
  | present id =>
    change p.presents.advance.1 = .waiting
    rcases hadvance : p.presents.advance with ⟨attempt, ring⟩
    simp only [tryPublish, hadvance] at h
    cases attempt with
    | waiting => rfl
    | _ => cases h

end Pipeline

namespace Control

variable {c c' : Control} {log events : History} {n m : Nat}

lemma publish_sizes (item : Pending) :
    (c.publish item).2.workloads.size = c.workloads.size ∧
      (c.publish item).2.presents.size = c.presents.size := by
  cases item with
  | workload number =>
    rcases hadvance : c.workloads.advance with ⟨attempt, ring⟩
    have hsize := Ring.size_of_advance hadvance
    simp only [publish, hadvance]
    cases attempt with
    | done place => exact ⟨Ring.size_modifyCurrent.trans hsize, rfl⟩
    | _ => exact ⟨hsize, rfl⟩
  | present number =>
    rcases hadvance : c.presents.advance with ⟨attempt, ring⟩
    have hsize := Ring.size_of_advance hadvance
    simp only [publish, hadvance]
    cases attempt <;> exact ⟨rfl, hsize⟩

/-- The rings keep their sizes. -/
lemma Move.sizes (move : c.Move events c') :
    c'.workloads.size = c.workloads.size ∧ c'.presents.size = c.presents.size := by
  cases move with
  | render m => exact ⟨congrArg List.length m.frame.slots, congrArg Ring.size m.frame.presents⟩
  | present m =>
    apply And.intro (congrArg Ring.size m.frame.workloads)
    cases m with
    | claim at_ got => exact Ring.size_setSlot
    | uploadBroken at_ lost => cases lost <;> rfl
    | composeBroken at_ lost => cases lost <;> rfl
    | finish at_ done =>
      obtain ⟨-, rfl⟩ := Ring.of_finish done
      rfl
    | _ => rfl
  | producer m =>
    cases m with
    | fill => exact ⟨Ring.size_modifyCurrent, rfl⟩
    | @publish item c₁ offers =>
      obtain ⟨hworkloads, hpresents⟩ := publish_sizes (c := c₁) item
      rw [hworkloads, hpresents]
      cases offers with
      | pending => exact ⟨rfl, rfl⟩
      | workload => exact ⟨Ring.size_modifyCurrent, rfl⟩
      | present => exact ⟨rfl, Ring.size_setSlot⟩
    | _ => exact ⟨rfl, rfl⟩

lemma Reached.sizes (h : Reached n m log c) :
    c.workloads.size = max n 2 ∧ c.presents.size = max m 2 := by
  induction h with
  | start => simp [Control.start, Ring.new, Ring.size]
  | step before move ih =>
    obtain ⟨hworkloads, hpresents⟩ := move.sizes
    rw [hworkloads, hpresents]
    exact ih

/-- No image is waited for once the production is complete, or before there is any, or after
everybody was told to stop. -/
lemma imageSlot_ne_none {job : PresentJob}
    (h : c.production.complete = true ∨ c.production.workloadId = 0 ∨ c.running = false) :
    c.imageSlot job ≠ none := by
  simp only [imageSlot]
  split
  · simp
  · rename_i hpos
    split
    · simp only [ne_eq, Option.map_eq_none_iff, Production.completion]
      rcases h with h | h | h
      · simp [h]
      · rw [h, if_neg fun hid => hpos hid.1.symm]
        simp
      · simp [h]
    · simp only [ne_eq, Option.map_eq_none_iff, Production.image]
      rcases h with h | h | h
      · split
        · simp
        · split <;> simp
      · simp [h, Ne.symm hpos]
      · simp [h]

/-- What a render worker that waits has done, and what it waits for. -/
lemma Reached.of_renderWaits (h : Reached n m log c) (hrunning : c.running = true)
    (hwaits : c.RenderWaits) :
    c.workloadSignal.value = log.workloadsConsumed ∧
      (c.production.complete = true ∨ c.production.workloadId = 0) ∧
      (log.workloadsConsumed = log.submitted.length ∨
        ∃ w, log.submitted[log.workloadsConsumed]? = some w ∧
          c.presentSignal.value < w.presentId) := by
  have hfacts := h.renderFacts
  have hcomplete : log.workloadsConsumed = 0 ∧ c.production.produced = [] ∧
      c.production.complete = false ∨ c.production.Closed →
      c.production.workloadId = log.workloadsConsumed →
      c.production.complete = true ∨ c.production.workloadId = 0 := by
    rintro (⟨hzero, -⟩ | hclosed) hid
    · exact .inr (hid.trans hzero)
    · exact .inl hclosed.1
  simp only [RenderFacts] at hfacts
  simp only [RenderWaits] at hwaits
  cases at_ : c.render with
  | claim =>
    simp only [at_] at hfacts hwaits
    obtain ⟨_, hcounts, -⟩ := h.ordered.workloads.counts
    exact ⟨hfacts.1, hcomplete hfacts.2.2 hfacts.2.1, .inl (hcounts.of_claim_waiting hwaits)⟩
  | await place =>
    simp only [at_] at hfacts hwaits
    have hlt := (Signal.of_wait_eq_none hwaits).1
    refine ⟨hfacts.1, hcomplete hfacts.2.2 hfacts.2.1, .inr ⟨_, ?_, hlt⟩⟩
    exact h.ordered.workloads.workloadAt place (by rw [at_]; rfl)
  | stopped | lost =>
    have hhalts := h.halts.renderLeaving (by rw [at_]; rfl)
    cases hrunning.symm.trans hhalts
  | _ => simp [at_] at hwaits

/-- What a present worker that waits has done, and what it waits for. -/
lemma Reached.of_presentWaits (h : Reached n m log c) (hrunning : c.running = true)
    (hwaits : c.PresentWaits) :
    c.presentSignal.value = log.presentsConsumed ∧
      (log.presentsConsumed = log.requested.length ∨
        (∃ q, log.requested[log.presentsConsumed]? = some q ∧
          c.workloadSignal.value < q.workloadId) ∨
        ∃ job, c.imageSlot job = none) := by
  have hfacts := h.presentFacts
  simp only [PresentFacts] at hfacts
  simp only [PresentWaits] at hwaits
  cases at_ : c.present with
  | claim =>
    simp only [at_] at hfacts hwaits
    obtain ⟨_, hcounts, -⟩ := h.ordered.presents.counts
    exact ⟨hfacts.1, .inl (hcounts.of_claim_waiting hwaits)⟩
  | await place q =>
    simp only [at_] at hfacts hwaits
    have hlt := (Signal.of_wait_eq_none hwaits).1
    refine ⟨hfacts.1, .inr (.inl ⟨q, ?_, hlt⟩)⟩
    exact h.ordered.presents.inHand q (by rw [at_]; rfl)
  | select job =>
    simp only [at_] at hfacts hwaits
    exact ⟨hfacts.1, .inr (.inr ⟨job, hwaits.2⟩)⟩
  | stopped | lost =>
    have hhalts := h.halts.presentLeaving (by rw [at_]; rfl)
    cases hrunning.symm.trans hhalts
  | _ => simp [at_] at hwaits

/-- As long as nothing is stopped, the workers do not both wait while anything is left to do. -/
lemma Reached.not_both_wait (h : Reached n m log c) (hrunning : c.running = true)
    (hleft : log.workloadsConsumed < log.submitted.length ∨
      log.presentsConsumed < log.requested.length) : ¬ (c.RenderWaits ∧ c.PresentWaits) := by
  rintro ⟨hrender, hpresent⟩
  have hstamped := h.ordered.stamped
  obtain ⟨hworkloads, hcomplete, hrender⟩ := h.of_renderWaits hrunning hrender
  obtain ⟨hpresents, hpresent⟩ := h.of_presentWaits hrunning hpresent
  rcases hpresent with hall | ⟨q, hq, hlt⟩ | ⟨job, hnone⟩
  · rcases hrender with hall' | ⟨w, hw, hlt⟩
    · omega
    · -- a workload knows only of presents that were requested
      have hle := (hstamped.workload _ _ hw).2
      omega
  · obtain ⟨hqid, hle⟩ := hstamped.present _ _ hq
    rcases hrender with hall | ⟨w, hw, hlt'⟩
    · -- a present knows only of workloads that were submitted
      omega
    · -- of the two, one was submitted first
      have hwid := (hstamped.workload _ _ hw).1
      have hprecedes :=
        hstamped.precedes w (List.mem_of_getElem? hw) q (List.mem_of_getElem? hq)
      omega
  · exact imageSlot_ne_none (hcomplete.imp_right .inl) hnone

/-- A signal is waited for only as long as nothing is stopped. -/
lemma Halts.running_of_wait (h : c.Halts) {value : Nat}
    (hwait : c.presentSignal.wait value = none ∨ c.workloadSignal.wait value = none) :
    c.running = true := by
  rcases hwait with hwait | hwait
  · simpa [h.presentSignal] using (Signal.of_wait_eq_none hwait).2
  · simpa [h.workloadSignal] using (Signal.of_wait_eq_none hwait).2

/-- An image is waited for only as long as nothing is stopped. -/
lemma running_of_imageSlot {job : PresentJob} (h : c.imageSlot job = none) : c.running = true := by
  by_contra hrunning
  apply imageSlot_ne_none (.inr (.inr _)) h
  simpa using hrunning

/-- A render worker that waits while its ring is full holds a workload. -/
lemma Reached.of_full_workloads (h : Reached n m log c) (hn : 3 ≤ n)
    (hfull : c.workloads.advance.1 = .waiting) (hwaits : c.RenderWaits) :
    c.running = true ∧ log.workloadsConsumed < log.submitted.length := by
  obtain ⟨released, hcounts, -, hkept⟩ := h.ordered.workloads.counts
  obtain ⟨hfull, hring⟩ := hcounts.of_advance_waiting (Prod.ext hfull rfl)
  have hsize := h.sizes.1
  simp only [RenderWaits] at hwaits
  cases at_ : c.render with
  | claim =>
    -- at most one slot is kept, so there would be room
    simp only [at_] at hwaits
    have hall := hcounts.of_claim_waiting hwaits
    simp only [at_, RenderPhase.owes] at hkept
    omega
  | await place =>
    simp only [at_] at hwaits
    apply And.intro (h.halts.running_of_wait (.inl hwaits))
    exact (h.ordered.workloads.claimed place (by rw [at_]; rfl)).1
  | stopped | lost =>
    have hhalts := h.halts.renderGone (by rw [at_]; rfl)
    cases hring.symm.trans hhalts
  | _ => simp [at_] at hwaits

/-- A present worker that waits while its ring is full holds a present. -/
lemma Reached.of_full_presents (h : Reached n m log c)
    (hfull : c.presents.advance.1 = .waiting) (hwaits : c.PresentWaits) :
    c.running = true ∧ log.presentsConsumed < log.requested.length := by
  obtain ⟨released, hcounts, hkept⟩ := h.ordered.presents.counts
  obtain ⟨hfull, hring⟩ := hcounts.of_advance_waiting (Prod.ext hfull rfl)
  have hsize := hcounts.size
  simp only [PresentWaits] at hwaits
  cases at_ : c.present with
  | claim =>
    simp only [at_] at hwaits
    have hall := hcounts.of_claim_waiting hwaits
    simp only [at_, PresentPhase.owes] at hkept
    omega
  | await place q =>
    simp only [at_] at hwaits
    apply And.intro (h.halts.running_of_wait (.inr hwaits))
    exact (h.ordered.presents.claimed place (by rw [at_]; rfl)).1
  | select job =>
    simp only [at_] at hwaits
    apply And.intro (running_of_imageSlot hwaits.2)
    exact (h.ordered.presents.claimed job.place (by rw [at_]; rfl)).1
  | stopped | lost =>
    have hhalts := h.halts.presentGone (by rw [at_]; rfl)
    cases hring.symm.trans hhalts
  | _ => simp [at_] at hwaits

/-- A blocked producer leaves a worker that can go on. -/
lemma Reached.not_both_wait_of_blocked (h : Reached n m log c) (hn : 3 ≤ n)
    (hblocked : c.Blocked) : ¬ (c.RenderWaits ∧ c.PresentWaits) := by
  intro hwaits
  simp only [Blocked] at hblocked
  split at hblocked
  · obtain ⟨hrunning, hlt⟩ := h.of_full_workloads hn hblocked hwaits.1
    exact h.not_both_wait hrunning (.inl hlt) hwaits
  · obtain ⟨hrunning, hlt⟩ := h.of_full_presents hblocked hwaits.2
    exact h.not_both_wait hrunning (.inr hlt) hwaits
  · exact hblocked

end Control

end Scanout
