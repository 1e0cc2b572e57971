import Mathlib.Data.List.Induction
import Scanout.Proofs.Pipeline.Halting
import Scanout.Proofs.Workload.Synced

/-!
# Where workloads and presents come from

As long as workloads are changed by the operations on workloads only, each one that is published was
synchronized once after it was built, and each present holds what was found in memory for its
screen. The producer's table tells of the writes of the workloads since it was last reset, those of
one that waits to be published among them.
-/

namespace Scanout

/-- If the workload being filled is changed, then by the operations on workloads. -/
def Action.Builds : Action → Prop
  | .call (.fill f) => ∀ w : Workload, w.Built → (f w).Built
  | _ => True

/-- The present holds what one of the calls found in memory for its screen, or it shows the last
image again. -/
def Present.PreparedBy (allowed : Action → Prop) (q : Present) : Prop :=
  q.operations = [] ∧ q.storage = ByteArray.empty ∨
    ∃ (ram : ByteArray) (p : Pipeline) (table : FramebufferTable),
      allowed (.call (.submitPresent q.screen ram)) ∧
        (p.prepareScreen q.screen ram).outcome = .ok (q.operations, q.storage, table)

/-- Resetting leaves nothing but stamps. -/
lemma Workload.built_reset (w : Workload) : w.reset.Built :=
  .stamp .empty w.id w.presentId w.submissionFrame w.gameRate false

namespace Pipeline

/-- The workload that waits to be published. -/
def waiting (p : Pipeline) : List Workload :=
  match p.producer.pending with
  | some (.workload _) => p.workloads.current?.toList
  | _ => []

lemma waiting_of_idle {p : Pipeline} (h : p.producer.pending = none) : p.waiting = [] := by
  simp [waiting, h]

/-- Everything that was published, or waits to be, was prepared by the calls. -/
structure Supplied (allowed : Action → Prop) (log : History) (p : Pipeline) : Prop where
  submitted : ∀ w ∈ log.submitted, w.Synced
  requested : ∀ q ∈ log.requested, q.PreparedBy allowed
  waiting : ∀ w ∈ p.waiting, w.Synced
  offered : ∀ id, p.producer.pending = some (.present id) →
    ∀ q, p.presents.current? = some q → q.PreparedBy allowed
  filling : p.shared.running = true → (∀ id, p.producer.pending ≠ some (.workload id)) →
    p.currentWorkload.Built
  sound : p.producer.table.Sound
  known : p.shared.running = true → ∃ k ≤ log.submitted.length, ∀ address,
    p.producer.table.lastWrite? address =
      lastWriteTo? (((log.submitted ++ p.waiting).drop k).flatMap Workload.writes) address

/-- The item is in place to be published: everything is supplied as if it waited. -/
def Ready (allowed : Action → Prop) (log : History) (item : Pending) (p : Pipeline) : Prop :=
  { p with producer.pending := some item }.Supplied allowed log

variable {p q : Pipeline} {log : History} {allowed : Action → Prop}

/-! The workers have nothing to do with the producer's state. -/

lemma producer_takeConfig : p.takeConfig.producer = p.producer := by
  unfold takeConfig
  split
  · rfl
  · dsimp only
    split <;> rfl

lemma producer_planImages {place : Nat} : (p.planImages place).producer = p.producer := by
  obtain ⟨notes, h | ⟨plan, matcher, production, h⟩⟩ := p.planImages_eq place
  · rw [h]
    rfl
  · rw [h]

lemma producer_drawImage {job : RenderJob} : (p.drawImage job).producer = p.producer := by
  obtain ⟨renderer, ⟨phase, h⟩ | ⟨stop, h⟩⟩ := p.drawImage_eq job
  · rw [h]
  · rw [h]
    cases stop <;> rfl

lemma producer_concludeWorkload {job : RenderJob} :
    (p.concludeWorkload job).producer = p.producer := by
  obtain ⟨notes, stats, h⟩ := p.concludeWorkload_eq job
  rw [h]

lemma producer_of_renderStep (h : p.renderStep = some q) : q.producer = p.producer := by
  simp only [renderStep] at h
  cases hphase : p.render with
  | claim | await | finish =>
    simp only [hphase] at h
    split at h <;> cases h
    all_goals rfl
  | configure place =>
    simp only [hphase] at h
    cases h
    exact producer_takeConfig
  | plan place =>
    simp only [hphase] at h
    cases h
    exact producer_planImages
  | draw job =>
    simp only [hphase] at h
    cases h
    exact producer_drawImage
  | conclude job =>
    simp only [hphase] at h
    cases h
    exact producer_concludeWorkload
  | stopped | lost => simp [hphase] at h
  | _ =>
    simp only [hphase] at h
    cases h
    rfl

/-- What belongs to the producer and to the render worker alone is the same. -/
def SameOthers (p q : Pipeline) : Prop := q.producer = p.producer ∧ q.matcher = p.matcher

lemma sameOthers_showImage {image : Shown} {valid : Bool} :
    p.SameOthers (p.showImage image valid).2 := by
  unfold showImage
  dsimp only
  split
  · exact ⟨rfl, rfl⟩
  · split <;> exact ⟨rfl, rfl⟩

lemma sameOthers_presentStopped {id : Nat} {stop : Stop} :
    p.SameOthers (p.presentStopped id stop) := by
  cases stop <;> exact ⟨rfl, rfl⟩

lemma sameOthers_uploadChanges {job : PresentJob} : p.SameOthers (p.uploadChanges job) := by
  unfold uploadChanges
  dsimp only
  split
  · exact ⟨rfl, rfl⟩
  · split
    · exact ⟨rfl, rfl⟩
    · exact sameOthers_presentStopped

lemma sameOthers_composeImage {job : PresentJob} {slot : Slot} :
    p.SameOthers (p.composeImage job slot) := by
  unfold composeImage
  split
  · exact ⟨rfl, rfl⟩
  · exact sameOthers_presentStopped

lemma sameOthers_of_presentStep (h : p.presentStep = some q) : p.SameOthers q := by
  simp only [presentStep] at h
  cases hphase : p.present with
  | claim | await | finish =>
    simp only [hphase] at h
    split at h <;> cases h
    all_goals exact ⟨rfl, rfl⟩
  | showAgain job =>
    simp only [hphase] at h
    cases h
    unfold showLast
    dsimp only
    split
    · exact sameOthers_showImage
    · exact ⟨rfl, rfl⟩
  | upload job =>
    simp only [hphase] at h
    cases h
    exact sameOthers_uploadChanges
  | inspect job =>
    simp only [hphase] at h
    cases h
    unfold inspectScreen
    split <;> exact ⟨rfl, rfl⟩
  | select job =>
    simp only [hphase, selectImage] at h
    split at h
    · cases h
      exact ⟨rfl, rfl⟩
    · obtain ⟨slot?, -, rfl⟩ := Option.map_eq_some_iff.mp h
      cases slot? <;> exact ⟨rfl, rfl⟩
  | compose job slot =>
    simp only [hphase] at h
    cases h
    exact sameOthers_composeImage
  | settle job slot image =>
    simp only [hphase] at h
    cases h
    cases slot <;> exact ⟨rfl, rfl⟩
  | «show» job image =>
    simp only [hphase] at h
    cases h
    cases image with
    | none => exact ⟨rfl, rfl⟩
    | some image => exact sameOthers_showImage
  | stopped | lost => simp [hphase] at h
  | _ =>
    simp only [hphase] at h
    cases h
    exact ⟨rfl, rfl⟩

/-! What the producer does. -/

/-- A screen needs nothing if it shows nothing, what a check finds if its image is known, and its
bytes otherwise. -/
inductive ScreenNeeds (t : FramebufferTable) (screen : Screen) (ram : ByteArray) :
    List Operation → ByteArray → FramebufferTable → Prop where
  | nothing (hidden : screen.visible = false) : ScreenNeeds t screen ram [] ByteArray.empty t
  | changes {fb fb' : Framebuffer} {change : Option MemoryChange} (visible : screen.visible = true)
      (known : t.find? screen.address = some fb)
      (checked : (fb.check ram).outcome = .ok (change, fb')) :
      ScreenNeeds t screen ram (change.toList.map (.upload .color)) ByteArray.empty
        (t.insert screen.address fb')
  | bytes {storage : ByteArray} (visible : screen.visible = true)
      (unknown : t.find? screen.address = none) (read : storageOf screen ram = .ok storage) :
      ScreenNeeds t screen ram [] storage t

lemma screenNeeds_of_prepareScreen {screen : Screen} {ram storage : ByteArray}
    {ops : List Operation} {table : FramebufferTable}
    (h : (p.prepareScreen screen ram).outcome = .ok (ops, storage, table)) :
    ScreenNeeds p.producer.table screen ram ops storage table := by
  simp only [prepareScreen] at h
  cases hvisible : screen.visible with
  | false =>
    simp only [hvisible, Bool.not_false, if_true] at h
    cases Traced.pure_eq_ok.mp h
    exact .nothing hvisible
  | true =>
    simp only [hvisible, Bool.not_true, Bool.false_eq_true, if_false] at h
    cases hfind : p.producer.table.find? screen.address with
    | some fb =>
      simp only [FramebufferTable.check, hfind, Traced.bind_eq_ok] at h
      obtain ⟨⟨change, table'⟩, ⟨⟨change', fb'⟩, hcheck, hinsert⟩, h⟩ := h
      cases Traced.pure_eq_ok.mp hinsert
      cases Traced.pure_eq_ok.mp h
      exact .changes hvisible hfind hcheck
    | none =>
      simp only [hfind, Traced.bind_eq_ok, Traced.lift_eq_ok] at h
      obtain ⟨bytes, hbytes, h⟩ := h
      cases Traced.pure_eq_ok.mp h
      exact .bytes hvisible hfind hbytes

lemma currentWorkload_eq {w : Workload} (h : p.workloads.current? = some w) :
    p.currentWorkload = w := by
  rw [currentWorkload, h, Option.getD_some]

/-- A pending call goes on with what it has pending. -/
lemma of_producerStep {reply : Reply} (h : p.producerStep = some (reply, q)) :
    ∃ item, p.producer.pending = some item ∧ q = (p.tryPublish item).2 := by
  simp only [producerStep] at h
  cases hpending : p.producer.pending with
  | none => simp [hpending] at h
  | some item =>
    simp only [hpending, Option.bind_eq_bind, Option.bind_some] at h
    refine ⟨item, rfl, ?_⟩
    split at h
    · cases h
    · rw [Option.some.inj h]

/-- There is always a workload being filled. -/
lemma current?_workloads {n i j : Nat} (h : p.workloads.Counts n i j) :
    p.workloads.current? = some p.currentWorkload := by
  obtain ⟨w, hw⟩ := h.exists_current?
  rw [currentWorkload_eq hw, hw]

namespace Supplied

/-- What does not concern the producer's part changes nothing. -/
lemma congr {events : History} (h : p.Supplied allowed log)
    (hpending : q.producer.pending = p.producer.pending)
    (htable : q.producer.table = p.producer.table)
    (hworkload : q.workloads.current? = p.workloads.current?)
    (hpresent : q.presents.current? = p.presents.current?)
    (hrunning : q.shared.running = true → p.shared.running = true)
    (hs : events.submitted = []) (hr : events.requested = []) :
    q.Supplied allowed (log ++ events) := by
  have hwaiting : q.waiting = p.waiting := by
    simp only [Pipeline.waiting, hpending, hworkload]
  have hcurrent : q.currentWorkload = p.currentWorkload := by
    simp only [currentWorkload, hworkload]
  constructor
  · rw [History.submitted_append, hs, List.append_nil]
    exact h.submitted
  · rw [History.requested_append, hr, List.append_nil]
    exact h.requested
  · rw [hwaiting]
    exact h.waiting
  · rw [hpending, hpresent]
    exact h.offered
  · rw [hpending, hcurrent]
    exact fun hrun => h.filling (hrunning hrun)
  · rw [htable]
    exact h.sound
  · rw [htable, hwaiting, History.submitted_append, hs, List.append_nil]
    exact fun hrun => h.known (hrunning hrun)

/-- Nothing is published or waits any more once everybody was told to stop. -/
lemma giveUp (h : p.Supplied allowed log) (hpending : q.producer.pending = none)
    (htable : q.producer.table = p.producer.table) (hrunning : q.shared.running = false) :
    q.Supplied allowed (log ++ []) where
  submitted := by simpa using h.submitted
  requested := by simpa using h.requested
  waiting := by simp [waiting_of_idle hpending]
  offered := by simp [hpending]
  filling hrun := by simp [hrunning] at hrun
  sound := htable ▸ h.sound
  known hrun := by simp [hrunning] at hrun

/-- The workload that waits is published, and the next one is started. -/
lemma submit {w : Workload} (h : p.Supplied allowed log) (hw : p.waiting = [w])
    (hpending : q.producer.pending = none) (htable : q.producer.table = p.producer.table)
    (hrunning : q.shared.running = true → p.shared.running = true)
    (hbuilt : q.currentWorkload.Built) : q.Supplied allowed (log ++ [.submitted w]) := by
  have hsubmitted : History.submitted (log ++ [.submitted w]) = log.submitted ++ [w] := by
    rw [History.submitted_append]
    rfl
  have hwaiting : q.waiting = [] := waiting_of_idle hpending
  constructor
  · rw [hsubmitted]
    intro w' hw'
    exact (List.mem_append.mp hw').elim (h.submitted w') (hw ▸ h.waiting w')
  · simpa [History.requested] using h.requested
  · simp [hwaiting]
  · simp [hpending]
  · exact fun _ _ => hbuilt
  · exact htable ▸ h.sound
  · intro hrun
    obtain ⟨k, hk, hknown⟩ := h.known (hrunning hrun)
    refine ⟨k, ?_, ?_⟩
    · rw [hsubmitted, List.length_append]
      omega
    · rw [hsubmitted, hwaiting, htable, List.append_nil, ← hw]
      exact hknown

/-- The present that waits is published. -/
lemma request {number : Nat} {present? : Option Present} (h : p.Supplied allowed log)
    (hnumber : p.producer.pending = some (.present number))
    (hpresent : p.presents.current? = present?) (hpending : q.producer.pending = none)
    (htable : q.producer.table = p.producer.table)
    (hworkload : q.currentWorkload = p.currentWorkload)
    (hrunning : q.shared.running = true → p.shared.running = true) :
    q.Supplied allowed (log ++ present?.toList.map .requested) := by
  have hsubmitted : History.submitted (log ++ present?.toList.map .requested) = log.submitted := by
    rw [History.submitted_append]
    cases present? <;> exact List.append_nil _
  have hrequested : History.requested (log ++ present?.toList.map .requested) =
      log.requested ++ present?.toList := by
    rw [History.requested_append]
    cases present? <;> rfl
  have hwaiting : q.waiting = [] := waiting_of_idle hpending
  have hwaited : p.waiting = [] := by simp [Pipeline.waiting, hnumber]
  constructor
  · rw [hsubmitted]
    exact h.submitted
  · rw [hrequested]
    intro q hq
    refine (List.mem_append.mp hq).elim (h.requested q) fun hq => ?_
    exact h.offered number hnumber q (hpresent.trans (Option.mem_toList.mp hq))
  · simp [hwaiting]
  · simp [hpending]
  · rw [hworkload]
    exact fun hrun _ => h.filling (hrunning hrun) (by simp [hnumber])
  · exact htable ▸ h.sound
  · rw [hsubmitted, hwaiting, htable, ← hwaited]
    exact fun hrun => h.known (hrunning hrun)

/-- The item that is ready is published, or waits, or is given up. -/
lemma publish {item : Pending} {n m i j k l : Nat} (h : p.Ready allowed log item)
    (hw : p.workloads.Counts n i j) (hp : p.presents.Counts m k l) (hhalts : p.control.Halts) :
    (p.tryPublish item).2.Supplied allowed
      (log ++ p.control.publishedEvents (p.tryPublish item).2.control) := by
  rw [control_tryPublish, Control.publishedEvents_publish hw hp]
  cases item with
  | workload number =>
    have hcurrent := current?_workloads hw
    have hfirst : p.control.workloads.current? = some p.currentWorkload := hcurrent
    have hwaiting : ({ p with producer.pending := some (.workload number) } : Pipeline).waiting =
        [p.currentWorkload] := by
      simp only [Pipeline.waiting, hcurrent, Option.toList_some]
    rcases hadvance : p.workloads.advance with ⟨attempt, ring⟩
    have hadvance' : p.control.workloads.advance = (attempt, ring) := hadvance
    simp only [tryPublish, Control.publish, hadvance, hadvance', hfirst]
    cases attempt with
    | done place =>
      refine Supplied.submit h hwaiting rfl rfl (fun hrun => hrun) ?_
      -- the slot that is filled next is reset
      have hlt : ring.write < ring.size := by
        obtain ⟨-, -, rfl⟩ | ⟨-, hattempt, -⟩ := Ring.advance_cases hadvance
        · exact Nat.mod_lt _ hw.size_pos
        · simp at hattempt
      change ((ring.modifyCurrent .reset).current?.getD .empty).Built
      rw [Ring.current?_modifyCurrent hlt]
      cases ring.current? with
      | none => exact .empty
      | some w => exact w.built_reset
    | waiting =>
      have hsame := Ring.same_of_advance hadvance (by simp)
      exact Supplied.congr h rfl rfl hsame.current?_eq rfl (fun hrun => hrun) rfl rfl
    | stopped =>
      refine Supplied.giveUp h rfl rfl ?_
      exact hhalts.running_eq_false (.inl (Ring.of_advance_eq_stopped hadvance))
  | present number =>
    rcases hadvance : p.presents.advance with ⟨attempt, ring⟩
    have hadvance' : p.control.presents.advance = (attempt, ring) := hadvance
    simp only [tryPublish, Control.publish, hadvance, hadvance']
    cases attempt with
    | done place => exact Supplied.request h rfl rfl rfl rfl rfl fun hrun => hrun
    | waiting =>
      have hsame := Ring.same_of_advance hadvance (by simp)
      exact Supplied.congr h rfl rfl rfl hsame.current?_eq (fun hrun => hrun) rfl rfl
    | stopped =>
      refine Supplied.giveUp h rfl rfl ?_
      exact hhalts.running_eq_false (.inr (.inl (Ring.of_advance_eq_stopped hadvance)))

/-- Nothing was published, and what is being filled is still as it was built. -/
lemma fill (h : p.Supplied allowed log) (idle : p.producer.pending = none)
    (hproducer : q.producer = p.producer)
    (hrunning : q.shared.running = true → p.shared.running = true)
    (hbuilt : p.currentWorkload.Built → q.currentWorkload.Built) :
    q.Supplied allowed log := by
  have hnone : q.producer.pending = none := hproducer ▸ idle
  refine ⟨h.submitted, h.requested, by simp [waiting_of_idle hnone], by simp [hnone], ?_, ?_, ?_⟩
  · exact fun hrun _ => hbuilt (h.filling (hrunning hrun) (by simp [idle]))
  · exact hproducer ▸ h.sound
  · rw [hproducer, waiting_of_idle hnone, ← waiting_of_idle idle]
    exact fun hrun => h.known (hrunning hrun)

end Supplied

/-- Changing the workload being filled changes it. -/
lemma currentWorkload_modifyWorkload {n i j : Nat} (h : p.workloads.Counts n i j)
    (f : Workload → Workload) : (p.modifyWorkload f).currentWorkload = f p.currentWorkload := by
  have hcurrent : (p.modifyWorkload f).workloads.current? = some (f p.currentWorkload) := by
    change (p.workloads.modifyCurrent f).current? = _
    rw [Ring.current?_modifyCurrent h.write_lt, current?_workloads h, Option.map_some]
  exact currentWorkload_eq hcurrent

lemma ScreenNeeds.table {t t' : FramebufferTable} {screen : Screen} {ram storage : ByteArray}
    {ops : List Operation} (h : ScreenNeeds t screen ram ops storage t') (ht : t.Sound) :
    t'.Sound ∧ ∀ address, t'.lastWrite? address = t.lastWrite? address := by
  cases h with
  | nothing | bytes => exact ⟨ht, fun _ => rfl⟩
  | @changes fb fb' change visible known checked =>
    obtain ⟨haddress, hremembers⟩ := ht _ _ known
    refine ⟨ht.insert ((Framebuffer.address_of_check checked).trans haddress)
      (hremembers.check checked), fun address => ?_⟩
    by_cases hsame : address = screen.address
    · subst hsame
      obtain ⟨htype, hstamp⟩ := Framebuffer.lastWrite_of_check checked
      rw [FramebufferTable.lastWrite?_of_find? FramebufferTable.find?_insert_self,
        FramebufferTable.lastWrite?_of_find? known]
      simp only [Framebuffer.wasWritten, hstamp, htype]
      rfl
    · exact FramebufferTable.lastWrite?_congr (FramebufferTable.find?_insert_of_ne hsame)

namespace Supplied

/-- Nothing is published. -/
lemma stay (h : q.Supplied allowed (log ++ [])) (hw : q.workloads.write = p.workloads.write)
    (hp : q.presents.write = p.presents.write) :
    q.Supplied allowed (log ++ p.control.publishedEvents q.control) := by
  rwa [Control.publishedEvents_of_write_eq hw hp]

/-- A workload that was synchronized is ready. -/
lemma ready_workload {w₀ w : Workload} {table : FramebufferTable} {ram : ByteArray}
    {stats : SyncStats} {number : Nat} (h : p.Supplied allowed log)
    (idle : p.producer.pending = none) (hbuilt : w₀.Built) (hid : 0 < w₀.id)
    (hsync : (w₀.synchronize p.producer.table ram).outcome = .ok (stats, w, table))
    (hcurrent : q.workloads.current? = some w) (htable : q.producer.table = table)
    (hrunning : q.shared.running = true → p.shared.running = true) :
    q.Ready allowed log (.workload number) := by
  have hwaiting : ({ q with producer.pending := some (.workload number) } : Pipeline).waiting =
      [w] := by
    simp only [Pipeline.waiting, hcurrent, Option.toList_some]
  have hnone : p.waiting = [] := waiting_of_idle idle
  refine ⟨h.submitted, h.requested, ?_, by simp, ?_, ?_, ?_⟩
  · rw [hwaiting]
    intro w' hw'
    obtain rfl := List.mem_singleton.mp hw'
    exact ⟨w₀, _, _, _, _, hbuilt, h.sound, hsync⟩
  · exact fun _ hnot => absurd rfl (hnot number)
  · exact htable ▸ (hbuilt.accounts h.sound hsync).2.1
  · intro hrun
    obtain ⟨k, hk, hknown⟩ := h.known (hrunning hrun)
    refine ⟨k, hk, fun address => ?_⟩
    rw [hnone, List.append_nil] at hknown
    rw [hwaiting, List.drop_append_of_le_length hk, List.flatMap_append, List.flatMap_singleton,
      lastWriteTo?_append, ← hknown, ← hbuilt.lastWrite?_synchronize hid hsync, htable]

/-- A present is ready. -/
lemma ready_present {present : Present} {number : Nat} (h : p.Supplied allowed log)
    (idle : p.producer.pending = none) (hpresent : q.presents.current? = some present)
    (hprepared : present.PreparedBy allowed) (hworkload : q.workloads = p.workloads)
    (hsound : q.producer.table.Sound)
    (hknown : ∀ address, q.producer.table.lastWrite? address = p.producer.table.lastWrite? address)
    (hrunning : q.shared.running = true → p.shared.running = true) :
    q.Ready allowed log (.present number) := by
  have hcurrent : q.currentWorkload = p.currentWorkload := by
    simp only [currentWorkload, hworkload]
  have hnone : p.waiting = [] := waiting_of_idle idle
  refine ⟨h.submitted, h.requested, by simp [Pipeline.waiting], ?_, ?_, hsound, ?_⟩
  · intro _ _ q hq
    obtain rfl := Option.some.inj (hpresent.symm.trans hq)
    exact hprepared
  · exact fun hrun _ => hcurrent ▸ h.filling (hrunning hrun) (by simp [idle])
  · intro hrun
    obtain ⟨k, hk, hwrites⟩ := h.known (hrunning hrun)
    refine ⟨k, hk, fun address => (hknown address).trans ?_⟩
    rw [hwrites address, hnone]
    rfl

/-- What is ready is published, or waits, or is given up. -/
lemma publish_ready {item : Pending} {n m i j k l : Nat} (h : q.Ready allowed log item)
    (hw : q.workloads.Counts n i j) (hp : q.presents.Counts m k l) (hhalts : q.control.Halts)
    (hworkloads : q.workloads.write = p.workloads.write)
    (hpresents : q.presents.write = p.presents.write) :
    (q.tryPublish item).2.Supplied allowed
      (log ++ p.control.publishedEvents (q.tryPublish item).2.control) := by
  have hevents : p.control.publishedEvents (q.tryPublish item).2.control =
      q.control.publishedEvents (q.tryPublish item).2.control := by
    have hworkloads : q.control.workloads.write = p.control.workloads.write := hworkloads
    have hpresents : q.control.presents.write = p.control.presents.write := hpresents
    simp only [Control.publishedEvents, published, hworkloads, hpresents]
  rw [hevents]
  exact publish h hw hp hhalts

variable {n m i j k l : Nat}

lemma of_submitWorkload {ram : ByteArray} {gameRate : Nat} (h : p.Supplied allowed log)
    (idle : p.producer.pending = none) (hw : p.workloads.Counts n i j)
    (hp : p.presents.Counts m k l) (hhalts : p.control.Halts)
    (hid : 0 < p.producer.nextWorkloadId) :
    (p.submitWorkload ram gameRate).2.Supplied allowed
      (log ++ p.control.publishedEvents (p.submitWorkload ram gameRate).2.control) := by
  unfold Pipeline.submitWorkload
  split
  · exact .stay (h.congr rfl rfl rfl rfl (fun hrun => hrun) rfl rfl) rfl rfl
  · rename_i hrunning
    have hrunning : p.shared.running = true := by simpa using hrunning
    have hstamp := (stamps_of_stampWorkload gameRate hw.write_lt).1
    have hstamped : (p.stampWorkload gameRate).workloads.Counts n i j :=
      hw.congr Ring.size_modifyCurrent rfl rfl rfl
    have hbuilt : (p.stampWorkload gameRate).currentWorkload.Built := by
      rw [stampWorkload, currentWorkload_modifyWorkload hw]
      exact .stamp (h.filling hrunning (by simp [idle])) _ _ _ _ _
    dsimp only
    split
    · rename_i f p' hsync
      obtain ⟨-, rfl⟩ := Prod.mk.inj hsync
      refine .stay ?_ rfl rfl
      rw [List.append_nil]
      exact h.fill idle rfl (fun hrun => hrun) fun _ => hbuilt
    · rename_i stats w table p' hsync
      obtain ⟨houtcome, rfl⟩ := Prod.mk.inj hsync
      refine publish_ready ?_ (hstamped.congr Ring.size_modifyCurrent rfl rfl rfl) hp
        (hhalts.same rfl (.inr rfl) (.inr rfl)) rfl rfl
      refine h.ready_workload idle hbuilt (hstamp ▸ hid) houtcome ?_ rfl fun hrun => hrun
      change ((p.stampWorkload gameRate).workloads.modifyCurrent _).current? = _
      rw [Ring.current?_modifyCurrent hstamped.write_lt, current?_workloads hstamped]
      rfl

lemma of_submitPresent {screen : Screen} {ram : ByteArray} (h : p.Supplied allowed log)
    (hallowed : allowed (.call (.submitPresent screen ram)))
    (idle : p.producer.pending = none) (hw : p.workloads.Counts n i j)
    (hp : p.presents.Counts m k l) (hhalts : p.control.Halts) :
    (p.submitPresent screen ram).2.Supplied allowed
      (log ++ p.control.publishedEvents (p.submitPresent screen ram).2.control) := by
  unfold Pipeline.submitPresent
  split
  · exact .stay (h.congr rfl rfl rfl rfl (fun hrun => hrun) rfl rfl) rfl rfl
  · split
    · rename_i f p' hscreen
      obtain ⟨-, rfl⟩ := Prod.mk.inj hscreen
      exact .stay (h.congr rfl rfl rfl rfl (fun hrun => hrun) rfl rfl) rfl rfl
    · rename_i operations storage table p' hscreen
      obtain ⟨houtcome, rfl⟩ := Prod.mk.inj hscreen
      obtain ⟨hsound, hknown⟩ := (screenNeeds_of_prepareScreen houtcome).table h.sound
      refine publish_ready ?_ hw (hp.congr Ring.size_setSlot rfl rfl rfl)
        (hhalts.same rfl (.inr rfl) (.inr rfl)) rfl rfl
      exact h.ready_present idle (Ring.slot?_setSlot_self hp.write_lt)
        (.inr ⟨ram, p, table, hallowed, houtcome⟩) rfl hsound hknown fun hrun => hrun

lemma of_repeatLastPresent (h : p.Supplied allowed log)
    (idle : p.producer.pending = none) (hw : p.workloads.Counts n i j)
    (hp : p.presents.Counts m k l) (hhalts : p.control.Halts) :
    p.repeatLastPresent.2.Supplied allowed
      (log ++ p.control.publishedEvents p.repeatLastPresent.2.control) := by
  unfold Pipeline.repeatLastPresent
  split
  · exact .stay (h.congr rfl rfl rfl rfl (fun hrun => hrun) rfl rfl) rfl rfl
  · refine publish_ready ?_ hw (hp.congr Ring.size_setSlot rfl rfl rfl)
      (hhalts.same rfl (.inr rfl) (.inr rfl)) rfl rfl
    exact h.ready_present idle (Ring.slot?_setSlot_self hp.write_lt) (.inl ⟨rfl, rfl⟩) rfl h.sound
      (fun _ => rfl) fun hrun => hrun

/-- A table that is reset knows of no writes. -/
lemma of_resetFramebuffers (h : p.Supplied allowed log) (idle : p.producer.pending = none) :
    p.resetFramebuffers.Supplied allowed (log ++ []) := by
  unfold Pipeline.resetFramebuffers
  split
  · rename_i table p' htable
    obtain ⟨houtcome, rfl⟩ := Prod.mk.inj htable
    simp only [FramebufferTable.reset, Traced.bind_eq_ok, Traced.pure_eq_ok] at houtcome
    obtain ⟨-, -, rfl⟩ := houtcome
    rw [List.append_nil]
    refine ⟨h.submitted, h.requested, h.waiting, h.offered, h.filling, .empty,
      fun _ => ⟨_, le_rfl, fun address => ?_⟩⟩
    change none = lastWriteTo? (((log.submitted ++ p.waiting).drop _).flatMap _) address
    rw [waiting_of_idle idle, List.append_nil, List.drop_length]
    rfl
  · rename_i f p' htable
    obtain ⟨-, rfl⟩ := Prod.mk.inj htable
    exact h.congr rfl rfl rfl rfl (fun hrun => hrun) rfl rfl

lemma perform (h : p.Supplied allowed log) {c : ProducerCall} (hallowed : allowed (.call c))
    (hbuilds : (Action.call c).Builds) (idle : p.producer.pending = none)
    (hw : p.workloads.Counts n i j) (hp : p.presents.Counts m k l) (hhalts : p.control.Halts)
    (hid : 0 < p.producer.nextWorkloadId) :
    (p.perform c).Supplied allowed
      (log ++ p.control.publishedEvents (p.perform c).control) := by
  cases c with
  | fill f =>
    refine .stay ?_ rfl rfl
    rw [List.append_nil]
    refine h.fill idle rfl (fun hrun => hrun) fun hbuilt => ?_
    change (p.modifyWorkload f).currentWorkload.Built
    rw [currentWorkload_modifyWorkload hw]
    exact hbuilds _ hbuilt
  | submitWorkload ram gameRate => exact h.of_submitWorkload idle hw hp hhalts hid
  | submitPresent screen ram => exact h.of_submitPresent hallowed idle hw hp hhalts
  | repeatLastPresent => exact h.of_repeatLastPresent idle hw hp hhalts
  | reconfigure config window =>
    have hcontrol : (p.reconfigure config window).control = p.control := control_reconfigure
    refine .stay ?_ (congrArg (·.workloads.write) hcontrol) (congrArg (·.presents.write) hcontrol)
    change (p.reconfigure config window).Supplied allowed (log ++ [])
    unfold Pipeline.reconfigure
    dsimp only
    split
    · exact h.congr rfl rfl rfl rfl (fun hrun => hrun) rfl rfl
    · refine of_resetFramebuffers ?_ idle
      rw [← List.append_nil log]
      exact h.congr rfl rfl rfl rfl (fun hrun => hrun) rfl rfl
  | resetFramebuffers =>
    have hcontrol := control_resetFramebuffers (p := p)
    exact .stay (h.of_resetFramebuffers idle) (congrArg (·.workloads.write) hcontrol)
      (congrArg (·.presents.write) hcontrol)
  | _ => exact .stay (h.congr rfl rfl rfl rfl (fun hrun => hrun) rfl rfl) rfl rfl

/-- Every action leaves everything supplied. -/
lemma act {a : Action} {size size' : Nat} (h : p.Supplied allowed log) (hallowed : allowed a)
    (hbuilds : a.Builds) (hreached : Control.Reached size size' log p.control)
    (hact : p.act a = some q) : q.Supplied allowed (log ++ p.events a q) := by
  obtain ⟨_, hw, -⟩ := hreached.ordered.workloads.counts
  obtain ⟨_, hp, -⟩ := hreached.ordered.presents.counts
  have hrunning : q.shared.running = true → p.shared.running = true :=
    (move_of_act hact hw hp).running
  cases a with
  | render =>
    have hframe := (renderMove_of_renderStep hact).frame
    have hproducer := producer_of_renderStep hact
    rw [events_render hact]
    refine h.congr (by rw [hproducer]) (by rw [hproducer]) ?_ ?_ hrunning hframe.submitted
      hframe.requested
    · change q.control.workloads.current? = p.control.workloads.current?
      simp only [Ring.current?, Ring.slot?, Ring.size, hframe.slots, hframe.write]
    · exact congrArg Ring.current? hframe.presents
  | present =>
    have hmove := presentMove_of_presentStep hact
    have hproducer := (sameOthers_of_presentStep hact).1
    rw [events_present hact]
    exact h.congr (by rw [hproducer]) (by rw [hproducer])
      (congrArg Ring.current? hmove.frame.workloads) (hmove.current?_eq hp.write_lt) hrunning
      hmove.frame.submitted hmove.frame.requested
  | resume =>
    simp only [Pipeline.act, Option.map_eq_some_iff] at hact
    obtain ⟨⟨reply, q'⟩, hstep, rfl⟩ := hact
    obtain ⟨item, hitem, rfl⟩ := of_producerStep hstep
    have hready : p.Ready allowed log item := by
      rw [Ready, ← hitem]
      exact h
    exact publish hready hw hp hreached.halts
  | call c =>
    simp only [Pipeline.act] at hact
    split at hact
    · rename_i idle
      cases hact
      refine h.perform hallowed hbuilds idle hw hp hreached.halts ?_
      have hnext : p.producer.nextWorkloadId = _ := hreached.ordered.producer.nextWorkloadId
      omega
    · cases hact
  | host change =>
    cases hact
    change (p.undergo change).Supplied allowed
      (log ++ p.control.publishedEvents (p.undergo change).control)
    cases change <;> exact .stay (h.congr rfl rfl rfl rfl hrunning rfl rfl) rfl rfl

/-- Nothing was submitted at the start. -/
lemma start {host : Host} {config : Config} (h : Pipeline.start host config = .ok p) :
    p.Supplied allowed [] := by
  obtain ⟨-, swapChain, rfl⟩ := of_start h
  have hempty : (initial host.limits config swapChain).currentWorkload = .empty := by
    simp only [currentWorkload, initial, Ring.new, Ring.current?, Ring.slot?,
      List.getElem?_replicate]
    split <;> rfl
  refine ⟨by simp, by simp, by simp [Pipeline.waiting, initial, Producer.new],
    by simp [initial, Producer.new], fun _ _ => ?_, .empty, fun _ => ⟨0, le_rfl, fun _ => rfl⟩⟩
  rw [hempty]
  exact .empty

end Supplied

/-- The history after one more action. -/
lemma follow_concat (p : Pipeline) (actions : List Action) (a : Action) :
    p.follow (actions ++ [a]) =
      match (p.follow actions).2.act a with
      | some q => ((p.follow actions).1 ++ (p.follow actions).2.events a q, q)
      | none => p.follow actions := by
  induction actions generalizing p with
  | nil => cases hact : p.act a <;> simp [follow, hact]
  | cons b actions ih =>
    simp only [List.cons_append, follow]
    cases hact : p.act b with
    | none => exact ih p
    | some q =>
      simp only [ih q]
      cases (q.follow actions).2.act a with
      | none => rfl
      | some r => simp only [List.append_assoc]

/-- As long as workloads are built, everything is supplied by the calls. -/
lemma supplied_follow {host : Host} {config : Config} {start : Pipeline} {actions : List Action}
    (hstart : Pipeline.start host config = .ok start) (hbuilds : ∀ a ∈ actions, a.Builds)
    (hallowed : ∀ a ∈ actions, allowed a) :
    (start.follow actions).2.Supplied allowed (start.follow actions).1 := by
  induction actions using List.reverseRecOn with
  | nil => exact .start hstart
  | append_singleton actions a ih =>
    simp only [List.forall_mem_append, List.forall_mem_singleton] at hbuilds hallowed
    obtain ⟨_, _, -, -, hreached⟩ := (ran_follow hstart actions).reached
    have ih := ih hbuilds.1 hallowed.1
    rw [follow_concat]
    cases hact : (start.follow actions).2.act a with
    | none => exact ih
    | some q => exact ih.act hallowed.2 hbuilds.2 hreached hact

end Pipeline

end Scanout
