import Scanout.Proofs.Framebuffer.Table
import Scanout.Workload.Sync

/-!
# The steps of a synchronization

A workload is synchronized pair by pair: its tiles are looked for, the images that it writes to are
checked one after the other, and its writes are recorded. Only the checks change what the table
remembers of memory, so the tables that come about are sound.
-/

namespace Scanout

/-- An image as a pair writes to it. -/
structure ImageUse where
  address : Nat
  size : PixelSize
  width : Nat
  height : Nat
  type : WriteType
  deriving DecidableEq

/-- The target that a pair writes an image to. -/
def ImageUse.key (use : ImageUse) : TargetKey :=
  .ofImage use.address use.width use.size use.type

namespace Pair

/-- The images that the draws of a pair write to. -/
def imageUses (p : Pair) : List ImageUse :=
  match p.colorImage with
  | some image =>
    ⟨image.address, image.size, image.width, p.drawHeight, .color⟩ ::
      (Sync.writtenDepth p).toList.map (⟨·, .bits16, image.width, p.drawHeight, .depth⟩)
  | none => []

/-- What the draws of a pair write, and where. -/
def writes (p : Pair) : List (Nat × WriteType × Rect) :=
  match p.colorImage with
  | some image =>
    (if p.colorRect.isEmpty then [] else [(image.address, .color, p.colorRect)]) ++
      (Sync.writtenDepth p).toList.map (·, .depth, p.depthRect)
  | none => []

/-- What later pairs cannot change of a pair. -/
def settled (p : Pair) : Option ColorImage × Bool × List Operation :=
  (p.colorImage, p.blendable, p.before)

/-- A pair without the marks that later pairs leave on it. -/
def unmarked (p : Pair) : Pair := { p with syncRequired := false, after := [] }

end Pair

namespace Workload

/-- The workloads that the operations on workloads build. -/
inductive Built : Workload → Prop
  | empty : Built empty
  | reset {w : Workload} (before : Built w) : Built w.reset
  | setColorImage {w : Workload} (before : Built w) (address : Nat) (size : PixelSize)
      (width : Nat) : Built (w.setColorImage address size width)
  | setDepthImage {w : Workload} (before : Built w) (address : Nat) :
      Built (w.setDepthImage address)
  | addTransform {w : Workload} (before : Built w) (id : Nat) (matrix : Matrix) :
      Built (w.addTransform id matrix)
  | addProjection {w : Workload} (before : Built w) (kind : ProjectionKind) (matrix : Matrix) :
      Built (w.addProjection kind matrix)
  | addTile {w : Workload} (before : Built w) (tile : Tile) : Built (w.addTile tile)
  | addDraw {w : Workload} (before : Built w) (draw : Draw) : Built (w.addDraw draw)
  | stamp {w : Workload} (before : Built w) (id presentId submissionFrame gameRate : Nat)
      (paused : Bool) : Built { w with id, presentId, submissionFrame, gameRate, paused }

/-- No operation precedes the draws yet. -/
def Unsynchronized (w : Workload) : Prop := ∀ p ∈ w.pairs, p.before = []

/-- Nothing was decided yet that synchronizing decides. -/
structure Pristine (w : Workload) : Prop where
  pairs : ∀ p ∈ w.pairs, p.syncRequired = false ∧ p.before = [] ∧ p.after = []
  changes : w.changes = []

/-- Changes of the images, projections and draws of the last pair do not matter. -/
lemma Pristine.of_last {w w' : Workload} {last : Pair} (h : w.Pristine)
    (hpairs : w'.pairs = w.pairs.dropLast ++ [last]) (hchanges : w'.changes = w.changes)
    (hsync : last.syncRequired = (w.pairs.getLast?.getD .empty).syncRequired)
    (hbefore : last.before = (w.pairs.getLast?.getD .empty).before)
    (hafter : last.after = (w.pairs.getLast?.getD .empty).after) : w'.Pristine := by
  refine ⟨fun p hp => ?_, hchanges.trans h.changes⟩
  rw [hpairs] at hp
  rcases List.mem_append.mp hp with hp | hp
  · exact h.pairs p (List.dropLast_subset _ hp)
  · rw [List.mem_singleton.mp hp, hsync, hbefore, hafter]
    cases hknown : w.pairs.getLast? with
    | none => exact ⟨rfl, rfl, rfl⟩
    | some known => exact h.pairs known (List.mem_of_getLast? hknown)

lemma Pristine.openPair {w : Workload} (h : w.Pristine) : w.openPair.Pristine := by
  rw [Workload.openPair]
  split
  · split
    · exact h
    · refine ⟨fun p hp => ?_, h.changes⟩
      rcases List.mem_append.mp hp with hp | hp
      · exact h.pairs p hp
      · rw [List.mem_singleton.mp hp]
        exact ⟨rfl, rfl, rfl⟩
  · exact h

lemma Pristine.withProjection {w : Workload} (h : w.Pristine) : w.withProjection.Pristine := by
  rw [Workload.withProjection]
  split
  · exact h
  · exact h.of_last rfl rfl rfl rfl rfl

lemma Built.pristine {w : Workload} (h : w.Built) : w.Pristine := by
  induction h with
  | empty => exact ⟨fun _ hp => (List.not_mem_nil hp).elim, rfl⟩
  | reset before ih => exact ⟨fun _ hp => (List.not_mem_nil hp).elim, rfl⟩
  | setColorImage before address size width ih =>
    rw [Workload.setColorImage]
    split
    · exact ih
    · exact ih.openPair.of_last rfl rfl rfl rfl rfl
  | setDepthImage before address ih =>
    rw [Workload.setDepthImage]
    split
    · exact ih
    · exact ih.openPair.of_last rfl rfl rfl rfl rfl
  | addTransform before id matrix ih => exact ⟨ih.pairs, ih.changes⟩
  | addProjection before kind matrix ih => exact ih.of_last rfl rfl rfl rfl rfl
  | addTile before tile ih => exact ⟨ih.pairs, ih.changes⟩
  | addDraw before draw ih => exact ih.withProjection.of_last rfl rfl rfl rfl rfl
  | stamp before id presentId submissionFrame gameRate paused ih => exact ⟨ih.pairs, ih.changes⟩

lemma Built.unsynchronized {w : Workload} (h : w.Built) : w.Unsynchronized :=
  fun p hp => (h.pristine.pairs p hp).2.1

end Workload

namespace Sync

variable {s s' : Sync} {ram : ByteArray}

/-- Only tiles were looked for between the two. -/
structure Samples (s s' : Sync) : Prop where
  table : s'.table = s.table
  queued : ∃ copies : List TileCopy, s'.queued = s.queued ++ copies.map .copyTile
  done : s'.done.map Pair.unmarked = s.done.map Pair.unmarked

lemma Samples.refl : s.Samples s := ⟨rfl, ⟨[], (List.append_nil _).symm⟩, rfl⟩

lemma Samples.trans {s'' : Sync} (h : s.Samples s') (h' : s'.Samples s'') : s.Samples s'' := by
  obtain ⟨copies, hcopies⟩ := h.queued
  obtain ⟨copies', hcopies'⟩ := h'.queued
  refine ⟨h'.table.trans h.table, ⟨copies ++ copies', ?_⟩, h'.done.trans h.done⟩
  rw [hcopies', hcopies, List.map_append, List.append_assoc]

/-- Only marks are left on the pairs done. -/
lemma Samples.settled (h : s.Samples s') :
    s'.done.map Pair.settled = s.done.map Pair.settled := by
  have hmap : ∀ pairs : List Pair,
      (pairs.map Pair.unmarked).map Pair.settled = pairs.map Pair.settled := by
    intro pairs
    rw [List.map_map]
    rfl
  rw [← hmap s'.done, h.done, hmap]

lemma unmarked_markProducer {address width : Nat} {size : PixelSize} {pairs : List Pair} :
    (markProducer address size width pairs).map Pair.unmarked = pairs.map Pair.unmarked := by
  induction pairs with
  | nil => rfl
  | cons p ps ih =>
    rw [markProducer]
    split
    · split <;> rfl
    · rw [List.map_cons, List.map_cons, ih]

lemma Samples.of_syncTile {stamp place : Nat} {tiles : List Tile}
    (h : (syncTile stamp tiles s place).outcome = .ok s') : s.Samples s' := by
  simp only [syncTile, Traced.bind_eq_ok] at h
  obtain ⟨tile?, -, h⟩ := h
  cases tile? with
  | none =>
    cases Traced.pure_eq_ok.mp h
    exact .refl
  | some tile =>
    simp only [Traced.bind_eq_ok] at h
    obtain ⟨source, -, h⟩ := h
    cases source with
    | copy region =>
      simp only [Traced.pure_eq_ok] at h
      subst h
      split
      · exact ⟨rfl, ⟨[_], rfl⟩, unmarked_markProducer⟩
      · exact ⟨rfl, ⟨[_], rfl⟩, rfl⟩
    | textureMemory hash =>
      cases Traced.pure_eq_ok.mp h
      exact .refl

/-- Bring an image up to date as a pair writes to it. -/
def syncUse (ram : ByteArray) (s : Sync) (use : ImageUse) : Traced Sync :=
  s.syncImage ram use.address use.size use.width use.height use.type

/-- The operation that a check of an image leads to. -/
def operationFor (fb : Framebuffer) (use : ImageUse) : Option MemoryChange → Option Operation
  | some change => some (.upload use.type change)
  | none =>
    if fb.wasWritten ∧ fb.lastWriteType ≠ use.type then
      some (.reinterpret use.address use.size use.width fb.lastWriteType use.type fb.lastWriteRect)
    else none

lemma checkImage_eq_ok {use : ImageUse} {table table' : FramebufferTable} {op? : Option Operation}
    (h : (checkImage ram table use.address use.size use.width use.height use.type).outcome =
      .ok (op?, table')) :
    ∃ change fb, ((table.requested use.address use.size use.width use.height).check ram).outcome =
        .ok (change, fb) ∧
      table' = (table.insert use.address
        (table.requested use.address use.size use.width use.height)).insert use.address
          { fb with blendable := change.isNone || !fb.wasWritten } ∧
      op? = operationFor fb use change := by
  simp only [checkImage, Traced.bind_eq_ok] at h
  obtain ⟨⟨_, _⟩, hget, ⟨change, fb⟩, hcheck, h⟩ := h
  obtain ⟨rfl, rfl⟩ := FramebufferTable.get_eq_ok hget
  refine ⟨change, fb, hcheck, ?_⟩
  cases change with
  | some change =>
    cases Traced.pure_eq_ok.mp h
    exact ⟨rfl, rfl⟩
  | none =>
    simp only [Traced.pure_eq_ok] at h
    split at h
    · rename_i hwritten
      cases h
      exact ⟨rfl, (if_pos hwritten).symm⟩
    · rename_i hwritten
      cases h
      exact ⟨rfl, (if_neg hwritten).symm⟩

/-- The framebuffer that is checked as a pair writes to an image. -/
def usedFramebuffer (s : Sync) (use : ImageUse) : Framebuffer :=
  s.table.requested use.address use.size use.width use.height

/-- The framebuffer of an image is checked, and nothing else is changed but the queue. -/
lemma syncUse_eq_ok {use : ImageUse} (h : (s.syncUse ram use).outcome = .ok s') :
    ∃ change fb, ((s.usedFramebuffer use).check ram).outcome = .ok (change, fb) ∧
      s'.table = (s.table.insert use.address (s.usedFramebuffer use)).insert use.address
        { fb with blendable := change.isNone || !fb.wasWritten } ∧
      s'.queued = s.queued ++ (operationFor fb use change).toList ∧ s'.done = s.done := by
  simp only [syncUse, syncImage, Traced.bind_eq_ok] at h
  obtain ⟨⟨op?, table⟩, himage, h⟩ := h
  obtain ⟨change, fb, hcheck, rfl, hop⟩ := checkImage_eq_ok himage
  refine ⟨change, fb, hcheck, ?_⟩
  rw [← hop]
  cases op? with
  | some op =>
    cases Traced.pure_eq_ok.mp h
    exact ⟨rfl, rfl, rfl⟩
  | none =>
    cases Traced.pure_eq_ok.mp h
    exact ⟨rfl, (List.append_nil _).symm, rfl⟩

lemma sound_of_syncUse {use : ImageUse} (hs : s.table.Sound)
    (h : (s.syncUse ram use).outcome = .ok s') : s'.table.Sound := by
  obtain ⟨change, fb, hcheck, htable, -, -⟩ := syncUse_eq_ok h
  obtain ⟨haddress, hused⟩ : (s.usedFramebuffer use).address = use.address ∧
    (s.usedFramebuffer use).Remembers := hs.requested
  have hfb := hused.check hcheck
  rw [htable]
  apply (hs.insert haddress hused).insert
  · exact (Framebuffer.address_of_check hcheck).trans haddress
  · exact ⟨hfb.checksum, hfb.unseen, hfb.formatChanged, hfb.readHeight, hfb.size_le⟩

/-- Record writes of the draws of a workload. -/
def recorded (stamp : Nat) (table : FramebufferTable) (writes : List (Nat × WriteType × Rect)) :
    FramebufferTable :=
  writes.foldl (fun table write => table.recordWrite write.1 write.2.1 write.2.2 stamp) table

lemma sound_recorded {stamp : Nat} {table : FramebufferTable}
    {writes : List (Nat × WriteType × Rect)} (h : table.Sound) :
    (recorded stamp table writes).Sound := by
  induction writes generalizing table with
  | nil => exact h
  | cons write writes ih => exact ih h.recordWrite

lemma recordWrites_eq {stamp : Nat} {p : Pair} {image : ColorImage}
    (h : p.colorImage = some image) :
    s.recordWrites stamp p image = { s with table := recorded stamp s.table p.writes } := by
  simp only [recordWrites, Pair.writes, h]
  by_cases hempty : p.colorRect.isEmpty = true
  · simp only [hempty, if_true]
    cases writtenDepth p <;> rfl
  · simp only [hempty]
    cases writtenDepth p <;> rfl

/-- The images that a pair writes to are checked one after the other, and its writes recorded. -/
lemma syncImages_eq_ok {stamp : Nat} {p p' : Pair}
    (h : (s.syncImages ram stamp p).outcome = .ok (s', p')) :
    ∃ s₁ blendable, (p.imageUses.foldlM (syncUse ram) s).outcome = .ok s₁ ∧
      s' = { s₁ with table := recorded stamp s₁.table p.writes } ∧ p' = { p with blendable } ∧
      (∀ image, p.colorImage = some image → blendable = s₁.blendable image.address) := by
  simp only [syncImages] at h
  cases hcolor : p.colorImage with
  | none =>
    simp only [hcolor] at h
    cases Traced.pure_eq_ok.mp h
    have huses : p.imageUses = [] := by simp only [Pair.imageUses, hcolor]
    have hwrites : p.writes = [] := by simp only [Pair.writes, hcolor]
    refine ⟨s, p.blendable, ?_, by rw [hwrites]; rfl, by rw [← hcolor], ?_⟩
    · rw [huses]
      rfl
    · intro image himage
      cases himage
  | some image =>
    simp only [hcolor, Traced.bind_eq_ok] at h
    obtain ⟨s₁, hcolored, h⟩ := h
    have huses : ∀ s₂, (((writtenDepth p).toList.map fun address =>
        (⟨address, .bits16, image.width, p.drawHeight, .depth⟩ : ImageUse)).foldlM (syncUse ram)
          s₁).outcome = .ok s₂ → (p.imageUses.foldlM (syncUse ram) s).outcome = .ok s₂ := by
      intro s₂ hrest
      simp only [Pair.imageUses, hcolor, List.foldlM_cons, Traced.bind_eq_ok]
      exact ⟨s₁, hcolored, hrest⟩
    cases hdepth : writtenDepth p with
    | none =>
      simp only [hdepth, Traced.bind_eq_ok, Traced.pure_eq_ok] at h huses
      obtain ⟨_, rfl, h⟩ := h
      cases h
      refine ⟨s₁, _, huses s₁ rfl, recordWrites_eq hcolor, rfl, ?_⟩
      intro _ himage
      cases himage
      rfl
    | some address =>
      simp only [hdepth, Traced.bind_eq_ok, Traced.pure_eq_ok] at h huses
      obtain ⟨s₂, hdeep, h⟩ := h
      cases h
      refine ⟨s₂, _, huses s₂ ?_, recordWrites_eq hcolor, rfl, ?_⟩
      · exact Traced.bind_eq_ok.mpr ⟨s₂, hdeep, rfl⟩
      · intro _ himage
        cases himage
        rfl

/-- The steps of a pair: its tiles are looked for, its images are checked, and its writes are
recorded. -/
lemma exists_steps {w : Workload} {p : Pair} (h : (syncPair ram w s p).outcome = .ok s') :
    ∃ s₁ s₂ blendable, ((sampledTiles w.draws p).foldlM (syncTile w.id w.tiles)
        { s with queued := [] }).outcome = .ok s₁ ∧
      (p.imageUses.foldlM (syncUse ram) s₁).outcome = .ok s₂ ∧
      (∀ image, p.colorImage = some image → blendable = s₂.blendable image.address) ∧
      s' = { s₂ with
        table := recorded w.id s₂.table p.writes
        done := { p with blendable, before := p.before ++ s₂.queued } :: s₂.done
        queued := [] } := by
  simp only [syncPair, Traced.bind_eq_ok] at h
  obtain ⟨s₁, htiles, ⟨s₂, p'⟩, himages, h⟩ := h
  cases Traced.pure_eq_ok.mp h
  obtain ⟨s₂, blendable, huses, rfl, rfl, hblendable⟩ := syncImages_eq_ok himages
  exact ⟨s₁, s₂, blendable, htiles, huses, hblendable, rfl⟩

lemma Samples.of_tiles {stamp : Nat} {tiles : List Tile} {places : List Nat}
    (h : (places.foldlM (syncTile stamp tiles) s).outcome = .ok s') : s.Samples s' := by
  apply Traced.foldlM_induct h .refl
  intro place _ s₁ s₂ h₁ h₂
  exact h₁.trans (.of_syncTile h₂)

lemma syncPair_eq_ok {w : Workload} {p : Pair} (h : (syncPair ram w s p).outcome = .ok s') :
    ∃ s₁ s₂ p' writes, Samples { s with queued := [] } s₁ ∧
      (p.imageUses.foldlM (syncUse ram) s₁).outcome = .ok s₂ ∧
      p'.colorImage = p.colorImage ∧ p'.before = p.before ++ s₂.queued ∧
      (∀ image, p.colorImage = some image → p'.blendable = s₂.blendable image.address) ∧
      s'.done = p' :: s₂.done ∧ s'.table = recorded w.id s₂.table writes := by
  obtain ⟨s₁, s₂, blendable, htiles, huses, hblendable, rfl⟩ := exists_steps h
  exact ⟨s₁, s₂, { p with blendable, before := p.before ++ s₂.queued }, p.writes, .of_tiles htiles,
    huses, rfl, rfl, hblendable, rfl, rfl⟩

lemma sound_of_syncPair {w : Workload} {p : Pair} (hs : s.table.Sound)
    (h : (syncPair ram w s p).outcome = .ok s') : s'.table.Sound := by
  obtain ⟨s₁, s₂, p', writes, hsamples, huses, -, -, -, -, htable⟩ := syncPair_eq_ok h
  have hs₁ : s₁.table.Sound := hsamples.table ▸ hs
  rw [htable]
  apply sound_recorded
  apply Traced.foldlM_induct huses hs₁
  intro use _ s₃ s₄ h₃ h₄
  exact sound_of_syncUse h₃ h₄

end Sync

/-- Nothing is synchronized yet. -/
def Workload.syncStart (w : Workload) (table : FramebufferTable) : Sync :=
  ⟨table, w.tileCopies, [], [], [], .zero⟩

lemma Workload.exists_synced {w w' : Workload} {table table' : FramebufferTable}
    {ram : ByteArray} {stats : SyncStats}
    (h : (w.synchronize table ram).outcome = .ok (stats, w', table')) :
    ∃ s, (w.pairs.foldlM (Sync.syncPair ram w) (w.syncStart table)).outcome = .ok s ∧
      w' = { w with
        pairs := s.done.reverse, tileCopies := s.tileCopies, changes := w.changes ++ s.changes } ∧
      table' = s.table := by
  simp only [Workload.synchronize, Traced.bind_eq_ok] at h
  obtain ⟨s, hs, _, -, h⟩ := h
  cases Traced.pure_eq_ok.mp h
  exact ⟨s, hs, rfl, rfl⟩

lemma Workload.synchronize_eq_ok {w w' : Workload} {table table' : FramebufferTable}
    {ram : ByteArray} {stats : SyncStats}
    (h : (w.synchronize table ram).outcome = .ok (stats, w', table')) :
    ∃ s, (w.pairs.foldlM (Sync.syncPair ram w) (w.syncStart table)).outcome = .ok s ∧
      w'.pairs = s.done.reverse ∧ table' = s.table := by
  obtain ⟨s, hs, rfl, htable⟩ := exists_synced h
  exact ⟨s, hs, rfl, htable⟩

namespace FramebufferTable

/-- The tables that the operations on tables, and synchronizing workloads, lead to. -/
inductive Reachable : FramebufferTable → Prop
  | empty : Reachable empty
  | get {t t' : FramebufferTable} {fb : Framebuffer} (before : Reachable t) (address : Nat)
      (size : PixelSize) (width height : Nat)
      (got : (t.get address size width height).outcome = .ok (fb, t')) : Reachable t'
  | forget {t : FramebufferTable} (before : Reachable t) (address : Nat) :
      Reachable (t.modify address .forget)
  | recordWrite {t : FramebufferTable} (before : Reachable t) (address : Nat) (type : WriteType)
      (rect : Rect) (stamp : Nat) : Reachable (t.recordWrite address type rect stamp)
  | check {t t' : FramebufferTable} {change : Option MemoryChange} (before : Reachable t)
      (address : Nat) (ram : ByteArray)
      (checked : (t.check address ram).outcome = .ok (change, t')) : Reachable t'
  | synchronize {t t' : FramebufferTable} {w w' : Workload} {stats : SyncStats}
      (before : Reachable t) (built : w.Built) (ram : ByteArray)
      (synchronized : (w.synchronize t ram).outcome = .ok (stats, w', t')) : Reachable t'

lemma Reachable.sound {t : FramebufferTable} (h : t.Reachable) : t.Sound := by
  induction h with
  | empty => exact .empty
  | get before address size width height got ih => exact ih.get got
  | forget before address ih => exact ih.modify fun _ _ => ⟨rfl, .forget⟩
  | recordWrite before address type rect stamp ih => exact ih.recordWrite
  | check before address ram checked ih => exact ih.check checked
  | synchronize before built ram synchronized ih =>
    obtain ⟨s, hs, -, rfl⟩ := Workload.synchronize_eq_ok synchronized
    apply Traced.foldlM_induct hs ih
    intro p _ s s' hs hs'
    exact Sync.sound_of_syncPair hs hs'

end FramebufferTable

end Scanout
