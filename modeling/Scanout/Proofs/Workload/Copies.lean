import Scanout.Proofs.Framebuffer.Written
import Scanout.Proofs.Workload.Synchronizing

/-!
# The copies that synchronizing asks for

Synchronizing a workload asks for copies of rendered regions, each under an index of its own, and
binds them to tiles. A copy is asked for before the draws of a pair, and only of an image that was
drawn to before: by an earlier pair, or by an earlier workload according to the table.
-/

namespace Scanout

namespace FramebufferTable

variable {t : FramebufferTable} {x : Nat}

lemma Wrote.of_recorded (ht : t.Sound) {stamp : Nat} {writes : List (Nat × WriteType × Rect)}
    (h : (Sync.recorded stamp t writes).Wrote x) : t.Wrote x ∨ ∃ write ∈ writes, write.1 = x := by
  induction writes generalizing t with
  | nil => exact .inl h
  | cons write writes ih =>
    rcases ih ht.recordWrite h with h | ⟨write', hwrite, rfl⟩
    · rcases h.of_recordWrite ht with h | rfl
      · exact .inl h
      · exact .inr ⟨write, List.mem_cons_self, rfl⟩
    · exact .inr ⟨write', List.mem_cons_of_mem _ hwrite, rfl⟩

end FramebufferTable

/-- The copy that an operation makes for a tile. -/
def Operation.copy? : Operation → Option TileCopy
  | .copyTile copy => some copy
  | _ => none

@[simp] lemma Operation.copy?_eq_some_iff {op : Operation} {copy : TileCopy} :
    op.copy? = some copy ↔ op = .copyTile copy := by
  cases op <;> simp [copy?]

/-- The operation makes what was drawn visible. -/
def Operation.IsMark : Operation → Prop
  | .synchronize .. => True
  | _ => False

lemma Operation.IsMark.copy?_eq_none {op : Operation} (h : op.IsMark) : op.copy? = none := by
  cases op with
  | copyTile => exact h.elim
  | _ => rfl

namespace Pair

/-- The copies made before the draws of a pair. -/
def copies (p : Pair) : List TileCopy := p.before.filterMap Operation.copy?

@[simp] lemma mem_copies {p : Pair} {copy : TileCopy} :
    copy ∈ p.copies ↔ .copyTile copy ∈ p.before := by
  simp [copies]

/-- The pair has draws, and they write to the image at the address. -/
def DrawsTo (p : Pair) (address : Nat) : Prop :=
  p.isEmpty = false ∧ ∃ use ∈ p.imageUses, use.address = address

/-- A pair as it is built: nothing precedes or follows the draws, and without draws nothing is
written. -/
structure Plain (p : Pair) : Prop where
  before : p.before = []
  after : p.after = []
  colorRect : p.isEmpty = true → p.colorRect.isEmpty = true
  depthRect : p.isEmpty = true → p.depthRect.isEmpty = true

lemma Plain.empty : Pair.empty.Plain := ⟨rfl, rfl, fun _ => rfl, fun _ => rfl⟩

lemma Plain.drawsTo {p : Pair} (h : p.Plain) {write : Nat × WriteType × Rect}
    (hwrite : write ∈ p.writes) : p.DrawsTo write.1 := by
  rw [writes] at hwrite
  cases himage : p.colorImage with
  | none =>
    rw [himage] at hwrite
    cases hwrite
  | some image =>
    simp only [himage, List.mem_append] at hwrite
    rcases hwrite with hwrite | hwrite
    · split at hwrite
      · cases hwrite
      · rename_i hcolor
        obtain rfl := List.mem_singleton.mp hwrite
        refine ⟨eq_false_of_ne_true fun hempty => hcolor (h.colorRect hempty), ?_⟩
        simp [imageUses, himage]
    · obtain ⟨address, haddress, rfl⟩ := List.mem_map.mp hwrite
      have hdepth := Option.mem_toList.mp haddress
      refine ⟨eq_false_of_ne_true fun hempty => ?_, ?_⟩
      · simp [Sync.writtenDepth, h.depthRect hempty] at hdepth
      · simp [imageUses, himage, hdepth]

end Pair

namespace Workload

variable {w : Workload}

/-- Only the last pair is changed. -/
lemma plain_of_last {w' : Workload} {last : Pair} (h : ∀ p ∈ w.pairs, p.Plain)
    (hpairs : w'.pairs = w.pairs.dropLast ++ [last])
    (hlast : (w.pairs.getLast?.getD .empty).Plain → last.Plain) : ∀ p ∈ w'.pairs, p.Plain := by
  intro p hp
  rw [hpairs] at hp
  rcases List.mem_append.mp hp with hp | hp
  · exact h p (List.dropLast_subset _ hp)
  · rw [List.mem_singleton.mp hp]
    apply hlast
    cases hknown : w.pairs.getLast? with
    | none => exact .empty
    | some known => exact h known (List.mem_of_getLast? hknown)

lemma plain_openPair (h : ∀ p ∈ w.pairs, p.Plain) : ∀ p ∈ w.openPair.pairs, p.Plain := by
  rw [openPair]
  split
  · split
    · exact h
    · intro p hp
      rcases List.mem_append.mp hp with hp | hp
      · exact h p hp
      · rw [List.mem_singleton.mp hp]
        exact ⟨rfl, rfl, fun _ => rfl, fun _ => rfl⟩
  · exact h

lemma plain_withProjection (h : ∀ p ∈ w.pairs, p.Plain) :
    ∀ p ∈ w.withProjection.pairs, p.Plain := by
  rw [withProjection]
  split
  · exact h
  · exact plain_of_last h rfl fun hp => ⟨hp.before, hp.after, hp.colorRect, hp.depthRect⟩

lemma Built.plain (h : w.Built) : ∀ p ∈ w.pairs, p.Plain := by
  induction h with
  | empty =>
    intro p hp
    cases hp
  | reset before ih =>
    intro p hp
    cases hp
  | setColorImage before address size width ih =>
    rw [Workload.setColorImage]
    split
    · exact ih
    · exact plain_of_last (plain_openPair ih) rfl fun hp =>
        ⟨hp.before, hp.after, hp.colorRect, hp.depthRect⟩
  | setDepthImage before address ih =>
    rw [Workload.setDepthImage]
    split
    · exact ih
    · exact plain_of_last (plain_openPair ih) rfl fun hp =>
        ⟨hp.before, hp.after, hp.colorRect, hp.depthRect⟩
  | addTransform before id matrix ih => exact ih
  | addProjection before kind matrix ih =>
    exact plain_of_last ih rfl fun hp => ⟨hp.before, hp.after, hp.colorRect, hp.depthRect⟩
  | addTile before tile ih => exact ih
  | addDraw before draw ih =>
    refine plain_of_last (plain_withProjection ih) rfl fun hp => ⟨hp.before, hp.after, ?_, ?_⟩
    · intro hempty
      simp [Pair.isEmpty] at hempty
    · intro hempty
      simp [Pair.isEmpty] at hempty
  | stamp before id presentId submissionFrame gameRate paused ih => exact ih

lemma tileCopies_withProjection : w.withProjection.tileCopies = w.tileCopies := by
  rw [withProjection]
  split <;> rfl

lemma tileCopies_openPair : w.openPair.tileCopies = w.tileCopies := by
  rw [openPair]
  split
  · split <;> rfl
  · rfl

/-- No tile of a workload has a copy before the workload is synchronized. -/
lemma Built.unbound (h : w.Built) : ∀ copy, some copy ∉ w.tileCopies := by
  induction h with
  | empty => exact fun _ => List.not_mem_nil
  | reset before ih => exact fun _ => List.not_mem_nil
  | setColorImage before address size width ih =>
    rw [Workload.setColorImage]
    split
    · exact ih
    · rw [modifyPair, tileCopies_openPair]
      exact ih
  | setDepthImage before address ih =>
    rw [Workload.setDepthImage]
    split
    · exact ih
    · rw [modifyPair, tileCopies_openPair]
      exact ih
  | addTransform before id matrix ih => exact ih
  | addProjection before kind matrix ih => exact ih
  | addTile before tile ih =>
    intro copy hcopy
    rcases List.mem_append.mp hcopy with hcopy | hcopy
    · exact ih copy hcopy
    · cases List.mem_singleton.mp hcopy
  | addDraw before draw ih =>
    intro copy hcopy
    exact ih copy (tileCopies_withProjection ▸ hcopy)
  | stamp before id presentId submissionFrame gameRate paused ih => exact ih

end Workload

/-- Every copy is of an image that an earlier pair draws to, or that was written before. The latest
pair comes first. -/
def Sourced (table : FramebufferTable) : List Pair → Prop
  | [] => True
  | p :: earlier =>
    (∀ copy ∈ p.copies, table.Wrote copy.address ∨ ∃ q ∈ earlier, q.DrawsTo copy.address) ∧
      Sourced table earlier

namespace Sync

variable {s s' : Sync} {ram : ByteArray} {table : FramebufferTable} {pairs pairs' : List Pair}
  {p : Pair} {w : Workload}

lemma exists_drawsTo_congr {address : Nat}
    (h : pairs'.map Pair.unmarked = pairs.map Pair.unmarked) :
    (∃ p ∈ pairs', p.DrawsTo address) ↔ ∃ p ∈ pairs, p.DrawsTo address := by
  have hmap : ∀ ps : List Pair,
      (∃ p ∈ ps.map Pair.unmarked, p.DrawsTo address) ↔ ∃ p ∈ ps, p.DrawsTo address := by
    intro ps
    simp only [List.mem_map, exists_exists_and_eq_and]
    rfl
  rw [← hmap pairs', h, hmap]

lemma flatMap_copies_congr (h : pairs'.map Pair.unmarked = pairs.map Pair.unmarked) :
    pairs'.flatMap Pair.copies = pairs.flatMap Pair.copies := by
  have hmap : ∀ ps : List Pair, (ps.map Pair.unmarked).flatMap Pair.copies =
      ps.flatMap Pair.copies := by
    intro ps
    rw [List.flatMap_map]
    rfl
  rw [← hmap pairs', h, hmap]

lemma sourced_congr (h : pairs'.map Pair.unmarked = pairs.map Pair.unmarked) :
    Sourced table pairs' ↔ Sourced table pairs := by
  induction pairs generalizing pairs' with
  | nil =>
    rw [List.map_nil, List.map_eq_nil_iff] at h
    rw [h]
  | cons p pairs ih =>
    obtain ⟨p', pairs', rfl, hp, hpairs⟩ := List.map_eq_cons_iff.mp h
    have hcopies : p'.unmarked.copies = p.unmarked.copies := by rw [hp]
    change p'.copies = p.copies at hcopies
    simp only [Sourced, hcopies, exists_drawsTo_congr hpairs, ih hpairs]

/-- Only marks follow the draws. -/
lemma isMark_of_markProducer {address width : Nat} {size : PixelSize}
    (h : ∀ p ∈ pairs, ∀ op ∈ p.after, op.IsMark) :
    ∀ p ∈ markProducer address size width pairs, ∀ op ∈ p.after, op.IsMark := by
  induction pairs with
  | nil => exact h
  | cons p ps ih =>
    obtain ⟨hp, hps⟩ := List.forall_mem_cons.mp h
    rw [markProducer]
    split
    · split
      · exact h
      · refine List.forall_mem_cons.mpr ⟨?_, hps⟩
        intro op hop
        rcases List.mem_append.mp hop with hop | hop
        · exact hp op hop
        · rw [List.mem_singleton.mp hop]
          trivial
    · exact List.forall_mem_cons.mpr ⟨hp, ih hps⟩

/-- A check of an image asks for no copy. -/
lemma copies_of_syncUse {use : ImageUse} (h : (s.syncUse ram use).outcome = .ok s') :
    s'.queued.filterMap Operation.copy? = s.queued.filterMap Operation.copy? ∧
      s'.tileCopies = s.tileCopies ∧ s'.stats.tileCopies = s.stats.tileCopies := by
  simp only [syncUse, syncImage, Traced.bind_eq_ok] at h
  obtain ⟨⟨op?, table⟩, himage, h⟩ := h
  obtain ⟨change, fb, -, -, hop⟩ := checkImage_eq_ok himage
  cases op? with
  | none =>
    cases Traced.pure_eq_ok.mp h
    exact ⟨rfl, rfl, rfl⟩
  | some op =>
    cases Traced.pure_eq_ok.mp h
    have hcopy : op.copy? = none ∧ (s.stats.count op).tileCopies = s.stats.tileCopies := by
      cases change with
      | some change =>
        cases hop
        exact ⟨rfl, rfl⟩
      | none =>
        rw [operationFor] at hop
        split at hop
        · cases hop
          exact ⟨rfl, rfl⟩
        · cases hop
    exact ⟨by simp [queue, List.filterMap_append, hcopy.1], rfl, hcopy.2⟩

/-- The copies asked for so far. -/
def copies (s : Sync) : List TileCopy :=
  s.queued.filterMap Operation.copy? ++ s.done.flatMap Pair.copies

/-- What was asked for so far is accounted for by the table before and the pairs done. -/
structure Accounts (table : FramebufferTable) (s : Sync) : Prop where
  sound : s.table.Sound
  wrote : ∀ address, s.table.Wrote address → table.Wrote address ∨ ∃ p ∈ s.done, p.DrawsTo address
  indices : (s.copies.map TileCopy.index).Nodup
  bounded : ∀ copy ∈ s.copies, copy.index < s.stats.tileCopies
  bound : ∀ copy, some copy ∈ s.tileCopies → copy ∈ s.copies
  marks : ∀ p ∈ s.done, ∀ op ∈ p.after, op.IsMark
  sources : ∀ copy, .copyTile copy ∈ s.queued →
    table.Wrote copy.address ∨ ∃ p ∈ s.done, p.DrawsTo copy.address
  sourced : Sourced table s.done

namespace Accounts

lemma start (hw : w.Built) (ht : table.Sound) : Accounts table (w.syncStart table) where
  sound := ht
  wrote _ := .inl
  indices := List.nodup_nil
  bounded _ h := (List.not_mem_nil h).elim
  bound copy h := absurd h (hw.unbound copy)
  marks _ h := (List.not_mem_nil h).elim
  sources _ h := (List.not_mem_nil h).elim
  sourced := trivial

/-- Marks on the pairs done do not matter. -/
lemma mark (h : Accounts table s) {address width : Nat} {size : PixelSize} :
    Accounts table { s with done := markProducer address size width s.done } where
  sound := h.sound
  wrote a ha := by
    rw [exists_drawsTo_congr unmarked_markProducer]
    exact h.wrote a ha
  indices := by
    rw [copies, flatMap_copies_congr unmarked_markProducer]
    exact h.indices
  bounded := by
    rw [copies, flatMap_copies_congr unmarked_markProducer]
    exact h.bounded
  bound := by
    rw [copies, flatMap_copies_congr unmarked_markProducer]
    exact h.bound
  marks := isMark_of_markProducer h.marks
  sources copy hcopy := by
    rw [exists_drawsTo_congr unmarked_markProducer]
    exact h.sources copy hcopy
  sourced := (sourced_congr unmarked_markProducer).mpr h.sourced

/-- The next copy has the next index. -/
lemma ask (h : Accounts table s) (copy : TileCopy) (place : Nat)
    (hindex : copy.index = s.stats.tileCopies) (hwrote : s.table.Wrote copy.address) :
    Accounts table
      { s.queue (.copyTile copy) with tileCopies := s.tileCopies.set place (some copy) } := by
  have hcopies : ∀ c, c ∈ copies
      { s.queue (.copyTile copy) with tileCopies := s.tileCopies.set place (some copy) } ↔
      c = copy ∨ c ∈ s.copies := by
    intro c
    simp [copies, queue, List.filterMap_append, or_left_comm]
  refine ⟨h.sound, h.wrote, ?_, ?_, ?_, h.marks, ?_, h.sourced⟩
  · have hperm : (copies { s.queue (.copyTile copy) with
        tileCopies := s.tileCopies.set place (some copy) }).Perm (copy :: s.copies) := by
      simp only [copies, queue, List.filterMap_append, List.append_assoc]
      exact List.perm_middle
    rw [(hperm.map _).nodup_iff, List.map_cons, List.nodup_cons]
    refine ⟨?_, h.indices⟩
    rw [hindex]
    intro hmem
    obtain ⟨c, hc, he⟩ := List.mem_map.mp hmem
    exact absurd (h.bounded c hc) (by rw [he]; exact Nat.lt_irrefl _)
  · intro c hc
    change c.index < s.stats.tileCopies + 1
    rcases (hcopies c).mp hc with rfl | hc
    · rw [hindex]
      exact Nat.lt_succ_self _
    · exact Nat.lt_succ_of_lt (h.bounded c hc)
  · intro c hc
    rw [hcopies]
    rcases List.mem_or_eq_of_mem_set hc with hc | hc
    · exact .inr (h.bound c hc)
    · exact .inl (Option.some.inj hc)
  · intro c hc
    rcases List.mem_append.mp hc with hc | hc
    · exact h.sources c hc
    · obtain rfl := Operation.copyTile.inj (List.mem_singleton.mp hc)
      exact h.wrote _ hwrote

lemma tile (h : Accounts table s) {stamp place : Nat} {tiles : List Tile}
    (hx : (syncTile stamp tiles s place).outcome = .ok s') : Accounts table s' := by
  simp only [syncTile, Traced.bind_eq_ok] at hx
  obtain ⟨tile?, -, hx⟩ := hx
  cases tile? with
  | none =>
    cases Traced.pure_eq_ok.mp hx
    exact h
  | some tile =>
    simp only [Traced.bind_eq_ok] at hx
    obtain ⟨source, hsource, hx⟩ := hx
    cases source with
    | copy region =>
      simp only [Traced.pure_eq_ok] at hx
      subst hx
      have hasked : Accounts table _ := h.ask
        ⟨region.address, tile.size, tile.width, s.stats.tileCopies, region.fbRect,
          region.tileRect⟩ place rfl (Tile.wrote_of_resolve hsource)
      split
      · exact hasked.mark
      · exact hasked
    | textureMemory hash =>
      cases Traced.pure_eq_ok.mp hx
      exact h

/-- A check of an image asks for no copy, and writes nothing. -/
lemma use (h : Accounts table s) {use : ImageUse} (hx : (s.syncUse ram use).outcome = .ok s') :
    Accounts table s' := by
  obtain ⟨hqueued, hbound, hcount⟩ := copies_of_syncUse hx
  obtain ⟨change, fb, hcheck, htable, -, hdone⟩ := syncUse_eq_ok hx
  have hcopies : s'.copies = s.copies := by rw [copies, copies, hqueued, hdone]
  refine ⟨sound_of_syncUse h.sound hx, ?_, ?_, ?_, ?_, ?_, ?_, ?_⟩
  · intro a ha
    rw [hdone]
    refine h.wrote a ?_
    rw [htable] at ha
    refine (ha.of_insert fun hwritten => ?_).of_insert FramebufferTable.wrote_of_requested
    change fb.wasWritten = true at hwritten
    change FramebufferTable.Wrote _ fb.address
    rw [Framebuffer.wasWritten_of_check hcheck] at hwritten
    rw [Framebuffer.address_of_check hcheck]
    exact FramebufferTable.wrote_of_find? FramebufferTable.find?_insert_self hwritten
  · rw [hcopies]
    exact h.indices
  · rw [hcopies, hcount]
    exact h.bounded
  · rw [hcopies, hbound]
    exact h.bound
  · rw [hdone]
    exact h.marks
  · intro copy hcopy
    rw [hdone]
    apply h.sources copy
    have hmem : copy ∈ s'.queued.filterMap Operation.copy? := by simp [hcopy]
    rw [hqueued] at hmem
    simpa using hmem
  · rw [hdone]
    exact h.sourced

/-- The writes of a pair are those of one of the pairs done. -/
lemma pair (h : Accounts table s) (hqueued : s.queued = []) (hp : p.Plain)
    (hx : (syncPair ram w s p).outcome = .ok s') : Accounts table s' ∧ s'.queued = [] := by
  obtain ⟨s₁, s₂, blendable, htiles, huses, -, rfl⟩ := exists_steps hx
  refine ⟨?_, rfl⟩
  have hstart : Accounts table { s with queued := [] } := by
    rw [← hqueued]
    exact h
  have h₁ : Accounts table s₁ :=
    Traced.foldlM_induct htiles hstart fun _ _ _ _ h hx => h.tile hx
  have h₂ : Accounts table s₂ := Traced.foldlM_induct huses h₁ fun _ _ _ _ h hx => h.use hx
  have hcopies : ∀ t, copies { s₂ with
      table := t
      done := { p with blendable, before := p.before ++ s₂.queued } :: s₂.done
      queued := [] } = s₂.copies := by
    intro t
    simp [copies, Pair.copies, hp.before]
  refine ⟨sound_recorded h₂.sound, ?_, ?_, ?_, ?_, ?_, ?_, ?_⟩
  · intro a ha
    rcases FramebufferTable.Wrote.of_recorded h₂.sound ha with ha | ⟨write, hwrite, rfl⟩
    · refine (h₂.wrote a ha).imp_right ?_
      rintro ⟨q, hq, hdraws⟩
      exact ⟨q, List.mem_cons_of_mem _ hq, hdraws⟩
    · exact .inr ⟨_, List.mem_cons_self, hp.drawsTo hwrite⟩
  · rw [hcopies]
    exact h₂.indices
  · rw [hcopies]
    exact h₂.bounded
  · rw [hcopies]
    exact h₂.bound
  · refine List.forall_mem_cons.mpr ⟨?_, h₂.marks⟩
    intro op hop
    rw [hp.after] at hop
    cases hop
  · exact fun _ h => (List.not_mem_nil h).elim
  · refine ⟨?_, h₂.sourced⟩
    intro copy hcopy
    rw [Pair.mem_copies, hp.before] at hcopy
    exact h₂.sources copy hcopy

end Accounts

end Sync

/-- In a sourced list each copy is of an image that was written before. -/
lemma Sourced.of_append {table : FramebufferTable} {later earlier : List Pair} {p : Pair}
    (h : Sourced table (later ++ p :: earlier)) {copy : TileCopy} (hcopy : copy ∈ p.copies) :
    table.Wrote copy.address ∨ ∃ q ∈ earlier, q.DrawsTo copy.address := by
  induction later with
  | nil => exact h.1 copy hcopy
  | cons q later ih => exact ih h.2

namespace Workload

/-- All copies of the workload, in the order of its pairs. -/
def copies (w : Workload) : List TileCopy := w.pairs.flatMap Pair.copies

/-- The copies of a synchronized workload are those bound to its tiles, each has an index of its
own, and each is of an image that was written before. -/
structure Accounted (w : Workload) (table : FramebufferTable) : Prop where
  indices : (w.copies.map TileCopy.index).Nodup
  bound : ∀ copy, some copy ∈ w.tileCopies → copy ∈ w.copies
  marks : ∀ p ∈ w.pairs, ∀ op ∈ p.after, op.IsMark
  sources : ∀ earlier p later, w.pairs = earlier ++ p :: later → ∀ copy ∈ p.copies,
    table.Wrote copy.address ∨ ∃ q ∈ earlier, q.DrawsTo copy.address

variable {w w' : Workload} {table table' : FramebufferTable} {ram : ByteArray} {stats : SyncStats}

lemma Built.accounts (hw : w.Built) (ht : table.Sound)
    (h : (w.synchronize table ram).outcome = .ok (stats, w', table')) :
    w'.Accounted table ∧ table'.Sound ∧
      ∀ address, table'.Wrote address →
        table.Wrote address ∨ ∃ p ∈ w'.pairs, p.DrawsTo address := by
  obtain ⟨s, hs, rfl, rfl⟩ := exists_synced h
  have hdone : Sync.Accounts table s ∧ s.queued = [] := by
    refine Traced.foldlM_induct (motive := fun s => Sync.Accounts table s ∧ s.queued = []) hs
      ⟨.start hw ht, rfl⟩ ?_
    intro p hp s₁ s₂ hs₁ hs₂
    exact hs₁.1.pair hs₁.2 (hw.plain p hp) hs₂
  obtain ⟨hdone, hqueued⟩ := hdone
  have hcopies : (s.done.reverse.flatMap Pair.copies).Perm s.copies := by
    rw [Sync.copies, hqueued]
    exact (List.reverse_perm _).flatMap_right _
  refine ⟨⟨?_, ?_, ?_, ?_⟩, hdone.sound, ?_⟩
  · exact (hcopies.map _).nodup_iff.mpr hdone.indices
  · exact fun copy hcopy => hcopies.mem_iff.mpr (hdone.bound copy hcopy)
  · exact fun p hp => hdone.marks p (List.mem_reverse.mp hp)
  · intro earlier p later hpairs copy hcopy
    have hreverse : s.done = later.reverse ++ p :: earlier.reverse := by
      rw [List.reverse_eq_iff.mp hpairs, List.reverse_append, List.reverse_cons]
      simp
    have hsource := (hreverse ▸ hdone.sourced).of_append hcopy
    simpa only [List.mem_reverse] using hsource
  · simpa using hdone.wrote

end Workload

end Scanout
