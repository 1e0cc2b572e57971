import Scanout.Proofs.Workload.Checks
import Scanout.Proofs.Workload.Outgrown

/-!
# Conversions between colors and depths

The table knows how each image was last written. An image that a pair writes to in the other way is
converted before the draws of the pair, but only if memory has nothing new for it: otherwise rows are
uploaded, and the rows that the CPU left alone are not converted.
-/

namespace Scanout

/-- How the image at an address was last written by the device. -/
def FramebufferTable.lastWrite? (t : FramebufferTable) (address : Nat) : Option WriteType :=
  (t.find? address).bind fun fb => if fb.wasWritten then some fb.lastWriteType else none

/-- The last of several writes to an address. -/
def lastWriteTo? (writes : List (Nat × WriteType × Rect)) (address : Nat) : Option WriteType :=
  (writes.reverse.find? (·.1 = address)).map (·.2.1)

lemma lastWriteTo?_append {writes writes' : List (Nat × WriteType × Rect)} {address : Nat} :
    lastWriteTo? (writes ++ writes') address =
      (lastWriteTo? writes' address).or (lastWriteTo? writes address) := by
  simp [lastWriteTo?, List.find?_append, Option.map_or]

/-- How the image at an address was last written when a workload comes to the pair at a place: by
an earlier pair, or failing that by an earlier workload. -/
def Workload.lastWritten? (w : Workload) (table : FramebufferTable) (place address : Nat) :
    Option WriteType :=
  (lastWriteTo? ((w.pairs.take place).flatMap Pair.writes) address).or (table.lastWrite? address)

namespace Framebuffer

variable {fb fb' : Framebuffer} {ram : ByteArray} {change : Option MemoryChange}

/-- A check does not touch what is known of the last write. -/
lemma lastWrite_of_check (h : (fb.check ram).outcome = .ok (change, fb')) :
    fb'.lastWriteType = fb.lastWriteType ∧ fb'.lastWriteStamp = fb.lastWriteStamp := by
  obtain ⟨_, _, -, -, ⟨-, -, rfl⟩ | ⟨-, -, rfl⟩⟩ := check_eq_ok h
  · exact ⟨rfl, rfl⟩
  · exact ⟨rfl, rfl⟩

lemma lastWrite_withFormat (fb : Framebuffer) (size : PixelSize) (width height : Nat) :
    (fb.withFormat size width height).lastWriteType = fb.lastWriteType ∧
      (fb.withFormat size width height).lastWriteStamp = fb.lastWriteStamp := by
  rw [withFormat]
  split
  · exact ⟨rfl, rfl⟩
  · exact ⟨rfl, rfl⟩

end Framebuffer

namespace FramebufferTable

variable {t : FramebufferTable} {address other : Nat} {fb : Framebuffer}

lemma lastWrite?_congr {t' : FramebufferTable} (h : t'.find? address = t.find? address) :
    t'.lastWrite? address = t.lastWrite? address := by
  rw [lastWrite?, lastWrite?, h]

lemma lastWrite?_of_find? (h : t.find? address = some fb) :
    t.lastWrite? address = if fb.wasWritten then some fb.lastWriteType else none := by
  rw [lastWrite?, h, Option.bind_some]

/-- Asking for another format does not touch what is known of the last write. -/
lemma lastWrite?_requested (t : FramebufferTable) (size : PixelSize) (width height : Nat) :
    t.lastWrite? address =
      let fb := t.requested address size width height
      if fb.wasWritten then some fb.lastWriteType else none := by
  rw [requested]
  cases hfind : t.find? address with
  | none =>
    rw [lastWrite?, hfind]
    rfl
  | some fb =>
    obtain ⟨htype, hstamp⟩ := fb.lastWrite_withFormat size width height
    simp only [lastWrite?_of_find? hfind, Framebuffer.wasWritten, htype, hstamp]
    rfl

/-- A write to a known image is the last one to it. -/
lemma lastWrite?_recordWrite {stamp : Nat} {type : WriteType} {rect : Rect} (hstamp : 0 < stamp)
    (hknown : (t.find? other).isSome = true) :
    (t.recordWrite other type rect stamp).lastWrite? address =
      if address = other then some type else t.lastWrite? address := by
  obtain ⟨fb, hfind⟩ := Option.isSome_iff_exists.mp hknown
  rw [recordWrite]
  split
  · rename_i h
    subst h
    rw [modify_of_find?_eq_some hfind, lastWrite?_of_find? find?_insert_self]
    simp [Framebuffer.wasWritten, Framebuffer.recordWrite, hstamp]
  · rename_i h
    exact lastWrite?_congr (find?_modify_of_ne h)

lemma isSome_recordWrite {stamp : Nat} {type : WriteType} {rect : Rect}
    (h : (t.find? address).isSome = true) :
    ((t.recordWrite other type rect stamp).find? address).isSome = true := by
  by_cases hother : address = other
  · subst hother
    obtain ⟨fb, hfind⟩ := Option.isSome_iff_exists.mp h
    rw [recordWrite, modify_of_find?_eq_some hfind, find?_insert_self]
    rfl
  · rw [recordWrite, find?_modify_of_ne hother]
    exact h

end FramebufferTable

namespace Sync

variable {s s' : Sync} {ram : ByteArray} {w : Workload} {p : Pair} {pairs : List Pair}
  {use : ImageUse} {uses : List ImageUse} {address : Nat}

/-- A check does not touch what is known of the last writes. -/
lemma lastWrite?_of_syncUse (h : (s.syncUse ram use).outcome = .ok s') :
    s'.table.lastWrite? address = s.table.lastWrite? address := by
  obtain ⟨change, fb, hcheck, htable, -, -⟩ := syncUse_eq_ok h
  rw [htable]
  by_cases haddress : address = use.address
  · subst haddress
    obtain ⟨htype, hstamp⟩ := Framebuffer.lastWrite_of_check hcheck
    rw [FramebufferTable.lastWrite?_of_find? FramebufferTable.find?_insert_self,
      s.table.lastWrite?_requested use.size use.width use.height]
    simp only [Framebuffer.wasWritten, hstamp, htype]
    rfl
  · apply FramebufferTable.lastWrite?_congr
    rw [FramebufferTable.find?_insert_of_ne haddress, FramebufferTable.find?_insert_of_ne haddress]

lemma lastWrite?_of_syncUses (h : (uses.foldlM (syncUse ram) s).outcome = .ok s') :
    s'.table.lastWrite? address = s.table.lastWrite? address := by
  refine Traced.foldlM_induct (motive := fun s' =>
    s'.table.lastWrite? address = s.table.lastWrite? address) h rfl ?_
  intro use _ s₁ s₂ h₁ h₂
  exact (lastWrite?_of_syncUse h₂).trans h₁

/-- An image that was checked is in the table. -/
lemma isSome_of_syncUses (h : (uses.foldlM (syncUse ram) s).outcome = .ok s') :
    ∀ use ∈ uses, (s'.table.find? use.address).isSome = true := by
  induction uses generalizing s with
  | nil => simp
  | cons use uses ih =>
    rw [List.foldlM_cons, Traced.bind_eq_ok] at h
    obtain ⟨s₁, huse, h⟩ := h
    refine List.forall_mem_cons.mpr ⟨?_, ih h⟩
    refine Traced.foldlM_induct (motive := fun s' =>
      (s'.table.find? use.address).isSome = true) h ?_ ?_
    · obtain ⟨change, fb, -, htable, -, -⟩ := syncUse_eq_ok huse
      rw [htable, FramebufferTable.find?_insert_self]
      rfl
    · intro other _ s₂ s₃ h₂ h₃
      obtain ⟨change, fb, -, htable, -, -⟩ := syncUse_eq_ok h₃
      rw [htable]
      by_cases haddress : use.address = other.address
      · rw [haddress, FramebufferTable.find?_insert_self]
        rfl
      · rw [FramebufferTable.find?_insert_of_ne haddress,
          FramebufferTable.find?_insert_of_ne haddress]
        exact h₂

/-- What a pair writes are images that it uses. -/
lemma exists_use_of_write {write : Nat × WriteType × Rect} (h : write ∈ p.writes) :
    ∃ use ∈ p.imageUses, use.address = write.1 := by
  rw [Pair.writes] at h
  cases himage : p.colorImage with
  | none => simp [himage] at h
  | some image =>
    simp only [himage, List.mem_append] at h
    rcases h with h | h
    · split at h
      · cases h
      · rw [List.mem_singleton.mp h]
        exact ⟨⟨image.address, image.size, image.width, p.drawHeight, .color⟩,
          by simp [Pair.imageUses, himage], rfl⟩
    · obtain ⟨depth, hdepth, rfl⟩ := List.mem_map.mp h
      exact ⟨⟨depth, .bits16, image.width, p.drawHeight, .depth⟩,
        by simp [Pair.imageUses, himage, Option.mem_toList.mp hdepth], rfl⟩

lemma lastWrite?_recorded {stamp : Nat} {table : FramebufferTable}
    {writes : List (Nat × WriteType × Rect)} (hstamp : 0 < stamp)
    (hknown : ∀ write ∈ writes, (table.find? write.1).isSome = true) :
    (recorded stamp table writes).lastWrite? address =
      (lastWriteTo? writes address).or (table.lastWrite? address) := by
  induction writes generalizing table with
  | nil => rfl
  | cons write writes ih =>
    obtain ⟨hwrite, hwrites⟩ := List.forall_mem_cons.mp hknown
    change (recorded stamp (table.recordWrite write.1 write.2.1 write.2.2 stamp)
      writes).lastWrite? address = _
    rw [ih fun write' h => FramebufferTable.isSome_recordWrite (hwrites write' h),
      FramebufferTable.lastWrite?_recordWrite hstamp hwrite,
      ← List.singleton_append, lastWriteTo?_append, Option.or_assoc]
    by_cases haddress : address = write.1
    · simp [lastWriteTo?, haddress]
    · simp [lastWriteTo?, haddress, Ne.symm haddress]

/-- The writes of the pairs are the last ones, as far as they go. -/
lemma lastWrite?_of_syncPairs (hid : 0 < w.id)
    (h : (pairs.foldlM (syncPair ram w) s).outcome = .ok s') :
    s'.table.lastWrite? address =
      (lastWriteTo? (pairs.flatMap Pair.writes) address).or (s.table.lastWrite? address) := by
  induction pairs generalizing s with
  | nil =>
    rw [List.foldlM_nil, Traced.pure_eq_ok] at h
    rw [h]
    rfl
  | cons p pairs ih =>
    rw [List.foldlM_cons, Traced.bind_eq_ok] at h
    obtain ⟨s₃, hpair, h⟩ := h
    obtain ⟨s₁, s₂, blendable, htiles, huses, -, rfl⟩ := exists_steps hpair
    have htable : s₁.table = s.table := (Samples.of_tiles htiles).table
    have hknown : ∀ write ∈ p.writes, (s₂.table.find? write.1).isSome = true := by
      intro write hwrite
      obtain ⟨use, huse, haddress⟩ := exists_use_of_write hwrite
      exact haddress ▸ isSome_of_syncUses huses use huse
    rw [ih h, lastWrite?_recorded hid hknown, lastWrite?_of_syncUses huses, htable,
      List.flatMap_cons, lastWriteTo?_append, Option.or_assoc]

/-- Of the operations that are queued for a pair, those of the type of an image come from the check
of that image. -/
lemma mem_queued_iff {s₁ s₂ s₃ s₄ : Sync} {earlier later : List ImageUse} {fb : Framebuffer}
    {change : Option MemoryChange} {op : Operation} (hlist : p.imageUses = earlier ++ use :: later)
    (hsamples : Samples { s with queued := [] } s₁)
    (hearlier : (earlier.foldlM (syncUse ram) s₁).outcome = .ok s₃)
    (hcheck : s₄.queued = s₃.queued ++ (operationFor fb use change).toList)
    (hlater : (later.foldlM (syncUse ram) s₄).outcome = .ok s₂)
    (htarget : target? op = some use.type) :
    op ∈ s₂.queued ↔ operationFor fb use change = some op := by
  have hnodup := p.nodup_imageUses
  rw [hlist, List.map_append, List.map_cons, List.nodup_append, List.nodup_cons] at hnodup
  obtain ⟨-, ⟨hlaterTypes, -⟩, hearlierTypes⟩ := hnodup
  obtain ⟨copies, hcopies⟩ := hsamples.queued
  obtain ⟨ops, hops, hopTypes⟩ := queued_of_uses hearlier
  obtain ⟨ops', hops', hopTypes'⟩ := queued_of_uses hlater
  rw [hops', hcheck, hops, hcopies]
  simp only [List.mem_append, List.mem_map, Option.mem_toList, List.nil_append]
  constructor
  · rintro (((⟨copy, -, rfl⟩ | hop) | hop) | hop)
    · cases htarget
    · -- an earlier image is of the other type
      obtain ⟨other, hother, hsame⟩ := hopTypes op hop
      have htype : other.type = use.type := Option.some.inj (hsame.symm.trans htarget)
      exact absurd htype (hearlierTypes _ (List.mem_map_of_mem hother) _ List.mem_cons_self)
    · exact hop
    · obtain ⟨other, hother, hsame⟩ := hopTypes' op hop
      have htype : other.type = use.type := Option.some.inj (hsame.symm.trans htarget)
      exact absurd (htype ▸ List.mem_map_of_mem hother) hlaterTypes
  · intro hop
    exact .inl (.inr hop)

end Sync

namespace Workload

variable {w w' : Workload} {table table' : FramebufferTable} {ram : ByteArray} {stats : SyncStats}
  {place : Nat} {p : Pair} {use : ImageUse} {source : WriteType}

/-- An image that was last written in the other way is converted before the draws of a pair exactly
if memory has nothing new for it, and otherwise rows of it are uploaded. -/
theorem conversion_queued_iff (ht : table.Reachable) (hid : 0 < w.id)
    (h : (w.synchronize table ram).outcome = .ok (stats, w', table'))
    (hp : w.pairs[place]? = some p) (huse : use ∈ p.imageUses)
    (hsource : w.lastWritten? table place use.address = some source) (hother : source ≠ use.type) :
    ∃ p' queued fb, w'.pairs[place]? = some p' ∧ p'.before = p.before ++ queued ∧
      w.checked? table ram place use = some fb ∧
      ((∃ rect, .reinterpret use.address use.size use.width source use.type rect ∈ queued) ↔
        fb.Current ram) ∧
      ((∃ change, change.address = use.address ∧ .upload use.type change ∈ queued) ↔
        ¬ fb.Current ram) := by
  obtain ⟨s, s₁, s₂, blendable, p', hs, hsamples, huses, -, hp', hunmarked⟩ :=
    exists_syncedPair h hp
  obtain ⟨earlier, later, s₃, s₄, hlist, hearlier, hcheck, hlater, hat⟩ :=
    exists_checked hp hs hsamples huses huse
  refine ⟨p', s₂.queued, s₃.usedFramebuffer use, hp', congrArg Pair.before hunmarked,
    checked?_eq_some hat, ?_⟩
  have htable : s₁.table = s.table := hsamples.table
  have hsound : s₃.table.Sound :=
    Sync.sound_of_syncUses (htable ▸ Sync.sound_of_syncPairs ht.sound hs) hearlier
  obtain ⟨change, fb, hfound, -, hqueued, -⟩ := Sync.syncUse_eq_ok hcheck
  rw [Framebuffer.current_iff hfound]
  -- what is known of the last write comes from the pairs before
  have hlast : fb.wasWritten = true ∧ fb.lastWriteType = source := by
    have hwritten : s₃.table.lastWrite? use.address = some source := by
      rw [Sync.lastWrite?_of_syncUses hearlier, htable, Sync.lastWrite?_of_syncPairs hid hs]
      exact hsource
    rw [s₃.table.lastWrite?_requested use.size use.width use.height] at hwritten
    rw [Framebuffer.wasWritten_of_check hfound, (Framebuffer.lastWrite_of_check hfound).1]
    exact Option.ite_none_right_eq_some.mp hwritten |>.imp_right Option.some.inj
  have hmem : ∀ op, Sync.target? op = some use.type →
      (op ∈ s₂.queued ↔ Sync.operationFor fb use change = some op) :=
    fun op => Sync.mem_queued_iff hlist hsamples hearlier hqueued hlater
  obtain ⟨hwritten, rfl⟩ := hlast
  cases change with
  | none =>
    refine ⟨iff_of_true ⟨fb.lastWriteRect, (hmem _ rfl).mpr ?_⟩ rfl, iff_of_false ?_ (by simp)⟩
    · simp [Sync.operationFor, hwritten, hother]
    · rintro ⟨change, -, hop⟩
      rw [hmem _ rfl] at hop
      simp [Sync.operationFor, hwritten, hother] at hop
  | some change =>
    refine ⟨iff_of_false ?_ (by simp), iff_of_true ⟨change, ?_, (hmem _ rfl).mpr rfl⟩ (by simp)⟩
    · rintro ⟨rect, hop⟩
      rw [hmem _ rfl] at hop
      cases hop
    · exact (Framebuffer.address_of_change hfound).trans hsound.requested.1

/-- A frame that draws two rows of depths. -/
def depthsDrawn : Workload :=
  ((({ empty with id := 1 } : Workload).setColorImage 32 .bits8 1).setDepthImage 16).addDraw
    { drawDown 2 with writesDepth := true }

/-- A frame that draws colors over the depths. -/
def colorsOver : Workload :=
  (({ empty with id := 2 } : Workload).setColorImage 16 .bits16 1).addDraw (drawDown 2)

/-- The table after the depths were drawn. -/
def depthsTable : FramebufferTable := (depthsDrawn.synced .empty blankMemory).2.2

/-- Memory after a write to the first row of the depths. -/
def pokedMemory : ByteArray := ⟨(Array.replicate 64 0).set! 16 5⟩

lemma built_depthsDrawn : depthsDrawn.Built :=
  .addDraw (.setDepthImage (.setColorImage (.stamp .empty 1 0 0 0 false) 32 .bits8 1) 16) _

lemma reachable_depthsTable : depthsTable.Reachable :=
  .synchronize .empty built_depthsDrawn blankMemory (synchronize_eq_synced (by decide +kernel))

/-- The image that the colors are drawn to. -/
def colorsUse : ImageUse := ⟨16, .bits16, 1, 2, .color⟩

/-- Depths that the CPU left alone are converted. -/
theorem known_depths_converted :
    depthsTable.Reachable ∧ colorsOver.lastWritten? depthsTable 0 16 = some .depth ∧
    ∃ p rect, (colorsOver.synced depthsTable blankMemory).2.1.pairs[0]? = some p ∧
      .reinterpret 16 .bits16 1 .depth .color rect ∈ p.before := by
  have hcheck : ((colorsOver.checked? depthsTable blankMemory 0 colorsUse).any fun fb =>
      (fb.found? blankMemory).any Option.isNone) = true := by decide +kernel
  have hlast : colorsOver.lastWritten? depthsTable 0 16 = some .depth := by decide +kernel
  have huse : colorsUse ∈ (colorsOver.pairs[0]).imageUses := by decide
  have hsynced : (colorsOver.synchronize depthsTable blankMemory).outcome.isOk = true := by
    decide +kernel
  obtain ⟨p, queued, fb, hp, hbefore, hchecked, hiff, -⟩ :=
    conversion_queued_iff reachable_depthsTable (by decide) (synchronize_eq_synced hsynced) rfl huse
      hlast (by decide)
  rw [hchecked, Option.any_some, Option.any_eq_true] at hcheck
  obtain ⟨change, hfound, hnone⟩ := hcheck
  obtain ⟨rect, hop⟩ := hiff.mpr ((Framebuffer.current_iff_isNone hfound).mpr hnone)
  exact ⟨reachable_depthsTable, hlast, p, rect, hp, hbefore ▸ List.mem_append_right _ hop⟩

/-- Depths of which the CPU changed the first row are not converted, and only that row is uploaded.
-/
theorem poked_depths_not_converted :
    depthsTable.Reachable ∧ colorsOver.lastWritten? depthsTable 0 16 = some .depth ∧
    (∃ stats t, (colorsOver.synchronize depthsTable pokedMemory).outcome =
      .ok (stats, (colorsOver.synced depthsTable pokedMemory).2.1, t)) ∧
    ∃ p, (colorsOver.synced depthsTable pokedMemory).2.1.pairs[0]? = some p ∧
      p.imageUses = [colorsUse] ∧
      p.before = [.upload .color ⟨16, .bits16, 1, ⟨0, 0, 1, 1⟩, ⟨#[5, 0]⟩⟩] := by
  refine ⟨reachable_depthsTable, by decide +kernel,
    ⟨_, _, synchronize_eq_synced (by decide +kernel)⟩, ?_⟩
  have hpair : ((colorsOver.synced depthsTable pokedMemory).2.1.pairs[0]?.any fun p =>
      p.imageUses = [colorsUse] &&
        p.before = [.upload .color ⟨16, .bits16, 1, ⟨0, 0, 1, 1⟩, ⟨#[5, 0]⟩⟩]) = true := by
    decide +kernel
  cases hp : (colorsOver.synced depthsTable pokedMemory).2.1.pairs[0]? with
  | none =>
    rw [hp] at hpair
    cases hpair
  | some p =>
    simp only [hp, Option.any_some, Bool.and_eq_true, decide_eq_true_eq] at hpair
    exact ⟨p, rfl, hpair⟩

end Workload

end Scanout
