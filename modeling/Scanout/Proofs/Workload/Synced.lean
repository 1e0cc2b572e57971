import Scanout.Proofs.Workload.Conversions

/-!
# Workloads as they are submitted

A workload that was built and then synchronized has its pairs as they were built, except for the
operations around their draws: what is queued before them are copies, uploads of what a check found,
and conversions into another encoding; what follows them are marks.
-/

namespace Scanout

/-- A check of a framebuffer found the change. -/
def MemoryChange.Found (change : MemoryChange) : Prop :=
  ∃ (fb fb' : Framebuffer) (ram : ByteArray), (fb.check ram).outcome = .ok (some change, fb')

/-- What synchronizing queues before the draws of a pair. -/
inductive Operation.Queued : Operation → Prop where
  | copyTile (copy : TileCopy) : Queued (.copyTile copy)
  | upload {type : WriteType} {change : MemoryChange} (found : change.Found) :
      Queued (.upload type change)
  | reinterpret {address width : Nat} {size : PixelSize} {source target : WriteType} {rect : Rect}
      (other : source ≠ target) : Queued (.reinterpret address size width source target rect)

/-- A pair as synchronizing leaves it. Without draws it still writes nothing. -/
structure Pair.Prepared (p : Pair) : Prop where
  before : ∀ op ∈ p.before, op.Queued
  after : ∀ op ∈ p.after, op.IsMark
  colorRect : p.isEmpty = true → p.colorRect.isEmpty = true
  depthRect : p.isEmpty = true → p.depthRect.isEmpty = true

namespace Sync

variable {s s' : Sync} {ram : ByteArray} {use : ImageUse} {uses : List ImageUse}

lemma queued_of_syncUse (h : (s.syncUse ram use).outcome = .ok s')
    (hs : ∀ op ∈ s.queued, op.Queued) : ∀ op ∈ s'.queued, op.Queued := by
  obtain ⟨change, fb, hcheck, -, hqueued, -⟩ := syncUse_eq_ok h
  intro op hop
  rw [hqueued, List.mem_append, Option.mem_toList] at hop
  refine hop.elim (hs op) fun hop => ?_
  cases change with
  | some change =>
    cases hop
    exact .upload ⟨_, _, _, hcheck⟩
  | none =>
    rw [operationFor] at hop
    split at hop
    · rename_i hwritten
      cases hop
      exact .reinterpret hwritten.2
    · cases hop

/-- Nothing else is queued for a pair. -/
lemma queued_of_steps {s₁ : Sync} (hsamples : Samples { s with queued := [] } s₁)
    (huses : (uses.foldlM (syncUse ram) s₁).outcome = .ok s') : ∀ op ∈ s'.queued, op.Queued := by
  refine Traced.foldlM_induct (motive := fun s => ∀ op ∈ s.queued, op.Queued) huses ?_
    fun use _ s₂ s₃ h₂ h₃ => queued_of_syncUse h₃ h₂
  obtain ⟨copies, hcopies⟩ := hsamples.queued
  intro op hop
  rw [hcopies, List.nil_append] at hop
  obtain ⟨copy, -, rfl⟩ := List.mem_map.mp hop
  exact .copyTile copy

end Sync

namespace Workload

variable {w w' : Workload} {table table' : FramebufferTable} {ram : ByteArray} {stats : SyncStats}
  {place address : Nat} {p' : Pair}

/-- What the draws of a workload write, and where. -/
def writes (w : Workload) : List (Nat × WriteType × Rect) := w.pairs.flatMap Pair.writes

lemma length_synchronize (h : (w.synchronize table ram).outcome = .ok (stats, w', table')) :
    w'.pairs.length = w.pairs.length := by
  obtain ⟨s, hs, hpairs, -⟩ := synchronize_eq_ok h
  obtain ⟨synced, hdone, hlength, -⟩ := Sync.exists_done hs
  have hsame := congrArg List.length hdone
  simp only [List.length_map, List.length_append] at hsame
  rw [hpairs, List.length_reverse, hsame, hlength]
  rfl

/-- Each pair is one that was built, with what was queued for it. -/
lemma Built.exists_pair (hw : w.Built)
    (h : (w.synchronize table ram).outcome = .ok (stats, w', table'))
    (hp : w'.pairs[place]? = some p') :
    ∃ p blendable queued, w.pairs[place]? = some p ∧ p.Plain ∧
      p'.unmarked = { p with blendable, before := queued }.unmarked ∧
      ∀ op ∈ queued, op.Queued := by
  have hlt : place < w.pairs.length :=
    length_synchronize h ▸ (List.getElem?_eq_some_iff.mp hp).1
  have hplain := hw.plain _ (List.getElem_mem hlt)
  have hbuilt := List.getElem?_eq_getElem hlt
  obtain ⟨s, s₁, s₂, blendable, q, -, hsamples, huses, -, hq, hunmarked⟩ :=
    exists_syncedPair h hbuilt
  obtain rfl := Option.some.inj (hp.symm.trans hq)
  rw [hplain.before, List.nil_append] at hunmarked
  exact ⟨_, blendable, s₂.queued, hbuilt, hplain, hunmarked, Sync.queued_of_steps hsamples huses⟩

lemma Built.prepared (hw : w.Built) (ht : table.Sound)
    (h : (w.synchronize table ram).outcome = .ok (stats, w', table')) :
    ∀ p ∈ w'.pairs, p.Prepared := by
  intro p' hp'
  obtain ⟨place, hplace⟩ := List.mem_iff_getElem?.mp hp'
  obtain ⟨p, blendable, queued, -, hplain, hunmarked, hqueued⟩ := hw.exists_pair h hplace
  have hempty : p'.isEmpty = p.isEmpty := (congrArg Pair.isEmpty hunmarked :)
  have hcolor : p'.colorRect = p.colorRect := (congrArg Pair.colorRect hunmarked :)
  have hdepth : p'.depthRect = p.depthRect := (congrArg Pair.depthRect hunmarked :)
  have hbefore : p'.before = queued := (congrArg Pair.before hunmarked :)
  exact ⟨hbefore ▸ hqueued, (hw.accounts ht h).1.marks p' hp',
    by rw [hempty, hcolor]; exact hplain.colorRect, by rw [hempty, hdepth]; exact hplain.depthRect⟩

/-- Synchronizing does not touch what is written. -/
lemma Built.writes_synchronize (hw : w.Built)
    (h : (w.synchronize table ram).outcome = .ok (stats, w', table')) :
    w'.writes = w.writes := by
  have hmap : w'.pairs.map Pair.writes = w.pairs.map Pair.writes := by
    apply List.ext_getElem?
    intro place
    rw [List.getElem?_map, List.getElem?_map]
    cases hp' : w'.pairs[place]? with
    | none =>
      have hle := List.getElem?_eq_none_iff.mp hp'
      rw [length_synchronize h, ← List.getElem?_eq_none_iff] at hle
      rw [hle]
    | some p' =>
      obtain ⟨p, blendable, queued, hp, -, hunmarked, -⟩ := hw.exists_pair h hp'
      have hsame : p'.writes = p.writes := (congrArg Pair.writes hunmarked :)
      rw [hp, Option.map_some, Option.map_some, hsame]
  rw [writes, writes, List.flatMap_def, List.flatMap_def, hmap]

/-- The table learns of the writes of the workload. -/
lemma Built.lastWrite?_synchronize (hw : w.Built) (hid : 0 < w.id)
    (h : (w.synchronize table ram).outcome = .ok (stats, w', table')) :
    table'.lastWrite? address = (lastWriteTo? w'.writes address).or (table.lastWrite? address) := by
  rw [hw.writes_synchronize h]
  obtain ⟨s, hs, -, rfl⟩ := synchronize_eq_ok h
  exact Sync.lastWrite?_of_syncPairs hid hs

/-- The workload is the result of synchronizing one that was built with what the table knew. -/
def Synced (w' : Workload) : Prop :=
  ∃ (w : Workload) (table table' : FramebufferTable) (ram : ByteArray) (stats : SyncStats),
    w.Built ∧ table.Sound ∧ (w.synchronize table ram).outcome = .ok (stats, w', table')

lemma Synced.prepared (h : w.Synced) : ∀ p ∈ w.pairs, p.Prepared := by
  obtain ⟨_, _, _, _, _, hw, ht, h⟩ := h
  exact hw.prepared ht h

end Workload

end Scanout
