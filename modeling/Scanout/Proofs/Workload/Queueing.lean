import Mathlib.Data.List.Nodup
import Scanout.Proofs.Workload.Bindings
import Scanout.Proofs.Workload.Tracking

/-!
# What synchronizing queues

Synchronizing a workload queues operations for its pairs, and counts them as it goes. The copies are
numbered in the order of the queue, each is asked for by one tile, and this tile is bound to it; the
changes kept are those that are uploaded; and a pair is marked once at most.
-/

namespace Scanout

/-- What an operation does. -/
inductive OperationKind where
  | upload
  | copyTile
  | reinterpret
  | synchronize
  deriving DecidableEq, Repr

namespace Operation

def kind : Operation → OperationKind
  | .upload .. => .upload
  | .copyTile _ => .copyTile
  | .reinterpret .. => .reinterpret
  | .synchronize .. => .synchronize

/-- The change that an operation uploads. -/
def change? : Operation → Option MemoryChange
  | .upload _ change => some change
  | _ => none

/-- The operations of a kind. -/
def countOf (kind : OperationKind) (ops : List Operation) : Nat :=
  (ops.map Operation.kind).count kind

@[simp] lemma countOf_append {kind : OperationKind} {ops ops' : List Operation} :
    countOf kind (ops ++ ops') = countOf kind ops + countOf kind ops' := by
  simp [countOf]

lemma IsMark.kind_eq {op : Operation} (h : op.IsMark) : op.kind = .synchronize := by
  cases op with
  | synchronize => rfl
  | _ => exact h.elim

lemma IsMark.change?_eq_none {op : Operation} (h : op.IsMark) : op.change? = none := by
  cases op with
  | upload => exact h.elim
  | _ => rfl

end Operation

open Operation

/-- The counters count the operations by kind. -/
lemma SyncStats.foldl_count {ops : List Operation} {stats : SyncStats} :
    ops.foldl SyncStats.count stats =
      ⟨stats.uploads + countOf .upload ops, stats.tileCopies + countOf .copyTile ops,
        stats.reinterprets + countOf .reinterpret ops⟩ := by
  induction ops generalizing stats with
  | nil => rfl
  | cons op ops ih =>
    rw [List.foldl_cons, ih]
    cases op <;> simp [SyncStats.count, countOf, kind, Nat.add_assoc, Nat.add_comm 1]

/-- The copy of a region for a tile, under the given number. -/
def Tile.copyOf (t : Tile) (region : CopyRegion) (index : Nat) : TileCopy :=
  ⟨region.address, t.size, t.width, index, region.fbRect, region.tileRect⟩

/-- A copy, and the place of the tile that asks for it. -/
structure CopyRequest where
  tile : Nat
  copy : TileCopy
  deriving DecidableEq

/-- The copy is that of the region which serves the tile according to the table. -/
def CopyRequest.Resolves (tiles : List Tile) (table : FramebufferTable) (r : CopyRequest) : Prop :=
  ∃ tile region, tiles[r.tile]? = some tile ∧
    (tile.resolve table).outcome = .ok (.copy region) ∧ r.copy = tile.copyOf region r.copy.index

namespace Pair

/-- The operations around the draws of a pair. -/
def operations (p : Pair) : List Operation := p.before ++ p.after

/-- Marks follow the draws only, one if a later pair samples what is drawn, and otherwise none. -/
structure MarkedOnce (p : Pair) : Prop where
  before : countOf .synchronize p.before = 0
  after : ∀ op ∈ p.after, op.IsMark
  once : p.after.length = if p.syncRequired then 1 else 0

end Pair

namespace Sync

variable {s s' : Sync} {ram : ByteArray} {w : Workload} {p : Pair} {asked : List (List CopyRequest)}
  {current : List CopyRequest} {op : Operation} {place : Nat}

/-- What was queued before the draws of the pairs so far. -/
def journal (s : Sync) : List Operation := s.done.reverse.flatMap Pair.before ++ s.queued

/-- What was queued so far answers the requests, the last of which are of the pair in hand. -/
structure Queues (asked : List (List CopyRequest)) (current : List CopyRequest) (s : Sync) :
    Prop where
  stats : s.stats = s.journal.foldl SyncStats.count .zero
  changes : s.changes = s.journal.filterMap Operation.change?
  indices : (s.journal.filterMap Operation.copy?).map TileCopy.index =
    List.range s.stats.tileCopies
  done : s.done.reverse.map Pair.copies = asked.map (List.map CopyRequest.copy)
  queued : s.queued.filterMap Operation.copy? = current.map CopyRequest.copy
  bound : ∀ tile copy, s.tileCopies[tile]? = some (some copy) ↔
    ⟨tile, copy⟩ ∈ asked.flatten ++ current
  tiles : ((asked.flatten ++ current).map CopyRequest.tile).Nodup
  unmarked : countOf .synchronize s.queued = 0
  marks : ∀ p ∈ s.done, p.MarkedOnce

/-- What a pair keeps under marks can be read off the unmarked pairs. -/
lemma map_congr_unmarked {β : Type} {g : Pair → β} (hg : ∀ p : Pair, g p.unmarked = g p)
    {pairs pairs' : List Pair} (h : pairs'.map Pair.unmarked = pairs.map Pair.unmarked) :
    pairs'.map g = pairs.map g := by
  have hmap : ∀ ps : List Pair, (ps.map Pair.unmarked).map g = ps.map g := by
    intro ps
    rw [List.map_map]
    exact List.map_congr_left fun p _ => hg p
  rw [← hmap pairs', h, hmap]

lemma markedOnce_markProducer {address width : Nat} {size : PixelSize} {pairs : List Pair}
    (h : ∀ p ∈ pairs, p.MarkedOnce) :
    ∀ p ∈ markProducer address size width pairs, p.MarkedOnce := by
  induction pairs with
  | nil => exact h
  | cons p ps ih =>
    obtain ⟨hp, hps⟩ := List.forall_mem_cons.mp h
    rw [markProducer]
    split
    · split
      · exact h
      · rename_i hunmarked
        refine List.forall_mem_cons.mpr ⟨⟨hp.before, ?_, ?_⟩, hps⟩
        · intro op hop
          rcases List.mem_append.mp hop with hop | hop
          · exact hp.after op hop
          · rw [List.mem_singleton.mp hop]
            trivial
        · simpa [hunmarked] using hp.once
    · exact List.forall_mem_cons.mpr ⟨hp, ih hps⟩

lemma of_openTile? {tiles : List Tile} {tile : Tile}
    (h : (s.openTile? tiles place).outcome = .ok (some tile)) :
    tiles[place]? = some tile ∧ s.tileCopies[place]? = some none := by
  rw [openTile?] at h
  split at h
  · rename_i htile hfree
    obtain rfl := Option.some.inj (Traced.pure_eq_ok.mp h)
    exact ⟨htile, hfree⟩
  · cases Traced.pure_eq_ok.mp h
  · simp only [Traced.bind_eq_ok, Traced.pure_eq_ok] at h
    obtain ⟨_, -, hnone⟩ := h
    cases hnone

namespace Queues

lemma start (hw : w.Built) {table : FramebufferTable} : Queues [] [] (w.syncStart table) where
  stats := rfl
  changes := rfl
  indices := rfl
  done := rfl
  queued := rfl
  bound tile copy := by
    refine iff_of_false (fun h => ?_) List.not_mem_nil
    exact hw.unbound copy (List.mem_of_getElem? h)
  tiles := List.nodup_nil
  unmarked := rfl
  marks p hp := (List.not_mem_nil hp).elim

/-- A mark on one of the pairs done is no operation of the queue. -/
lemma mark (h : Queues asked current s) {address width : Nat} {size : PixelSize} :
    Queues asked current { s with done := markProducer address size width s.done } := by
  have hsame : (markProducer address size width s.done).map Pair.unmarked =
      s.done.map Pair.unmarked := unmarked_markProducer
  have hbefore := map_congr_unmarked (g := Pair.before) (fun _ => rfl) hsame
  have hcopies := map_congr_unmarked (g := Pair.copies) (fun _ => rfl) hsame
  have hjournal : journal { s with done := markProducer address size width s.done } =
      s.journal := by
    simp only [journal, List.flatMap_def, List.map_reverse, hbefore]
  refine ⟨?_, ?_, ?_, ?_, h.queued, h.bound, h.tiles, h.unmarked, markedOnce_markProducer h.marks⟩
  · rw [hjournal]
    exact h.stats
  · rw [hjournal]
    exact h.changes
  · rw [hjournal]
    exact h.indices
  · simpa only [List.map_reverse, hcopies] using h.done

/-- The next copy has the next number, and is bound to the tile that asks for it. -/
lemma ask (h : Queues asked current s) (copy : TileCopy) (hindex : copy.index = s.stats.tileCopies)
    (hopen : s.tileCopies[place]? = some none) :
    Queues asked (current ++ [⟨place, copy⟩])
      { s.queue (.copyTile copy) with tileCopies := s.tileCopies.set place (some copy) } := by
  have hjournal : journal { s.queue (.copyTile copy) with
      tileCopies := s.tileCopies.set place (some copy) } = s.journal ++ [.copyTile copy] := by
    simp [journal, queue]
  have hfresh : ∀ c, ⟨place, c⟩ ∉ asked.flatten ++ current := by
    intro c hc
    cases ((h.bound place c).mpr hc).symm.trans hopen
  refine ⟨?_, ?_, ?_, h.done, ?_, ?_, ?_, ?_, h.marks⟩
  · rw [hjournal, List.foldl_append, ← h.stats]
    rfl
  · rw [hjournal, List.filterMap_append, ← h.changes]
    exact (List.append_nil _).symm
  · rw [hjournal, List.filterMap_append, List.map_append, h.indices]
    change _ ++ [copy.index] = List.range (s.stats.tileCopies + 1)
    rw [hindex, List.range_succ]
  · simp [queue, h.queued]
  · intro tile c
    rw [← List.append_assoc, List.mem_append, List.mem_singleton, ← h.bound]
    change (s.tileCopies.set place (some copy))[tile]? = some (some c) ↔ _
    by_cases htile : tile = place
    · subst htile
      have hlt := (List.getElem?_eq_some_iff.mp hopen).1
      rw [List.getElem?_set_self hlt, hopen]
      simp [eq_comm]
    · rw [List.getElem?_set_ne (Ne.symm htile)]
      simp [htile]
  · rw [← List.append_assoc, List.map_append, List.map_singleton]
    refine List.nodup_append_comm.mp (List.nodup_cons.mpr ⟨fun hmem => ?_, h.tiles⟩)
    obtain ⟨⟨_, c⟩, hc, rfl⟩ := List.mem_map.mp hmem
    exact hfresh c hc
  · exact (countOf_append ..).trans (by rw [h.unmarked]; rfl)

/-- The operation that follows a check asks for nothing. -/
lemma follow (h : Queues asked current s) (hcopy : op.copy? = none) (hmark : op.kind ≠ .synchronize)
    {changes : List MemoryChange} (hchanges : changes = s.changes ++ op.change?.toList)
    {table : FramebufferTable} :
    Queues asked current { s.queue op with table, changes } := by
  have hjournal : journal { s.queue op with table, changes } = s.journal ++ [op] := by
    simp [journal, queue]
  have hcount : (s.stats.count op).tileCopies = s.stats.tileCopies := by
    cases op with
    | copyTile copy => cases hcopy
    | _ => rfl
  refine ⟨?_, ?_, ?_, h.done, ?_, h.bound, h.tiles, ?_, h.marks⟩
  · rw [hjournal, List.foldl_append, ← h.stats]
    rfl
  · rw [hjournal, List.filterMap_append, ← h.changes, hchanges]
    cases hchange : op.change? <;> simp [hchange]
  · rw [hjournal, List.filterMap_append]
    simpa [hcopy, queue, hcount] using h.indices
  · simpa [queue, hcopy] using h.queued
  · exact (countOf_append ..).trans (by rw [h.unmarked]; simp [countOf, hmark])

lemma tile (h : Queues asked current s) {stamp : Nat} {tiles : List Tile}
    (hx : (syncTile stamp tiles s place).outcome = .ok s') :
    ∃ new, Queues asked (current ++ new) s' ∧
      ∀ r ∈ new, r.tile = place ∧ r.Resolves tiles s.table := by
  simp only [syncTile, Traced.bind_eq_ok] at hx
  obtain ⟨tile?, hopen, hx⟩ := hx
  cases tile? with
  | none =>
    cases Traced.pure_eq_ok.mp hx
    exact ⟨[], by rwa [List.append_nil], by simp⟩
  | some tile =>
    simp only [Traced.bind_eq_ok] at hx
    obtain ⟨source, hsource, hx⟩ := hx
    cases source with
    | copy region =>
      simp only [Traced.pure_eq_ok] at hx
      subst hx
      obtain ⟨htile, hfree⟩ := of_openTile? hopen
      have hasked := h.ask (tile.copyOf region s.stats.tileCopies) rfl hfree
      refine ⟨[⟨place, tile.copyOf region s.stats.tileCopies⟩], ?_, ?_⟩
      · split
        · exact hasked.mark
        · exact hasked
      · intro r hr
        obtain rfl := List.mem_singleton.mp hr
        exact ⟨rfl, tile, region, htile, hsource, rfl⟩
    | textureMemory hash =>
      cases Traced.pure_eq_ok.mp hx
      exact ⟨[], by rwa [List.append_nil], by simp⟩

lemma use (h : Queues asked current s) {use : ImageUse}
    (hx : (s.syncUse ram use).outcome = .ok s') : Queues asked current s' := by
  simp only [syncUse, syncImage, Traced.bind_eq_ok] at hx
  obtain ⟨⟨op?, table⟩, himage, hx⟩ := hx
  obtain ⟨change, fb, -, -, hop⟩ := checkImage_eq_ok himage
  cases op? with
  | none =>
    cases Traced.pure_eq_ok.mp hx
    exact ⟨h.stats, h.changes, h.indices, h.done, h.queued, h.bound, h.tiles, h.unmarked, h.marks⟩
  | some op =>
    cases Traced.pure_eq_ok.mp hx
    cases change with
    | some change =>
      cases hop
      exact h.follow rfl (by simp [kind]) rfl
    | none =>
      rw [operationFor] at hop
      split at hop
      · cases hop
        exact h.follow rfl (by simp [kind]) (List.append_nil _).symm
      · cases hop

/-- The requests of a pair are those of its tiles, in order. -/
lemma pair (h : Queues asked [] s) (hqueued : s.queued = []) (hplain : p.Plain)
    (hsync : p.syncRequired = false) (hx : (syncPair ram w s p).outcome = .ok s') :
    s'.queued = [] ∧ ∃ requests, Queues (asked ++ [requests]) [] s' ∧
      ∀ r ∈ requests, r.tile ∈ sampledTiles w.draws p ∧ r.Resolves w.tiles s.table := by
  obtain ⟨s₁, s₂, blendable, htiles, huses, -, rfl⟩ := exists_steps hx
  refine ⟨rfl, ?_⟩
  have hstart : Queues asked [] { s with queued := [] } := by
    rw [← hqueued]
    exact h
  obtain ⟨requests, h₁, -, hrequests⟩ : ∃ new, Queues asked ([] ++ new) s₁ ∧ s₁.table = s.table ∧
      ∀ r ∈ new, r.tile ∈ sampledTiles w.draws p ∧ r.Resolves w.tiles s.table := by
    refine Traced.foldlM_induct (motive := fun s' => ∃ new, Queues asked ([] ++ new) s' ∧
      s'.table = s.table ∧ ∀ r ∈ new, r.tile ∈ sampledTiles w.draws p ∧
        r.Resolves w.tiles s.table) htiles ⟨[], hstart, rfl, by simp⟩ ?_
    rintro place hplace s₃ s₄ ⟨before, h₃, htable, hbefore⟩ hx
    obtain ⟨new, h₄, hnew⟩ := h₃.tile hx
    refine ⟨before ++ new, ?_, (Samples.of_syncTile hx).table.trans htable, ?_⟩
    · rwa [← List.append_assoc]
    · intro r hr
      rcases List.mem_append.mp hr with hr | hr
      · exact hbefore r hr
      · obtain ⟨htile, hresolves⟩ := hnew r hr
        exact ⟨htile ▸ hplace, htable ▸ hresolves⟩
  have h₂ : Queues asked requests s₂ := Traced.foldlM_induct huses h₁ fun _ _ _ _ h hx => h.use hx
  refine ⟨requests, ?_, hrequests⟩
  have hjournal : ∀ t, journal { s₂ with
      table := t
      done := { p with blendable, before := p.before ++ s₂.queued } :: s₂.done
      queued := [] } = s₂.journal := by
    intro t
    simp [journal, hplain.before]
  refine ⟨?_, ?_, ?_, ?_, rfl, ?_, ?_, rfl, ?_⟩
  · rw [hjournal]
    exact h₂.stats
  · rw [hjournal]
    exact h₂.changes
  · rw [hjournal]
    exact h₂.indices
  · have hcopies : Pair.copies { p with blendable, before := p.before ++ s₂.queued } =
        requests.map CopyRequest.copy := by
      simp [Pair.copies, hplain.before, h₂.queued]
    simp [h₂.done, hcopies]
  · simpa using h₂.bound
  · simpa using h₂.tiles
  · refine List.forall_mem_cons.mpr ⟨⟨?_, ?_, ?_⟩, h₂.marks⟩
    · simpa [hplain.before] using h₂.unmarked
    · simp [hplain.after]
    · simp [hplain.after, hsync]

end Queues

end Sync

namespace Operation

lemma countOf_flatMap_operations {kind : OperationKind} (hkind : kind ≠ .synchronize)
    {pairs : List Pair} (h : ∀ p ∈ pairs, p.MarkedOnce) :
    countOf kind (pairs.flatMap Pair.operations) = countOf kind (pairs.flatMap Pair.before) := by
  induction pairs with
  | nil => rfl
  | cons p ps ih =>
    obtain ⟨hp, hps⟩ := List.forall_mem_cons.mp h
    have hafter : countOf kind p.after = 0 := by
      refine List.count_eq_zero.mpr fun hmem => ?_
      obtain ⟨op, hop, rfl⟩ := List.mem_map.mp hmem
      exact hkind (hp.after op hop).kind_eq
    rw [List.flatMap_cons, List.flatMap_cons, countOf_append, countOf_append, ih hps,
      Pair.operations, countOf_append, hafter, Nat.add_zero]

lemma filterMap_change?_flatMap_operations {pairs : List Pair} (h : ∀ p ∈ pairs, p.MarkedOnce) :
    (pairs.flatMap Pair.operations).filterMap change? =
      (pairs.flatMap Pair.before).filterMap change? := by
  induction pairs with
  | nil => rfl
  | cons p ps ih =>
    obtain ⟨hp, hps⟩ := List.forall_mem_cons.mp h
    have hafter : p.after.filterMap change? = [] :=
      List.filterMap_eq_nil_iff.mpr fun op hop => (hp.after op hop).change?_eq_none
    rw [List.flatMap_cons, List.flatMap_cons, List.filterMap_append, List.filterMap_append, ih hps,
      Pair.operations, List.filterMap_append, hafter, List.append_nil]

end Operation

lemma Pair.MarkedOnce.countOf_eq {p : Pair} (h : p.MarkedOnce) :
    countOf .synchronize p.operations = if p.syncRequired then 1 else 0 := by
  have hafter : countOf .synchronize p.after = p.after.length := by
    rw [countOf, List.count_eq_length.mpr, List.length_map]
    intro kind hkind
    obtain ⟨op, hop, rfl⟩ := List.mem_map.mp hkind
    exact (h.after op hop).kind_eq.symm
  rw [operations, countOf_append, h.before, Nat.zero_add, hafter, h.once]

namespace Workload

variable {w w' : Workload} {table table' : FramebufferTable} {ram : ByteArray} {stats : SyncStats}

/-- The operations around the draws of the workload, in the order of its pairs. -/
def operations (w : Workload) : List Operation := w.pairs.flatMap Pair.operations

/-- When the pair at a place is synchronized, one of its draws samples a tile, and the copy is that
of the region which serves the tile then. -/
def Asks (w : Workload) (table : FramebufferTable) (ram : ByteArray) (place : Nat)
    (r : CopyRequest) : Prop :=
  ∃ p known, w.pairs[place]? = some p ∧ r.tile ∈ Sync.sampledTiles w.draws p ∧
    w.tableAfter? table ram place = some known ∧ r.Resolves w.tiles known

/-- The first pairs have asked for copies. -/
lemma Built.exists_asked (hw : w.Built) {count : Nat} (hcount : count ≤ w.pairs.length) {s : Sync}
    (hs : ((w.pairs.take count).foldlM (Sync.syncPair ram w) (w.syncStart table)).outcome = .ok s) :
    s.queued = [] ∧ ∃ asked, Sync.Queues asked [] s ∧ asked.length = count ∧
      ∀ place requests, asked[place]? = some requests →
        ∀ r ∈ requests, w.Asks table ram place r := by
  induction count generalizing s with
  | zero =>
    rw [List.take_zero, List.foldlM_nil, Traced.pure_eq_ok] at hs
    subst hs
    exact ⟨rfl, [], .start hw, rfl, by simp⟩
  | succ count ih =>
    have hlt : count < w.pairs.length := hcount
    rw [List.take_succ_eq_append_getElem hlt, Traced.foldlM_append_eq_ok] at hs
    obtain ⟨s₁, hs₁, hs⟩ := hs
    rw [List.foldlM_cons, Traced.bind_eq_ok] at hs
    obtain ⟨s₂, hpair, hs⟩ := hs
    rw [List.foldlM_nil, Traced.pure_eq_ok] at hs
    subst hs
    obtain ⟨hqueued, asked, h₁, hlength, hasked⟩ := ih hlt.le hs₁
    have hmem : w.pairs[count] ∈ w.pairs := List.getElem_mem hlt
    obtain ⟨hqueued₂, requests, h₂, hrequests⟩ := h₁.pair hqueued (hw.plain _ hmem)
      (hw.pristine.pairs _ hmem).1 hpair
    refine ⟨hqueued₂, _, h₂, by simp [hlength], fun place requests' hplace r hr => ?_⟩
    rcases Nat.lt_or_ge place count with hearlier | hlast
    · rw [List.getElem?_append_left (hlength ▸ hearlier)] at hplace
      exact hasked place requests' hplace r hr
    · have hlt' := (List.getElem?_eq_some_iff.mp hplace).1
      rw [List.length_append, hlength, List.length_singleton] at hlt'
      obtain rfl : place = count := by omega
      rw [← hlength, List.getElem?_concat_length] at hplace
      obtain rfl := Option.some.inj hplace
      obtain ⟨hsampled, hresolves⟩ := hrequests r hr
      exact ⟨_, s₁.table, List.getElem?_eq_getElem hlt, hsampled, by rw [tableAfter?, hs₁],
        hresolves⟩

/-- Synchronizing numbers the copies in the order of the queue. Each copy is asked for by a tile
that a draw of its pair samples, no tile asks twice, and a tile is bound to a copy if exactly one is
made for it. The counters count the operations, the changes kept are those uploaded, and a pair is
marked once if a later one samples what it draws, and otherwise not at all. -/
theorem queue_answers_requests (hw : w.Built)
    (h : (w.synchronize table ram).outcome = .ok (stats, w', table')) :
    w'.copies.map TileCopy.index = List.range (countOf .copyTile w'.operations) ∧
    (∃ requests : List (List CopyRequest),
      w'.pairs.map Pair.copies = requests.map (List.map CopyRequest.copy) ∧
      (∀ place asked, requests[place]? = some asked → ∀ r ∈ asked, w.Asks table ram place r) ∧
      (requests.flatten.map CopyRequest.tile).Nodup ∧
      ∀ tile copy, w'.tileCopies[tile]? = some (some copy) ↔
        requests.flatten.count ⟨tile, copy⟩ = 1) ∧
    stats = ⟨countOf .upload w'.operations, countOf .copyTile w'.operations,
      countOf .reinterpret w'.operations⟩ ∧
    w'.changes = w'.operations.filterMap Operation.change? ∧
    ∀ p ∈ w'.pairs, countOf .synchronize p.operations = if p.syncRequired then 1 else 0 := by
  simp only [Workload.synchronize, Traced.bind_eq_ok] at h
  obtain ⟨s, hs, _, -, h⟩ := h
  cases Traced.pure_eq_ok.mp h
  rw [← List.take_length (l := w.pairs)] at hs
  obtain ⟨hqueued, requests, hqueues, -, hrequests⟩ := hw.exists_asked le_rfl hs
  have hmarks : ∀ p ∈ s.done.reverse, p.MarkedOnce := fun p hp =>
    hqueues.marks p (List.mem_reverse.mp hp)
  have hjournal : s.journal = s.done.reverse.flatMap Pair.before := by
    rw [Sync.journal, hqueued, List.append_nil]
  have hcount : ∀ kind, kind ≠ .synchronize →
      countOf kind (s.done.reverse.flatMap Pair.operations) = countOf kind s.journal := by
    intro kind hkind
    rw [countOf_flatMap_operations hkind hmarks, hjournal]
  have hstats : s.stats = ⟨countOf .upload s.journal, countOf .copyTile s.journal,
      countOf .reinterpret s.journal⟩ := by
    rw [hqueues.stats, SyncStats.foldl_count]
    simp [SyncStats.zero]
  have hnodup : requests.flatten.Nodup := by
    simpa using hqueues.tiles.of_map
  simp only [operations, hcount, ne_eq, reduceCtorEq, not_false_eq_true]
  refine ⟨?_, ⟨requests, hqueues.done, hrequests, ?_, ?_⟩, hstats, ?_, fun p hp => ?_⟩
  · have hindices := hqueues.indices
    rw [hjournal, List.filterMap_flatMap, hstats] at hindices
    exact hindices
  · simpa using hqueues.tiles
  · intro tile copy
    rw [List.Nodup.count hnodup, hqueues.bound]
    simp
  · rw [hw.pristine.changes, List.nil_append, filterMap_change?_flatMap_operations hmarks,
      hqueues.changes, hjournal]
  · exact (hmarks p hp).countOf_eq

/-- The tile that is sampled twice is bound to the one copy, which the pair of the last draw asks
for. -/
theorem sampled_tile_asks_once :
    ∃ stats table, ∃ requests : List (List CopyRequest),
      (sampledTwice.synchronize .empty blankMemory).outcome =
        .ok (stats, sampledTwice.synchronized, table) ∧
      stats = ⟨2, 1, 0⟩ ∧ sampledTwice.synchronized.changes.length = 2 ∧
      sampledTwice.synchronized.pairs.map Pair.copies =
        requests.map (List.map CopyRequest.copy) ∧
      ∃ copy, requests.flatten.count ⟨0, copy⟩ = 1 := by
  obtain ⟨stats, table, hsync⟩ := synchronize_outcome (w := sampledTwice) (by decide +kernel)
  obtain ⟨-, ⟨requests, hcopies, -, -, hbound⟩, hstats, hchanges, -⟩ :=
    queue_answers_requests built_sampledTwice hsync
  have hcopy : ∃ copy, sampledTwice.synchronized.tileCopies[0]? = some (some copy) :=
    ⟨⟨16, .bits8, 1, 0, ⟨0, 0, 1, 1⟩, ⟨0, 0, 1, 1⟩⟩, by decide +kernel⟩
  obtain ⟨copy, hcopy⟩ := hcopy
  refine ⟨stats, table, requests, hsync, ?_, ?_, hcopies, copy, (hbound 0 copy).mp hcopy⟩
  · rw [hstats]
    decide +kernel
  · decide +kernel

end Workload

end Scanout
