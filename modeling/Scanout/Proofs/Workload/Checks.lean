import Scanout.Proofs.Workload.Intact
import Scanout.Proofs.Workload.Tracking

/-!
# The checks of a synchronization

When a workload is synchronized, each image that a pair writes to is checked against memory, in the
order of the pairs. `Workload.checked?` is the framebuffer as it is then. A synchronized pair can be
told from its checks: each of them leads to one operation at most, and the last one of the image that
the pair colors decides whether its draws may be blended.
-/

namespace Scanout

namespace Framebuffer

variable {fb fb' : Framebuffer} {ram region : ByteArray} {stride : Nat}
  {change : Option MemoryChange}

/-- Memory has nothing new: the bytes are taken for those last seen, or are no whole row. -/
def Current (fb : Framebuffer) (ram : ByteArray) : Prop :=
  ∃ region stride, fb.region ram = .ok region ∧ fb.stride = .ok stride ∧
    (fb.Recognizes region ∨ region.size / stride = 0)

lemma current_iff (h : (fb.check ram).outcome = .ok (change, fb')) :
    fb.Current ram ↔ change = none := by
  obtain ⟨region, stride, hregion, hstride, hcases⟩ := check_eq_ok h
  have hcurrent : fb.Current ram ↔ fb.Recognizes region ∨ region.size / stride = 0 := by
    constructor
    · rintro ⟨_, _, hregion', hstride', hcurrent⟩
      cases hregion.symm.trans hregion'
      cases hstride.symm.trans hstride'
      exact hcurrent
    · intro hcurrent
      exact ⟨region, stride, hregion, hstride, hcurrent⟩
  rw [hcurrent]
  rcases hcases with ⟨hrecognizes, rfl, -⟩ | ⟨hother, rfl, -⟩
  · exact iff_of_true (.inl hrecognizes) rfl
  · rw [changeFor_eq_none_iff, or_iff_right hother]

/-- What a check of the image hands out, if it ends. -/
def found? (fb : Framebuffer) (ram : ByteArray) : Option (Option MemoryChange) :=
  match (fb.check ram).outcome with
  | .ok (change, _) => some change
  | .error _ => none

lemma current_iff_isNone (h : fb.found? ram = some change) :
    fb.Current ram ↔ change.isNone = true := by
  rw [found?] at h
  split at h
  · rename_i change' fb' hfound
    obtain rfl := Option.some.inj h
    rw [current_iff hfound, Option.isNone_iff_eq_none]
  · cases h

end Framebuffer

namespace Pair

/-- The images that a pair writes to are of different types. -/
lemma nodup_imageUses {p : Pair} : (p.imageUses.map ImageUse.type).Nodup := by
  rw [imageUses]
  cases p.colorImage with
  | none => exact List.nodup_nil
  | some image => cases Sync.writtenDepth p <;> simp

end Pair

/-- A member of a list stands behind those that differ from it. -/
lemma exists_takeWhile_append {α : Type} [DecidableEq α] {a : α} {as : List α} (h : a ∈ as) :
    ∃ later, as = as.takeWhile (· ≠ a) ++ a :: later := by
  induction as with
  | nil => cases h
  | cons b as ih =>
    by_cases hb : b = a
    · exact ⟨as, by simp [hb]⟩
    · obtain ⟨later, hlater⟩ := ih (List.mem_of_ne_of_mem (Ne.symm hb) h)
      refine ⟨later, ?_⟩
      rw [List.takeWhile_cons_of_pos (by simpa using hb), List.cons_append, ← hlater]

namespace Sync

variable {s s' r : Sync} {ram : ByteArray} {use : ImageUse} {uses : List ImageUse} {w : Workload}
  {p : Pair}

/-- A check depends on the table alone. -/
lemma syncUse_congr (htable : r.table = s.table) (h : (s.syncUse ram use).outcome = .ok s') :
    ∃ r', (r.syncUse ram use).outcome = .ok r' ∧ r'.table = s'.table := by
  simp only [syncUse, syncImage, Traced.bind_eq_ok] at h ⊢
  obtain ⟨⟨op?, table⟩, hcheck, h⟩ := h
  rw [← htable] at hcheck
  cases op? with
  | none =>
    cases Traced.pure_eq_ok.mp h
    exact ⟨_, ⟨_, hcheck, rfl⟩, rfl⟩
  | some op =>
    cases Traced.pure_eq_ok.mp h
    exact ⟨_, ⟨_, hcheck, rfl⟩, rfl⟩

lemma syncUses_congr (htable : r.table = s.table)
    (h : (uses.foldlM (syncUse ram) s).outcome = .ok s') :
    ∃ r', (uses.foldlM (syncUse ram) r).outcome = .ok r' ∧ r'.table = s'.table := by
  induction uses generalizing s r with
  | nil =>
    rw [List.foldlM_nil, Traced.pure_eq_ok] at h
    exact ⟨r, rfl, htable.trans (congrArg table h)⟩
  | cons use uses ih =>
    rw [List.foldlM_cons, Traced.bind_eq_ok] at h
    obtain ⟨s₁, huse, h⟩ := h
    obtain ⟨r₁, hr₁, htable₁⟩ := syncUse_congr htable huse
    obtain ⟨r', hr', htable'⟩ := ih htable₁ h
    refine ⟨r', ?_, htable'⟩
    rw [List.foldlM_cons, Traced.bind_eq_ok]
    exact ⟨r₁, hr₁, hr'⟩

lemma sound_of_syncUses (hs : s.table.Sound)
    (h : (uses.foldlM (syncUse ram) s).outcome = .ok s') : s'.table.Sound := by
  apply Traced.foldlM_induct h hs
  intro use _ s₁ s₂ h₁ h₂
  exact sound_of_syncUse h₁ h₂

lemma sound_of_syncPairs {pairs : List Pair} (hs : s.table.Sound)
    (h : (pairs.foldlM (syncPair ram w) s).outcome = .ok s') : s'.table.Sound := by
  apply Traced.foldlM_induct h hs
  intro p _ s₁ s₂ h₁ h₂
  exact sound_of_syncPair h₁ h₂

/-- The type of the image that an operation brings up to date. -/
def target? : Operation → Option WriteType
  | .upload type _ => some type
  | .reinterpret _ _ _ _ type _ => some type
  | _ => none

/-- Each check queues operations for its own image. -/
lemma queued_of_uses (h : (uses.foldlM (syncUse ram) s).outcome = .ok s') :
    ∃ ops, s'.queued = s.queued ++ ops ∧
      ∀ op ∈ ops, ∃ use ∈ uses, target? op = some use.type := by
  refine Traced.foldlM_induct (motive := fun s' => ∃ ops, s'.queued = s.queued ++ ops ∧
    ∀ op ∈ ops, ∃ use ∈ uses, target? op = some use.type) h ⟨[], by simp, by simp⟩ ?_
  rintro use huse s₁ s₂ ⟨ops, hops, htargets⟩ h
  obtain ⟨change, fb, -, -, hqueued, -⟩ := syncUse_eq_ok h
  refine ⟨ops ++ (operationFor fb use change).toList, ?_, ?_⟩
  · rw [hqueued, hops, List.append_assoc]
  · intro op hop
    rcases List.mem_append.mp hop with hop | hop
    · exact htargets op hop
    · refine ⟨use, huse, ?_⟩
      rw [Option.mem_toList] at hop
      cases change with
      | some change =>
        cases hop
        rfl
      | none =>
        rw [operationFor] at hop
        split at hop
        · cases hop
          rfl
        · cases hop

end Sync

namespace Workload

/-- The table as the pair at a place comes to the use of an image. -/
def tableAt? (w : Workload) (table : FramebufferTable) (ram : ByteArray) (place : Nat)
    (use : ImageUse) : Option FramebufferTable := do
  let p ← w.pairs[place]?
  let table ← w.tableAfter? table ram place
  match ((p.imageUses.takeWhile (· ≠ use)).foldlM (Sync.syncUse ram) (w.syncStart table)).outcome with
  | .ok s => some s.table
  | .error _ => none

/-- The framebuffer that is checked then. -/
def checked? (w : Workload) (table : FramebufferTable) (ram : ByteArray) (place : Nat)
    (use : ImageUse) : Option Framebuffer :=
  (w.tableAt? table ram place use).map (·.requested use.address use.size use.width use.height)

/-- The check finds rows that the CPU has changed over rendered output. -/
def Finds (w : Workload) (table : FramebufferTable) (ram : ByteArray) (place : Nat)
    (use : ImageUse) : Prop :=
  ∃ fb, w.checked? table ram place use = some fb ∧ fb.wasWritten = true ∧ ¬ fb.Current ram

variable {w w' : Workload} {table table' : FramebufferTable} {ram : ByteArray} {stats : SyncStats}
  {place : Nat} {p : Pair} {use : ImageUse}

/-- The check hands out rows, and the image was written. -/
def findsRows (w : Workload) (table : FramebufferTable) (ram : ByteArray) (place : Nat)
    (use : ImageUse) : Bool :=
  (w.checked? table ram place use).any fun fb =>
    fb.wasWritten && (fb.found? ram).any Option.isSome

lemma finds_of_findsRows (h : w.findsRows table ram place use = true) :
    w.Finds table ram place use := by
  rw [findsRows, Option.any_eq_true] at h
  obtain ⟨fb, hchecked, h⟩ := h
  rw [Bool.and_eq_true, Option.any_eq_true] at h
  obtain ⟨hwritten, change, hfound, hsome⟩ := h
  refine ⟨fb, hchecked, hwritten, fun hcurrent => ?_⟩
  rw [Framebuffer.current_iff_isNone hfound, ← Option.not_isSome, hsome] at hcurrent
  cases hcurrent

/-- Each pair is synchronized when those before it are, and later ones only mark it. -/
lemma exists_syncedPair (h : (w.synchronize table ram).outcome = .ok (stats, w', table'))
    (hp : w.pairs[place]? = some p) :
    ∃ s s₁ s₂ blendable p',
      ((w.pairs.take place).foldlM (Sync.syncPair ram w) (w.syncStart table)).outcome = .ok s ∧
      Sync.Samples { s with queued := [] } s₁ ∧
      (p.imageUses.foldlM (Sync.syncUse ram) s₁).outcome = .ok s₂ ∧
      (∀ image, p.colorImage = some image → blendable = s₂.blendable image.address) ∧
      w'.pairs[place]? = some p' ∧
      p'.unmarked = { p with blendable, before := p.before ++ s₂.queued }.unmarked := by
  obtain ⟨s', hs', rfl, -⟩ := exists_synced h
  have hplace : place < w.pairs.length := (List.getElem?_eq_some_iff.mp hp).1
  have hsplit : w.pairs = w.pairs.take place ++ p :: w.pairs.drop (place + 1) := by
    obtain ⟨hlt, rfl⟩ := List.getElem?_eq_some_iff.mp hp
    rw [List.getElem_cons_drop, List.take_append_drop]
  rw [hsplit, Traced.foldlM_append_eq_ok] at hs'
  obtain ⟨s, hs, hrest⟩ := hs'
  rw [List.foldlM_cons, Traced.bind_eq_ok] at hrest
  obtain ⟨s₃, hpair, hrest⟩ := hrest
  obtain ⟨s₁, s₂, blendable, htiles, huses, hblendable, rfl⟩ := Sync.exists_steps hpair
  obtain ⟨synced, hdone, hlength, -⟩ := Sync.exists_done hs
  obtain ⟨synced', hdone', hlength', -⟩ := Sync.exists_done hrest
  have hsamples : Sync.Samples { s with queued := [] } s₁ := .of_tiles htiles
  have hbefore : s₂.done.length = place := by
    have hsampled := congrArg List.length hsamples.done
    have hearlier := congrArg List.length hdone
    rw [List.length_map, List.length_map] at hsampled hearlier
    rw [Sync.done_of_uses huses, hsampled]
    simp only [hearlier, syncStart, List.append_nil, hlength, List.length_take]
    omega
  -- the pair is the last one done, but for the later ones
  have hmarked : (s'.done.reverse.map Pair.unmarked)[place]? =
      some { p with blendable, before := p.before ++ s₂.queued }.unmarked := by
    rw [List.map_reverse, hdone', ← List.map_reverse, List.reverse_append, List.reverse_cons,
      List.append_assoc, List.map_append, List.getElem?_append_right (by simp [hbefore])]
    simp [hbefore]
  rw [List.getElem?_map, Option.map_eq_some_iff] at hmarked
  obtain ⟨p', hp', hunmarked⟩ := hmarked
  exact ⟨s, s₁, s₂, blendable, p', hs, hsamples, huses, hblendable, hp', hunmarked⟩

/-- An image is checked once those before it are. -/
lemma exists_checked {s s₁ s₂ : Sync} (hp : w.pairs[place]? = some p)
    (hs : ((w.pairs.take place).foldlM (Sync.syncPair ram w) (w.syncStart table)).outcome = .ok s)
    (hsamples : Sync.Samples { s with queued := [] } s₁)
    (h : (p.imageUses.foldlM (Sync.syncUse ram) s₁).outcome = .ok s₂) (huse : use ∈ p.imageUses) :
    ∃ earlier later s₃ s₄, p.imageUses = earlier ++ use :: later ∧
      (earlier.foldlM (Sync.syncUse ram) s₁).outcome = .ok s₃ ∧
      (s₃.syncUse ram use).outcome = .ok s₄ ∧
      (later.foldlM (Sync.syncUse ram) s₄).outcome = .ok s₂ ∧
      w.tableAt? table ram place use = some s₃.table := by
  obtain ⟨later, hlater⟩ := exists_takeWhile_append huse
  rw [hlater, Traced.foldlM_append_eq_ok] at h
  obtain ⟨s₃, hearlier, h⟩ := h
  rw [List.foldlM_cons, Traced.bind_eq_ok] at h
  obtain ⟨s₄, hcheck, hlast⟩ := h
  refine ⟨_, later, s₃, s₄, hlater, hearlier, hcheck, hlast, ?_⟩
  have htable : (w.syncStart s.table).table = s₁.table := hsamples.table.symm
  obtain ⟨r, hr, htable'⟩ := Sync.syncUses_congr htable hearlier
  simp only [tableAt?, hp, tableAfter?, hs, hr, Option.bind_eq_bind, Option.bind_some, htable']

lemma checked?_eq_some {s : Sync} (h : w.tableAt? table ram place use = some s.table) :
    w.checked? table ram place use = some (s.usedFramebuffer use) := by
  rw [checked?, h, Option.map_some, Sync.usedFramebuffer]

end Workload

end Scanout
