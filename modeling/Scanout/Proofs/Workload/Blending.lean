import Scanout.Pipeline.Render
import Scanout.Proofs.Workload.Checks
import Scanout.Proofs.Workload.Outgrown

/-!
# Draws that are not blended

What the CPU draws over rendered output leaves nothing to blend with. Whether the draws of a pair may
be blended is decided by the last check of its color image, and a check takes note of what it finds.
So after a change was found, a later pair of the workload is blended again, unless it asks for the
image in another format or with more rows.
-/

namespace Scanout

namespace Pair

/-- The pair colors the image at the address. -/
def Colors (p : Pair) (address : Nat) : Prop :=
  ∃ image, p.colorImage = some image ∧ image.address = address

/-- The use whose check decides whether the draws of a pair may be blended: the last one of the
image that it colors. -/
def deciding? (p : Pair) : Option ImageUse :=
  p.colorImage.bind fun image => p.imageUses.reverse.find? (·.address = image.address)

variable {p : Pair} {address : Nat} {use : ImageUse} {earlier later : List ImageUse}

lemma exists_deciding (h : p.Colors address) :
    ∃ use, p.deciding? = some use ∧ use.address = address := by
  obtain ⟨image, himage, rfl⟩ := h
  rw [deciding?, himage, Option.bind_some]
  cases hfound : p.imageUses.reverse.find? (·.address = image.address) with
  | some use => exact ⟨use, rfl, by simpa using List.find?_some hfound⟩
  | none =>
    have hcolor : (⟨image.address, image.size, image.width, p.drawHeight, .color⟩ : ImageUse) ∈
        p.imageUses.reverse := by
      simp [imageUses, himage]
    have := List.find?_eq_none.mp hfound _ hcolor
    simp at this

lemma of_deciding (h : p.deciding? = some use) :
    use ∈ p.imageUses ∧ ∃ image, p.colorImage = some image ∧ image.address = use.address := by
  obtain ⟨image, himage, hfound⟩ := Option.bind_eq_some_iff.mp h
  have haddress := List.find?_some hfound
  exact ⟨List.mem_reverse.mp (List.mem_of_find?_eq_some hfound), image, himage,
    (by simpa using haddress : use.address = image.address).symm⟩

/-- No use after the deciding one is of the same image. -/
lemma address_ne_of_deciding (h : p.deciding? = some use)
    (hlist : p.imageUses = earlier ++ use :: later) :
    ∀ other ∈ later, other.address ≠ use.address := by
  obtain ⟨-, image, himage, haddress⟩ := of_deciding h
  have hnodup := p.nodup_imageUses
  rw [hlist, List.map_append, List.map_cons, List.nodup_append, List.nodup_cons] at hnodup
  rw [deciding?, himage, Option.bind_some, hlist, List.reverse_append, List.reverse_cons,
    List.append_assoc, List.find?_append, haddress] at h
  rcases Option.or_eq_some_iff.mp h with h | ⟨hnone, -⟩
  · have hmem := List.mem_reverse.mp (List.mem_of_find?_eq_some h)
    exact absurd (List.mem_map_of_mem hmem) hnodup.2.1.1
  · intro other hother hsame
    have := List.find?_eq_none.mp hnone other (List.mem_reverse.mpr hother)
    simp [hsame] at this

end Pair

namespace Framebuffer

variable {fb fb' : Framebuffer} {ram : ByteArray} {change : Option MemoryChange}

/-- The bytes of the image in `ram` are those last seen. -/
def Knows (fb : Framebuffer) (ram : ByteArray) : Prop :=
  ∃ region, fb.region ram = .ok region ∧ fb.Recognizes region

lemma Knows.current (h : fb.Knows ram) : fb.Current ram := by
  obtain ⟨region, hregion, hrecognizes⟩ := h
  obtain ⟨stride, hstride⟩ := exists_stride hregion
  exact ⟨region, stride, hregion, hstride, .inl hrecognizes⟩

/-- What was checked is known. -/
lemma Knows.of_check (h : (fb.check ram).outcome = .ok (change, fb')) : fb'.Knows ram := by
  obtain ⟨region, stride, hregion, -, ⟨hrecognizes, -, rfl⟩ | ⟨-, -, rfl⟩⟩ := check_eq_ok h
  · exact ⟨region, hregion, hrecognizes⟩
  · exact ⟨region, hregion, mustRead_eq_false_iff.mpr ⟨rfl, rfl, rfl⟩, rfl⟩

lemma withFormat_of_same {size : PixelSize} {width height : Nat}
    (hformat : fb.differs size width = false) (hheight : height ≤ fb.height) :
    fb.withFormat size width height = fb := by
  rw [withFormat, hformat, Nat.max_eq_left hheight]
  rfl

end Framebuffer

/-- The bytes of the image at the address are those last seen. -/
def FramebufferTable.Knows (t : FramebufferTable) (ram : ByteArray) (address : Nat) : Prop :=
  ∃ fb, t.find? address = some fb ∧ fb.Knows ram

namespace Sync

variable {s s' : Sync} {ram : ByteArray} {w : Workload} {p : Pair} {pairs : List Pair}
  {use : ImageUse} {uses : List ImageUse} {address : Nat}

lemma knows_of_syncUse (h : (s.syncUse ram use).outcome = .ok s') :
    s'.table.Knows ram use.address := by
  obtain ⟨change, fb, hcheck, htable, -, -⟩ := syncUse_eq_ok h
  have hknows : fb.Knows ram := .of_check hcheck
  rw [htable]
  exact ⟨_, FramebufferTable.find?_insert_self, hknows⟩

/-- Checks of an image leave it known, and those of other images leave it as it is. -/
lemma knows_of_syncUses (hs : s.table.Knows ram address ∨ ∃ use ∈ uses, use.address = address)
    (h : (uses.foldlM (syncUse ram) s).outcome = .ok s') : s'.table.Knows ram address := by
  induction uses generalizing s with
  | nil =>
    rw [List.foldlM_nil, Traced.pure_eq_ok] at h
    subst h
    simpa using hs
  | cons use uses ih =>
    rw [List.foldlM_cons, Traced.bind_eq_ok] at h
    obtain ⟨s₁, huse, h⟩ := h
    refine ih ?_ h
    by_cases haddress : use.address = address
    · exact .inl (haddress ▸ knows_of_syncUse huse)
    · rcases hs with ⟨fb, hfind, hknows⟩ | ⟨other, hother, hsame⟩
      · obtain ⟨change, fb', -, htable, -, -⟩ := syncUse_eq_ok huse
        refine .inl ⟨fb, ?_, hknows⟩
        rw [htable, FramebufferTable.find?_insert_of_ne (Ne.symm haddress),
          FramebufferTable.find?_insert_of_ne (Ne.symm haddress)]
        exact hfind
      · refine .inr ⟨other, (List.mem_cons.mp hother).resolve_left ?_, hsame⟩
        rintro rfl
        exact haddress hsame

lemma knows_recorded {stamp : Nat} {table : FramebufferTable}
    {writes : List (Nat × WriteType × Rect)} (h : table.Knows ram address) :
    (recorded stamp table writes).Knows ram address := by
  induction writes generalizing table with
  | nil => exact h
  | cons write writes ih =>
    refine ih ?_
    obtain ⟨fb, hfind, hknows⟩ := h
    dsimp only
    by_cases haddress : write.1 = address
    · rw [haddress, FramebufferTable.recordWrite, FramebufferTable.modify_of_find?_eq_some hfind]
      exact ⟨_, FramebufferTable.find?_insert_self, hknows⟩
    · refine ⟨fb, ?_, hknows⟩
      rw [FramebufferTable.recordWrite, FramebufferTable.find?_modify_of_ne (Ne.symm haddress)]
      exact hfind

/-- Once a pair has used an image, it stays known. -/
lemma knows_of_syncPairs
    (hs : s.table.Knows ram address ∨ ∃ p ∈ pairs, ∃ use ∈ p.imageUses, use.address = address)
    (h : (pairs.foldlM (syncPair ram w) s).outcome = .ok s') : s'.table.Knows ram address := by
  induction pairs generalizing s with
  | nil =>
    rw [List.foldlM_nil, Traced.pure_eq_ok] at h
    subst h
    simpa using hs
  | cons p pairs ih =>
    rw [List.foldlM_cons, Traced.bind_eq_ok] at h
    obtain ⟨s₃, hpair, h⟩ := h
    refine ih ?_ h
    obtain ⟨s₁, s₂, blendable, htiles, huses, -, rfl⟩ := exists_steps hpair
    have htable : s₁.table = s.table := (Samples.of_tiles htiles).table
    rcases hs with hs | ⟨other, hother, hused⟩
    · exact .inl (knows_recorded (knows_of_syncUses (.inl (htable ▸ hs)) huses))
    · rcases List.mem_cons.mp hother with rfl | hother
      · exact .inl (knows_recorded (knows_of_syncUses (.inr hused) huses))
      · exact .inr ⟨other, hother, hused⟩

end Sync

namespace Workload

variable {w w' : Workload} {table table' : FramebufferTable} {ram : ByteArray} {stats : SyncStats}
  {place : Nat} {p : Pair} {use : ImageUse}

/-- No draw of the pair is blended, whatever image it is recorded for. -/
def Unblended (w : Workload) (p : Pair) : Prop :=
  p.blendable = false ∧
    ∀ m s slot place, w.recordDraws m s slot place p = w.recordDraws m .direct slot place p

lemma unblended_iff : w.Unblended p ↔ p.blendable = false := by
  refine and_iff_left_of_imp fun hp m s slot place => ?_
  simp only [recordDraws, hp, Bool.false_eq_true, if_false]

/-- The deciding check of a pair tells whether its draws may be blended. -/
lemma unblended_iff_finds (ht : table.Sound)
    (h : (w.synchronize table ram).outcome = .ok (stats, w', table'))
    (hp : w.pairs[place]? = some p) (hdeciding : p.deciding? = some use) :
    ∃ p', w'.pairs[place]? = some p' ∧ p'.colorImage = p.colorImage ∧
      (w'.Unblended p' ↔ w.Finds table ram place use) := by
  obtain ⟨huse, image, himage, haddress⟩ := Pair.of_deciding hdeciding
  obtain ⟨s, s₁, s₂, blendable, p', hs, hsamples, huses, hblendable, hp', hunmarked⟩ :=
    exists_syncedPair h hp
  obtain ⟨earlier, later, s₃, s₄, hlist, hearlier, hcheck, hlater, hat⟩ :=
    exists_checked hp hs hsamples huses huse
  have hcolor := congrArg Pair.colorImage hunmarked
  have hflag := congrArg Pair.blendable hunmarked
  refine ⟨p', hp', hcolor, ?_⟩
  have hsound : s₄.table.Sound := by
    have hs₀ : s.table.Sound := Sync.sound_of_syncPairs ht hs
    have hs₁ : s₁.table.Sound := hsamples.table ▸ hs₀
    exact Sync.sound_of_syncUse (Sync.sound_of_syncUses hs₁ hearlier) hcheck
  obtain ⟨change, fb, hfound, htable, -, -⟩ := Sync.syncUse_eq_ok hcheck
  obtain ⟨-, hfind, -, -⟩ :=
    Sync.others_of_uses hsound (Pair.address_ne_of_deciding hdeciding hlist) hlater
  have hdecided : p'.blendable = (change.isNone || !fb.wasWritten) := by
    change p'.blendable = blendable at hflag
    rw [hflag, hblendable image himage, Sync.blendable, haddress, hfind, htable,
      FramebufferTable.find?_insert_self]
    rfl
  have hfinds : w.Finds table ram place use ↔ fb.wasWritten = true ∧ change ≠ none := by
    rw [Finds, checked?_eq_some hat, Framebuffer.wasWritten_of_check hfound, ne_eq,
      ← Framebuffer.current_iff hfound]
    constructor
    · rintro ⟨_, hchecked, hfinds⟩
      cases hchecked
      exact hfinds
    · intro hfinds
      exact ⟨_, rfl, hfinds⟩
  rw [unblended_iff, hdecided, hfinds]
  cases change <;> simp

/-- A check finds the image as an earlier pair has left it, unless it asks for another format or for
more rows. -/
lemma Finds.differs {earlier : Nat} {p₀ : Pair} {use₀ : ImageUse}
    (hfinds : w.Finds table ram place use) (hp₀ : w.pairs[earlier]? = some p₀)
    (hbefore : earlier < place) (huse₀ : use₀ ∈ p₀.imageUses) (hsame : use.address = use₀.address) :
    ∃ known fb, w.tableAt? table ram place use = some known ∧
      known.find? use.address = some fb ∧
      (fb.differs use.size use.width = true ∨ fb.height < use.height) := by
  obtain ⟨fb, hchecked, -, hnew⟩ := hfinds
  obtain ⟨known, hat, rfl⟩ := Option.map_eq_some_iff.mp hchecked
  have hknows : known.Knows ram use.address := by
    simp only [tableAt?, Option.bind_eq_bind, Option.bind_eq_some_iff] at hat
    obtain ⟨p, hp, t, ht, hat⟩ := hat
    split at hat
    · rename_i s huses
      cases hat
      refine Sync.knows_of_syncUses (.inl ?_) huses
      rw [tableAfter?] at ht
      split at ht
      · rename_i s hs
        cases ht
        have hmem : p₀ ∈ w.pairs.take place :=
          List.mem_of_getElem? ((List.getElem?_take_of_lt hbefore).trans hp₀)
        have hknows : s.table.Knows ram use.address :=
          Sync.knows_of_syncPairs (.inr ⟨p₀, hmem, use₀, huse₀, hsame.symm⟩) hs
        exact hknows
      · cases ht
    · cases hat
  obtain ⟨fb, hfind, hknown⟩ := hknows
  refine ⟨known, fb, hat, hfind, ?_⟩
  by_contra hkept
  rw [not_or, Bool.not_eq_true, Nat.not_lt] at hkept
  apply hnew
  simp only [FramebufferTable.requested, hfind, Framebuffer.withFormat_of_same hkept.1 hkept.2]
  exact hknown.current

/-- After a check has found rows that the CPU changed over rendered output, no draw to the image is
blended exactly if the deciding check of every other pair that colors it finds such rows too. A later
one does only if it asks for the image in another format or with more rows. -/
theorem unblended_throughout_iff (ht : table.Reachable)
    (h : (w.synchronize table ram).outcome = .ok (stats, w', table')) {place₀ : Nat} {p₀ : Pair}
    {use₀ : ImageUse} (hp₀ : w.pairs[place₀]? = some p₀) (huse₀ : use₀ ∈ p₀.imageUses)
    (hfinds : w.Finds table ram place₀ use₀) :
    ((∀ p ∈ w'.pairs, p.Colors use₀.address → w'.Unblended p) ↔
      ∀ place p use, w.pairs[place]? = some p → p.deciding? = some use →
        use.address = use₀.address → (place, use) ≠ (place₀, use₀) →
          w.Finds table ram place use) ∧
    ∀ place p use, place₀ < place → w.pairs[place]? = some p → p.deciding? = some use →
      use.address = use₀.address → w.Finds table ram place use →
        ∃ known fb, w.tableAt? table ram place use = some known ∧
          known.find? use.address = some fb ∧
          (fb.differs use.size use.width = true ∨ fb.height < use.height) := by
  refine ⟨⟨?_, ?_⟩, ?_⟩
  · intro hall place p use hp hdeciding haddress _
    obtain ⟨p', hp', hcolor, hiff⟩ := unblended_iff_finds ht.sound h hp hdeciding
    obtain ⟨-, image, himage, hsame⟩ := Pair.of_deciding hdeciding
    refine hiff.mp (hall p' (List.mem_of_getElem? hp') ⟨image, ?_, hsame.trans haddress⟩)
    rw [hcolor, himage]
  · intro hall p' hp' hcolors
    obtain ⟨place, hplace⟩ := List.mem_iff_getElem?.mp hp'
    obtain ⟨p, hp⟩ : ∃ p, w.pairs[place]? = some p := by
      have huses := congrArg (·[place]?) (imageUses_of_synchronize h)
      simp only [List.getElem?_map, hplace, Option.map_some] at huses
      obtain ⟨p, hp, -⟩ := Option.map_eq_some_iff.mp huses.symm
      exact ⟨p, hp⟩
    -- the pair colors the same image before it is synchronized
    have hbefore : p.Colors use₀.address := by
      obtain ⟨_, _, _, _, q, -, -, -, -, hq, hunmarked⟩ := exists_syncedPair h hp
      obtain rfl := Option.some.inj (hplace.symm.trans hq)
      obtain ⟨image, himage, hsame⟩ := hcolors
      exact ⟨image, (congrArg Pair.colorImage hunmarked).symm.trans himage, hsame⟩
    obtain ⟨use, hdeciding, haddress⟩ := Pair.exists_deciding hbefore
    obtain ⟨q, hq, -, hiff⟩ := unblended_iff_finds ht.sound h hp hdeciding
    obtain rfl := Option.some.inj (hplace.symm.trans hq)
    refine hiff.mpr ?_
    by_cases hsame : (place, use) = (place₀, use₀)
    · obtain ⟨rfl, rfl⟩ := Prod.mk.inj hsame
      exact hfinds
    · exact hall place _ use hp hdeciding haddress hsame
  · intro place p use hlater hp hdeciding haddress hfound
    exact hfound.differs hp₀ hlater huse₀ haddress

/-- A frame that comes back to the image of the first row. -/
def returnedTo (rows : Nat) : Workload := { returning rows with id := 2 }

/-- The table after the first row was drawn over blank memory. -/
def blankTable : FramebufferTable := ((singleImage 1).synced .empty blankMemory).2.2

/-- Memory after the CPU has drawn over the first row. -/
def overdrawn : ByteArray := ⟨(Array.replicate 64 0).set! 0 5⟩

lemma reachable_blankTable : blankTable.Reachable :=
  .synchronize .empty built_singleImage blankMemory
    (synchronize_eq_synced (w := singleImage 1) (by decide +kernel))

/-- The use of the first rows of the image. -/
def rowsUse (rows : Nat) : ImageUse := ⟨0, .bits8, 1, rows, .color⟩

/-- A pair that comes back to the image with another row reads it anew, and is not blended either.
-/
theorem taller_dots_unblended :
    (returnedTo 2).Finds blankTable overdrawn 0 (rowsUse 1) ∧
      ∀ p ∈ ((returnedTo 2).synced blankTable overdrawn).2.1.pairs, p.Colors 0 →
        ((returnedTo 2).synced blankTable overdrawn).2.1.Unblended p := by
  have hfinds : (returnedTo 2).Finds blankTable overdrawn 0 (rowsUse 1) :=
    finds_of_findsRows (by decide +kernel)
  have huse : rowsUse 1 ∈ ((returnedTo 2).pairs[0]).imageUses := by decide
  have hsynced : ((returnedTo 2).synchronize blankTable overdrawn).outcome.isOk = true := by
    decide +kernel
  refine ⟨hfinds, ((unblended_throughout_iff reachable_blankTable (synchronize_eq_synced hsynced)
    rfl huse hfinds).1).mpr ?_⟩
  intro place p use hp hdeciding haddress hother
  match place with
  | 0 =>
    cases hp
    cases hdeciding
    exact absurd rfl hother
  | 1 =>
    cases hp
    cases hdeciding
    cases haddress
  | 2 =>
    cases hp
    cases hdeciding
    exact finds_of_findsRows (by decide +kernel)
  | place + 3 => cases hp

/-- A pair that comes back to the same row finds nothing new, and is blended. -/
theorem repeated_dot_blended :
    blankTable.Reachable ∧ (returnedTo 1).Finds blankTable overdrawn 0 (rowsUse 1) ∧
      (∃ stats t, ((returnedTo 1).synchronize blankTable overdrawn).outcome =
        .ok (stats, ((returnedTo 1).synced blankTable overdrawn).2.1, t)) ∧
      ∃ p ∈ ((returnedTo 1).synced blankTable overdrawn).2.1.pairs, p.Colors 0 ∧
        p.blendable = true := by
  refine ⟨reachable_blankTable, finds_of_findsRows (by decide +kernel),
    ⟨_, _, synchronize_eq_synced (by decide +kernel)⟩, ?_⟩
  have hpair : (((returnedTo 1).synced blankTable overdrawn).2.1.pairs.any fun p =>
      p.colorImage = some ⟨0, .bits8, 1⟩ && p.blendable) = true := by decide +kernel
  obtain ⟨p, hp, h⟩ := List.any_eq_true.mp hpair
  rw [Bool.and_eq_true, decide_eq_true_eq] at h
  exact ⟨p, hp, ⟨_, h.1, rfl⟩, h.2⟩

end Workload

end Scanout
