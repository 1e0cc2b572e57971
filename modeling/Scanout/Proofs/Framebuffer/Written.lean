import Scanout.Proofs.Framebuffer.Table
import Scanout.Proofs.Tile

/-!
# What the device has written

A table remembers which images the device has written to. Checking memory and asking for an image
leave that as it was, and recording a write adds the image that is written. A tile that is found in
the table is copied from an image that the device has written to.
-/

namespace Scanout

namespace FramebufferTable

variable {t t' : FramebufferTable} {address x : Nat} {fb fb' : Framebuffer}

/-- The device has written to the image at the address. -/
def Wrote (t : FramebufferTable) (address : Nat) : Prop :=
  ∃ fb ∈ t.toList, fb.address = address ∧ fb.wasWritten = true

lemma mem_insertEntry {entries : List (Nat × Framebuffer)} {e : Nat × Framebuffer}
    (h : e ∈ insertEntry address fb entries) : e = (address, fb) ∨ e ∈ entries := by
  induction entries with
  | nil => exact .inl (List.mem_singleton.mp h)
  | cons entry rest ih =>
    rw [insertEntry] at h
    split at h
    · exact List.mem_cons.mp h
    · split at h
      · exact (List.mem_cons.mp h).imp_right (List.mem_cons_of_mem _)
      · rcases List.mem_cons.mp h with rfl | h
        · exact .inr List.mem_cons_self
        · exact (ih h).imp_right (List.mem_cons_of_mem _)

lemma mem_toList_insert (h : fb' ∈ (t.insert address fb).toList) : fb' = fb ∨ fb' ∈ t.toList := by
  obtain ⟨e, he, rfl⟩ := List.mem_map.mp h
  exact (mem_insertEntry he).imp (congrArg Prod.snd) (List.mem_map_of_mem)

lemma mem_toList_of_find? (h : t.find? address = some fb) : fb ∈ t.toList := by
  obtain ⟨before, after, hentries, -⟩ := List.lookup_eq_some_iff.mp h
  refine List.mem_map.mpr ⟨(address, fb), ?_, rfl⟩
  rw [hentries]
  exact List.mem_append_right _ List.mem_cons_self

/-- A framebuffer that replaces one that was written as much brings nothing new. -/
lemma Wrote.of_insert (h : (t.insert address fb).Wrote x)
    (hfb : fb.wasWritten = true → t.Wrote fb.address) : t.Wrote x := by
  obtain ⟨fb', hmem, rfl, hwritten⟩ := h
  rcases mem_toList_insert hmem with rfl | hmem
  · exact hfb hwritten
  · exact ⟨fb', hmem, rfl, hwritten⟩

lemma wrote_of_find? (h : t.find? address = some fb) (hwritten : fb.wasWritten = true) :
    t.Wrote fb.address :=
  ⟨fb, mem_toList_of_find? h, rfl, hwritten⟩

/-- A framebuffer that was asked for was written if the one before was. -/
lemma wrote_of_requested {size : PixelSize} {width height : Nat}
    (h : (t.requested address size width height).wasWritten = true) :
    t.Wrote (t.requested address size width height).address := by
  rw [requested] at h ⊢
  cases hfind : t.find? address with
  | some known =>
    simp only [hfind] at h ⊢
    rw [Framebuffer.address_withFormat]
    refine wrote_of_find? hfind ?_
    rw [Framebuffer.withFormat] at h
    split at h <;> exact h
  | none =>
    rw [hfind] at h
    cases h

lemma Wrote.of_check {change : Option MemoryChange} {ram : ByteArray}
    (hcheck : (t.check address ram).outcome = .ok (change, t')) (h : t'.Wrote x) : t.Wrote x := by
  rcases check_eq_ok hcheck with ⟨fb, fb', hfind, hfb, rfl⟩ | ⟨-, rfl⟩
  · refine h.of_insert fun hwritten => ?_
    rw [Framebuffer.address_of_check hfb]
    exact wrote_of_find? hfind (Framebuffer.wasWritten_of_check hfb ▸ hwritten)
  · exact h

lemma Wrote.of_recordWrite (ht : t.Sound) {type : WriteType} {rect : Rect} {stamp : Nat}
    (h : (t.recordWrite address type rect stamp).Wrote x) : t.Wrote x ∨ x = address := by
  rw [recordWrite] at h
  cases hfind : t.find? address with
  | some fb =>
    rw [modify_of_find?_eq_some hfind] at h
    obtain ⟨fb', hmem, rfl, hwritten⟩ := h
    rcases mem_toList_insert hmem with rfl | hmem
    · exact .inr (ht _ _ hfind).1
    · exact .inl ⟨fb', hmem, rfl, hwritten⟩
  | none =>
    rw [modify_of_find?_eq_none hfind] at h
    exact .inl h

lemma later_cases {best : Option Framebuffer} :
    later best fb = fb ∨ best = some (later best fb) := by
  cases best with
  | none => exact .inl rfl
  | some known =>
    rw [later]
    split
    · exact .inr rfl
    · exact .inl rfl

/-- What a search finds is among the framebuffers searched, or was found before. -/
lemma mem_of_foldlM_later {fbs : List Framebuffer} {best : Option Framebuffer} {stop : Nat}
    (h : fbs.foldlM (fun best fb => do
      return if ← reaches fb address stop then some (later best fb) else best) best =
        (.ok (some fb) : Except Fault _)) : best = some fb ∨ fb ∈ fbs := by
  induction fbs generalizing best with
  | nil => exact .inl (Except.ok.inj h)
  | cons known fbs ih =>
    rw [List.foldlM_cons, Except.bind_eq_ok_iff] at h
    obtain ⟨next, hnext, h⟩ := h
    obtain ⟨overlaps, -, hnext⟩ := Except.bind_eq_ok_iff.mp hnext
    rcases ih h with rfl | hmem
    · cases overlaps with
      | true =>
        obtain rfl := Option.some.inj (Except.ok.inj hnext)
        rcases later_cases with hlater | hbest
        · exact .inr (List.mem_cons.mpr (.inl hlater))
        · exact .inl hbest
      | false => exact .inl (Except.ok.inj hnext)
    · exact .inr (List.mem_cons_of_mem _ hmem)

/-- A framebuffer that is found to overlap is one of the table. -/
lemma mem_of_findOverlapping {length : Nat} (h : t.findOverlapping address length = .ok (some fb)) :
    fb ∈ t.toList := by
  rcases mem_of_foldlM_later h with hnone | hmem
  · cases hnone
  · exact hmem

end FramebufferTable

namespace Tile

variable {tile : Tile} {table : FramebufferTable} {region : CopyRegion}

/-- A copy is taken from a framebuffer that was written. -/
lemma address_of_copyRegion? {fb : Framebuffer}
    (h : (tile.copyRegion? fb).outcome = .ok (some region)) :
    region.address = fb.address ∧ fb.wasWritten = true := by
  obtain ⟨hfits, _, _, -, -, -, -, haddress, -⟩ := copyRegion?_eq_ok h
  exact ⟨haddress, (fits_iff.mp hfits).1⟩

lemma wrote_of_resolve (h : (tile.resolve table).outcome = .ok (.copy region)) :
    table.Wrote region.address := by
  simp only [resolve, Traced.bind_eq_ok, Traced.lift_eq_ok] at h
  obtain ⟨⟨start, stop⟩, -, found, hfound, h⟩ := h
  cases found with
  | none =>
    obtain ⟨region?, hregion, h⟩ := Traced.bind_eq_ok.mp h
    cases Traced.pure_eq_ok.mp hregion
    cases Traced.pure_eq_ok.mp h
  | some fb =>
    obtain ⟨region?, hregion, h⟩ := Traced.bind_eq_ok.mp h
    cases region? with
    | none => cases Traced.pure_eq_ok.mp h
    | some region' =>
      obtain rfl : region' = region := TileSource.copy.inj (Traced.pure_eq_ok.mp h)
      obtain ⟨haddress, hwritten⟩ := address_of_copyRegion? hregion
      exact ⟨fb, FramebufferTable.mem_of_findOverlapping hfound, haddress.symm, hwritten⟩

end Tile

end Scanout
