import Scanout.Proofs.Framebuffer.Table

/-!
# The entries of a table

Whatever is asked of a table of framebuffers, and in whatever order, its entries stay in order and
each belongs together: it stands at its own address, it has the format that was asked for last and
the greatest height asked for in that format, and what it remembers of its memory is either nothing
or the bytes of whole rows with their checksum. `FramebufferTable.asked` reads the formats off the
requests alone, without the table.
-/

namespace Scanout

/-- A format that is asked for. -/
structure ImageFormat where
  size : PixelSize
  width : Nat
  height : Nat
  deriving DecidableEq

namespace ImageFormat

/-- The pixels are of the same size, and the rows of the same length. -/
def agrees (f g : ImageFormat) : Bool := f.size = g.size && f.width = g.width

/-- The formats asked for since the pixel size or the width last changed, the latest first. -/
def latest (formats : List ImageFormat) : List ImageFormat :=
  match formats.reverse with
  | [] => []
  | f :: rest => f :: rest.takeWhile f.agrees

variable {formats : List ImageFormat} {f g : ImageFormat}

lemma agrees_iff : f.agrees g = true ↔ f.size = g.size ∧ f.width = g.width := by
  simp [agrees]

lemma agrees_congr (h : f.agrees g = true) : f.agrees = g.agrees := by
  obtain ⟨hsize, hwidth⟩ := agrees_iff.mp h
  funext x
  simp only [agrees, hsize, hwidth]

/-- A format that agrees with the last one joins it, and any other starts over. -/
lemma latest_concat (h : formats.getLast? = some g) :
    latest (formats ++ [f]) = if f.agrees g then f :: latest formats else [f] := by
  obtain ⟨init, rfl⟩ := List.getLast?_eq_some_iff.mp h
  simp only [latest, List.reverse_append, List.reverse_singleton, List.singleton_append,
    List.takeWhile_cons]
  split
  · rename_i hagrees
    rw [agrees_congr hagrees]
  · rfl

end ImageFormat

namespace Framebuffer

variable {fb fb' : Framebuffer} {formats : List ImageFormat} {f : ImageFormat}

/-- The image is in the format that was asked for last, and as high as was asked for at most since
the pixel size or the width last changed. -/
def Answers (fb : Framebuffer) (formats : List ImageFormat) : Prop :=
  ∃ f, formats.getLast? = some f ∧ fb.size = f.size ∧ fb.width = f.width ∧
    ((ImageFormat.latest formats).map ImageFormat.height).max? = some fb.height

lemma Answers.new {address : Nat} :
    (Framebuffer.new address f.size f.width f.height).Answers [f] :=
  ⟨f, rfl, rfl, rfl, rfl⟩

/-- An answer stays one as long as the format does. -/
lemma Answers.congr (h : fb.Answers formats) (hsize : fb'.size = fb.size)
    (hwidth : fb'.width = fb.width) (hheight : fb'.height = fb.height) : fb'.Answers formats := by
  rw [Answers, hsize, hwidth, hheight]
  exact h

lemma Answers.withFormat (h : fb.Answers formats) :
    (fb.withFormat f.size f.width f.height).Answers (formats ++ [f]) := by
  obtain ⟨g, hlast, hsize, hwidth, hheight⟩ := h
  have hdiffers : fb.differs f.size f.width = !f.agrees g := by
    rw [differs, hsize, hwidth, ImageFormat.agrees]
    simp [eq_comm (a := g.size), eq_comm (a := g.width)]
  refine ⟨f, List.getLast?_concat, ?_⟩
  rw [Framebuffer.withFormat, hdiffers, ImageFormat.latest_concat hlast]
  by_cases hagrees : f.agrees g = true
  · obtain ⟨hfsize, hfwidth⟩ := ImageFormat.agrees_iff.mp hagrees
    simp only [hagrees, Bool.not_true, Bool.false_eq_true, if_false, if_true, List.map_cons,
      List.max?_cons, hheight]
    exact ⟨hsize.trans hfsize.symm, hwidth.trans hfwidth.symm, congrArg some (Nat.max_comm _ _)⟩
  · simp [hagrees]

/-- What is remembered of the memory is nothing, or was read by rows. -/
structure Settled (fb : Framebuffer) : Prop where
  unread : fb.checksum = none → fb.readHeight = 0
  stride : fb.checksum.isSome = true → ∃ stride, fb.stride = .ok stride

namespace Settled

lemma new {address width height : Nat} {size : PixelSize} :
    (Framebuffer.new address size width height).Settled where
  unread _ := rfl
  stride h := by cases h

lemma recordWrite (h : fb.Settled) {type : WriteType} {rect : Rect} {stamp : Nat} :
    (fb.recordWrite type rect stamp).Settled :=
  ⟨h.unread, h.stride⟩

lemma withFormat (h : fb.Settled) {size : PixelSize} {width height : Nat} :
    (fb.withFormat size width height).Settled := by
  rw [Framebuffer.withFormat]
  split
  · exact ⟨fun _ => rfl, fun h => absurd h Bool.false_ne_true⟩
  · exact ⟨h.unread, h.stride⟩

lemma check (h : fb.Settled) {ram : ByteArray} {change : Option MemoryChange}
    (hcheck : (fb.check ram).outcome = .ok (change, fb')) : fb'.Settled := by
  obtain ⟨region, stride, -, hstride, ⟨-, -, rfl⟩ | ⟨-, -, rfl⟩⟩ := check_eq_ok hcheck
  · exact h
  · exact ⟨fun h => absurd h (Option.some_ne_none _), fun _ => ⟨stride, hstride⟩⟩

end Settled

/-- A check leaves the format. -/
lemma Answers.check (h : fb.Answers formats) {ram : ByteArray} {change : Option MemoryChange}
    (hcheck : (fb.check ram).outcome = .ok (change, fb')) : fb'.Answers formats := by
  obtain ⟨_, _, -, -, ⟨-, -, rfl⟩ | ⟨-, -, rfl⟩⟩ := check_eq_ok hcheck
  · exact h
  · exact h

end Framebuffer

namespace FramebufferTable

/-- What is asked of a table. -/
inductive Request where
  | get (address : Nat) (format : ImageFormat)
  /-- ask the framebuffer at the address, if there is one, for a format -/
  | format (address : Nat) (format : ImageFormat)
  | recordWrite (address : Nat) (type : WriteType) (rect : Rect) (stamp : Nat)
  | check (address : Nat) (ram : ByteArray)
  /-- the framebuffer at the address may, or may not, be blended -/
  | blend (address : Nat) (blendable : Bool)
  | reset

/-- Answer a request. -/
def act (t : FramebufferTable) : Request → Traced FramebufferTable
  | .get address f => return (← t.get address f.size f.width f.height).2
  | .format address f =>
    match t.find? address with
    | some fb => return t.insert address (← fb.reformat f.size f.width f.height)
    | none => return t
  | .recordWrite address type rect stamp => return t.recordWrite address type rect stamp
  | .check address ram => return (← t.check address ram).2
  | .blend address blendable => return t.modify address ({ · with blendable })
  | .reset => t.reset

/-- Answer several requests, from an empty table on. -/
def run (requests : List Request) : Except Fault FramebufferTable :=
  (requests.foldlM act empty).outcome

/-- The formats asked for at an address after one more request. Only an address that is in the table
can be asked for another format. -/
def asks (address : Nat) (formats : List ImageFormat) : Request → List ImageFormat
  | .get a f => if a = address then formats ++ [f] else formats
  | .format a f => if a = address ∧ formats ≠ [] then formats ++ [f] else formats
  | .reset => []
  | _ => formats

/-- The formats asked for at an address since the table was last reset, in order. -/
def asked (address : Nat) (requests : List Request) : List ImageFormat :=
  requests.foldl (asks address) []

/-- The addresses are in order. -/
def Ordered (t : FramebufferTable) : Prop := (t.entries.map (·.1)).Pairwise (· < ·)

section Entries

variable {entries : List (Nat × Framebuffer)} {t : FramebufferTable} {address : Nat}
  {fb : Framebuffer}

lemma mem_addresses_insertEntry {a : Nat}
    (h : a ∈ (insertEntry address fb entries).map (·.1)) :
    a = address ∨ a ∈ entries.map (·.1) := by
  induction entries with
  | nil => exact .inl (List.mem_singleton.mp h)
  | cons entry rest ih =>
    rw [insertEntry] at h
    split at h
    · exact List.mem_cons.mp h
    · split at h
      · exact (List.mem_cons.mp h).imp_right (List.mem_cons_of_mem _)
      · rcases List.mem_cons.mp h with rfl | h
        · exact .inr List.mem_cons_self
        · exact (ih h).imp_right (List.mem_cons_of_mem _)

lemma pairwise_insertEntry (h : (entries.map (·.1)).Pairwise (· < ·)) :
    ((insertEntry address fb entries).map (·.1)).Pairwise (· < ·) := by
  induction entries with
  | nil => exact List.pairwise_singleton _ _
  | cons entry rest ih =>
    obtain ⟨hfirst, hrest⟩ := List.pairwise_cons.mp h
    rw [insertEntry]
    split
    · rename_i hlt
      refine List.pairwise_cons.mpr ⟨?_, h⟩
      intro a ha
      rcases List.mem_cons.mp ha with rfl | ha
      · exact hlt
      · exact Nat.lt_trans hlt (hfirst a ha)
    · split
      · rename_i heq
        exact List.pairwise_cons.mpr ⟨fun a ha => heq ▸ hfirst a ha, hrest⟩
      · refine List.pairwise_cons.mpr ⟨?_, ih hrest⟩
        intro a ha
        rcases mem_addresses_insertEntry ha with rfl | ha
        · exact Nat.lt_of_le_of_ne (Nat.not_lt.mp ‹_›) (Ne.symm ‹_›)
        · exact hfirst a ha

lemma Ordered.insert (h : t.Ordered) : (t.insert address fb).Ordered := pairwise_insertEntry h

/-- An address has at most one entry. -/
lemma Ordered.mem_iff (h : t.Ordered) :
    (address, fb) ∈ t.entries ↔ t.find? address = some fb := by
  obtain ⟨entries⟩ := t
  simp only [Ordered, find?] at h ⊢
  induction entries with
  | nil => simp
  | cons entry rest ih =>
    obtain ⟨a, f⟩ := entry
    obtain ⟨hfirst, hrest⟩ := List.pairwise_cons.mp h
    rw [lookup_entry, List.mem_cons, ih hrest]
    by_cases ha : address = a
    · subst ha
      rw [if_pos rfl]
      constructor
      · rintro (heq | hfind)
        · rw [(Prod.mk.inj heq).2]
        · have hmem := List.mem_map_of_mem (f := (·.1)) ((ih hrest).mpr hfind)
          exact absurd (hfirst _ hmem) (Nat.lt_irrefl _)
      · intro heq
        exact .inl (Prod.ext rfl (Option.some.inj heq).symm)
    · rw [if_neg ha]
      constructor
      · rintro (heq | hfind)
        · exact absurd (Prod.mk.inj heq).1 ha
        · exact hfind
      · exact .inr

end Entries

/-- The entries of a table agree with the formats asked for. -/
structure Tracks (t : FramebufferTable) (formats : Nat → List ImageFormat) : Prop where
  ordered : t.Ordered
  sound : t.Sound
  absent : ∀ address, t.find? address = none → formats address = []
  present : ∀ address fb, t.find? address = some fb →
    fb.Answers (formats address) ∧ fb.Settled

namespace Tracks

variable {t t' : FramebufferTable} {formats formats' : Nat → List ImageFormat} {address : Nat}
  {fb : Framebuffer}

lemma empty : FramebufferTable.empty.Tracks fun _ => [] where
  ordered := List.Pairwise.nil
  sound := .empty
  absent _ _ := rfl
  present _ _ h := by cases h

/-- One entry is put in place, and the others stay. -/
lemma insert (h : t.Tracks formats) (hsound : (t.insert address fb).Sound)
    (hother : ∀ a, a ≠ address → formats' a = formats a)
    (hanswers : fb.Answers (formats' address)) (hsettled : fb.Settled) :
    (t.insert address fb).Tracks formats' where
  ordered := h.ordered.insert
  sound := hsound
  absent a hfind := by
    by_cases ha : a = address
    · subst ha
      cases find?_insert_self.symm.trans hfind
    · rw [find?_insert_of_ne ha] at hfind
      rw [hother a ha]
      exact h.absent a hfind
  present a fb' hfind := by
    by_cases ha : a = address
    · subst ha
      cases find?_insert_self.symm.trans hfind
      exact ⟨hanswers, hsettled⟩
    · rw [find?_insert_of_ne ha] at hfind
      rw [hother a ha]
      exact h.present a fb' hfind

/-- An entry is changed, but not its format. -/
lemma modify (h : t.Tracks formats) {f : Framebuffer → Framebuffer}
    (hsound : (t.modify address f).Sound)
    (hkeeps : ∀ fb formats, fb.Answers formats → fb.Settled →
      (f fb).Answers formats ∧ (f fb).Settled) :
    (t.modify address f).Tracks formats := by
  cases hfind : t.find? address with
  | none =>
    rw [modify_of_find?_eq_none hfind]
    exact h
  | some fb =>
    obtain ⟨hanswers, hsettled⟩ := h.present address fb hfind
    rw [modify_of_find?_eq_some hfind] at hsound ⊢
    exact h.insert hsound (fun _ _ => rfl) (hkeeps fb _ hanswers hsettled).1
      (hkeeps fb _ hanswers hsettled).2

/-- A format that is asked for is answered, by a new framebuffer or the one that is there. -/
lemma requested (h : t.Tracks formats) {f : ImageFormat} :
    (t.requested address f.size f.width f.height).Answers (formats address ++ [f]) ∧
      (t.requested address f.size f.width f.height).Settled := by
  rw [FramebufferTable.requested]
  cases hfind : t.find? address with
  | none =>
    rw [h.absent address hfind]
    exact ⟨.new, .new⟩
  | some fb =>
    obtain ⟨hanswers, hsettled⟩ := h.present address fb hfind
    exact ⟨hanswers.withFormat, hsettled.withFormat⟩

/-- A request leaves the entries in agreement with the formats asked for. -/
lemma act (h : t.Tracks formats) {request : Request}
    (hact : (t.act request).outcome = .ok t') :
    t'.Tracks fun address => asks address (formats address) request := by
  cases request with
  | get a f =>
    simp only [FramebufferTable.act, Traced.bind_eq_ok, Traced.pure_eq_ok] at hact
    obtain ⟨⟨fb, t''⟩, hget, rfl⟩ := hact
    have hsound := h.sound.get hget
    obtain ⟨rfl, rfl⟩ := get_eq_ok hget
    refine h.insert hsound (fun a' ha => ?_) ?_ h.requested.2
    · simp only [asks, if_neg (Ne.symm ha)]
    · simp only [asks, if_true]
      exact h.requested.1
  | format a f =>
    simp only [FramebufferTable.act] at hact
    cases hfind : t.find? a with
    | none =>
      simp only [hfind] at hact
      obtain rfl := Traced.pure_eq_ok.mp hact
      have hnone : ∀ address, asks address (formats address) (.format a f) = formats address := by
        intro address
        simp only [asks]
        rw [if_neg]
        rintro ⟨rfl, hne⟩
        exact hne (h.absent a hfind)
      simpa only [hnone] using h
    | some fb =>
      simp only [hfind, Traced.bind_eq_ok, Traced.pure_eq_ok, Framebuffer.reformat_eq_ok] at hact
      obtain ⟨_, rfl, rfl⟩ := hact
      obtain ⟨haddress, hremembers⟩ := h.sound a fb hfind
      obtain ⟨hanswers, hsettled⟩ := h.present a fb hfind
      have hne : formats a ≠ [] := by
        intro hnil
        rw [hnil] at hanswers
        obtain ⟨_, hlast, -⟩ := hanswers
        cases hlast
      refine h.insert ?_ (fun a' ha => ?_) ?_ hsettled.withFormat
      · exact h.sound.insert (Framebuffer.address_withFormat.trans haddress) hremembers.withFormat
      · simp only [asks]
        rw [if_neg fun hand => ha hand.1.symm]
      · simp only [asks, ne_eq, hne, not_false_eq_true, and_self, if_true]
        exact hanswers.withFormat
  | recordWrite a type rect stamp =>
    obtain rfl := Traced.pure_eq_ok.mp hact
    exact h.modify h.sound.recordWrite fun fb formats hanswers hsettled =>
      ⟨hanswers.congr rfl rfl rfl, hsettled.recordWrite⟩
  | check a ram =>
    simp only [FramebufferTable.act, Traced.bind_eq_ok, Traced.pure_eq_ok] at hact
    obtain ⟨⟨change, t''⟩, hcheck, rfl⟩ := hact
    have hsound := h.sound.check hcheck
    rcases check_eq_ok hcheck with ⟨fb, fb', hfind, hfound, rfl⟩ | ⟨-, rfl⟩
    · obtain ⟨hanswers, hsettled⟩ := h.present a fb hfind
      exact h.insert hsound (fun _ _ => rfl) (hanswers.check hfound) (hsettled.check hfound)
    · exact h
  | blend a blendable =>
    obtain rfl := Traced.pure_eq_ok.mp hact
    refine h.modify (h.sound.modify ?_) fun fb formats hanswers hsettled =>
      ⟨hanswers.congr rfl rfl rfl, hsettled.unread, hsettled.stride⟩
    intro fb hfb
    exact ⟨rfl, hfb.checksum, hfb.unseen, hfb.formatChanged, hfb.readHeight, hfb.size_le⟩
  | reset =>
    simp only [FramebufferTable.act, reset, Traced.bind_eq_ok, Traced.pure_eq_ok] at hact
    obtain ⟨_, -, rfl⟩ := hact
    exact .empty

/-- All requests leave the entries in agreement with the formats asked for. -/
lemma run (requests : List Request) (h : t.Tracks formats)
    (hrun : (requests.foldlM FramebufferTable.act t).outcome = .ok t') :
    t'.Tracks fun address => requests.foldl (asks address) (formats address) := by
  induction requests generalizing t formats with
  | nil =>
    rw [List.foldlM_nil, Traced.pure_eq_ok] at hrun
    exact hrun ▸ h
  | cons request requests ih =>
    rw [List.foldlM_cons, Traced.bind_eq_ok] at hrun
    obtain ⟨next, hact, hrun⟩ := hrun
    exact ih (h.act hact) hrun

end Tracks

variable {t : FramebufferTable}

/-- After any requests an address has an entry exactly if it was asked for since the last reset, and
then only one. The entry stands at its own address, is in the format asked for last, and as high as
was asked for at most since the pixel size or the width last changed. As long as its memory was not
read it remembers nothing of it. Afterwards its format is the one it was read in, and it remembers
the checksum of the bytes, no more than its rows hold, and the number of whole rows among them. -/
theorem entries_consistent {requests : List Request} (h : run requests = .ok t) :
    (t.entries.map (·.1)).Pairwise (· < ·) ∧
    (∀ address, address ∈ t.entries.map (·.1) ↔ asked address requests ≠ []) ∧
    ∀ address fb, (address, fb) ∈ t.entries →
      fb.address = address ∧ fb.Answers (asked address requests) ∧
      (fb.checksum = none → fb.memory = ByteArray.empty ∧ fb.readHeight = 0) ∧
      ∀ c, fb.checksum = some c →
        fb.formatChanged = false ∧ c = Checksum.crc32 fb.memory ∧
        ∃ stride, fb.stride = .ok stride ∧ fb.memory.size ≤ stride * fb.height ∧
          fb.readHeight = fb.memory.size / stride := by
  have htracks : t.Tracks fun address => asked address requests := Tracks.empty.run requests h
  refine ⟨htracks.ordered, ?_, ?_⟩
  · intro address
    constructor
    · intro hmem hnil
      obtain ⟨⟨a, fb⟩, hentry, rfl⟩ := List.mem_map.mp hmem
      obtain ⟨_, hlast, -⟩ := (htracks.present a fb (htracks.ordered.mem_iff.mp hentry)).1
      rw [show asked a requests = [] from hnil] at hlast
      cases hlast
    · intro hne
      cases hfind : t.find? address with
      | none => exact absurd (htracks.absent address hfind) hne
      | some fb => exact List.mem_map_of_mem (htracks.ordered.mem_iff.mpr hfind)
  · intro address fb hmem
    have hfind := htracks.ordered.mem_iff.mp hmem
    obtain ⟨haddress, hremembers⟩ := htracks.sound address fb hfind
    obtain ⟨hanswers, hsettled⟩ := htracks.present address fb hfind
    refine ⟨haddress, hanswers, ?_, ?_⟩
    · intro hnone
      exact ⟨ByteArray.size_eq_zero_iff.mp (hremembers.unseen hnone), hsettled.unread hnone⟩
    · intro c hc
      obtain ⟨stride, hstride⟩ := hsettled.stride (by rw [hc]; rfl)
      refine ⟨?_, hremembers.checksum c hc, stride, hstride, hremembers.size_le stride hstride,
        hremembers.readHeight stride hstride⟩
      by_contra hchanged
      cases hc.symm.trans (hremembers.formatChanged (by simpa using hchanged))

/-- An image is read, grows, changes its pixels, shrinks and is read again, beside another one. -/
def reread : List Request :=
  [.get 0 ⟨.bits8, 2, 1⟩, .check 0 ⟨#[1, 2, 3, 4, 5]⟩, .format 0 ⟨.bits8, 2, 3⟩,
    .recordWrite 0 .depth ⟨0, 0, 2, 1⟩ 1, .get 4 ⟨.bits8, 1, 1⟩, .format 8 ⟨.bits8, 1, 1⟩,
    .get 0 ⟨.bits16, 1, 2⟩, .blend 0 false, .format 0 ⟨.bits16, 1, 1⟩,
    .check 0 ⟨#[1, 2, 3, 4, 5]⟩]

/-- The image keeps the two rows that it was asked for in its last pixels. -/
theorem reread_image_consistent :
    ∃ t fb c, run reread = .ok t ∧ (0, fb) ∈ t.entries ∧ fb.address = 0 ∧
      fb.Answers [⟨.bits8, 2, 1⟩, ⟨.bits8, 2, 3⟩, ⟨.bits16, 1, 2⟩, ⟨.bits16, 1, 1⟩] ∧
      fb.height = 2 ∧ fb.memory = ⟨#[1, 2, 3, 4]⟩ ∧ fb.checksum = some c ∧
      fb.formatChanged = false ∧ c = Checksum.crc32 fb.memory ∧
      ∃ stride, fb.stride = .ok stride ∧ fb.memory.size ≤ stride * fb.height ∧
        fb.readHeight = fb.memory.size / stride := by
  have hread : (run reread).toOption.bind (fun t => (t.find? 0).map fun fb =>
      (fb.height, fb.memory, fb.checksum.isSome)) = some (2, ⟨#[1, 2, 3, 4]⟩, true) := by
    decide +kernel
  cases hrun : run reread with
  | ok t =>
    obtain ⟨hordered, hpresent, hentry⟩ := entries_consistent hrun
    obtain ⟨⟨_, fb⟩, hmem, rfl⟩ := List.mem_map.mp ((hpresent 0).mpr (by decide))
    obtain ⟨haddress, hanswers, -, hseen⟩ := hentry 0 fb hmem
    have hfind : t.find? 0 = some fb := (Ordered.mem_iff hordered).mp hmem
    simp only [hrun, Except.toOption, Option.bind_some, hfind, Option.map_some, Option.some.injEq,
      Prod.mk.injEq, Option.isSome_iff_exists] at hread
    obtain ⟨hheight, hmemory, c, hc⟩ := hread
    exact ⟨t, fb, c, rfl, hmem, haddress, hanswers, hheight, hmemory, hc, hseen c hc⟩
  | error fault =>
    rw [hrun] at hread
    cases hread

end FramebufferTable

end Scanout
