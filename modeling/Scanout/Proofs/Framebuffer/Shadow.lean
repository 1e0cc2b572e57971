import Scanout.Proofs.Framebuffer.Check

/-!
# Shadows of framebuffers

Whoever copies the rows that the checks of a framebuffer hand out has the image: after each check
the copies show every whole row of memory. Rows that were not handed out again were handed out
before, and are the same still.

The rectangle of a change holds the numbers of its rows as signed words. Read as words they are
these numbers again, whatever the image. As they stand they are so for all images of less than half
a word of rows, while of a longer image the last edge may come before all rows.
-/

namespace Scanout

/-- The bytes of an image by row and column, as far as they are known. -/
def Shadow := Nat → Nat → Option UInt8

namespace Shadow

def blank : Shadow := fun _ _ => none

/-- Copy the rows from `first` to before `last`, of which `data` holds the bytes. -/
def copyRows (shadow : Shadow) (data : ByteArray) (stride first last : Nat) : Shadow :=
  fun row column =>
    if first ≤ row ∧ row < last ∧ column < stride then data[(row - first) * stride + column]?
    else shadow row column

/-- Copy the rows of a change, those between the edges of its rectangle as `edge` reads them. -/
def paste (edge : Int → Nat) (shadow : Shadow) (change : MemoryChange) (stride : Nat) : Shadow :=
  shadow.copyRows change.data stride (edge change.rect.top) (edge change.rect.bottom)

/-- Copy the rows of a change, if there is one. -/
def take (edge : Int → Nat) (shadow : Shadow) : Option MemoryChange → Except Fault Shadow
  | some change => return shadow.paste edge change (← change.size.bytesFor change.width)
  | none => return shadow

/-- All whole rows of these bytes are known. -/
def Shows (shadow : Shadow) (bytes : ByteArray) (stride : Nat) : Prop :=
  ∀ row < bytes.size / stride, ∀ column < stride,
    shadow row column = bytes[row * stride + column]?

end Shadow

namespace Framebuffer

/-- What is asked of a framebuffer. -/
inductive Request where
  | format (size : PixelSize) (width height : Nat)
  | forget
  | recordWrite (type : WriteType) (rect : Rect) (stamp : Nat)
  | check (ram : ByteArray)

/-- If this is a check, the condition holds of the memory to check. -/
def Request.meets (condition : ByteArray → Bool) : Request → Bool
  | .check ram => condition ram
  | _ => true

/-- A framebuffer, and the copies of the rows that it handed out. -/
structure Shadowed where
  fb : Framebuffer
  shadow : Shadow

/-- The addresses of the image are words. -/
def addressable (fb : Framebuffer) (_ : ByteArray) : Bool := fb.endAddress.isOk

/-- The checksum tells the bytes in `ram` from those last seen. -/
def comparable (fb : Framebuffer) (ram : ByteArray) : Bool :=
  match fb.region ram with
  | .ok region =>
    region.size = fb.memory.size → Checksum.crc32 region = Checksum.crc32 fb.memory →
      region = fb.memory
  | .error _ => true

/-- The numbers of the rows of the image in `ram` fit a signed word. -/
def rowsFit (fb : Framebuffer) (ram : ByteArray) : Bool :=
  match fb.region ram, fb.stride with
  | .ok region, .ok stride => region.size / stride < 0x80000000
  | _, _ => true

namespace Shadowed

def new (address : Nat) (size : PixelSize) (width height : Nat) : Shadowed :=
  ⟨.new address size width height, .blank⟩

/-- Answer a request. The copies are given up when the framebuffer forgets its memory. -/
def act (edge : Int → Nat) (v : Shadowed) : Request → Except Fault Shadowed
  | .format size width height => do
    let fb ← (v.fb.reformat size width height).outcome
    return ⟨fb, if v.fb.differs size width then .blank else v.shadow⟩
  | .forget => return ⟨v.fb.forget, .blank⟩
  | .recordWrite type rect stamp => return ⟨v.fb.recordWrite type rect stamp, v.shadow⟩
  | .check ram => do
    let (change, fb) ← (v.fb.check ram).outcome
    return ⟨fb, ← v.shadow.take edge change⟩

/-- Answer several requests. -/
def run (edge : Int → Nat) (v : Shadowed) (requests : List Request) : Except Fault Shadowed :=
  requests.foldlM (act edge) v

/-- The condition holds at each check among the requests, when its turn comes. -/
def atChecks (condition : Framebuffer → ByteArray → Bool) (v : Shadowed) : List Request → Bool
  | [] => true
  | request :: rest =>
    request.meets (condition v.fb) &&
      match v.act wrap32 request with
      | .ok v => v.atChecks condition rest
      | .error _ => true

end Shadowed

end Framebuffer

section Paste

variable {shadow : Shadow} {fb : Framebuffer} {ram region : ByteArray} {stride first last : Nat}

lemma Shadow.paste_changeOf {edge : Int → Nat} (hfirst : edge (wrapSigned32 first) = first)
    (hlast : edge (wrapSigned32 last) = last) (stride' : Nat) :
    shadow.paste edge (fb.changeOf region stride first last) stride' =
      shadow.copyRows (region.extract (first * stride) (last * stride)) stride' first last := by
  rw [paste, Framebuffer.changeOf, hfirst, hlast]

/-- The rows that are copied are those of the image, and the others stay as they were. -/
lemma Shadow.copyRows_extract {row column : Nat} (hcolumn : column < stride) :
    shadow.copyRows (region.extract (first * stride) (last * stride)) stride first last row column =
      if first ≤ row ∧ row < last then region[row * stride + column]? else shadow row column := by
  rw [copyRows]
  by_cases hin : first ≤ row ∧ row < last
  · have hrows : first * stride + (row - first) * stride = row * stride := by
      rw [← Nat.add_mul, Nat.add_sub_cancel' hin.1]
    have hplace : first * stride + ((row - first) * stride + column) = row * stride + column := by
      rw [← Nat.add_assoc, hrows]
    have hlast : row * stride + column < last * stride := Framebuffer.place_lt hin.2 hcolumn
    rw [if_pos ⟨hin.1, hin.2, hcolumn⟩, if_pos hin, getElem?_extract (hplace ▸ hlast), hplace]
  · rw [if_neg hin, if_neg]
    rintro ⟨hfirst, hlast, -⟩
    exact hin ⟨hfirst, hlast⟩

lemma Shadow.copyRows_zero {data : ByteArray} : shadow.copyRows data stride first 0 = shadow := by
  funext row column
  exact if_neg fun h => Nat.not_lt_zero row h.2.1

/-- The copies show the rows that are handed out, and the others as before. -/
lemma Shadow.Shows.take {shadow' : Shadow} (hregion : fb.region ram = .ok region)
    (hstride : fb.stride = .ok stride)
    (hshows : fb.mustRead region = false → shadow.Shows fb.memory stride)
    (htake : shadow.take wrap32 (fb.changeFor region stride) = .ok shadow') :
    shadow'.Shows region stride := by
  intro row hrow column hcolumn
  cases hchange : fb.changeFor region stride with
  | none =>
    rw [Framebuffer.changeFor_eq_none_iff.mp hchange] at hrow
    exact absurd hrow (Nat.not_lt_zero row)
  | some change =>
    obtain ⟨first, last, hspan, rfl, -, hlt, hle⟩ := Framebuffer.exists_of_changeFor hchange
    have hword : last < 0x100000000 := Nat.lt_of_le_of_lt hle (Framebuffer.rows_lt hregion)
    rw [hchange, Shadow.take, Except.bind_eq_ok_iff] at htake
    obtain ⟨stride', hstride', htake⟩ := htake
    cases hstride.symm.trans hstride'
    rw [← Except.ok.inj htake, paste_changeOf (wrap32_wrapSigned32 (Nat.lt_trans hlt hword))
      (wrap32_wrapSigned32 hword), copyRows_extract hcolumn]
    by_cases hin : first ≤ row ∧ row < last
    · rw [if_pos hin]
    · -- a row outside of the span is known, and the same still
      obtain ⟨hread, hsame⟩ :=
        Framebuffer.same_of_not_mem_span hrow (by rw [hspan]; exact hin)
      obtain ⟨-, -, hsize⟩ := Framebuffer.mustRead_eq_false_iff.mp hread
      rw [if_neg hin, hsame column hcolumn]
      exact hshows hread row (hsize ▸ hrow) column hcolumn

lemma Shadow.exists_take {edge : Int → Nat} (hstride : fb.stride = .ok stride) :
    ∃ shadow', shadow.take edge (fb.changeFor region stride) = .ok shadow' := by
  rw [Framebuffer.changeFor]
  split
  · exact ⟨shadow, rfl⟩
  · exact ⟨_, Except.bind_eq_ok_iff.mpr ⟨stride, hstride, rfl⟩⟩

/-- Edges that fit a signed word are the numbers of the rows as they stand. -/
lemma Shadow.paste_toNat (hfirst : first < 0x80000000) (hlast : last < 0x80000000) :
    shadow.paste Int.toNat (fb.changeOf region stride first last) =
      shadow.paste wrap32 (fb.changeOf region stride first last) := by
  funext stride'
  rw [paste, paste, Framebuffer.changeOf, toNat_wrapSigned32 hfirst, toNat_wrapSigned32 hlast]

/-- As it stands, an edge that does not fit a signed word is below all rows, and none is copied. -/
lemma Shadow.paste_toNat_of_le (hlast : 0x80000000 ≤ last) (hword : last < 0x100000000)
    (stride' : Nat) :
    shadow.paste Int.toNat (fb.changeOf region stride first last) stride' = shadow := by
  have hbottom : (wrapSigned32 last).toNat = 0 := by
    rw [wrapSigned32_of_word hword, if_neg (Nat.not_lt.mpr hlast)]
    omega
  rw [paste, Framebuffer.changeOf, hbottom, copyRows_zero]

lemma Shadow.take_toNat (hrows : region.size / stride < 0x80000000) :
    shadow.take Int.toNat (fb.changeFor region stride) =
      shadow.take wrap32 (fb.changeFor region stride) := by
  cases hchange : fb.changeFor region stride with
  | none => rfl
  | some change =>
    obtain ⟨first, last, -, rfl, -, hlt, hle⟩ := Framebuffer.exists_of_changeFor hchange
    have hlast : last < 0x80000000 := Nat.lt_of_le_of_lt hle hrows
    rw [Shadow.take, Shadow.take, paste_toNat (Nat.lt_trans hlt hlast) hlast]

end Paste

namespace Framebuffer

lemma exists_region_of_addressable {fb : Framebuffer} {ram : ByteArray}
    (h : fb.addressable ram = true) : ∃ region, fb.region ram = .ok region := by
  cases hstop : fb.endAddress with
  | error fault =>
    rw [addressable, hstop] at h
    cases h
  | ok stop => exact ⟨_, region_eq_ok.mpr ⟨stop, hstop, rfl⟩⟩

namespace Shadowed

variable {v v' : Shadowed} {ram : ByteArray} {requests : List Request}

/-- The copies show what the framebuffer remembers. -/
structure Faithful (v : Shadowed) : Prop where
  remembers : v.fb.Remembers
  shows : ∀ stride, v.fb.stride = .ok stride → v.fb.checksum.isSome = true →
    v.shadow.Shows v.fb.memory stride

lemma Faithful.new {address width height : Nat} {size : PixelSize} :
    (new address size width height).Faithful where
  remembers := .new
  shows _ _ h := by cases h

/-- A request is answered, unless an address of the image to check is no word. -/
lemma exists_act {request : Request} (hmeets : request.meets v.fb.addressable = true) :
    ∃ v', v.act wrap32 request = .ok v' := by
  cases request with
  | format size width height =>
    exact ⟨_, Except.bind_eq_ok_iff.mpr ⟨_, reformat_eq_ok.mpr rfl, rfl⟩⟩
  | forget => exact ⟨_, rfl⟩
  | recordWrite type rect stamp => exact ⟨_, rfl⟩
  | check ram =>
    obtain ⟨region, hregion⟩ := exists_region_of_addressable hmeets
    obtain ⟨change, fb, hcheck⟩ := exists_check hregion
    have htake : ∃ shadow, v.shadow.take wrap32 change = .ok shadow := by
      obtain ⟨region, stride, -, hstride, ⟨-, rfl, -⟩ | ⟨-, rfl, -⟩⟩ := check_eq_ok hcheck
      · exact ⟨v.shadow, rfl⟩
      · exact Shadow.exists_take hstride
    obtain ⟨shadow, htake⟩ := htake
    simp only [act, Except.bind_eq_ok_iff]
    exact ⟨⟨fb, shadow⟩, (change, fb), hcheck, shadow, htake, rfl⟩

lemma exists_run (haddressable : v.atChecks addressable requests = true) :
    ∃ v', v.run wrap32 requests = .ok v' := by
  induction requests generalizing v with
  | nil => exact ⟨v, rfl⟩
  | cons request rest ih =>
    rw [atChecks, Bool.and_eq_true] at haddressable
    obtain ⟨v', hact⟩ := exists_act haddressable.1
    rw [hact] at haddressable
    obtain ⟨v'', hrun⟩ := ih haddressable.2
    exact ⟨v'', by rw [run, List.foldlM_cons, hact]; exact hrun⟩

/-- A check leaves the bytes in `ram` as those last seen, and the copies show them. -/
lemma Faithful.check (h : v.Faithful) (hram : v.fb.comparable ram = true)
    (hact : v.act wrap32 (.check ram) = .ok v') :
    v'.Faithful ∧ v'.fb.checksum.isSome = true ∧ v'.fb.region ram = .ok v'.fb.memory := by
  simp only [act, Except.bind_eq_ok_iff] at hact
  obtain ⟨⟨change, fb⟩, hcheck, shadow, htake, hact⟩ := hact
  cases hact
  have hremembers := h.remembers.check hcheck
  obtain ⟨region, stride, hregion, hstride, ⟨hrecognizes, rfl, rfl⟩ | ⟨-, rfl, rfl⟩⟩ :=
    check_eq_ok hcheck
  · cases htake
    obtain ⟨hread, hchecksum⟩ := hrecognizes
    obtain ⟨-, hsome, hsize⟩ := mustRead_eq_false_iff.mp hread
    simp only [comparable, hregion, decide_eq_true_iff] at hram
    have hsame : region = v.fb.memory :=
      hram hsize.symm (h.remembers.checksum _ hchecksum)
    exact ⟨h, hsome, hsame ▸ hregion⟩
  · refine ⟨⟨hremembers, ?_⟩, rfl, hregion⟩
    intro stride' hstride' _
    cases hstride.symm.trans hstride'
    apply Shadow.Shows.take hregion hstride ?_ htake
    intro hread
    exact h.shows stride hstride (mustRead_eq_false_iff.mp hread).2.1

/-- No request leaves the copies behind what the framebuffer remembers. -/
lemma Faithful.act (h : v.Faithful) {request : Request}
    (hmeets : request.meets v.fb.comparable = true) (hact : v.act wrap32 request = .ok v') :
    v'.Faithful := by
  cases request with
  | format size width height =>
    simp only [Shadowed.act, Except.bind_eq_ok_iff, reformat_eq_ok] at hact
    obtain ⟨_, rfl, hact⟩ := hact
    cases hact
    refine ⟨h.remembers.withFormat, ?_⟩
    by_cases hdiffers : v.fb.differs size width = true
    · intro stride _ hsome
      simp [withFormat, hdiffers, Framebuffer.forget] at hsome
    · simp only [withFormat, hdiffers]
      exact h.shows
  | forget =>
    cases hact
    refine ⟨.forget, ?_⟩
    intro _ _ hsome
    cases hsome
  | recordWrite type rect stamp =>
    cases hact
    exact ⟨h.remembers.recordWrite, h.shows⟩
  | check ram => exact (h.check hmeets hact).1

lemma Faithful.run {rest : List Request} (h : v.Faithful)
    (hcomparable : v.atChecks comparable (requests ++ rest) = true)
    (hrun : v.run wrap32 requests = .ok v') :
    v'.Faithful ∧ v'.atChecks comparable rest = true := by
  induction requests generalizing v with
  | nil =>
    cases hrun
    exact ⟨h, hcomparable⟩
  | cons request requests ih =>
    rw [Shadowed.run, List.foldlM_cons, Except.bind_eq_ok_iff] at hrun
    obtain ⟨v'', hact, hrun⟩ := hrun
    rw [List.cons_append, atChecks, hact, Bool.and_eq_true] at hcomparable
    exact ih (h.act hcomparable.1 hact) hcomparable.2 hrun

/-- A check of rows that fit is answered alike, whichever way the edges are read. -/
lemma act_toNat {request : Request} (hmeets : request.meets v.fb.rowsFit = true) :
    v.act Int.toNat request = v.act wrap32 request := by
  cases request with
  | check ram =>
    rw [act, act]
    cases hcheck : (v.fb.check ram).outcome with
    | error fault => rfl
    | ok found =>
      obtain ⟨change, fb⟩ := found
      obtain ⟨region, stride, hregion, hstride, ⟨-, rfl, rfl⟩ | ⟨-, rfl, rfl⟩⟩ :=
        check_eq_ok hcheck
      · rfl
      · simp only [Request.meets, rowsFit, hregion, hstride, decide_eq_true_iff] at hmeets
        have htake : v.shadow.take Int.toNat (v.fb.changeFor region stride) =
            v.shadow.take wrap32 (v.fb.changeFor region stride) := Shadow.take_toNat hmeets
        exact congrArg (fun shadow : Except Fault Shadow => do
          return (⟨v.fb.seeing region stride, ← shadow⟩ : Shadowed)) htake
  | _ => rfl

lemma run_toNat (hfit : v.atChecks rowsFit requests = true) :
    v.run Int.toNat requests = v.run wrap32 requests := by
  induction requests generalizing v with
  | nil => rfl
  | cons request rest ih =>
    rw [atChecks, Bool.and_eq_true] at hfit
    rw [run, run, List.foldlM_cons, List.foldlM_cons, act_toNat hfit.1]
    cases hact : v.act wrap32 request with
    | error fault => rfl
    | ok v' =>
      rw [hact] at hfit
      exact ih hfit.2

/-- As long as the addresses are words and the checksum tells apart what is compared, requests are
answered, and after a check the copies show every whole row of the image in `ram`, whatever was
asked of the framebuffer before. The edges of the changes are read as words for that. They need not
be while the numbers of the rows fit a signed word. -/
theorem copies_show_memory {address width height : Nat} {size : PixelSize}
    (haddressable :
      (new address size width height).atChecks addressable (requests ++ [.check ram]) = true)
    (hcomparable :
      (new address size width height).atChecks comparable (requests ++ [.check ram]) = true) :
    ∃ v, (new address size width height).run wrap32 (requests ++ [.check ram]) = .ok v ∧
      (∃ region stride, v.fb.region ram = .ok region ∧ v.fb.stride = .ok stride ∧
        v.fb.readHeight = region.size / stride ∧
        ∀ row < v.fb.readHeight, ∀ column < stride, row * stride + column < region.size ∧
          v.shadow row column = region[row * stride + column]?) ∧
      ((new address size width height).atChecks rowsFit (requests ++ [.check ram]) = true →
        (new address size width height).run Int.toNat (requests ++ [.check ram]) = .ok v) := by
  obtain ⟨v, hrun⟩ := exists_run haddressable
  refine ⟨v, hrun, ?_, fun hfit => (run_toNat hfit).trans hrun⟩
  rw [run, List.foldlM_append, Except.bind_eq_ok_iff] at hrun
  obtain ⟨v', hrun, hcheck⟩ := hrun
  rw [List.foldlM_cons, Except.bind_eq_ok_iff] at hcheck
  obtain ⟨v'', hact, hcheck⟩ := hcheck
  cases hcheck
  obtain ⟨hfaithful, hcomparable⟩ := Faithful.new.run hcomparable hrun
  rw [atChecks, Bool.and_eq_true] at hcomparable
  obtain ⟨h, hsome, hregion⟩ := hfaithful.check hcomparable.1 hact
  obtain ⟨stride, hstride⟩ := exists_stride hregion
  have hheight := h.remembers.readHeight stride hstride
  refine ⟨v.fb.memory, stride, hregion, hstride, hheight, ?_⟩
  intro row hrow column hcolumn
  rw [hheight] at hrow
  exact ⟨Nat.lt_of_lt_of_le (place_lt hrow hcolumn) (Nat.div_mul_le_self _ _),
    h.shows stride hstride hsome row hrow column hcolumn⟩

/-- An image of two columns grows by a row, and then memory does. -/
def growing : List Request :=
  [.check ⟨#[1, 2, 3]⟩, .format .bits8 2 2, .recordWrite .color ⟨0, 0, 2, 1⟩ 1,
    .check ⟨#[1, 2, 3]⟩, .check ⟨#[1, 2, 3, 4, 5]⟩]

theorem growing_image_copied :
    ∃ v, (new 0 .bits8 2 1).run wrap32 (growing ++ [.check ⟨#[1, 2, 9, 4, 5]⟩]) = .ok v ∧
      (new 0 .bits8 2 1).run Int.toNat (growing ++ [.check ⟨#[1, 2, 9, 4, 5]⟩]) = .ok v ∧
      ∃ region stride, v.fb.region ⟨#[1, 2, 9, 4, 5]⟩ = .ok region ∧ v.fb.stride = .ok stride ∧
        v.fb.readHeight = region.size / stride ∧
        ∀ row < v.fb.readHeight, ∀ column < stride, row * stride + column < region.size ∧
          v.shadow row column = region[row * stride + column]? := by
  have haddressable : (new 0 .bits8 2 1).atChecks addressable
      (growing ++ [.check ⟨#[1, 2, 9, 4, 5]⟩]) = true := by
    decide +kernel
  obtain ⟨v, hrun, hshows, hsigned⟩ := copies_show_memory haddressable (by decide +kernel)
  exact ⟨v, hrun, hsigned (by decide +kernel), hshows⟩

end Shadowed

end Framebuffer

end Scanout
