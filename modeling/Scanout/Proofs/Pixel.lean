import Mathlib.Tactic.Ring
import Scanout.Framebuffer.Basic
import Scanout.Proofs.Fault

/-!
# Images in rows

An image is decoded from one run of pixels, whereas each row of a framebuffer begins with a whole
byte. The two are the same unless rows of half-bytes end within a byte. Then every row but the first
is decoded from before it begins.
-/

namespace Scanout

namespace Bits

variable {bytes : ByteArray} {b : UInt8} {start count i : Nat}

/-- Bit `i` of a run of bytes, the highest bit of a byte first. -/
def bit (bytes : ByteArray) (i : Nat) : Bool :=
  match bytes[i / 8]? with
  | some b => b.toNat.testBit (7 - i % 8)
  | none => false

/-- The number that `count` bits from bit `start` on make, the first one highest. -/
def number (bytes : ByteArray) (start : Nat) : Nat → Nat
  | 0 => 0
  | count + 1 => 2 * number bytes start count + (bit bytes (start + count)).toNat

/-- The number that some bits make, if all their bytes are there. -/
def number? (bytes : ByteArray) (start count : Nat) : Option Nat :=
  if start + count ≤ 8 * bytes.size then some (number bytes start count) else none

/-- Further bits are appended to the number. -/
lemma number_add (more : Nat) : number bytes start (count + more) =
    number bytes start count * 2 ^ more + number bytes (start + count) more := by
  induction more with
  | zero => simp [number]
  | succ more ih =>
    rw [← Nat.add_assoc, number, ih, number, Nat.add_assoc]
    ring

/-- The first bits of a byte are the byte without its other bits. -/
lemma number_of_byte (hb : bytes[i]? = some b) (hcount : count ≤ 8) :
    number bytes (8 * i) count = b.toNat / 2 ^ (8 - count) := by
  induction count with
  | zero => exact (Nat.div_eq_of_lt b.toNat_lt).symm
  | succ count ih =>
    have hbyte : (8 * i + count) / 8 = i := by omega
    have hplace : 7 - (8 * i + count) % 8 = 7 - count := by omega
    have hpower : 8 - count = (7 - count) + 1 := by omega
    have hrest : 8 - (count + 1) = 7 - count := by omega
    rw [number, ih (by omega), bit, hbyte, hb, hrest, hpower, Nat.pow_succ,
      ← Nat.div_div_eq_div_mul]
    simp only [hplace, Nat.toNat_testBit]
    omega

lemma number_byte (hb : bytes[i]? = some b) : number bytes (8 * i) 8 = b.toNat := by
  rw [number_of_byte hb (Nat.le_refl 8), Nat.sub_self, Nat.pow_zero, Nat.div_one]

lemma number_upper_half (hb : bytes[i]? = some b) : number bytes (8 * i) 4 = b.toNat / 16 :=
  number_of_byte hb (by decide)

lemma number_lower_half (hb : bytes[i]? = some b) : number bytes (8 * i + 4) 4 = b.toNat % 16 := by
  have hbyte : b.toNat = number bytes (8 * i) 4 * 2 ^ 4 + number bytes (8 * i + 4) 4 := by
    rw [← number_add, number_byte hb]
  rw [number_upper_half hb] at hbyte
  omega

/-- Two bytes make a number, the first one higher. -/
lemma number_two_bytes {b' : UInt8} (hb : bytes[i]? = some b) (hb' : bytes[i + 1]? = some b') :
    number bytes (8 * i) 16 = b.toNat * 0x100 + b'.toNat := by
  rw [show 16 = 8 + 8 from rfl, number_add, number_byte hb, ← Nat.mul_succ, number_byte hb']
  rfl

end Bits

namespace PixelSize

open Bits

variable {size : PixelSize} {bytes : ByteArray} {i width stride : Nat}

lemma exists_byte (h : i < bytes.size) : ∃ b, bytes[i]? = some b :=
  ⟨bytes[i], getElem?_pos bytes i h⟩

lemma no_byte (h : ¬i < bytes.size) : bytes[i]? = none := getElem?_neg bytes i h

lemma half_eq_number? : bits4.texel? bytes i = number? bytes (i * 4) 4 := by
  rw [texel?, number?]
  by_cases hsize : i / 2 < bytes.size
  · obtain ⟨b, hb⟩ := exists_byte hsize
    rw [hb, if_pos (by omega)]
    by_cases hfirst : i % 2 = 0
    · have hplace : i * 4 = 8 * (i / 2) := by omega
      rw [hplace, number_upper_half hb]
      exact congrArg some (if_pos hfirst)
    · have hplace : i * 4 = 8 * (i / 2) + 4 := by omega
      rw [hplace, number_lower_half hb]
      exact congrArg some (if_neg hfirst)
  · rw [no_byte hsize, if_neg (by omega)]
    rfl

lemma byte_eq_number? : bits8.texel? bytes i = number? bytes (i * 8) 8 := by
  rw [texel?, number?, Nat.mul_comm]
  by_cases hsize : i < bytes.size
  · obtain ⟨b, hb⟩ := exists_byte hsize
    rw [hb, if_pos (by omega), number_byte hb]
    rfl
  · rw [no_byte hsize, if_neg (by omega)]
    rfl

lemma pair_eq_number? : bits16.texel? bytes i = number? bytes (i * 16) 16 := by
  have hplace : i * 16 = 8 * (2 * i) := by omega
  rw [texel?, number?, hplace]
  by_cases hsize : 2 * i + 1 < bytes.size
  · obtain ⟨b₀, hb₀⟩ := exists_byte (Nat.lt_of_succ_lt hsize)
    obtain ⟨b₁, hb₁⟩ := exists_byte hsize
    rw [hb₀, hb₁, if_pos (by omega), number_two_bytes hb₀ hb₁]
    rfl
  · rw [no_byte hsize, if_neg (by omega)]
    cases bytes[2 * i]? <;> rfl

lemma quad_eq_number? : bits32.texel? bytes i = number? bytes (i * 32) 32 := by
  have hplace : i * 32 = 8 * (4 * i) := by omega
  rw [texel?, number?, hplace]
  by_cases hsize : 4 * i + 3 < bytes.size
  · have hsize₂ : 4 * i + 2 < bytes.size := Nat.lt_of_succ_lt hsize
    have hsize₁ : 4 * i + 1 < bytes.size := Nat.lt_of_succ_lt hsize₂
    obtain ⟨b₀, hb₀⟩ := exists_byte (Nat.lt_of_succ_lt hsize₁)
    obtain ⟨b₁, hb₁⟩ := exists_byte hsize₁
    obtain ⟨b₂, hb₂⟩ := exists_byte hsize₂
    obtain ⟨b₃, hb₃⟩ := exists_byte hsize
    have hnumber : number bytes (8 * (4 * i)) 32 =
        (b₀.toNat * 0x100 + b₁.toNat) * 2 ^ 16 + (b₂.toNat * 0x100 + b₃.toNat) := by
      rw [show 32 = 16 + 16 from rfl, number_add, number_two_bytes hb₀ hb₁,
        show 8 * (4 * i) + 16 = 8 * (4 * i + 2) from rfl, number_two_bytes hb₂ hb₃]
    rw [hb₀, hb₁, hb₂, hb₃, if_pos (by omega), hnumber]
    simp only [Option.bind_eq_bind, Option.bind_some, pure, Option.some.injEq]
    omega
  · rw [no_byte hsize, if_neg (by omega)]
    cases bytes[4 * i]? <;> cases bytes[4 * i + 1]? <;> cases bytes[4 * i + 2]? <;> rfl

/-- A pixel of a run is the number that its bits make. -/
lemma texel?_eq_number? : size.texel? bytes i = number? bytes (i * size.bits) size.bits := by
  cases size with
  | bits4 => exact half_eq_number?
  | bits8 => exact byte_eq_number?
  | bits16 => exact pair_eq_number?
  | bits32 => exact quad_eq_number?

/-- The colour of the pixel that begins at a bit, `0` if some of its bytes are missing. -/
def colourAt (size : PixelSize) (bytes : ByteArray) (start : Nat) : Argb :=
  match number? bytes start size.bits with
  | some texel => size.colour texel
  | none => 0

/-- A row is as long as its pixels, but for half-bytes of an odd number. -/
lemma eight_mul_stride (h : size.bytesFor width = .ok stride) :
    8 * stride = width * size.bits + if size = .bits4 then width % 2 * 4 else 0 := by
  cases size with
  | bits4 =>
    obtain rfl : (width + 1) / 2 = stride := Except.ok.inj h
    rw [if_pos rfl, bits]
    omega
  | bits8 =>
    obtain rfl : width = stride := Except.ok.inj h
    rw [if_neg nofun, Nat.add_zero, bits, Nat.mul_comm]
  | bits16 =>
    obtain ⟨rfl, -⟩ := word32_eq_ok.mp h
    rw [if_neg nofun, Nat.add_zero, bits]
    ring
  | bits32 =>
    obtain ⟨rfl, -⟩ := word32_eq_ok.mp h
    rw [if_neg nofun, Nat.add_zero, bits]
    ring

lemma colour_half_pos (texel : Nat) : 0 < bits4.colour texel := by
  change 0 < 0xFF * 0x1000000 + (texel * 16 + texel) * 0x10000 + (texel * 16 + texel) * 0x100 +
    (texel * 16 + texel)
  omega

/-- Half a byte that is there shows something. -/
lemma colourAt_half_pos {start : Nat} (h : start + 4 ≤ 8 * bytes.size) :
    0 < bits4.colourAt bytes start := by
  rw [colourAt, number?, bits, if_pos h]
  exact colour_half_pos _

lemma colourAt_of_missing {start : Nat} (h : 8 * bytes.size < start + size.bits) :
    size.colourAt bytes start = 0 := by
  rw [colourAt, number?, if_neg (Nat.not_le_of_lt h)]

end PixelSize

namespace Image

open PixelSize (colourAt)

variable {image : Image} {bytes : ByteArray} {size : PixelSize} {width height x y : Nat}
  {shown shown' : Nat → Nat → Argb}

/-- The image has a pixel for each place of its rows, and they have these colours. -/
structure Shows (image : Image) (shown : Nat → Nat → Argb) : Prop where
  count : image.pixels.size = image.width * image.height
  pixel : ∀ x < image.width, ∀ y < image.height,
    image.pixels[y * image.width + x]? = some (shown x y)

lemma place_lt (hx : x < width) (hy : y < height) : y * width + x < width * height :=
  calc y * width + x < y * width + width := Nat.add_lt_add_left hx _
    _ = (y + 1) * width := (Nat.succ_mul y width).symm
    _ ≤ height * width := Nat.mul_le_mul_right width hy
    _ = width * height := Nat.mul_comm height width

lemma Shows.shows_iff (h : image.Shows shown) : image.Shows shown' ↔
    ∀ x < image.width, ∀ y < image.height, shown x y = shown' x y := by
  constructor
  · intro h' x hx y hy
    have hsame := (h.pixel x hx y hy).symm.trans (h'.pixel x hx y hy)
    exact Option.some_inj.mp hsame
  · intro hsame
    refine ⟨h.count, fun x hx y hy => ?_⟩
    rw [h.pixel x hx y hy, hsame x hx y hy]

/-- An image shows one pixel of the run after the other. -/
lemma shows_decode (bytes : ByteArray) (hcount : word32 (width * height) ≠ .error .overflow) :
    ∃ image, decode bytes size width height = .ok image ∧ image.width = width ∧
      image.height = height ∧
      image.Shows fun x y => size.colourAt bytes ((y * width + x) * size.bits) := by
  have hword : word32 (width * height) = .ok (width * height) :=
    (word32_eq_or _).resolve_right hcount
  refine ⟨⟨width, height, (Array.range (width * height)).map fun i =>
    size.colourAt bytes (i * size.bits)⟩, ?_, rfl, rfl, ?_, ?_⟩
  · simp only [decode, hword, PixelSize.texel?_eq_number?, bind, Except.bind]
    rfl
  · rw [Array.size_map, Array.size_range]
  · intro x hx y hy
    have hplace : y * width + x < (Array.range (width * height)).size := by
      rw [Array.size_range]
      exact place_lt hx hy
    rw [Array.getElem?_map, Array.getElem?_eq_getElem hplace, Array.getElem_range]
    rfl

end Image

namespace Framebuffer

variable {fb : Framebuffer} {stride : Nat}

/-- The colours of the rows of a framebuffer, each of which begins `stride` bytes after the one
before. -/
def rowColour (fb : Framebuffer) (stride : Nat) (bytes : ByteArray) (x y : Nat) : Argb :=
  fb.size.colourAt bytes (8 * (y * stride) + x * fb.size.bits)

/-- Pixels are found at the same place in the run and in the rows if the rows are as long as their
pixels, and in the first row. -/
lemma place_eq (hstride : fb.stride = .ok stride) {x y : Nat}
    (h : fb.size ≠ .bits4 ∨ fb.width % 2 = 0 ∨ y = 0) :
    (y * fb.width + x) * fb.size.bits = 8 * (y * stride) + x * fb.size.bits := by
  have hrow : 8 * (y * stride) = y * (fb.width * fb.size.bits +
      if fb.size = .bits4 then fb.width % 2 * 4 else 0) := by
    rw [← PixelSize.eight_mul_stride hstride]
    ring
  rw [hrow]
  rcases h with hsize | heven | rfl
  · rw [if_neg hsize]
    ring
  · rw [heven, Nat.zero_mul, ite_self]
    ring
  · ring

/-- If the bytes end with the first of rows of an odd number of half-bytes, the first pixel of the
second row is missing, but the run still has half a byte for it. -/
lemma exists_misplaced (hstride : fb.stride = .ok stride) (hsize : fb.size = .bits4)
    (hodd : fb.width % 2 ≠ 0) : ∃ bytes,
    fb.size.colourAt bytes ((1 * fb.width + 0) * fb.size.bits) ≠ fb.rowColour stride bytes 0 1 := by
  have hrow := PixelSize.eight_mul_stride hstride
  rw [hsize, if_pos rfl, PixelSize.bits] at hrow
  let bytes : ByteArray := ⟨Array.replicate ((fb.width + 1) / 2) 0⟩
  have hbytes : bytes.size = (fb.width + 1) / 2 := Array.size_replicate
  have hrun : 0 < PixelSize.bits4.colourAt bytes ((1 * fb.width + 0) * 4) :=
    PixelSize.colourAt_half_pos (by omega)
  have hmissing : fb.rowColour stride bytes 0 1 = 0 := by
    rw [rowColour, hsize]
    apply PixelSize.colourAt_of_missing
    rw [PixelSize.bits]
    omega
  refine ⟨bytes, ?_⟩
  rw [hmissing, hsize]
  exact Nat.ne_of_gt hrun

/-- An image that is decoded in the format of a framebuffer has all its pixels, and takes them from
one run, or `0` where bytes are missing. Whatever the bytes, it shows the rows of the framebuffer
exactly if the pixels are not half-bytes, or of an even number in a row, or in one row only. -/
theorem decode_shows_rows_iff (hstride : fb.stride = .ok stride)
    (hcount : word32 (fb.width * fb.height) ≠ .error .overflow) :
    (∀ bytes, ∃ image, Image.decode bytes fb.size fb.width fb.height = .ok image ∧
      image.width = fb.width ∧ image.height = fb.height ∧
      image.Shows fun x y => fb.size.colourAt bytes ((y * fb.width + x) * fb.size.bits)) ∧
    ((∀ bytes image, Image.decode bytes fb.size fb.width fb.height = .ok image →
      image.Shows (fb.rowColour stride bytes)) ↔
      fb.size ≠ .bits4 ∨ fb.width % 2 = 0 ∨ fb.height ≤ 1) := by
  refine ⟨fun bytes => Image.shows_decode bytes hcount, ?_, ?_⟩
  · intro hrows
    by_contra hformat
    simp only [not_or, not_not] at hformat
    obtain ⟨hsize, hodd, hheight⟩ := hformat
    obtain ⟨bytes, hmisplaced⟩ := exists_misplaced hstride hsize hodd
    obtain ⟨image, hdecode, hw, hh, hshows⟩ := Image.shows_decode bytes hcount
    have hsame := hshows.shows_iff.mp (hrows bytes image hdecode)
    exact hmisplaced (hsame 0 (by omega) 1 (by omega))
  · intro hformat bytes image himage
    obtain ⟨image', hdecode, hw, hh, hshows⟩ := Image.shows_decode bytes hcount
    obtain rfl : image' = image := Except.ok.inj (hdecode.symm.trans himage)
    refine hshows.shows_iff.mpr fun x hx y hy => ?_
    have hfirst : fb.height ≤ 1 → y = 0 := by omega
    rw [rowColour, place_eq hstride (hformat.imp_right (Or.imp_right hfirst))]

/-- Two rows of half-bytes. -/
def halfByteRows (width : Nat) : Framebuffer := new 0x100 .bits4 width 2

/-- Of two half-bytes in a row, the second one of the second row is found in its byte. -/
theorem even_half_bytes_in_place :
    (halfByteRows 2).stride = .ok 1 ∧ word32 (2 * 2) ≠ .error .overflow ∧
      ∃ image, Image.decode ⟨#[0x12, 0x34]⟩ .bits4 2 2 = .ok image ∧
        image.pixels[1 * 2 + 1]? = some ((halfByteRows 2).rowColour 1 ⟨#[0x12, 0x34]⟩ 1 1) := by
  have hstride : (halfByteRows 2).stride = .ok 1 := rfl
  have hcount : word32 (2 * 2) ≠ .error .overflow := by decide
  obtain ⟨hdecodes, hrows⟩ := decode_shows_rows_iff hstride hcount
  obtain ⟨image, hdecode, hwidth, hheight, -⟩ := hdecodes ⟨#[0x12, 0x34]⟩
  have hshows := hrows.mpr (.inr (.inl rfl)) _ _ hdecode
  have hpixel := hshows.pixel 1 (by rw [hwidth]; decide) 1 (by rw [hheight]; decide)
  rw [hwidth] at hpixel
  exact ⟨hstride, hcount, image, hdecode, hpixel⟩

/-- Of one half-byte in a row, the one of the second row is a two, but is taken from the byte of the
first row. -/
theorem odd_half_bytes_misplaced :
    (halfByteRows 1).stride = .ok 1 ∧
    Image.decode ⟨#[0x10, 0x20]⟩ .bits4 1 2 = .ok ⟨1, 2, #[0xFF111111, 0xFF000000]⟩ ∧
    (halfByteRows 1).rowColour 1 ⟨#[0x10, 0x20]⟩ 0 1 = 0xFF222222 ∧
    ¬∀ image, Image.decode ⟨#[0x10, 0x20]⟩ .bits4 1 2 = .ok image →
      image.Shows ((halfByteRows 1).rowColour 1 ⟨#[0x10, 0x20]⟩) := by
  have hdecode : Image.decode ⟨#[0x10, 0x20]⟩ .bits4 1 2 =
      .ok ⟨1, 2, #[0xFF111111, 0xFF000000]⟩ := by decide +kernel
  have hrow : (halfByteRows 1).rowColour 1 ⟨#[0x10, 0x20]⟩ 0 1 = 0xFF222222 := by decide +kernel
  refine ⟨rfl, hdecode, hrow, ?_⟩
  intro hshows
  have hpixel := (hshows _ hdecode).pixel 0 (by decide) 1 (by decide)
  rw [hrow] at hpixel
  revert hpixel
  decide

end Framebuffer

end Scanout
