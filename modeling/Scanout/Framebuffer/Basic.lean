import Scanout.Checksum
import Scanout.Note

/-!
# Framebuffers

A framebuffer is an image in memory that the device renders. It remembers how it was last written,
and the bytes of its memory as they were last seen, so that `Framebuffer.check` can tell which rows
the CPU has changed since.
-/

namespace Scanout

/-- Rows of an image in memory that differ from what the device knows. -/
structure MemoryChange where
  address : Nat
  size : PixelSize
  width : Nat
  /-- the rows, over the whole width -/
  rect : Rect
  /-- the bytes of these rows -/
  data : ByteArray
  deriving DecidableEq, Inhabited

namespace MemoryChange

/-- The change covers all of `height` rows. -/
def isFull (change : MemoryChange) (height : Nat) : Except Fault Bool :=
  if change.rect.top = 0 then do
    return (← change.rect.height) = height
  else return false

def fieldNames : List String := ["address", "siz", "width", "rect", "data"]

def toJson (change : MemoryChange) : Json :=
  .ofMembers (fieldNames.zip
    [.ofNat change.address, change.size.toJson, .ofNat change.width, change.rect.toJson,
      bytesToJson change.data])

def ofJson? (j : Json) : Option MemoryChange := do
  let r ← j.record? fieldNames
  return {
    address := ← r.required 0 Json.word32?
    size := ← r.required 1 PixelSize.ofJson?
    width := ← r.required 2 Json.word32?
    rect := ← r.required 3 Rect.ofJson?
    data := ← r.required 4 bytesOfJson? }

end MemoryChange

/-- An image in memory that the device renders. -/
structure Framebuffer where
  address : Nat
  size : PixelSize
  width : Nat
  height : Nat
  lastWriteType : WriteType
  lastWriteRect : Rect
  /-- the workload of the last write, `0` before the first -/
  lastWriteStamp : Nat
  /-- the bytes of the image as last seen -/
  memory : ByteArray
  checksum : Option UInt32
  /-- the whole rows among the bytes last seen -/
  readHeight : Nat
  formatChanged : Bool
  /-- the last check found nothing drawn by the CPU over rendered output -/
  blendable : Bool
  deriving DecidableEq

namespace Framebuffer

def new (address : Nat) (size : PixelSize) (width height : Nat) : Framebuffer where
  address := address
  size := size
  width := width
  height := height
  lastWriteType := .color
  lastWriteRect := Rect.none
  lastWriteStamp := 0
  memory := ByteArray.empty
  checksum := none
  readHeight := 0
  formatChanged := false
  blendable := true

instance : Inhabited Framebuffer := ⟨new 0 .bits4 0 0⟩

/-- The bytes of a row. -/
def stride (fb : Framebuffer) : Except Fault Nat := fb.size.bytesFor fb.width

def byteCount (fb : Framebuffer) : Except Fault Nat := do word32 ((← fb.stride) * fb.height)

/-- The address after the last byte. -/
def endAddress (fb : Framebuffer) : Except Fault Nat := do word32 (fb.address + (← fb.byteCount))

def containsAddress (fb : Framebuffer) (address : Nat) : Except Fault Bool :=
  if fb.address ≤ address then do
    return address < (← fb.endAddress)
  else return false

/-- All pixels of the image. -/
def bounds (fb : Framebuffer) : Rect := ⟨0, 0, wrapSigned32 fb.width, wrapSigned32 fb.height⟩

/-- The device has written to the image. -/
def wasWritten (fb : Framebuffer) : Bool := 0 < fb.lastWriteStamp

/-- Forget the bytes last seen. -/
def forget (fb : Framebuffer) : Framebuffer :=
  { fb with memory := ByteArray.empty, checksum := none, readHeight := 0 }

/-- The format is another one. -/
def differs (fb : Framebuffer) (size : PixelSize) (width : Nat) : Bool :=
  fb.size ≠ size || fb.width ≠ width

/-- Ask for a format. Another pixel size or width forgets the bytes last seen; with the same ones
the height only grows. -/
def withFormat (fb : Framebuffer) (size : PixelSize) (width height : Nat) : Framebuffer :=
  if fb.differs size width then
    { fb.forget with size, width, height, formatChanged := true }
  else { fb with height := max fb.height height }

/-- Ask for a format, and report a change of it. -/
def reformat (fb : Framebuffer) (size : PixelSize) (width height : Nat) : Traced Framebuffer := do
  Traced.noteWhen (fb.differs size width) (.formatChanged fb.address fb.size fb.width size width)
  return fb.withFormat size width height

/-- Record a write of the device. Writes of one kind by one workload add up. -/
def recordWrite (fb : Framebuffer) (type : WriteType) (rect : Rect) (stamp : Nat) : Framebuffer :=
  { fb with
    lastWriteRect :=
      if fb.lastWriteStamp = stamp ∧ fb.lastWriteType = type then fb.lastWriteRect.merge rect
      else rect
    lastWriteType := type
    lastWriteStamp := stamp }

/-- The bytes of the image in `ram`, as far as that reaches. -/
def region (fb : Framebuffer) (ram : ByteArray) : Except Fault ByteArray := do
  return ram.extract (min fb.address ram.size) (min (← fb.endAddress) ram.size)

/-- The bytes from `start` up to `stop` are the same in both. -/
def sameBytes (a b : ByteArray) (start : Nat) : Nat → Bool
  | 0 => true
  | count + 1 => a[start]? = b[start]? && sameBytes a b (start + 1) count

/-- The rows, of `rows` rows of `stride` bytes, in which the two differ. -/
def dirtyRows (a b : ByteArray) (stride rows : Nat) : List Nat :=
  (List.range rows).filter fun row => !sameBytes a b (row * stride) stride

/-- From the first to after the last dirty row. If only the bytes after the last whole row differ,
the last whole row stands for them. -/
def dirtySpan (a b : ByteArray) (stride rows : Nat) : Nat × Nat :=
  let dirty := dirtyRows a b stride rows
  match dirty.head?, dirty.getLast? with
  | some first, some last => (first, last + 1)
  | _, _ => (rows - 1, rows)

/-- Every row has to be read. -/
def mustRead (fb : Framebuffer) (region : ByteArray) : Bool :=
  fb.formatChanged || fb.checksum.isNone || fb.memory.size ≠ region.size

/-- The rows of a change. -/
def changeOf (fb : Framebuffer) (region : ByteArray) (stride first last : Nat) : MemoryChange where
  address := fb.address
  size := fb.size
  width := fb.width
  rect := ⟨0, wrapSigned32 first, wrapSigned32 fb.width, wrapSigned32 last⟩
  data := region.extract (first * stride) (last * stride)

/-- Compare the image in `ram` with the bytes last seen, and remember it. The change, if there is
one, spans all rows that differ, or all rows if none were known. -/
def check (fb : Framebuffer) (ram : ByteArray) : Traced (Option MemoryChange × Framebuffer) := do
  let region ← fb.region ram
  let checksum := Checksum.crc32 region
  let full := fb.mustRead region
  if !full && fb.checksum = some checksum then return (none, fb)
  let stride ← fb.stride
  let rows := if stride = 0 then 0 else region.size / stride
  let (first, last) := if full then (0, rows) else dirtySpan region fb.memory stride rows
  let seen := { fb with
    memory := region, checksum := some checksum, readHeight := rows, formatChanged := false }
  if last ≤ first then return (none, seen)
  .note (.memoryChanged fb.address first last full)
  return (some (fb.changeOf region stride first last), seen)

end Framebuffer

end Scanout
