import Scanout.Framebuffer.Basic

/-!
# Framebuffers: the table

All framebuffers that were referred to since the last reset, in the order of their addresses. An
address has at most one framebuffer.
-/

namespace Scanout

/-- Framebuffers in the order of their addresses. -/
structure FramebufferTable where
  entries : List (Nat × Framebuffer)
  deriving DecidableEq

namespace FramebufferTable

def empty : FramebufferTable := ⟨[]⟩

instance : Inhabited FramebufferTable := ⟨empty⟩

def size (t : FramebufferTable) : Nat := t.entries.length

/-- The framebuffer at an address. -/
def find? (t : FramebufferTable) (address : Nat) : Option Framebuffer := t.entries.lookup address

/-- Put a framebuffer at an address, in place of any other there. -/
def insertEntry (address : Nat) (fb : Framebuffer) :
    List (Nat × Framebuffer) → List (Nat × Framebuffer)
  | [] => [(address, fb)]
  | (a, f) :: rest =>
    if address < a then (address, fb) :: (a, f) :: rest
    else if address = a then (address, fb) :: rest
    else (a, f) :: insertEntry address fb rest

def insert (t : FramebufferTable) (address : Nat) (fb : Framebuffer) : FramebufferTable :=
  ⟨insertEntry address fb t.entries⟩

/-- Change the framebuffer at an address, if there is one. -/
def modify (t : FramebufferTable) (address : Nat) (f : Framebuffer → Framebuffer) :
    FramebufferTable :=
  match t.find? address with
  | some fb => t.insert address (f fb)
  | none => t

/-- The framebuffers, in the order of their addresses. -/
def toList (t : FramebufferTable) : List Framebuffer := t.entries.map (·.2)

/-- The framebuffer at an address in the given format, a new one on first reference. -/
def get (t : FramebufferTable) (address : Nat) (size : PixelSize) (width height : Nat) :
    Traced (Framebuffer × FramebufferTable) := do
  let fb ← match t.find? address with
    | some fb => fb.reformat size width height
    | none => do
      Traced.note (.framebufferAdded address size width height)
      pure (.new address size width height)
  return (fb, t.insert address fb)

/-- Record a write of the device to the framebuffer at an address, if there is one. -/
def recordWrite (t : FramebufferTable) (address : Nat) (type : WriteType) (rect : Rect)
    (stamp : Nat) : FramebufferTable :=
  t.modify address (·.recordWrite type rect stamp)

/-- Compare the framebuffer at an address with `ram`, and remember what was seen. -/
def check (t : FramebufferTable) (address : Nat) (ram : ByteArray) :
    Traced (Option MemoryChange × FramebufferTable) := do
  match t.find? address with
  | some fb =>
    let (change, fb) ← fb.check ram
    return (change, t.insert address fb)
  | none => return (none, t)

/-- The framebuffer was written and shares a byte with `address … stop`. -/
def reaches (fb : Framebuffer) (address stop : Nat) : Except Fault Bool :=
  if fb.wasWritten && fb.address < stop then do
    return address < (← fb.endAddress)
  else return false

/-- Of two framebuffers the one written later; of two written together the second. -/
def later (best : Option Framebuffer) (fb : Framebuffer) : Framebuffer :=
  match best with
  | some b => if fb.lastWriteStamp < b.lastWriteStamp then b else fb
  | none => fb

/-- The framebuffer written last among those that share a byte with `length` bytes from `address`
on. -/
def findOverlapping (t : FramebufferTable) (address length : Nat) :
    Except Fault (Option Framebuffer) :=
  let stop := min 0xFFFFFFFF (address + max length 1)
  t.toList.foldlM (fun best fb => do
    return if ← reaches fb address stop then some (later best fb) else best) none

/-- Forget all framebuffers. -/
def reset (t : FramebufferTable) : Traced FramebufferTable := do
  Traced.note (.framebuffersReset t.size)
  return empty

end FramebufferTable

end Scanout
