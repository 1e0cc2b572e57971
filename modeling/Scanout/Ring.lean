import Scanout.Fault

/-!
# Rings

A ring of slots between one producer and one consumer. The producer fills the slot at `write` and
publishes it by moving on, but never onto `barrier`, the oldest slot that the consumer still needs.
The consumer claims the slot at `next`, which it reaches before `write` or waits for.
-/

namespace Scanout

/-- A ring of slots. -/
structure Ring (α : Type) where
  slots : List α
  /-- the slot being filled -/
  write : Nat
  /-- the slot to be claimed next -/
  next : Nat
  /-- the oldest slot that was not released -/
  barrier : Nat
  /-- the producer waits for a slot -/
  blocked : Bool
  running : Bool
  deriving DecidableEq, Repr, Inhabited

/-- What comes of an attempt that may have to wait. -/
inductive Attempt (α : Type) where
  | done (a : α)
  | waiting
  | stopped
  deriving DecidableEq, Repr, Inhabited

namespace Ring

variable {α : Type}

/-- A ring has at least two slots. -/
def new (size : Nat) (a : α) : Ring α := ⟨List.replicate (max size 2) a, 0, 0, 0, false, true⟩

def size (r : Ring α) : Nat := r.slots.length

/-- The place after `i`. -/
def after (r : Ring α) (i : Nat) : Nat := (i + 1) % r.size

/-- The place before `i`. -/
def before (r : Ring α) (i : Nat) : Nat := (i + r.size - 1) % r.size

/-- The content of a slot; places beyond the end start over. -/
def slot? (r : Ring α) (i : Nat) : Option α := r.slots[i % r.size]?

/-- The slot being filled. -/
def current? (r : Ring α) : Option α := r.slot? r.write

def setSlot (r : Ring α) (i : Nat) (a : α) : Ring α := { r with slots := r.slots.set i a }

def setCurrent (r : Ring α) (a : α) : Ring α := r.setSlot r.write a

def modifyCurrent (r : Ring α) (f : α → α) : Ring α := { r with slots := r.slots.modify r.write f }

/-- Publish the slot being filled, if the next one is free. -/
def advance (r : Ring α) : Attempt Nat × Ring α :=
  if r.after r.write = r.barrier ∧ r.running then (.waiting, { r with blocked := true })
  else if r.running then (.done r.write, { r with write := r.after r.write, blocked := false })
  else (.stopped, { r with blocked := false })

/-- The oldest published slot that was not consumed. -/
def claim (r : Ring α) : Attempt Nat :=
  if !r.running then .stopped
  else if r.next = r.write then .waiting
  else .done r.next

/-- The claimed slot was consumed. -/
def finish (r : Ring α) (i : Nat) : Except Fault (Ring α) :=
  if r.next = i then .ok { r with next := r.after i } else .error .assertion

/-- The producer may fill all slots up to this one again. -/
def releaseThrough (r : Ring α) (i : Nat) : Ring α := { r with barrier := r.after i }

/-- The same for a place that may be any word. -/
def release (r : Ring α) (i : Nat) : Except Fault (Ring α) := do
  let _ ← word64 (i + 1)
  return r.releaseThrough i

/-- The published slots that were not consumed. -/
def backlog (r : Ring α) : Nat := (r.write + r.size - r.next) % r.size

def stop (r : Ring α) : Ring α := { r with running := false }

end Ring

end Scanout
