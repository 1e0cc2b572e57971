/-!
# Faults

All machine arithmetic in this library is done on unbounded numbers and then checked against the
width of the word that holds the result. A value that leaves its word is a `Fault`, as is an index
beyond the end of a table.
-/

namespace Scanout

/-- Why a computation had to be abandoned. -/
inductive Fault where
  /-- a result does not fit the word that should hold it -/
  | overflow
  /-- an index lies beyond the end of its table -/
  | outOfBounds
  /-- a protocol between two parties was broken -/
  | assertion
  /-- a remainder by zero -/
  | zeroDivisor
  deriving DecidableEq, Repr, Inhabited

/-- A number `n` as an unsigned word of 32 bits. -/
def word32 (n : Nat) : Except Fault Nat :=
  if n < 0x100000000 then .ok n else .error .overflow

/-- A number `n` as an unsigned word of 64 bits. -/
def word64 (n : Nat) : Except Fault Nat :=
  if n < 0x10000000000000000 then .ok n else .error .overflow

/-- An integer `i` as a signed word of 32 bits. -/
def signed32 (i : Int) : Except Fault Int :=
  if -0x80000000 ≤ i ∧ i < 0x80000000 then .ok i else .error .overflow

/-- An integer `i` as a signed word of 64 bits. -/
def signed64 (i : Int) : Except Fault Int :=
  if -0x8000000000000000 ≤ i ∧ i < 0x8000000000000000 then .ok i else .error .overflow

/-- The bits of `i` read as an unsigned word of 32 bits. -/
def wrap32 (i : Int) : Nat := (i % 0x100000000).toNat

/-- The low 32 bits of `i` read as a signed word. -/
def wrapSigned32 (i : Int) : Int := Int.bmod i 0x100000000

/-- The element of a table at place `i`. -/
def fetch {α : Type} (table : List α) (i : Nat) : Except Fault α :=
  match table[i]? with
  | some x => .ok x
  | none => .error .outOfBounds

end Scanout
