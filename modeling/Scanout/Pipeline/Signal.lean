/-!
# Signals

A signal is a number that only grows. A party waits until it has reached a value or was stopped.
-/

namespace Scanout

/-- A number that only grows. -/
structure Signal where
  value : Nat
  stopped : Bool
  deriving DecidableEq, Repr

namespace Signal

def new : Signal := ⟨0, false⟩

instance : Inhabited Signal := ⟨new⟩

/-- Raise the number; lower values are ignored. -/
def advance (s : Signal) (value : Nat) : Signal := { s with value := max s.value value }

def stop (s : Signal) : Signal := { s with stopped := true }

/-- Whether the value was reached, `none` as long as there is hope. -/
def wait (s : Signal) (value : Nat) : Option Bool :=
  if value ≤ s.value then some true else if s.stopped then some false else none

end Signal

end Scanout
