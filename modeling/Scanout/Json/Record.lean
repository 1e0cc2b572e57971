import Scanout.Json.Value

/-!
# Typed values

How typed values lie in a data text. A record is written as its members in order and read from
members in any order, or from the bare values in order. A choice is written as the name of the
alternative, around its content if it has one.
-/

namespace Scanout.Json

/-- A boolean. -/
def bool? : Json → Option Bool
  | .bool b => some b
  | _ => none

/-- A whole number in `lo … hi`. -/
def integer? (lo hi : Int) : Json → Option Int
  | .number n => do
    let i ← n.integer?
    if lo ≤ i ∧ i ≤ hi then some i else none
  | _ => none

/-- A whole number not above `hi`. -/
def natural? (hi : Nat) (j : Json) : Option Nat :=
  (j.integer? 0 hi).map Int.toNat

/-- An unsigned word of 8 bits. -/
def word8? : Json → Option Nat := natural? 0xFF

/-- An unsigned word of 32 bits. -/
def word32? : Json → Option Nat := natural? 0xFFFFFFFF

/-- An unsigned word of 64 bits. -/
def word64? : Json → Option Nat := natural? 0xFFFFFFFFFFFFFFFF

/-- A signed word of 32 bits. -/
def signed32? : Json → Option Int := integer? (-0x80000000) 0x7FFFFFFF

/-- A number of the 32-bit format. -/
def single? : Json → Option Single
  | .number n => n.single?
  | _ => none

/-- A value, or `null` for its absence. -/
def nullable? {α : Type} (read : Json → Option α) : Json → Option (Option α)
  | .null => some none
  | j => (read j).map some

/-- A value, or `null` for its absence. -/
def ofNullable {α : Type} (write : α → Json) : Option α → Json
  | none => .null
  | some x => write x

/-- The elements of an array. -/
def list? {α : Type} (read : Json → Option α) : Json → Option (List α)
  | .array xs => xs.mapM read
  | _ => none

/-- The values of a record, and whether they were found by position. -/
structure Record where
  byPosition : Bool
  values : List (Option Json)

/-- The values of the members called `name`. -/
def valuesOf (name : String) (members : List (Literal × Json)) : List Json :=
  (members.filter (·.1 = some name)).map (·.2)

/-- The value of each named member: a name may occur once, other members do not count. An array
gives the values in order, and must not have more of them than there are names. -/
def record? (names : List String) : Json → Option Record
  | .object members =>
    if members.all (·.1.isSome) ∧ names.all fun name => (valuesOf name members).length ≤ 1 then
      some ⟨false, names.map fun name => (valuesOf name members).head?⟩
    else none
  | .array elements =>
    if elements.length ≤ names.length then
      some ⟨true, (List.range names.length).map (elements[·]?)⟩
    else none
  | _ => none

namespace Record

def value? (r : Record) (i : Nat) : Option Json := (r.values[i]?).join

/-- The member at place `i` must be there. -/
def required {α : Type} (r : Record) (i : Nat) (read : Json → Option α) : Option α := do
  read (← r.value? i)

/-- The member at place `i` may be `null`, or absent from among named members. -/
def nullable {α : Type} (r : Record) (i : Nat) (read : Json → Option α) : Option (Option α) :=
  match r.value? i with
  | some j => nullable? read j
  | none => if r.byPosition then none else some none

/-- The member at place `i`, or a default for an absent one. -/
def withDefault {α : Type} (r : Record) (i : Nat) (default : α) (read : Json → Option α) :
    Option α :=
  match r.value? i with
  | some j => read j
  | none => some default

end Record

/-- The name of an alternative and its content, if it has any. -/
def choice? : Json → Option (String × Option Json)
  | .string (some name) => some (name, none)
  | .object [(some name, content)] => some (name, some content)
  | _ => none

/-- An alternative of a list that has no content. -/
def alternative? {α : Type} (table : List (String × α)) (j : Json) : Option α := do
  let (name, content) ← choice? j
  match content with
  | none | some .null => table.lookup name
  | some _ => none

/-- An alternative with content. -/
def ofChoice (name : String) (content : Json) : Json := ofMembers [(name, content)]

end Scanout.Json
