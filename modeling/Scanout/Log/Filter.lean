import Scanout.Note

/-!
# Log filter

Which notes are wanted. A category with a level of its own is judged by it, every other category by
the global level.
-/

namespace Scanout

namespace Level

/-- The words for a level, in lower case. -/
def words : Level → List String
  | off => ["off", "0"]
  | error => ["error", "err", "1"]
  | warn => ["warn", "warning", "2"]
  | info => ["info", "3"]
  | debug => ["debug", "4"]
  | trace => ["trace", "5"]

/-- The level that a word names, whatever its case. -/
def ofText? (s : String) : Option Level := all.find? fun level => s.toLower ∈ level.words

end Level

/-- The levels that are set. -/
structure LogFilter where
  globalLevel : Level
  levels : Category → Level

namespace LogFilter

/-- Nothing is wanted. -/
def new : LogFilter := ⟨.off, fun _ => .off⟩

instance : Inhabited LogFilter := ⟨new⟩

def setGlobal (f : LogFilter) (level : Level) : LogFilter := { f with globalLevel := level }

def setCategory (f : LogFilter) (category : Category) (level : Level) : LogFilter :=
  { f with levels := fun c => if c = category then level else f.levels c }

/-- The level that a category is judged by. -/
def effective (f : LogFilter) (category : Category) : Level :=
  if f.levels category = .off then f.globalLevel else f.levels category

/-- A message of this category and level is wanted. -/
def wants (f : LogFilter) (category : Category) (level : Level) : Bool :=
  level ≠ .off && level.rank ≤ (f.effective category).rank

end LogFilter

/-- The lines of the notes that are wanted at a global level. -/
def linesAt (level : Level) (notes : List Note) : List String :=
  let filter := LogFilter.new.setGlobal level
  (notes.filter fun n => filter.wants n.category n.level).map Note.line

end Scanout
