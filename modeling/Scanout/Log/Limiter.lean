import Scanout.Log.Filter

/-!
# Log limiter

At most so many messages of a category are written in any second. Messages beyond that are dropped
and counted, and the count is reported from time to time. Times are given in nanoseconds.
-/

namespace Scanout

/-- The messages of one category. -/
structure LogWindow where
  /-- when the last messages were allowed, the oldest first -/
  times : List Nat
  /-- the messages dropped since the last report -/
  dropped : Nat
  lastReport : Option Nat
  deriving DecidableEq, Repr

namespace LogWindow

def new : LogWindow := ⟨[], 0, none⟩

instance : Inhabited LogWindow := ⟨new⟩

/-- A second. -/
def second : Nat := 1000000000

/-- Forget the messages that were allowed more than a second before. -/
def prune (w : LogWindow) (now : Nat) : LogWindow :=
  { w with times := w.times.dropWhile fun t => second < now - t }

/-- Whether a message is allowed, and how many dropped messages to report. -/
structure Verdict where
  allowed : Bool
  report : Option Nat
  deriving DecidableEq, Repr, Inhabited

/-- A message may be reported as dropped once a second. -/
def reportDue (w : LogWindow) (now : Nat) : Bool := w.lastReport.all fun t => second ≤ now - t

/-- A message wants to be written at time `now`, with `limit` messages a second allowed. -/
def offer (w : LogWindow) (now limit : Nat) : Verdict × LogWindow :=
  let w := w.prune now
  if w.times.length < limit then
    let w := { w with times := w.times ++ [now] }
    if 0 < w.dropped then
      (⟨true, some w.dropped⟩, { w with dropped := 0, lastReport := some now })
    else (⟨true, none⟩, w)
  else
    let w := { w with dropped := w.dropped + 1 }
    if w.reportDue now then
      (⟨false, some w.dropped⟩, { w with dropped := 0, lastReport := some now })
    else (⟨false, none⟩, w)

end LogWindow

/-- The limit and the windows of all categories. -/
structure LogLimiter where
  limit : Nat
  windows : Category → LogWindow

namespace LogLimiter

def new (limit : Nat) : LogLimiter := ⟨limit, fun _ => .new⟩

/-- A message of a category wants to be written. -/
def offer (l : LogLimiter) (category : Category) (now : Nat) : LogWindow.Verdict × LogLimiter :=
  let (verdict, window) := (l.windows category).offer now l.limit
  (verdict, { l with windows := fun c => if c = category then window else l.windows c })

end LogLimiter

/-- A log: what is wanted, how much of it, and the lines written, the latest first. -/
structure Log where
  filter : LogFilter
  limiter : LogLimiter
  lines : List String

namespace Log

/-- The messages of a category allowed in a second. -/
def defaultLimit : Nat := 60

def new : Log := ⟨.new, .new defaultLimit, []⟩

instance : Inhabited Log := ⟨new⟩

def write (l : Log) (category : Category) (text : String) : Log :=
  { l with lines := s!"[{category.name}] {text}" :: l.lines }

/-- The report of dropped messages. -/
def dropReport (count : Nat) : String :=
  s!"WARNING: Rate limit exceeded, {count} log message(s) dropped in the last second"

/-- Log a message. Its text is built only if it is written; tell whether it was. -/
def log (l : Log) (now : Nat) (category : Category) (level : Level) (text : Unit → String) :
    Bool × Log :=
  if !l.filter.wants category level then (false, l)
  else
    let (verdict, limiter) := l.limiter.offer category now
    let l := { l with limiter }
    let l := match verdict.report with
      | some count => if 0 < count then l.write category (dropReport count) else l
      | none => l
    if verdict.allowed then (true, l.write category (text ())) else (false, l)

end Log

end Scanout
