import Scanout.Log.Limiter
import Scanout.Trial.Run

/-!
# The command line

`main` makes the trial run that its words ask for. It keeps to the rate of the game unless the run
is to be fast, writes the notes of the pipeline to a log, and the report and the picture where they
are wanted. The exit status is 1 after a failure, 2 for words out of place and 101 after a fault.
-/

namespace Scanout.Trial

/-- A trial run, its log, and the times at which images were shown. -/
structure Session where
  trial : Trial
  log : Log
  /-- where the lines of the log go -/
  sink : IO.FS.Stream
  started : Nat
  firstShown : Nat
  lastShown : Nat

/-- The time, in microseconds. -/
def now : IO Nat := do return (← IO.monoNanosNow) / 1000

/-- A number of microseconds, in milliseconds of the 64-bit format. -/
def milliseconds (microseconds den : Nat) : Nat :=
  Binary.binary64.nearest microseconds (1000 * den) 0

namespace Session

/-- Write down what the pipeline noted since the last time. -/
def writeNotes (s : Session) : IO Session := do
  let time ← IO.monoNanosNow
  let (notes, pipeline) := s.trial.pipeline.takeNotes
  let log := notes.foldl (fun l n => (l.log time n.category n.level fun _ => n.text).2) s.log
  log.lines.reverse.forM s.sink.putStrLn
  s.sink.flush
  return { s with trial := { s.trial with pipeline }, log := { log with lines := [] } }

/-- Keep the time if an image was shown since `count` of them were. -/
def keepTime (s : Session) (count : Nat) : IO Session := do
  let shown := s.trial.pipeline.shared.stats.framesPresented
  if shown = count then return s
  let time ← now
  return { s with firstShown := if count = 0 then time else s.firstShown, lastShown := time }

/-- Submit a frame, and wait until the next one is due. -/
def step (s : Session) (frame : Nat) : ExceptT Failure IO Session := do
  let began ← now
  let count := s.trial.pipeline.shared.stats.framesPresented
  let s ← ({ s with trial := ← s.trial.submitFrame frame }).keepTime count
  let s ← s.writeNotes
  let o := s.trial.options
  let left := 1000000 / max o.gameRate 1 - ((← now) - began)
  if !o.fast then IO.sleep (UInt32.ofNat (left / 1000))
  return s

/-- The times of the run up to now. -/
def timing (s : Session) : IO Timing := do
  let intervals := s.trial.pipeline.shared.stats.framesPresented - 1
  return {
    elapsed := milliseconds ((← now) - s.started) 1
    interval := milliseconds (s.lastShown - s.firstShown) (max intervals 1) }

end Session

/-- The text of a file, if it can be read. -/
def readText? (path : String) : IO (Option String) := do
  try return some (← IO.FS.readFile path) catch _ => return none

/-- Where the log goes. -/
def openSink (o : Options) : IO IO.FS.Stream := do
  match o.logFile with
  | some path => return .ofHandle (← IO.FS.Handle.mk path .append)
  | none => IO.getStderr

/-- Start a trial run. -/
def openSession (o : Options) : ExceptT Failure IO Session := do
  let level ← logLevel o
  let sink ← openSink o
  let file ← match o.config with
    | some path => readText? path
    | none => pure none
  let trial ← start o file
  let log : Log := ⟨LogFilter.new.setGlobal level, .new o.logRateLimit, []⟩
  Session.writeNotes ⟨trial, log, sink, ← now, 0, 0⟩

/-- Make a trial run: its report, and what else it leaves behind. -/
def perform (o : Options) : ExceptT Failure IO (Json × Result) := do
  let s ← openSession o
  let s ← o.workloads.foldM (fun frame _ (s : Session) => s.step frame) s
  let timing ← s.timing
  let result ← s.trial.finish
  let _ ← ({ s with trial := { s.trial with pipeline := s.trial.pipeline.close } }).writeNotes
  return (result.report.toJson timing, result)

/-- Write the picture and the report. -/
def deliver (o : Options) (report : Json) (result : Result) : IO Unit := do
  match o.snapshot, result.picture with
  | some path, some picture => IO.FS.writeBinFile path picture
  | _, _ => pure ()
  match o.report with
  | some path => IO.FS.writeFile path (report.pretty ++ "\n")
  | none => IO.println report.pretty

/-- Tell of a failure. -/
def complain (o : Options) (failure : Failure) : IO UInt32 := do
  let some message := failure.message? o
    | IO.eprintln "The run was abandoned."
      return 101
  IO.eprintln s!"Error: {message}"
  match failure.cause? with
  | some cause => IO.eprintln s!"\nCaused by:\n    {cause}"
  | none => pure ()
  return 1

/-- How the command line is to be used. -/
def usage : String :=
  "Usage: scanout [OPTIONS]\n\nOptions:\n" ++
    String.join (switches.map fun (name, switch) =>
      match switch with
      | .setting _ => s!"  --{name} <VALUE>\n"
      | _ => s!"  --{name}\n")

/-- Do what is asked for. -/
def serve : Request → IO UInt32
  | .help => do
    IO.print usage
    return 0
  | .malformed => do
    IO.eprint usage
    return 2
  | .run o => do
    match ← (perform o).run with
    | .ok (report, result) =>
      deliver o report result
      return 0
    | .error failure => complain o failure

end Scanout.Trial

/-- Make a trial run. -/
def main (words : List String) : IO UInt32 := do
  try Scanout.Trial.serve (.ofWords words)
  catch e =>
    IO.eprintln s!"Error: {e}"
    return 1
