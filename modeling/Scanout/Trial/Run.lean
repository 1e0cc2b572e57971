import Scanout.Pipeline.Schedule
import Scanout.Trial.Game
import Scanout.Trial.Report

/-!
# Trial runs

A trial run starts the pipeline, submits the frames of the game one after the other, each with a
screen, and reports what was shown. `Trial.run` is the whole of it; a caller who has to keep time
takes the steps `Trial.start`, `Trial.submitFrame` and `Trial.finish` one by one.
-/

namespace Scanout

/-- A trial run in progress. -/
structure Trial where
  options : Trial.Options
  screen : Screen
  ram : ByteArray
  pipeline : Pipeline

namespace Trial

/-- Why a trial run ends early. -/
inductive Failure where
  | unknownLevel (word : String)
  | unreadableConfig (cause : PipelineError)
  | refused (cause : PipelineError)
  | fault (f : Fault)
  deriving DecidableEq, Repr, Inhabited

/-- The sentence that tells of a failure; a fault has none. -/
def Failure.message? (o : Options) : Failure → Option String
  | unknownLevel word => some s!"unknown log level {word}"
  | unreadableConfig _ => some ("loading " ++ o.config.getD "")
  | refused cause => some cause.message
  | fault _ => none

/-- The sentence that tells what lies behind a failure. -/
def Failure.cause? : Failure → Option String
  | unreadableConfig cause => some cause.message
  | refused (.resourceCreation cause) => some cause.message
  | _ => none

/-- A failure that lies with a file. -/
def Failure.concernsFile : Failure → Bool
  | unreadableConfig _ => true
  | _ => false

/-- What is logged. -/
def logLevel (o : Options) : Except Failure Level :=
  match Level.ofText? o.logLevel with
  | some level => .ok level
  | none => .error (.unknownLevel o.logLevel)

/-- The settings: those of the file that was asked for, with the rate that was asked for. -/
def settings (o : Options) (file : Option String) : Except Failure Config := do
  let c ← match o.config with
    | some _ => (Config.load file).mapError .unreadableConfig
    | none => .ok .default
  let c := match o.targetRate with
    | some rate => { c with refreshRate := .manual, refreshRateTarget := rate }
    | none => c
  c.validate.mapError .refused
  return c

/-- The rate of the display. -/
def displayRate (o : Options) : Nat := o.targetRate.getD 60

/-- The host: a window twice the size of the image. -/
def host (o : Options) : Except Fault Host := do
  return { Host.default with
    refreshRate := displayRate o, window := (← word32 (o.width * 2), ← word32 (o.height * 2)) }

/-- Start the pipeline; `file` is the text of the file with the settings. -/
def start (o : Options) (file : Option String) : Except Failure Trial := do
  let _ ← logLevel o
  let config ← settings o file
  let host ← (host o).mapError .fault
  let pipeline ← (Pipeline.start host config).mapError .refused
  let (screen, pipeline) := pipeline.traced (setUpScreen o)
  return { options := o, screen := ← screen.mapError .fault, ram := blankMemory, pipeline }

/-- Wait for the reply to a call. -/
def awaitReply (call : Pipeline.Reply × Pipeline) : Except Failure Pipeline :=
  let (late, p) := call.2.settle
  match late.headD call.1 with
  | .refused e => .error (.refused e)
  | .fault f => .error (.fault f)
  | .accepted _ | .pending => .ok p

/-- Submit a frame and its screen. -/
def submitFrame (t : Trial) (frame : Nat) : Except Failure Trial := do
  let ram ← (touch t.options frame t.ram).mapError .fault
  let p := t.pipeline.modifyWorkload (drawFrame t.options frame)
  let p ← awaitReply (p.submitWorkload ram t.options.gameRate)
  let p ← awaitReply (p.submitPresent t.screen ram)
  return { t with ram, pipeline := p }

/-- Look at the counters after the last frame. -/
def report (t : Trial) : Except Failure Report := do
  let p := t.pipeline
  let stopped := p.shared.presentSignal.wait p.producer.lastPresentId ≠ some true
  match p.shared.error with
  | some e => if stopped then throw (.refused e)
  | none => pure ()
  return {
    gameRate := t.options.gameRate
    targetRate := p.shared.config.targetRate t.options.gameRate (displayRate t.options)
    stats := p.shared.stats }

/-- Submit all frames. -/
def submitAll (t : Trial) : Except Failure Trial :=
  t.options.workloads.foldM (fun frame _ t => t.submitFrame frame) t

/-- The image in memory at the end, as a picture of three bytes a pixel after a header. -/
def picture (t : Trial) : Except Failure ByteArray :=
  Except.mapError .fault do
    let o := t.options
    let count ← PixelSize.bits16.bytesFor (← word32 (o.width * o.height))
    let bytes := t.ram.extract imageAddress (min (imageAddress + count) t.ram.size)
    let image ← Image.decode bytes .bits16 o.width o.height
    let header := s!"P6\n{image.width} {image.height}\n255\n".toUTF8
    return image.pixels.foldl (fun b c =>
      ((b.push (UInt8.ofNat (Argb.red c))).push (UInt8.ofNat (Argb.green c))).push
        (UInt8.ofNat (Argb.blue c))) header

/-- What a trial run leaves behind. -/
structure Result where
  report : Report
  picture : Option ByteArray
  deriving Inhabited

/-- Look at everything after the last frame. -/
def finish (t : Trial) : Except Failure Result := do
  let report ← t.report
  match t.options.snapshot with
  | some _ => return { report, picture := some (← t.picture) }
  | none => return { report, picture := none }

/-- A trial run. -/
def run (o : Options) (file : Option String) : Except Failure Result := do
  (← (← start o file).submitAll).finish

end Trial

end Scanout
