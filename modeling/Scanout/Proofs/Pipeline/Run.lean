import Mathlib.Tactic.Lemma
import Scanout.Pipeline.Schedule

/-!
# Runs of the pipeline

A run is any sequence of steps of the two workers, of calls of the producer and of changes of the
host. A call that has to wait for a slot is left pending, and nothing else is called until it has
come to an end. What matters to the order of a run is kept as the list of its events.
-/

namespace Scanout

/-- What the producer may call. -/
inductive ProducerCall where
  /-- change the workload being filled -/
  | fill (f : Workload → Workload)
  | submitWorkload (ram : ByteArray) (gameRate : Nat)
  | submitPresent (screen : Screen) (ram : ByteArray)
  | repeatLastPresent
  | setPaused (paused : Bool)
  | reconfigure (config : Config) (window : Nat × Nat)
  | resetFramebuffers
  | takeError

/-- What may happen to the pipeline from outside, at any time. -/
inductive HostChange where
  /-- the window is another one, or in another state -/
  | window (swapChain : SwapChain)
  /-- the device will be out of memory after so many textures -/
  | memory (count : Nat)
  /-- everybody is told to stop -/
  | shutdown

/-- What may happen next in a run. -/
inductive Action where
  | render
  | present
  /-- the pending call goes on -/
  | resume
  | call (c : ProducerCall)
  | host (change : HostChange)

/-- What has happened in a run. -/
inductive Event where
  | submitted (w : Workload)
  | requested (q : Present)
  /-- the settings were taken over for a workload -/
  | configured (workloadId : Nat)
  /-- commands were recorded for an image of a workload -/
  | recorded (workloadId : Nat) (slot : Slot)
  /-- an image of a workload was made known -/
  | produced (workloadId : Nat) (slot : Slot)
  /-- the render worker moved on in its ring -/
  | workloadConsumed
  /-- a present has waited long enough for its workload -/
  | entered (q : Present)
  /-- a slot was put together for a present -/
  | composed (q : Present) (slot : Slot)
  /-- the signal was raised to a present -/
  | done (presentId : Nat)
  /-- the present worker moved on in its ring -/
  | presentConsumed
  deriving DecidableEq

/-- What has happened so far, in order. -/
abbrev History := List Event

namespace History

/-- The workloads that were published. -/
def submitted (log : History) : List Workload :=
  log.filterMap fun
    | .submitted w => some w
    | _ => none

/-- The presents that were published. -/
def requested (log : History) : List Present :=
  log.filterMap fun
    | .requested q => some q
    | _ => none

/-- The number of workloads that the render worker is done with. -/
def workloadsConsumed (log : History) : Nat := log.count .workloadConsumed

/-- The number of presents that the present worker is done with. -/
def presentsConsumed (log : History) : Nat := log.count .presentConsumed

end History

namespace Pipeline

/-- Perform a call of the producer. -/
def perform (p : Pipeline) : ProducerCall → Pipeline
  | .fill f => p.modifyWorkload f
  | .submitWorkload ram gameRate => (p.submitWorkload ram gameRate).2
  | .submitPresent screen ram => (p.submitPresent screen ram).2
  | .repeatLastPresent => p.repeatLastPresent.2
  | .setPaused paused => p.setPaused paused
  | .reconfigure config window => p.reconfigure config window
  | .resetFramebuffers => p.resetFramebuffers
  | .takeError => p.takeError.2

/-- Tell everybody to stop. -/
def stopAll (p : Pipeline) : Pipeline :=
  { p.modifyShared (·.shutdown) with workloads := p.workloads.stop, presents := p.presents.stop }

/-- Undergo a change of the host. -/
def undergo (p : Pipeline) : HostChange → Pipeline
  | .window swapChain => { p with swapChain }
  | .memory count => p.modifyShared fun s =>
    { s with renderer := { s.renderer with device := s.renderer.device.failAfter count } }
  | .shutdown => p.stopAll

/-- The pipeline after an action, if the action is possible. -/
def act (p : Pipeline) : Action → Option Pipeline
  | .render => p.renderStep
  | .present => p.presentStep
  | .resume => p.producerStep.map (·.2)
  | .call c => if p.producer.pending = none then some (p.perform c) else none
  | .host change => some (p.undergo change)

/-- What the next step of the render worker does, as events. -/
def renderEvents (p : Pipeline) : List Event :=
  match p.render with
  | .configure place => [.configured (p.workloadAt place).id]
  | .draw job =>
    (subFrameAfter job.last job.plan.size p.workloads.blocked).toList.map fun index =>
      .recorded (p.workloadAt job.place).id (job.slot index)
  | .publish job index => [.produced (p.workloadAt job.place).id (job.slot index)]
  | .finish .. => [.workloadConsumed]
  | _ => []

/-- What the next step of the present worker does, as events. -/
def presentEvents (p : Pipeline) : List Event :=
  match p.present with
  | .await _ q => if q.workloadId ≤ p.shared.workloadSignal.value then [.entered q] else []
  | .compose job slot => [.composed job.present slot]
  | .conclude _ id => [.done id]
  | .finish _ => [.presentConsumed]
  | _ => []

/-- What was published in a ring that has become `r'`. -/
def published {α : Type} (r r' : Ring α) : List α :=
  if r'.write = r.write then [] else (r'.slot? r.write).toList

/-- The events of an action that makes the pipeline `q`. -/
def events (p : Pipeline) (a : Action) (q : Pipeline) : List Event :=
  (match a with
    | .render => p.renderEvents
    | .present => p.presentEvents
    | _ => []) ++
  (published p.workloads q.workloads).map .submitted ++
  (published p.presents q.presents).map .requested

/-- The pipeline can come from `start` to another state by a run with the given events. -/
inductive Run (start : Pipeline) : History → Pipeline → Prop where
  | nil : Run start [] start
  | step {log : History} {p q : Pipeline} (before : Run start log p) (a : Action)
      (h : p.act a = some q) : Run start (log ++ p.events a q) q

/-- A run from the start of the pipeline. -/
def Ran (log : History) (p : Pipeline) : Prop :=
  ∃ host config start, Pipeline.start host config = .ok start ∧ Run start log p

/-- Take those actions in a row that are possible. -/
def follow (p : Pipeline) : List Action → History × Pipeline
  | [] => ([], p)
  | a :: actions =>
    match p.act a with
    | some q => (p.events a q ++ (q.follow actions).1, (q.follow actions).2)
    | none => p.follow actions

/-- A row of actions makes a run. -/
lemma Run.follow {start p : Pipeline} {log : History} (h : Run start log p)
    (actions : List Action) :
    Run start (log ++ (p.follow actions).1) (p.follow actions).2 := by
  induction actions generalizing log p with
  | nil => simpa [Pipeline.follow] using h
  | cons a actions ih =>
    cases hact : p.act a with
    | none => simpa only [Pipeline.follow, hact] using ih h
    | some q =>
      simp only [Pipeline.follow, hact]
      rw [← List.append_assoc]
      exact ih (h.step a hact)

/-- A pipeline on a host that offers everything, with settings of the user. -/
def fresh (config : Config) : Pipeline :=
  match start .default config with
  | .ok p => p
  | .error _ => default

/-- What becomes of a fresh pipeline. -/
def sample (config : Config) (actions : List Action) : History × Pipeline :=
  (fresh config).follow actions

lemma start_fresh {config : Config} (h : (start .default config).isOk = true) :
    start .default config = .ok (fresh config) := by
  cases hstart : start .default config with
  | error e => simp [hstart, Except.isOk, Except.toBool] at h
  | ok p => simp only [fresh, hstart]

lemma ran_follow {host : Host} {config : Config} {p : Pipeline} (h : start host config = .ok p)
    (actions : List Action) : Ran (p.follow actions).1 (p.follow actions).2 :=
  ⟨host, config, p, h, by simpa using Run.nil.follow actions⟩

lemma ran_sample {config : Config} (h : (start .default config).isOk = true)
    (actions : List Action) : Ran (sample config actions).1 (sample config actions).2 :=
  ran_follow (start_fresh h) actions

end Pipeline

end Scanout
