import Mathlib.Data.List.Forall2
import Scanout.Interpolation.Matcher
import Scanout.Proofs.Interpolation.Pace

/-!
# The ticks of a matcher

A matcher plans workload after workload, and remembers some of them to blend the next ones with.
What it remembers decides whether a workload is blended or shown as it is, but the ticks are those
of the rates alone: `TickCall.Answers` is what they give without any workload at hand.
-/

namespace Scanout

/-- What was done to the ticks. -/
inductive TickEvent where
  /-- a plan was made, and `ticks` are those after it -/
  | plan (rates : Rates) (enabled : Bool) (made : FramePlan) (ticks : Ticks)
  | reset
  deriving DecidableEq, Repr

namespace TickEvent

def call : TickEvent → TickCall
  | plan rates enabled _ _ => .plan rates enabled
  | reset => .reset

/-- What a plan counts: the ticks that were outstanding, and those after it. -/
def pace? : TickEvent → Option (Nat × Ticks)
  | plan _ _ made ticks => some (made.tickGap, ticks)
  | reset => none

/-- The images are those given, or the workload as it is; all else is as given. -/
inductive Shows : TickEvent → TickEvent → Prop
  | plan {rates : Rates} {enabled : Bool} {given made : FramePlan} {ticks : Ticks}
      (tickGap : made.tickGap = given.tickGap)
      (subFrames : made.subFrames = given.subFrames ∨ made.subFrames = [.direct]) :
      Shows (.plan rates enabled given ticks) (.plan rates enabled made ticks)
  | reset : Shows .reset .reset

lemma Shows.pace?_eq {given e : TickEvent} (h : Shows given e) : e.pace? = given.pace? := by
  cases h with
  | plan tickGap => rw [pace?, pace?, tickGap]
  | reset => rfl

lemma pace?_of_shows {given events : List TickEvent} (h : List.Forall₂ Shows given events) :
    events.map pace? = given.map pace? := by
  induction h with
  | nil => rfl
  | cons hshows _ ih => rw [List.map_cons, List.map_cons, hshows.pace?_eq, ih]

end TickEvent

namespace TickCall

variable {calls : List TickCall} {c : TickCall} {given given' : List TickEvent} {t t' : Ticks}

/-- Do one thing more to the ticks. -/
def answer (s : List TickEvent × Ticks) : TickCall → Traced (List TickEvent × Ticks)
  | plan rates enabled => do
    let (made, ticks) ← s.2.plan rates enabled
    return (s.1 ++ [.plan rates enabled made ticks], ticks)
  | reset => return (s.1 ++ [.reset], .zero)

/-- What becomes of the first ticks by the calls. -/
def Answers (calls : List TickCall) (given : List TickEvent) (t : Ticks) : Prop :=
  (calls.foldlM answer ([], .zero)).outcome = .ok (given, t)

lemma Answers.concat (h : Answers calls given t)
    (hc : (answer (given, t) c).outcome = .ok (given', t')) : Answers (calls ++ [c]) given' t' := by
  refine Traced.foldlM_append_eq_ok.mpr ⟨(given, t), h, ?_⟩
  rw [List.foldlM_cons, Traced.bind_eq_ok]
  exact ⟨_, hc, rfl⟩

lemma Answers.unique (h : Answers calls given t) (h' : Answers calls given' t') :
    given' = given ∧ t' = t := by
  have hsame := h'.symm.trans h
  simpa using hsame

end TickCall

namespace Matcher

variable {m m' : Matcher} {w w' : Workload} {target : Nat} {enabled : Bool} {made : FramePlan}
  {events events' : List TickEvent}

/-- The ticks give a plan, and the matcher may replace its images by the workload as it is. -/
lemma plan_eq_ok (h : (m.plan w target enabled).outcome = .ok (made, m')) :
    ∃ given, (m.ticks.plan ⟨w.gameRate, target⟩ (enabled && !w.paused)).outcome =
        .ok (given, m'.ticks) ∧
      made.tickGap = given.tickGap ∧
      (made.subFrames = given.subFrames ∨ made.subFrames = [.direct]) := by
  simp only [plan, Traced.bind_eq_ok] at h
  obtain ⟨⟨given, ticks⟩, hgiven, h⟩ := h
  split at h
  · obtain ⟨rfl, rfl⟩ := Prod.mk.inj (Traced.pure_eq_ok.mp h)
    exact ⟨given, hgiven, rfl, .inl rfl⟩
  · simp only [Traced.bind_eq_ok, Traced.pure_eq_ok] at h
    obtain ⟨_, -, h⟩ := h
    obtain ⟨rfl, rfl⟩ := Prod.mk.inj h
    exact ⟨given, hgiven, rfl, .inr rfl⟩

/-- Planning fails as the ticks do, and for no other reason. -/
lemma plan_eq_error_iff {f : Fault} : (m.plan w target enabled).outcome = .error f ↔
    (m.ticks.plan ⟨w.gameRate, target⟩ (enabled && !w.paused)).outcome = .error f := by
  rw [plan, Traced.bind_eq_error]
  refine or_iff_left ?_
  rintro ⟨⟨given, ticks⟩, -, h⟩
  dsimp only at h
  split at h <;> cases h

/-- A matcher that was new has planned workloads, remembered others in between, and been reset. -/
inductive Loop : List TickEvent → Matcher → Prop
  | new : Loop [] .new
  | plan {events : List TickEvent} {m m' : Matcher} {made : FramePlan} (before : Loop events m)
      (w : Workload) (target : Nat) (enabled : Bool)
      (planned : (m.plan w target enabled).outcome = .ok (made, m')) :
      Loop (events ++ [.plan ⟨w.gameRate, target⟩ (enabled && !w.paused) made m'.ticks]) m'
  | remember {events : List TickEvent} {m : Matcher} (before : Loop events m) (w : Workload) :
      Loop events (m.remember w)
  | reset {events : List TickEvent} {m : Matcher} (before : Loop events m) :
      Loop (events ++ [.reset]) .new

/-- Two matchers have planned in step: at the same pace, with the same images but for workloads that
are shown as they are, and what makes the next plan of the one fail makes that of the other fail. -/
structure InStep (events : List TickEvent) (m : Matcher) (events' : List TickEvent)
    (m' : Matcher) : Prop where
  ticks : m'.ticks = m.ticks
  pace : events'.map TickEvent.pace? = events.map TickEvent.pace?
  given : ∃ given, TickCall.Answers (events.map TickEvent.call) given m.ticks ∧
    List.Forall₂ TickEvent.Shows given events ∧ List.Forall₂ TickEvent.Shows given events'
  fails : ∀ {w w' : Workload} {target : Nat} {enabled : Bool} {f : Fault},
    w'.gameRate = w.gameRate → w'.paused = w.paused →
      ((m'.plan w' target enabled).outcome = .error f ↔
        (m.plan w target enabled).outcome = .error f)

namespace Loop

/-- The ticks give what is planned, but for workloads that are shown as they are. -/
lemma exists_given (h : Loop events m) :
    ∃ given, TickCall.Answers (events.map TickEvent.call) given m.ticks ∧
      List.Forall₂ TickEvent.Shows given events := by
  induction h with
  | new => exact ⟨[], rfl, .nil⟩
  | plan before w target enabled planned ih =>
    obtain ⟨given, hanswers, hshows⟩ := ih
    obtain ⟨next, hnext, hgap, hframes⟩ := plan_eq_ok planned
    rw [List.map_append]
    refine ⟨_, hanswers.concat (c := .plan _ _) (Traced.bind_eq_ok.mpr ⟨_, hnext, rfl⟩), ?_⟩
    exact List.rel_append hshows (.cons (.plan hgap hframes) .nil)
  | remember before w ih => exact ih
  | reset before ih =>
    obtain ⟨given, hanswers, hshows⟩ := ih
    rw [List.map_append]
    exact ⟨_, hanswers.concat (c := .reset) rfl, List.rel_append hshows (.cons .reset .nil)⟩

/-- Two loops with the same calls are in step. -/
lemma inStep (h : Loop events m) (h' : Loop events' m')
    (hcalls : events'.map TickEvent.call = events.map TickEvent.call) :
    InStep events m events' m' := by
  obtain ⟨given, hanswers, hshows⟩ := h.exists_given
  obtain ⟨given', hanswers', hshows'⟩ := h'.exists_given
  rw [hcalls] at hanswers'
  obtain ⟨rfl, hticks⟩ := hanswers.unique hanswers'
  refine ⟨hticks, ?_, ⟨given', hanswers, hshows, hshows'⟩, ?_⟩
  · rw [TickEvent.pace?_of_shows hshows, TickEvent.pace?_of_shows hshows']
  · intro w w' target enabled f hrate hpaused
    rw [plan_eq_error_iff, plan_eq_error_iff, hticks, hrate, hpaused]

end Loop

end Matcher

end Scanout
