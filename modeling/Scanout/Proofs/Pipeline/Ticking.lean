import Scanout.Proofs.Interpolation.Loop
import Scanout.Proofs.Pipeline.Copying

/-!
# Ticks that do not drift

The render worker plans each workload in hand with its matcher, remembers it once it is drawn, and
takes a new matcher where settings without interpolation are taken over. Which of the images planned
are drawn is decided afterwards. So the ticks of two pipelines agree as soon as their plans were
asked for at the same rates, however different the workloads are, and however the producers wait.
-/

namespace Scanout

namespace Pipeline

/-- What a step of the render worker to another pipeline does to the ticks. -/
def renderTicks (p q : Pipeline) : List TickEvent :=
  match p.render with
  | .configure _ =>
    if p.shared.revision = p.revision ∨ p.shared.config.frameInterpolation = true then []
    else [.reset]
  | .plan place =>
    match q.render with
    | .draw job =>
      let w := p.workloadAt place
      let config := p.shared.config
      [.plan ⟨w.gameRate, config.targetRate w.gameRate p.shared.displayRate⟩
        (config.frameInterpolation && !w.paused) job.plan q.matcher.ticks]
    | _ => []
  | _ => []

/-- What an action that makes the pipeline `q` does to the ticks. -/
def ticksOf (p : Pipeline) (a : Action) (q : Pipeline) : List TickEvent :=
  match a with
  | .render => p.renderTicks q
  | _ => []

/-- What is done to the ticks by those actions in a row that are possible. -/
def ticked (p : Pipeline) : List Action → List TickEvent
  | [] => []
  | a :: actions =>
    match p.act a with
    | some q => p.ticksOf a q ++ q.ticked actions
    | none => p.ticked actions

variable {p q : Pipeline} {events : List TickEvent}

lemma renderTicks_of_other (hconfigure : ∀ place, p.render ≠ .configure place)
    (hplan : ∀ place, p.render ≠ .plan place) : p.renderTicks q = [] := by
  cases hphase : p.render with
  | configure place => exact absurd hphase (hconfigure place)
  | plan place => exact absurd hphase (hplan place)
  | _ => simp [renderTicks, hphase]

/-! The render worker moves the matcher where it takes over settings, plans and concludes. -/

lemma matcher_takeConfig : p.takeConfig.matcher =
    if p.shared.revision = p.revision ∨ p.shared.config.frameInterpolation = true then p.matcher
    else .new := by
  unfold takeConfig
  by_cases hrevision : p.shared.revision = p.revision
  · simp [hrevision]
  · simp only [hrevision, if_false, false_or]
    split <;> rfl

lemma matcher_drawImage {job : RenderJob} : (p.drawImage job).matcher = p.matcher := by
  obtain ⟨renderer, ⟨phase, h⟩ | ⟨stop, h⟩⟩ := p.drawImage_eq job
  · rw [h]
  · rw [h]
    cases stop <;> rfl

lemma matcher_concludeWorkload {job : RenderJob} :
    (p.concludeWorkload job).matcher = p.matcher.remember (p.workloadAt job.place) := by
  obtain ⟨notes, stats, h⟩ := p.concludeWorkload_eq job
  rw [h]

/-- The matcher's plan of the workload at a place. -/
def planAt (p : Pipeline) (place : Nat) : Traced (FramePlan × Matcher) :=
  let w := p.workloadAt place
  let config := p.shared.config
  p.matcher.plan w (config.targetRate w.gameRate p.shared.displayRate) config.frameInterpolation

/-- The plan is made by the matcher, or the worker is lost and the matcher is as before. -/
lemma planImages_cases (p : Pipeline) (place : Nat) :
    (∃ made m, (p.planAt place).outcome = .ok (made, m) ∧ (p.planImages place).matcher = m ∧
      (p.planImages place).render = .draw ⟨place, made, none, [], 0⟩) ∨
    (p.planImages place).matcher = p.matcher ∧ (p.planImages place).render = .lost := by
  unfold planImages
  dsimp only
  split
  · rename_i f p' hplan
    obtain ⟨-, rfl⟩ := Prod.mk.inj hplan
    exact .inr ⟨rfl, rfl⟩
  · rename_i made m p' hplan
    obtain ⟨hok, rfl⟩ := Prod.mk.inj hplan
    exact .inl ⟨made, m, hok, rfl, rfl⟩

lemma loop_planImages {place : Nat} (h : Matcher.Loop events p.matcher)
    (at_ : p.render = .plan place) :
    Matcher.Loop (events ++ p.renderTicks (p.planImages place)) (p.planImages place).matcher := by
  rcases p.planImages_cases place with ⟨made, m, hplan, hmatcher, hrender⟩ | ⟨hmatcher, hrender⟩
  · rw [hmatcher]
    simp only [renderTicks, at_, hrender, hmatcher]
    exact h.plan _ _ _ hplan
  · rw [hmatcher]
    simp only [renderTicks, at_, hrender, List.append_nil]
    exact h

/-- Elsewhere the matcher at most remembers a workload. -/
lemma matcher_of_renderStep (hstep : p.renderStep = some q)
    (hconfigure : ∀ place, p.render ≠ .configure place) (hplan : ∀ place, p.render ≠ .plan place) :
    q.matcher = p.matcher ∨ ∃ w, q.matcher = p.matcher.remember w := by
  simp only [renderStep] at hstep
  cases hphase : p.render with
  | configure place => exact absurd hphase (hconfigure place)
  | plan place => exact absurd hphase (hplan place)
  | claim | await | finish =>
    simp only [hphase] at hstep
    split at hstep <;> cases hstep
    all_goals exact .inl rfl
  | draw job =>
    simp only [hphase] at hstep
    cases hstep
    exact .inl matcher_drawImage
  | conclude job =>
    simp only [hphase] at hstep
    cases hstep
    exact .inr ⟨_, matcher_concludeWorkload⟩
  | stopped | lost => simp [hphase] at hstep
  | _ =>
    simp only [hphase] at hstep
    cases hstep
    exact .inl rfl

/-- Every step of the render worker does to the matcher what it does to the ticks. -/
lemma loop_of_renderStep (h : Matcher.Loop events p.matcher) (hstep : p.renderStep = some q) :
    Matcher.Loop (events ++ p.renderTicks q) q.matcher := by
  by_cases hmoves : (∃ place, p.render = .configure place) ∨ ∃ place, p.render = .plan place
  · rcases hmoves with ⟨place, at_⟩ | ⟨place, at_⟩
    · simp only [renderStep, at_, Option.some.injEq] at hstep
      subst hstep
      simp only [renderTicks, at_]
      rw [matcher_takeConfig]
      split
      · rwa [List.append_nil]
      · exact h.reset
    · simp only [renderStep, at_, Option.some.injEq] at hstep
      subst hstep
      exact loop_planImages h at_
  · obtain ⟨hconfigure, hplan⟩ := not_or.mp hmoves
    push Not at hconfigure hplan
    rw [renderTicks_of_other hconfigure hplan, List.append_nil]
    rcases matcher_of_renderStep hstep hconfigure hplan with hsame | ⟨w, hremembered⟩
    · rwa [hsame]
    · rw [hremembered]
      exact h.remember w

/-- Every action does to the matcher what it does to the ticks. -/
lemma loop_act {a : Action} (h : Matcher.Loop events p.matcher) (hact : p.act a = some q) :
    Matcher.Loop (events ++ p.ticksOf a q) q.matcher := by
  cases a with
  | render => exact loop_of_renderStep h hact
  | present =>
    rw [(sameOthers_of_presentStep hact).2]
    simpa only [ticksOf, List.append_nil] using h
  | resume =>
    simp only [act, Option.map_eq_some_iff] at hact
    obtain ⟨⟨reply, q'⟩, hstep, rfl⟩ := hact
    rw [(sameWork_producerStep hstep).matcher]
    simpa only [ticksOf, List.append_nil] using h
  | call c =>
    simp only [act] at hact
    split at hact <;> cases hact
    rw [(sameWork_perform c).matcher]
    simpa only [ticksOf, List.append_nil] using h
  | host change =>
    cases hact
    rw [show (p.undergo change).matcher = p.matcher by cases change <;> rfl]
    simpa only [ticksOf, List.append_nil] using h

/-- Along any run, the matcher is one that has done what was done to the ticks. -/
lemma loop_follow (h : Matcher.Loop events p.matcher) (actions : List Action) :
    Matcher.Loop (events ++ p.ticked actions) (p.follow actions).2.matcher := by
  induction actions generalizing events p with
  | nil => simpa only [ticked, follow, List.append_nil] using h
  | cons a actions ih =>
    simp only [ticked, follow]
    cases hact : p.act a with
    | none => exact ih h
    | some q =>
      dsimp only
      rw [← List.append_assoc]
      exact ih (loop_act h hact)

/-- The ticks of a pipeline are those of a matcher that was new. -/
lemma loop_of_start {host : Host} {config : Config} {start : Pipeline}
    (hstart : Pipeline.start host config = .ok start) (actions : List Action) :
    Matcher.Loop (start.ticked actions) (start.follow actions).2.matcher := by
  obtain ⟨-, swapChain, rfl⟩ := of_start hstart
  have hnew : Matcher.Loop [] (initial host.limits config swapChain).matcher := .new
  exact loop_follow hnew actions

/-- What is planned is in step as soon as it was asked for at the same rates: for any two matchers,
and for the matchers of any two runs of the pipeline. -/
theorem ticks_never_drift :
    (∀ {events events' : List TickEvent} {m m' : Matcher}, Matcher.Loop events m →
      Matcher.Loop events' m' → events'.map TickEvent.call = events.map TickEvent.call →
        Matcher.InStep events m events' m') ∧
    ∀ {host host' : Host} {config config' : Config} {start start' : Pipeline}
      (actions actions' : List Action), Pipeline.start host config = .ok start →
      Pipeline.start host' config' = .ok start' →
      (start'.ticked actions').map TickEvent.call = (start.ticked actions).map TickEvent.call →
        Matcher.InStep (start.ticked actions) (start.follow actions).2.matcher
          (start'.ticked actions') (start'.follow actions').2.matcher := by
  refine ⟨fun h h' hcalls => h.inStep h' hcalls, ?_⟩
  intro host host' config config' start start' actions actions' hstart hstart' hcalls
  have hloop := loop_of_start hstart actions
  have hloop' := loop_of_start hstart' actions'
  exact hloop.inStep hloop' hcalls

/-- Images at the rate of the display, and a ring of three workloads. -/
def smooth : Config := { Config.default with refreshRate := .display, workloadRingSize := 3 }

/-- An empty workload is submitted. -/
def submission : Action := .call (.submitWorkload blankRam 30)

/-- Three workloads, each drawn before the next is submitted. -/
def unhurried : List Action :=
  (List.replicate 3 (submission :: List.replicate 16 .render)).flatten

/-- Three workloads, the last with another shape. The producer waits for its slot while the first
two are drawn. -/
def hurried : List Action :=
  [submission, submission, .call (.fill (drawOver 0 none)), submission] ++
    List.replicate 32 .render ++ .resume :: List.replicate 16 .render

/-- Images are left out for a producer that waits, and a workload with another shape is shown as it
is, and the ticks are those of the workloads that are blended and drawn at leisure. -/
theorem hurried_ticks_in_step :
    Matcher.InStep ((fresh smooth).ticked unhurried)
        ((fresh smooth).follow unhurried).2.matcher ((fresh smooth).ticked hurried)
        ((fresh smooth).follow hurried).2.matcher ∧
      (fresh smooth).ticked hurried ≠ (fresh smooth).ticked unhurried ∧
      ((fresh smooth).follow unhurried).2.shared.stats.subFramesSkipped = 0 ∧
      ((fresh smooth).follow hurried).2.shared.stats.subFramesSkipped = 1 := by
  have hstart : Pipeline.start .default smooth = .ok (fresh smooth) :=
    start_fresh (by decide +kernel)
  refine ⟨ticks_never_drift.2 unhurried hurried hstart hstart (by decide +kernel), ?_⟩
  decide +kernel

end Pipeline

end Scanout
