import Scanout.Proofs.Pipeline.Handed

/-!
# The deeds of the workers

What the workers do that the producer and each other rely on, in the order of a run: command lists
are handed to the device, workloads are announced, and presents are treated and done. A present is
treated once for every image that it has to show. Mostly the image is shown; otherwise it is skipped
or refused by the window, or there is none, or the screen is blank.
-/

namespace Scanout

/-- What became of an image that a present had to show. -/
inductive Outcome where
  | shown (image : Shown)
  /-- the window could not be presented to -/
  | skipped (image : Shown)
  /-- the window did not take the image -/
  | refused (image : Shown)
  /-- there was no image -/
  | nothing
  /-- the screen shows nothing -/
  | blank
  deriving DecidableEq

/-- What a worker does that others rely on. -/
inductive Deed where
  | handed (d : Delivery)
  | announced (workloadId : Nat)
  | treated (presentId : Nat) (o : Outcome)
  | done (presentId : Nat)
  deriving DecidableEq

/-- An outcome is counted, if it is of a kind that is. -/
def Outcome.count (o : Outcome) (s : Stats) : Stats :=
  match o with
  | .shown _ => { s with framesPresented := Stats.count s.framesPresented 1 }
  | .skipped _ | .blank => { s with presentsSkipped := Stats.count s.presentsSkipped 1 }
  | .refused _ | .nothing => s

/-- The image that the window has taken. -/
def Outcome.shown? : Outcome → Option Shown
  | .shown image => some image
  | _ => none

/-- The slots of one workload among images. -/
def slotsOf (workloadId : Nat) (images : List (Nat × Slot)) : List Slot :=
  images.filterMap fun image => if image.1 = workloadId then some image.2 else none

namespace Deed

/-- What was handed to the device. -/
def deliveries (deeds : List Deed) : List Delivery :=
  deeds.filterMap fun
    | .handed d => some d
    | _ => none

/-- The images of a workload that were handed to the device, in order. -/
def images (workloadId : Nat) (deeds : List Deed) : List Slot :=
  slotsOf workloadId (Delivery.images (deliveries deeds))

/-- The workloads that were announced, in order. -/
def announcements (deeds : List Deed) : List Nat :=
  deeds.filterMap fun
    | .announced v => some v
    | _ => none

/-- The presents that were done, in order. -/
def conclusions (deeds : List Deed) : List Nat :=
  deeds.filterMap fun
    | .done id => some id
    | _ => none

/-- What became of the images of a present, in order. -/
def outcomes (presentId : Nat) (deeds : List Deed) : List Outcome :=
  deeds.filterMap fun
    | .treated id o => if id = presentId then some o else none
    | _ => none

end Deed

namespace Pipeline

/-- What becomes of an image that is to be shown. -/
def outcomeOf (p : Pipeline) (valid : Bool) : Option Shown → Outcome
  | none => .nothing
  | some image =>
    if !valid then .skipped image else if p.swapChain.lost then .refused image else .shown image

/-- What the next step of the present worker makes of the present in hand. -/
def outcome? (p : Pipeline) : Option Outcome :=
  match p.present with
  | .showAgain job => some (p.outcomeOf job.valid p.shared.lastShown)
  | .inspect job => if job.present.screen.visible then none else some .blank
  | .show job image => some (p.outcomeOf job.valid image)
  | _ => none

/-- What the next step of the render worker tells the others. -/
def renderDeeds (p : Pipeline) : List Deed :=
  match p.render with
  | .announce job => [.announced (p.workloadAt job.place).id]
  | _ => []

/-- What the next step of the present worker does for a present. -/
def presentDeeds (p : Pipeline) : List Deed :=
  match p.present with
  | .showAgain job | .inspect job | .show job _ =>
    p.outcome?.toList.map (.treated job.present.id)
  | .conclude _ id => [.done id]
  | _ => []

/-- The deeds of an action. -/
def deeds (p : Pipeline) (a : Action) : List Deed :=
  (p.deliveries a).map .handed ++
    match a with
    | .render => p.renderDeeds
    | .present => p.presentDeeds
    | _ => []

/-- The pipeline can come from `start` to another state by a run with the given events and deeds. -/
inductive DeedRun (start : Pipeline) : History → List Deed → Pipeline → Prop where
  | nil : DeedRun start [] [] start
  | step {log : History} {deeds : List Deed} {p q : Pipeline} (before : DeedRun start log deeds p)
      (a : Action) (h : p.act a = some q) :
      DeedRun start (log ++ p.events a q) (deeds ++ p.deeds a) q

/-- A run from the start of the pipeline, and the deeds of the workers in it. -/
def Acted (log : History) (deeds : List Deed) (p : Pipeline) : Prop :=
  ∃ host config start, Pipeline.start host config = .ok start ∧ DeedRun start log deeds p

/-- The deeds of those actions in a row that are possible. -/
def deedsOf (p : Pipeline) : List Action → List Deed
  | [] => []
  | a :: actions =>
    match p.act a with
    | some q => p.deeds a ++ q.deedsOf actions
    | none => p.deedsOf actions

end Pipeline

/-- What is picked out of a list by its form is in the list in that form. -/
lemma mem_filterMap_iff {α β : Type} {pick : α → Option β} {form : β → α} {l : List α} {b : β}
    (h : ∀ a b, pick a = some b ↔ a = form b) : b ∈ l.filterMap pick ↔ form b ∈ l := by
  simp [List.mem_filterMap, h]

namespace Deed

variable {deeds new : List Deed} {d : Deed} {v id : Nat} {o : Outcome} {slot : Slot}

@[simp] lemma deliveries_append : deliveries (deeds ++ new) = deliveries deeds ++ deliveries new :=
  List.filterMap_append

@[simp] lemma announcements_append :
    announcements (deeds ++ new) = announcements deeds ++ announcements new :=
  List.filterMap_append

@[simp] lemma conclusions_append :
    conclusions (deeds ++ new) = conclusions deeds ++ conclusions new :=
  List.filterMap_append

@[simp] lemma outcomes_append : outcomes id (deeds ++ new) = outcomes id deeds ++ outcomes id new :=
  List.filterMap_append

@[simp] lemma deliveries_map_handed {ds : List Delivery} : deliveries (ds.map .handed) = ds := by
  simp [deliveries, List.filterMap_map]

lemma mem_deliveries {d : Delivery} : d ∈ deliveries deeds ↔ .handed d ∈ deeds :=
  mem_filterMap_iff fun e d => by cases e <;> simp

lemma mem_announcements : v ∈ announcements deeds ↔ .announced v ∈ deeds :=
  mem_filterMap_iff fun e v => by cases e <;> simp

lemma mem_conclusions : id ∈ conclusions deeds ↔ .done id ∈ deeds :=
  mem_filterMap_iff fun e id => by cases e <;> simp

lemma outcomes_eq_nil (h : ∀ o, .treated id o ∉ deeds) : outcomes id deeds = [] := by
  rw [outcomes, List.filterMap_eq_nil_iff]
  intro e he
  cases e with
  | treated id' o =>
    dsimp only
    rw [if_neg]
    rintro rfl
    exact h o he
  | _ => rfl

lemma mem_images : slot ∈ images v deeds ↔ .handed (.image v slot) ∈ deeds := by
  rw [images, ← mem_deliveries, ← Delivery.mem_images, slotsOf, List.mem_filterMap]
  constructor
  · rintro ⟨⟨w, slot'⟩, himage, heq⟩
    dsimp only at heq
    split at heq
    · rename_i hw
      cases heq
      exact hw ▸ himage
    · cases heq
  · intro himage
    exact ⟨_, himage, if_pos rfl⟩

end Deed

namespace History

variable {log : History} {v : Nat}

lemma slotsOf_images : slotsOf v log.images = log.produced v := by
  rw [slotsOf, images, produced, List.filterMap_filterMap]
  refine List.filterMap_congr fun e _ => ?_
  cases e <;> rfl

end History

namespace Shared

variable {s s' : Shared}

lemma stats_render {α : Type} {x : Rendering α} : (s.render x).2.stats = s.stats := by
  unfold render
  cases x s.renderer <;> rfl

lemma stats_compose {screen : Screen} {slot : Slot} {storage : ByteArray}
    {result : Except Stop (Option Shown)} (h : s.compose screen slot storage = (result, s')) :
    s'.stats = s.stats := by
  rcases compose_cases h with ⟨-, -, -, -, -, -, rfl⟩ | ⟨command, shown, hrender, -⟩ | ⟨-, rfl⟩
  · rfl
  · have hstats := stats_render (s := s.pushHistory screen.address)
      (x := Rendering.throughScratch screen command)
    rw [hrender] at hstats
    exact hstats
  · rfl

end Shared

namespace Pipeline

variable {start p q : Pipeline} {log : History} {deeds : List Deed}

lemma deliveries_presentDeeds : Deed.deliveries p.presentDeeds = [] := by
  cases hphase : p.present with
  | showAgain | inspect | «show» =>
    simp only [presentDeeds, hphase]
    cases p.outcome? <;> rfl
  | _ => simp [presentDeeds, hphase, Deed.deliveries]

lemma deliveries_deeds {a : Action} : Deed.deliveries (p.deeds a) = p.deliveries a := by
  have hrender : Deed.deliveries p.renderDeeds = [] := by
    simp only [renderDeeds]
    split <;> rfl
  cases a with
  | render => simp [Pipeline.deeds, hrender]
  | present => simp [Pipeline.deeds, deliveries_presentDeeds]
  | _ => simp [Pipeline.deeds]

/-- What was handed to the device is among the deeds. -/
lemma DeedRun.delivery (h : DeedRun start log deeds p) :
    DeliveryRun start log (Deed.deliveries deeds) p := by
  induction h with
  | nil => exact .nil
  | step _ a hact ih =>
    rw [Deed.deliveries_append, deliveries_deeds]
    exact ih.step a hact

lemma DeedRun.follow (h : DeedRun start log deeds p) (actions : List Action) :
    DeedRun start (log ++ (p.follow actions).1) (deeds ++ p.deedsOf actions)
      (p.follow actions).2 := by
  induction actions generalizing log deeds p with
  | nil => simpa [Pipeline.follow, deedsOf] using h
  | cons a actions ih =>
    cases hact : p.act a with
    | none => simpa only [Pipeline.follow, deedsOf, hact] using ih h
    | some q =>
      simp only [Pipeline.follow, deedsOf, hact]
      rw [← List.append_assoc, ← List.append_assoc]
      exact ih (h.step a hact)

lemma acted_sample {config : Config} (h : (Pipeline.start .default config).isOk = true)
    (actions : List Action) :
    Acted (sample config actions).1 ((fresh config).deedsOf actions) (sample config actions).2 :=
  ⟨.default, config, _, start_fresh h, by simpa [sample] using DeedRun.nil.follow actions⟩

/-! The window and the counters bear the outcomes out. -/

lemma shown_present {image : Shown} :
    ((p.swapChain.present image).toOption.getD p.swapChain).shown =
      (p.outcomeOf true (some image)).shown?.toList ++ p.swapChain.shown := by
  simp only [SwapChain.present, outcomeOf, Bool.not_true, Bool.false_eq_true, if_false]
  split <;> rfl

/-- A step of the present worker makes the window show what it makes of the present in hand. -/
theorem outcomes_shown (h : p.presentStep = some q) :
    q.swapChain.shown = (p.outcome?.bind Outcome.shown?).toList ++ p.swapChain.shown := by
  rw [swapChain_of_presentStep h]
  cases hphase : p.present with
  | showAgain job =>
    simp only [handed?, outcome?, hphase]
    cases job.valid with
    | true =>
      cases p.shared.lastShown with
      | none => rfl
      | some image => exact shown_present
    | false => cases p.shared.lastShown <;> rfl
  | «show» job image =>
    simp only [handed?, outcome?, hphase]
    cases job.valid with
    | true =>
      cases image with
      | none => rfl
      | some image => exact shown_present
    | false => cases image <;> rfl
  | inspect job =>
    simp only [handed?, outcome?, hphase]
    cases job.present.screen.visible <;> rfl
  | _ => simp [handed?, outcome?, hphase]

lemma stats_showImage {image : Shown} {valid : Bool} :
    (p.showImage image valid).2.shared.stats =
      (p.outcomeOf valid (some image)).count p.shared.stats := by
  unfold showImage outcomeOf
  cases valid with
  | false => rfl
  | true =>
    cases hlost : p.swapChain.lost <;>
      simp only [SwapChain.present, modifyShared, Bool.not_true, Bool.false_eq_true, if_false,
        hlost, if_true] <;>
      rfl

/-- A step of the present worker counts what it makes of the present in hand among the images that
were shown, or among those that were skipped, or not at all. -/
theorem outcomes_counted (h : p.presentStep = some q) :
    q.shared.stats.framesPresented =
        (p.outcome?.elim p.shared.stats (·.count p.shared.stats)).framesPresented ∧
      q.shared.stats.presentsSkipped =
        (p.outcome?.elim p.shared.stats (·.count p.shared.stats)).presentsSkipped := by
  simp only [presentStep] at h
  cases hphase : p.present with
  | claim | await | finish =>
    simp only [hphase] at h
    simp only [outcome?, hphase]
    split at h <;> cases h
    all_goals exact ⟨rfl, rfl⟩
  | showAgain job =>
    simp only [hphase] at h
    cases h
    simp only [outcome?, hphase, showLast, Option.elim]
    cases p.shared.lastShown with
    | none => exact ⟨rfl, rfl⟩
    | some image =>
      dsimp only
      rw [stats_showImage]
      exact ⟨rfl, rfl⟩
  | «show» job image =>
    simp only [hphase] at h
    cases h
    simp only [outcome?, hphase, showNext, Option.elim]
    cases image with
    | none => exact ⟨rfl, rfl⟩
    | some image =>
      dsimp only
      rw [stats_showImage]
      exact ⟨rfl, rfl⟩
  | upload job =>
    simp only [hphase] at h
    cases h
    simp only [outcome?, hphase, uploadChanges, Shared.render]
    split
    · exact ⟨rfl, rfl⟩
    · cases Rendering.upload job.present.operations p.shared.renderer with
      | ok => exact ⟨rfl, rfl⟩
      | error e => cases e <;> exact ⟨rfl, rfl⟩
  | inspect job =>
    simp only [hphase] at h
    cases h
    simp only [outcome?, hphase, inspectScreen]
    cases job.present.screen.visible <;> exact ⟨rfl, rfl⟩
  | select job =>
    simp only [hphase, selectImage] at h
    simp only [outcome?, hphase]
    split at h
    · cases h
      exact ⟨rfl, rfl⟩
    · obtain ⟨slot?, -, rfl⟩ := Option.map_eq_some_iff.mp h
      cases slot? <;> exact ⟨rfl, rfl⟩
  | compose job slot =>
    simp only [hphase] at h
    cases h
    simp only [outcome?, hphase, composeImage]
    rcases hcompose : p.shared.compose job.present.screen slot job.present.storage with ⟨result, s⟩
    have hstats : s.stats = p.shared.stats := Shared.stats_compose hcompose
    cases result with
    | ok image =>
      exact ⟨congrArg Stats.framesPresented hstats, congrArg Stats.presentsSkipped hstats⟩
    | error e =>
      cases e <;>
        exact ⟨congrArg Stats.framesPresented hstats, congrArg Stats.presentsSkipped hstats⟩
  | settle job slot image =>
    simp only [hphase] at h
    cases h
    simp only [outcome?, hphase]
    cases slot <;> exact ⟨rfl, rfl⟩
  | enter place present =>
    simp only [hphase] at h
    cases h
    simp only [outcome?, hphase]
    exact ⟨rfl, rfl⟩
  | conclude | release | leave =>
    simp only [hphase] at h
    cases h
    simp only [outcome?, hphase]
    exact ⟨rfl, rfl⟩
  | stopped | lost => simp [hphase] at h

end Pipeline

end Scanout
