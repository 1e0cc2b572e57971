import Mathlib.Data.List.Destutter
import Mathlib.Data.List.DropRight
import Scanout.Proofs.Pipeline.Rendered

/-!
# The addresses remembered as shown

The present worker remembers the addresses of the screens that it has put together last. One that
comes again in a row counts once, and the oldest one makes room. So the worker knows the last four
addresses in succession throughout any run, and where the settings allow it, it shows a target as it
is exactly if the address of the screen is one of them.
-/

namespace Scanout

/-! ### The last elements of a list, and repetitions in a row -/

section Lists

variable {α : Type} {l : List α} {n : Nat}

lemma getLast?_rtake_succ : (l.rtake (n + 1)).getLast? = l.getLast? := by
  cases l using List.reverseRecOn with
  | nil => simp
  | append_singleton l a => rw [List.rtake_concat_succ, List.getLast?_concat, List.getLast?_concat]

lemma tail_rtake_succ (h : n < l.length) : (l.rtake (n + 1)).tail = l.rtake n := by
  rw [List.rtake, List.tail_drop, List.rtake]
  congr 1
  omega

lemma rtake_eq_self (h : l.length ≤ n) : l.rtake n = l := by
  rw [List.rtake, Nat.sub_eq_zero_of_le h, List.drop_zero]

lemma rtake_min_length : l.rtake (min n l.length) = l.rtake n := by
  rw [List.rtake, List.rtake]
  congr 1
  omega

lemma length_rtake : (l.rtake n).length = min n l.length := by
  rw [List.rtake, List.length_drop]
  omega

variable [DecidableEq α]

lemma destutter'_concat (l : List α) (a b : α) :
    (l ++ [b]).destutter' (· ≠ ·) a =
      if (a :: l).getLast? = some b then l.destutter' (· ≠ ·) a
      else l.destutter' (· ≠ ·) a ++ [b] := by
  induction l generalizing a with
  | nil => by_cases h : a = b <;> simp [h]
  | cons c l ih =>
    rw [List.cons_append, List.destutter'_cons, List.destutter'_cons, List.getLast?_cons_cons]
    split
    · rw [ih c]
      split <;> rfl
    · rename_i h
      obtain rfl := not_not.mp h
      exact ih a

/-- One element more is kept unless it is the last one again. -/
lemma destutter_concat (l : List α) (a : α) :
    (l ++ [a]).destutter (· ≠ ·) =
      if l.getLast? = some a then l.destutter (· ≠ ·) else l.destutter (· ≠ ·) ++ [a] := by
  cases l with
  | nil => rfl
  | cons b l => exact destutter'_concat l b a

lemma getLast?_destutter (l : List α) : (l.destutter (· ≠ ·)).getLast? = l.getLast? := by
  induction l using List.reverseRecOn with
  | nil => rfl
  | append_singleton l a ih =>
    rw [destutter_concat, List.getLast?_concat]
    split
    · rename_i hlast
      rw [ih, hlast]
    · exact List.getLast?_concat

end Lists

/-! ### What is remembered of a row of addresses -/

/-- Addresses in succession: one that comes several times in a row counts once. -/
def inSuccession (addresses : List Nat) : List Nat := addresses.destutter (· ≠ ·)

/-- The last four addresses in succession, all if there are no more. -/
def lastAddresses (addresses : List Nat) : List Nat :=
  (inSuccession addresses).rtake (min 4 (inSuccession addresses).length)

namespace History

/-- The addresses of the screens that slots were put together for. -/
def addresses (log : History) : List Nat :=
  log.filterMap fun
    | .composed q _ => some q.screen.address
    | _ => none

@[simp] lemma addresses_append {log log' : History} :
    addresses (log ++ log') = addresses log ++ addresses log' := List.filterMap_append

end History

namespace Shared

variable {s s' : Shared}

/-- Of addresses in succession the last ones are remembered. -/
lemma extendHistory_rtake (l : List Nat) (a : Nat) :
    extendHistory (l.rtake historySize) a =
      (if l.getLast? = some a then l else l ++ [a]).rtake historySize := by
  have hsize : historySize = 3 + 1 := rfl
  rw [extendHistory, hsize, getLast?_rtake_succ]
  split
  · rfl
  · rw [List.rtake_concat_succ, length_rtake]
    split
    · rw [tail_rtake_succ (by omega)]
    · rw [rtake_eq_self (by omega), rtake_eq_self (by omega)]

lemma foldl_extendHistory (addresses : List Nat) :
    addresses.foldl extendHistory [] = lastAddresses addresses := by
  rw [lastAddresses, rtake_min_length]
  induction addresses using List.reverseRecOn with
  | nil => rfl
  | append_singleton addresses a ih =>
    have hsize : historySize = 4 := rfl
    rw [List.foldl_concat, ih, ← hsize, extendHistory_rtake, inSuccession, inSuccession,
      getLast?_destutter, destutter_concat]

/-- Of six addresses, two of them the same in a row, the first is forgotten. -/
example : [1, 2, 2, 3, 4, 5].foldl extendHistory [] = [2, 3, 4, 5] := rfl

lemma history_foldl_pushHistory (addresses : List Nat) :
    (addresses.foldl pushHistory s).history = addresses.foldl extendHistory s.history := by
  induction addresses generalizing s with
  | nil => rfl
  | cons a addresses ih => exact ih

/-- Whatever comes of it, the address of the screen is remembered. -/
lemma history_compose {screen : Screen} {slot : Slot} {storage : ByteArray}
    {result : Except Stop (Option Shown)} (h : s.compose screen slot storage = (result, s')) :
    s'.history = extendHistory s.history screen.address := by
  rcases compose_cases h with ⟨-, -, -, -, -, -, rfl⟩ | ⟨command, shown, hrender, -⟩ | ⟨-, rfl⟩
  · rfl
  · obtain ⟨r, rfl, -⟩ := of_render hrender Rendering.confined_throughScratch
    rfl
  · rfl

end Shared

/-! ### Runs -/

namespace Pipeline

variable {start p q : Pipeline} {log : History}

lemma addresses_renderEvents : History.addresses p.renderEvents = [] := by
  cases hphase : p.render with
  | draw job =>
    simp only [renderEvents, hphase]
    cases subFrameAfter job.last job.plan.size p.workloads.blocked <;> rfl
  | _ => simp [renderEvents, hphase, History.addresses]

lemma addresses_presentEvents (hcompose : ∀ job slot, p.present ≠ .compose job slot) :
    History.addresses p.presentEvents = [] := by
  cases hphase : p.present with
  | compose job slot => exact absurd hphase (hcompose job slot)
  | await place q =>
    simp only [presentEvents, hphase]
    split <;> rfl
  | _ => simp [presentEvents, hphase, History.addresses]

lemma addresses_events {a : Action} (hrender : a ≠ .render) (hpresent : a ≠ .present) :
    History.addresses (p.events a q) = [] := by
  cases a with
  | render => exact absurd rfl hrender
  | present => exact absurd rfl hpresent
  | _ => simp [events, History.addresses, List.filterMap_map]

lemma history_of_renderStep (h : p.renderStep = some q) :
    q.shared.history = p.shared.history := by
  by_cases hconfigure : ∃ place, p.render = .configure place
  · obtain ⟨place, at_⟩ := hconfigure
    simp only [renderStep, at_, Option.some.injEq] at h
    exact h ▸ history_takeConfig
  · exact (sameShown_of_renderStep h (not_exists.mp hconfigure)).history

lemma history_presentStopped (id : Nat) (stop : Stop) :
    (p.presentStopped id stop).shared.history = p.shared.history := by
  cases stop <;> rfl

lemma history_uploadChanges {job : PresentJob} :
    (p.uploadChanges job).shared.history = p.shared.history := by
  unfold uploadChanges
  dsimp only
  split
  · rfl
  · split
    · rename_i shared hrender
      obtain ⟨r, rfl, -⟩ := Shared.of_render hrender Rendering.confined_upload
      rfl
    · rename_i e shared hrender
      obtain ⟨r, rfl, -⟩ := Shared.of_render hrender Rendering.confined_upload
      exact history_presentStopped _ e

lemma history_composeImage {job : PresentJob} {slot : Slot} :
    (p.composeImage job slot).shared.history =
      Shared.extendHistory p.shared.history job.present.screen.address := by
  rcases hcompose : p.shared.compose job.present.screen slot job.present.storage with ⟨result, s⟩
  simp only [composeImage, hcompose]
  cases result with
  | ok image => exact Shared.history_compose hcompose
  | error e => exact (history_presentStopped _ e).trans (Shared.history_compose hcompose)

/-- The present worker remembers an address only when it puts together a slot. -/
lemma history_of_presentStep (h : p.presentStep = some q)
    (hcompose : ∀ job slot, p.present ≠ .compose job slot) :
    q.shared.history = p.shared.history := by
  by_cases hupload : ∃ job, p.present = .upload job
  · obtain ⟨job, at_⟩ := hupload
    simp only [presentStep, at_, Option.some.injEq] at h
    exact h ▸ history_uploadChanges
  · exact (shared_of_presentStep h (not_exists.mp hupload) hcompose).2

/-- Every action remembers the addresses of its events. -/
lemma history_of_act {a : Action} (hact : p.act a = some q) :
    q.shared.history =
      (History.addresses (p.events a q)).foldl Shared.extendHistory p.shared.history := by
  cases a with
  | render =>
    rw [events_render hact, addresses_renderEvents]
    exact history_of_renderStep hact
  | present =>
    rw [events_present hact]
    by_cases hcompose : ∃ job slot, p.present = .compose job slot
    · obtain ⟨job, slot, at_⟩ := hcompose
      simp only [act, presentStep, at_, Option.some.injEq] at hact
      simp only [presentEvents, at_]
      exact hact ▸ history_composeImage
    · have hother : ∀ job slot, p.present ≠ .compose job slot :=
        fun job slot at_ => hcompose ⟨job, slot, at_⟩
      rw [addresses_presentEvents hother]
      exact history_of_presentStep hact hother
  | resume =>
    rw [addresses_events (by simp) (by simp)]
    simp only [act, Option.map_eq_some_iff] at hact
    obtain ⟨⟨reply, q'⟩, hstep, rfl⟩ := hact
    exact (sameWork_producerStep hstep).history
  | call c =>
    rw [addresses_events (by simp) (by simp)]
    simp only [act] at hact
    split at hact <;> cases hact
    exact (sameWork_perform c).history
  | host change =>
    rw [addresses_events (by simp) (by simp)]
    cases hact
    cases change <;> rfl

/-- Along any run the addresses of its events are remembered. -/
lemma Run.history (h : Run start log p) :
    p.shared.history = log.addresses.foldl Shared.extendHistory start.shared.history := by
  induction h with
  | nil => rfl
  | step _ a hact ih => rw [history_of_act hact, ih, History.addresses_append, List.foldl_append]

lemma Ran.history (h : Ran log p) : p.shared.history = lastAddresses log.addresses := by
  obtain ⟨host, config, start, hstart, hrun⟩ := h
  obtain ⟨-, swapChain, rfl⟩ := of_start hstart
  rw [hrun.history, ← Shared.foldl_extendHistory]
  rfl

/-- The image of the scratch target is not that of another one. -/
lemma ne_of_throughScratch {r r' : Renderer} {screen : Screen} {command : TextureId → Command}
    {image : Shown} {t : Target} (hsound : r.Sound) (ht : t ∈ r.targets) (hkey : t.key ≠ .scratch)
    (henlarges : r.Enlarges (· = .scratch) r')
    (h : Rendering.throughScratch screen command r = .ok image r') :
    image.texture ≠ t.texture := by
  intro hsame
  obtain ⟨scratch, hscratch, hscratchKey, htexture⟩ := Rendering.of_throughScratch h
  have heq : scratch = t :=
    henlarges.toSurvives.eq_of_texture hsound ht hscratch (htexture.trans hsame)
  exact hkey (heq ▸ hscratchKey)

/-- If the settings allow that the target of a screen is shown as it is, then it is exactly if the
address of the screen is remembered. -/
lemma composeImage_straight_iff (hsound : p.shared.renderer.Sound) {job : PresentJob} {slot : Slot}
    {t : Target} (himage : p.shared.imageTarget? job.present.screen.address slot = some t)
    (hcolor : t.key.kind = .color) (hskip : p.shared.config.skipBuffering = true) :
    (p.composeImage job slot).present =
        .settle job slot (some ⟨t.texture, job.present.screen.visibleRect⟩) ↔
      job.present.screen.address ∈ p.shared.history := by
  rcases hcompose : p.shared.compose job.present.screen slot job.present.storage with ⟨result, s⟩
  simp only [composeImage, hcompose]
  constructor
  · intro hstraight
    rcases Shared.compose_cases hcompose with ⟨-, -, -, -, hseen, -, -⟩ |
      ⟨command, shown, hrender, rfl⟩ | ⟨rfl, rfl⟩
    · exact hseen
    · obtain ⟨r, rfl, ⟨image, rfl, henlarges, hscratch⟩ | ⟨e, rfl, -⟩⟩ :=
        Shared.of_render hrender Rendering.confined_throughScratch
      · have hne : image.texture ≠ t.texture :=
          ne_of_throughScratch hsound (Shared.mem_of_imageTarget? himage)
            (fun hkey => by simp [hkey, TargetKey.scratch] at hcolor) henlarges hscratch
        cases hstraight
        exact absurd rfl hne
      · cases e <;> cases hstraight
    · cases hstraight
  · intro hseen
    have hsame : (p.shared.pushHistory job.present.screen.address).imageTarget?
        job.present.screen.address slot = some t := himage
    simp only [Shared.compose, hsame] at hcompose
    rw [if_pos ⟨hcolor, hskip, hseen⟩] at hcompose
    cases hcompose
    rfl

/-- Whatever addresses are remembered one after the other, the last four in succession are known.
Throughout a run these are the addresses of the screens that slots were put together for, and the
next slot is shown from its target as it is, where the settings allow it, exactly if the address of
its screen was among the last four before. -/
theorem last_addresses_remembered :
    (∀ (config : Config) (window : Nat × Nat) (renderer : Renderer) (displayRate : Nat)
      (addresses : List Nat),
      (addresses.foldl Shared.pushHistory
        (.new config window renderer displayRate)).history = lastAddresses addresses) ∧
    ∀ {log : History} {p : Pipeline}, Ran log p →
      p.shared.history = lastAddresses log.addresses ∧
      ∀ (job : PresentJob) (slot : Slot) (t : Target), p.present = .compose job slot →
        p.shared.imageTarget? job.present.screen.address slot = some t →
        t.key.kind = .color → p.shared.config.skipBuffering = true →
          (p.presentStep.map Pipeline.present =
              some (.settle job slot (some ⟨t.texture, job.present.screen.visibleRect⟩)) ↔
            job.present.screen.address ∈ lastAddresses log.addresses) := by
  refine ⟨?_, ?_⟩
  · intro config window renderer displayRate addresses
    rw [Shared.history_foldl_pushHistory]
    exact Shared.foldl_extendHistory addresses
  · intro log p hran
    refine ⟨hran.history, ?_⟩
    intro job slot t at_ himage hcolor hskip
    have hstep : p.presentStep = some (p.composeImage job slot) := by simp only [presentStep, at_]
    rw [hstep, Option.map_some, Option.some.injEq, ← hran.history]
    exact composeImage_straight_iff hran.sound himage hcolor hskip

/-- The screen of a pixel that was never drawn. -/
def otherScreen : Screen := { dotScreen with origin := 24 }

/-- A dot is drawn and shown, then another screen, and the dot is about to be shown again. -/
def dotRecalled : List Action :=
  .call (.fill (fillDown 1)) :: .call (.submitWorkload Workload.blankMemory 30) ::
    (List.replicate 14 .render ++
      .call (.submitPresent dotScreen Workload.blankMemory) :: List.replicate 13 .present ++
      .call (.submitPresent otherScreen Workload.blankMemory) :: List.replicate 13 .present ++
      .call (.submitPresent dotScreen Workload.blankMemory) :: List.replicate 6 .present)

/-- The dot comes straight from its target, although another screen was shown in between. -/
theorem recalled_dot_straight :
    let job : PresentJob := ⟨2, ⟨3, dotScreen, 1, [], ByteArray.empty, false⟩, true, false, 1, 0⟩
    Ran (sample .default dotRecalled).1 (sample .default dotRecalled).2 ∧
      (sample .default dotRecalled).2.present = .compose job .main ∧
      (sample .default dotRecalled).2.shared.config.skipBuffering = true ∧
      ∃ t, (sample .default dotRecalled).2.shared.imageTarget? 16 .main = some t ∧
        t.key.kind = .color ∧
        (sample .default dotRecalled).2.presentStep.map Pipeline.present =
          some (.settle job .main (some ⟨t.texture, dotScreen.visibleRect⟩)) := by
  intro job
  have hran : Ran (sample .default dotRecalled).1 (sample .default dotRecalled).2 :=
    ran_sample (by decide +kernel) dotRecalled
  have hat : (sample .default dotRecalled).2.present = .compose job .main := by decide +kernel
  have hskip : (sample .default dotRecalled).2.shared.config.skipBuffering = true := by
    decide +kernel
  have hkind : ((sample .default dotRecalled).2.shared.imageTarget? 16 .main).map (·.key.kind) =
      some .color := by decide +kernel
  obtain ⟨t, himage, hcolor⟩ := Option.map_eq_some_iff.mp hkind
  have hstraight := (last_addresses_remembered.2 hran).2 job .main t hat himage hcolor hskip
  exact ⟨hran, hat, hskip, t, himage, hcolor, hstraight.mpr (by decide +kernel)⟩

end Pipeline

end Scanout
