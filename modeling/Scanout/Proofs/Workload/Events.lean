import Scanout.Proofs.Workload.Operations
import Scanout.Proofs.Workload.Outgrown
import Scanout.Proofs.Workload.Synchronizing

/-!
# Recording an image, event by event

Recording an image is a sequence of events, known before it starts: operations, demands for the
targets that are drawn to, and draws. Each event adds at most one command to the list in hand, so
whatever stands in the list was added by one of the events, with the events before it done.
-/

namespace Scanout

/-- An event in the recording of an image. -/
inductive ImageEvent where
  | operation (op : Operation)
  /-- the target of an image that is drawn to is made large enough -/
  | demand (use : ImageUse)
  | draw (place : Nat) (p : Pair) (call : Call)
  /-- it is noted how the images of a pair were written -/
  | mark

/-- The command is a draw. -/
def Command.isDraw : Command → Bool
  | .draw _ => true
  | _ => false

/-- The draw that an event records, with the place of its pair. -/
def ImageEvent.draw? : ImageEvent → Option (Nat × Call)
  | .draw place _ call => some (place, call)
  | _ => none

namespace Pair

/-- The events of the draws of a pair. -/
def drawEvents (p : Pair) (place : Nat) : List ImageEvent :=
  if p.colorImage.isNone || p.isEmpty then []
  else
    p.imageUses.map .demand ++ p.calls.map (.draw place p) ++ [.mark]

/-- The events of a pair. -/
def events (p : Pair) (place : Nat) : List ImageEvent :=
  p.before.map .operation ++ p.drawEvents place ++ p.after.map .operation

variable {p q : Pair} {place place' : Nat} {call : Call}

lemma of_draw_mem_events (h : .draw place q call ∈ p.events place') :
    place = place' ∧ q = p ∧ call ∈ p.calls := by
  have hops : ∀ ops : List Operation, .draw place q call ∉ ops.map ImageEvent.operation := by
    intro ops h
    obtain ⟨_, -, h⟩ := List.mem_map.mp h
    cases h
  rcases List.mem_append.mp h with h | h
  · replace h := (List.mem_append.mp h).resolve_left (hops _)
    rw [drawEvents] at h
    split at h
    · cases h
    · obtain ⟨hcall, rfl, rfl⟩ : call ∈ p.calls ∧ place' = place ∧ p = q := by simpa using h
      exact ⟨rfl, rfl, hcall⟩
  · exact absurd h (hops _)

/-- When a draw is recorded, all operations before the draws are done, and otherwise only draws. -/
lemma exists_of_draw {done rest : List ImageEvent}
    (h : p.events place' = done ++ .draw place q call :: rest) :
    ∃ more, done = p.before.map .operation ++ more ∧
      more ⊆ p.drawEvents place' ++ p.after.map .operation := by
  rw [events, List.append_assoc, List.append_eq_append_iff] at h
  rcases h with ⟨more, rfl, hmore⟩ | ⟨more, hbefore, hmore⟩
  · rw [hmore]
    exact ⟨more, rfl, List.subset_append_left _ _⟩
  · cases more with
    | nil => exact ⟨[], by simpa using hbefore.symm, List.nil_subset _⟩
    | cons e more =>
      -- the draw would be one of the operations
      obtain ⟨rfl, -⟩ := List.cons.inj hmore
      have hdraw : .draw place q call ∈ p.before.map ImageEvent.operation := by simp [hbefore]
      obtain ⟨_, -, h⟩ := List.mem_map.mp hdraw
      cases h

lemma operation_mem_of_draw {done rest : List ImageEvent}
    (h : p.events place' = done ++ .draw place q call :: rest) {op : Operation}
    (hop : op ∈ p.before) : .operation op ∈ done := by
  obtain ⟨more, rfl, -⟩ := exists_of_draw h
  exact List.mem_append_left _ (List.mem_map_of_mem hop)

end Pair

namespace Workload

/-- The events in the recording of an image. -/
def events (w : Workload) : List ImageEvent :=
  w.pairs.zipIdx.flatMap fun (p, place) => p.events place

/-- The draws of a workload with the places of their pairs, in the order in which they are recorded.
-/
def drawnCalls (w : Workload) : List (Nat × Call) :=
  w.pairs.zipIdx.flatMap fun (p, place) =>
    if p.colorImage.isSome then p.calls.map (place, ·) else []

/-- What an event comes to. -/
inductive Performed (w : Workload) (slot : Slot) : ImageEvent → Renderer → Renderer → Prop where
  | operation {op : Operation} {r r' : Renderer} (recorded : op.Recorded slot r r') :
      Performed w slot (.operation op) r r'
  | demand {use : ImageUse} {r r' : Renderer} {t : Target}
      (requested : Target.Requested use.key slot use.width use.height r t r') :
      Performed w slot (.demand use) r r'
  | draw {place : Nat} {p : Pair} {call : Call} {r : Renderer} {image : ColorImage}
      {color : Target} {draw : Draw} {d : DrawCommand} (isColor : p.colorImage = some image)
      (found : r.find? (.ofImage image.address image.width image.size .color) slot = some color)
      (isDraw : w.draws[call.draw]? = some draw) (drawn : d.color = color.texture)
      (sampled : d.texture = w.binding r slot draw.tile) :
      Performed w slot (.draw place p call) r (r.add (.draw d))
  | mark {r r' : Renderer} (targets : r'.targets = r.targets) (device : r'.device = r.device)
      (commands : r'.commands = r.commands) : Performed w slot .mark r r'

/-- What several events come to, one after the other. -/
inductive Performs (w : Workload) (slot : Slot) : List ImageEvent → Renderer → Renderer → Prop where
  | nil {r : Renderer} : Performs w slot [] r r
  | cons {e : ImageEvent} {events : List ImageEvent} {r r₁ r' : Renderer}
      (first : w.Performed slot e r r₁) (rest : Performs w slot events r₁ r') :
      Performs w slot (e :: events) r r'

variable {w : Workload} {slot : Slot} {e : ImageEvent} {events events' : List ImageEvent}
  {r r' r₁ r₂ : Renderer} {m : Matcher} {s : SubFrame}

/-- An event is one of those of a pair; the events before it are those of the earlier pairs, and
some of that pair. -/
lemma exists_pair {done rest : List ImageEvent} (h : w.events = done ++ e :: rest) :
    ∃ earlier p later done' rest', w.pairs = earlier ++ p :: later ∧
      p.events earlier.length = done' ++ e :: rest' ∧
      done = earlier.zipIdx.flatMap (fun (p, place) => p.events place) ++ done' := by
  have hpairs : ∀ (pairs : List Pair) (start : Nat) (done : List ImageEvent),
      ((pairs.zipIdx start).flatMap fun (p, place) => p.events place) = done ++ e :: rest →
      ∃ earlier p later done' rest', pairs = earlier ++ p :: later ∧
        p.events (start + earlier.length) = done' ++ e :: rest' ∧
        done = (earlier.zipIdx start).flatMap (fun (p, place) => p.events place) ++ done' := by
    intro pairs
    induction pairs with
    | nil =>
      intro start done h
      simp at h
    | cons p pairs ih =>
      intro start done h
      have skip : ∀ done', ((pairs.zipIdx (start + 1)).flatMap fun (p, place) => p.events place) =
          done' ++ e :: rest → done = p.events start ++ done' →
          ∃ earlier q later done' rest', p :: pairs = earlier ++ q :: later ∧
            q.events (start + earlier.length) = done' ++ e :: rest' ∧
            done = (earlier.zipIdx start).flatMap (fun (p, place) => p.events place) ++ done' := by
        intro done' htail hdone
        obtain ⟨earlier, q, later, done₁, rest₁, rfl, hq, rfl⟩ := ih (start + 1) done' htail
        refine ⟨p :: earlier, q, later, done₁, rest₁, rfl, ?_, ?_⟩
        · rw [List.length_cons, Nat.add_comm earlier.length, ← Nat.add_assoc]
          exact hq
        · rw [hdone, List.zipIdx_cons, List.flatMap_cons, List.append_assoc]
      rw [List.zipIdx_cons, List.flatMap_cons, List.append_eq_append_iff] at h
      rcases h with ⟨done', hdone, htail⟩ | ⟨rest', hp, htail⟩
      · exact skip done' htail hdone
      · cases rest' with
        | nil => exact skip [] htail.symm (by simpa using hp.symm)
        | cons e' rest' =>
          obtain ⟨rfl, -⟩ := List.cons.inj htail
          exact ⟨[], p, pairs, done, rest', rfl, hp, rfl⟩
  obtain ⟨earlier, p, later, done', rest', hw, hp, hdone⟩ := hpairs w.pairs 0 done h
  exact ⟨earlier, p, later, done', rest', hw, by rwa [Nat.zero_add] at hp, hdone⟩

namespace Performed

/-- An event makes and enlarges targets only. -/
lemma enlarges (h : w.Performed slot e r r') : r.Enlarges (fun _ => True) r' := by
  have add : ∀ {r₁ : Renderer} {c : Command}, r.Enlarges (fun _ => True) r₁ →
      r.Enlarges (fun _ => True) (r₁.add c) := fun h => h.trans (.of_eq rfl rfl rfl)
  cases h with
  | operation recorded =>
    cases recorded with
    | upload requested => exact add (.of_requested requested trivial)
    | copyTile found requested => exact add (.of_requested requested trivial)
    | copyNothing => exact .of_eq rfl rfl rfl
    | reinterpret isFound kind requested => exact add (.of_requested requested trivial)
    | reinterpretNothing => exact .refl
    | synchronize => exact add .refl
    | synchronizeNothing => exact .refl
  | demand requested => exact .of_requested requested trivial
  | draw => exact add .refl
  | mark targets device => exact .of_eq targets (by rw [device]) (by rw [device])

/-- An event adds at most one command; if this is a draw, then the event is that draw. -/
lemma commands_cases (h : w.Performed slot e r r') :
    r'.commands = r.commands ∨
      ∃ c, r'.commands = r.commands ++ [c] ∧
        ∀ d, c = .draw d → r' = r.add c ∧ ∃ place p call, e = .draw place p call := by
  cases h with
  | operation recorded =>
    cases recorded with
    | upload requested | copyTile _ requested | reinterpret _ _ requested =>
      refine .inr ⟨_, by rw [Renderer.commands_add, Renderer.commands_of_requested requested], ?_⟩
      intro d hd
      cases hd
    | copyNothing | reinterpretNothing | synchronizeNothing => exact .inl rfl
    | synchronize =>
      refine .inr ⟨_, rfl, ?_⟩
      intro d hd
      cases hd
  | demand requested => exact .inl (Renderer.commands_of_requested requested)
  | draw => exact .inr ⟨_, rfl, fun _ _ => ⟨rfl, _, _, _, rfl⟩⟩
  | mark targets device commands => exact .inl commands

/-- A draw is to the color target of its pair, and samples what its tile is bound to. -/
lemma of_draw {place : Nat} {p : Pair} {call : Call} {d : DrawCommand}
    (h : w.Performed slot (.draw place p call) r (r.add (.draw d))) :
    ∃ image color draw, p.colorImage = some image ∧
      r.find? (.ofImage image.address image.width image.size .color) slot = some color ∧
      w.draws[call.draw]? = some draw ∧ d.color = color.texture ∧
      d.texture = w.binding r slot draw.tile := by
  generalize hadd : r.add (.draw d) = r' at h
  cases h with
  | @draw _ _ _ _ image color draw d' isColor found isDraw drawn sampled =>
    have hcommands := congrArg Renderer.commands hadd
    obtain rfl : d = d' := by simpa using hcommands
    exact ⟨image, color, draw, isColor, found, isDraw, drawn, sampled⟩

end Performed

namespace Performs

lemma append (h : w.Performs slot events r r₁) (h' : w.Performs slot events' r₁ r') :
    w.Performs slot (events ++ events') r r' := by
  induction h with
  | nil => exact h'
  | cons first rest ih => exact .cons first (ih h')

lemma of_append (h : w.Performs slot (events ++ events') r r') :
    ∃ r₁, w.Performs slot events r r₁ ∧ w.Performs slot events' r₁ r' := by
  induction events generalizing r with
  | nil => exact ⟨r, .nil, h⟩
  | cons e events ih =>
    cases h with
    | cons first rest =>
      obtain ⟨r₁, hbefore, hafter⟩ := ih rest
      exact ⟨r₁, .cons first hbefore, hafter⟩

lemma of_singleton (h : w.Performed slot e r r') : w.Performs slot [e] r r' := .cons h .nil

lemma enlarges (h : w.Performs slot events r r') : r.Enlarges (fun _ => True) r' := by
  induction h with
  | nil => exact .refl
  | cons first rest ih => exact first.enlarges.trans ih

lemma sound (h : w.Performs slot events r r') (hr : r.Sound) : r'.Sound := h.enlarges.sound hr

/-- What each event keeps holds after all of them. -/
lemma induct {motive : Renderer → Prop} (h : w.Performs slot events r r') (hr : motive r)
    (hstep : ∀ e ∈ events, ∀ r r', motive r → w.Performed slot e r r' → motive r') :
    motive r' := by
  induction h with
  | nil => exact hr
  | cons first rest ih =>
    apply ih (hstep _ List.mem_cons_self _ _ hr first)
    intro e he
    exact hstep e (List.mem_cons_of_mem _ he)

/-- The list in hand is only added to. -/
lemma exists_commands (h : w.Performs slot events r r') :
    ∃ added, r'.commands = r.commands ++ added := by
  apply h.induct (motive := fun r' => ∃ added, r'.commands = r.commands ++ added)
  · exact ⟨[], (List.append_nil _).symm⟩
  · rintro e - r₁ r₂ ⟨added, hadded⟩ he
    rcases he.commands_cases with hc | ⟨c, hc, -⟩
    · exact ⟨added, hc.trans hadded⟩
    · exact ⟨added ++ [c], by rw [hc, hadded, List.append_assoc]⟩

/-- A target that was demanded is there. -/
lemma exists_demanded (h : w.Performs slot events r r') (hr : r.Sound) {use : ImageUse}
    (hdemand : .demand use ∈ events) : ∃ t ∈ r'.targets, t.key = use.key ∧ t.slot = slot := by
  obtain ⟨before, after, rfl⟩ := List.append_of_mem hdemand
  obtain ⟨r₁, hbefore, hrest⟩ := h.of_append
  cases hrest with
  | cons first rest =>
    have hr₁ := hbefore.sound hr
    have hr₂ := first.enlarges.sound hr₁
    cases first with
    | demand requested =>
      obtain ⟨ht, hkey, hslot⟩ := requested.mem
      have hplace := rest.enlarges.places_subset hr₂ (List.mem_map_of_mem ht)
      obtain ⟨t', ht', hplace⟩ := List.mem_map.mp hplace
      obtain ⟨hkey', hslot'⟩ := Prod.mk.inj hplace
      exact ⟨t', ht', hkey'.trans hkey, hslot'.trans hslot⟩

/-- A draw in the list was added by the event of that draw, with the events before it done. -/
lemma exists_draw (h : w.Performs slot events r r') {before after : List Command}
    {d : DrawCommand} (hsplit : r'.commands = before ++ .draw d :: after)
    (hle : r.commands.length ≤ before.length) :
    ∃ done place p call rest r₁, events = done ++ .draw place p call :: rest ∧
      w.Performs slot done r r₁ ∧ r₁.commands = before ∧
      w.Performed slot (.draw place p call) r₁ (r₁.add (.draw d)) ∧
      w.Performs slot rest (r₁.add (.draw d)) r' := by
  induction h with
  | nil =>
    have hlength := congrArg List.length hsplit
    rw [List.length_append, List.length_cons] at hlength
    omega
  | @cons e events r r₁ r' first rest ih =>
    have skip : r₁.commands.length ≤ before.length → ∃ done place p call rest r₁,
        e :: events = done ++ .draw place p call :: rest ∧ w.Performs slot done r r₁ ∧
          r₁.commands = before ∧ w.Performed slot (.draw place p call) r₁ (r₁.add (.draw d)) ∧
          w.Performs slot rest (r₁.add (.draw d)) r' := by
      intro hle
      obtain ⟨done, place, p, call, later, r₂, rfl, hdone, hlater⟩ := ih hsplit hle
      exact ⟨e :: done, place, p, call, later, r₂, rfl, .cons first hdone, hlater⟩
    rcases first.commands_cases with hc | ⟨c, hc, hdraw⟩
    · exact skip (hc ▸ hle)
    · by_cases hlt : r.commands.length < before.length
      · exact skip (by rw [hc, List.length_append]; exact hlt)
      · -- the command that the first event adds is the draw
        obtain ⟨added, hadded⟩ := rest.exists_commands
        rw [hadded, hc, List.append_assoc, List.singleton_append] at hsplit
        obtain ⟨hbefore, hcons⟩ := List.append_inj hsplit (by omega)
        obtain ⟨rfl, -⟩ := List.cons.inj hcons
        obtain ⟨rfl, place, p, call, rfl⟩ := hdraw d rfl
        exact ⟨[], place, p, call, events, r, rfl, .nil, hbefore, first, rest⟩

/-- Each draw event adds a draw, and no other event does. -/
lemma countP_isDraw (h : w.Performs slot events r r') :
    r'.commands.countP Command.isDraw =
      r.commands.countP Command.isDraw + (events.filterMap ImageEvent.draw?).length := by
  have add : ∀ (r : Renderer) (c : Command), (r.add c).commands.countP Command.isDraw =
      r.commands.countP Command.isDraw + if c.isDraw then 1 else 0 := by
    intro r c
    rw [Renderer.commands_add, List.countP_append, List.countP_singleton]
  have event : ∀ {e r r'}, w.Performed slot e r r' → r'.commands.countP Command.isDraw =
      r.commands.countP Command.isDraw + e.draw?.toList.length := by
    intro e r r' h
    cases h with
    | operation recorded =>
      cases recorded with
      | upload requested | copyTile _ requested | reinterpret _ _ requested =>
        rw [add, Renderer.commands_of_requested requested]
        rfl
      | copyNothing | reinterpretNothing | synchronizeNothing => rfl
      | synchronize =>
        rw [add]
        rfl
    | demand requested =>
      rw [Renderer.commands_of_requested requested]
      rfl
    | draw =>
      rw [add]
      rfl
    | mark targets device commands =>
      rw [commands]
      rfl
  induction h with
  | nil => rfl
  | @cons e events _ _ _ first rest ih =>
    rw [ih, event first]
    cases he : e.draw? <;> simp [he, Nat.add_assoc, Nat.add_comm 1]

end Performs

/-- Operations are recorded one by one. -/
lemma performs_operations {ops : List Operation}
    (h : (ops.map ImagePart.operation).forM (w.recordPart m s slot) r = .ok () r') :
    w.Performs slot (ops.map .operation) r r' := by
  induction ops generalizing r with
  | nil =>
    obtain rfl := Rendering.forM_nil_eq_ok.mp h
    exact .nil
  | cons op ops ih =>
    obtain ⟨r₁, hop, h⟩ := Rendering.forM_cons_eq_ok.mp h
    exact .cons (.operation (.of_record hop)) (ih h)

/-- Draws are recorded one by one, into targets that stay. -/
lemma performs_calls {place : Nat} {p : Pair} {image : ColorImage} {color : Target}
    {depth : Option Target} {calls : List Call} (himage : p.colorImage = some image)
    (hcolor : r.find? (.ofImage image.address image.width image.size .color) slot = some color)
    (h : calls.forM (w.recordCall m s slot place color depth) r = .ok () r') :
    w.Performs slot (calls.map (.draw place p)) r r' := by
  induction calls generalizing r with
  | nil =>
    obtain rfl := Rendering.forM_nil_eq_ok.mp h
    exact .nil
  | cons call calls ih =>
    obtain ⟨r₁, hcall, h⟩ := Rendering.forM_cons_eq_ok.mp h
    obtain ⟨draw, d, hdraw, hd, -, htexture, rfl⟩ := of_recordCall hcall
    exact .cons (.draw himage hcolor hdraw hd htexture) (ih hcolor h)

lemma performs_recordDraws {place : Nat} {p : Pair} (hr : r.Sound)
    (h : w.recordDraws m s slot place p r = .ok () r') :
    w.Performs slot (p.drawEvents place) r r' := by
  rcases of_recordDraws h with ⟨hnone, rfl⟩ | ⟨image, color, r₁, depth, r₂, s', r₃, hi, he, hcolor,
    hdepth, hcalls, ht, hdev, hc⟩
  · have hevents : p.drawEvents place = [] := by
      rcases hnone with hi | he
      · simp [Pair.drawEvents, hi]
      · simp [Pair.drawEvents, he]
    rw [hevents]
    exact .nil
  · have hfound := Renderer.find?_self_of_requested hcolor
    have hmark : w.Performs slot [.mark] r₃ r' := .of_singleton (.mark ht hdev hc)
    simp only [Pair.drawEvents, Pair.imageUses, hi, he, Option.isNone_some, Bool.or_self,
      Bool.false_eq_true, if_false, List.map_cons, List.append_assoc, List.cons_append]
    refine .cons (.demand hcolor) ?_
    rcases of_depthTarget? hdepth with ⟨hw, rfl, rfl⟩ | ⟨address, t, hw, rfl, hreq⟩
    · simp only [hw, Option.toList_none, List.map_nil, List.nil_append]
      exact (performs_calls hi hfound hcalls).append hmark
    · simp only [hw, Option.toList_some, List.map_cons, List.map_nil, List.cons_append,
        List.nil_append]
      refine .cons (.demand hreq) ((performs_calls hi ?_ hcalls).append hmark)
      rw [Renderer.find?_of_requested (hr.requested hcolor) hreq ?_]
      · exact hfound
      · simp [TargetKey.ofImage, TargetKind.ofWrite]

lemma performs_recordParts {pairs : List (Pair × Nat)} (hr : r.Sound)
    (h : (pairs.flatMap fun (p, place) => p.before.map ImagePart.operation ++
      .draws place p :: p.after.map .operation).forM (w.recordPart m s slot) r = .ok () r') :
    w.Performs slot (pairs.flatMap fun (p, place) => p.events place) r r' := by
  induction pairs generalizing r with
  | nil =>
    obtain rfl := Rendering.forM_nil_eq_ok.mp h
    exact .nil
  | cons pair pairs ih =>
    obtain ⟨p, place⟩ := pair
    simp only [List.flatMap_cons, Rendering.forM_append_eq_ok, Rendering.forM_cons_eq_ok] at h
    obtain ⟨r₄, ⟨r₁, hbefore, r₂, hdraws, hafter⟩, hrest⟩ := h
    have hbefore := performs_operations hbefore
    have hdraws := performs_recordDraws (hbefore.sound hr) hdraws
    have hpair : w.Performs slot (p.events place) r r₄ :=
      (hbefore.append hdraws).append (performs_operations hafter)
    exact hpair.append (ih (hpair.sound hr) hrest)

/-- Recording an image performs its events, starting from an empty list. -/
lemma performs_recordImage (hr : r.Sound) (h : w.recordImage m s slot r = .ok () r') :
    w.Performs slot w.events { r with commands := [] } r' :=
  performs_recordParts (hr.congr rfl rfl rfl) (recordImage_eq_ok.mp h)

/-- The draws are recorded in the order of the pairs. -/
lemma filterMap_draw?_events : w.events.filterMap ImageEvent.draw? = w.drawnCalls := by
  have hpair : ∀ (p : Pair) (place : Nat), (p.events place).filterMap ImageEvent.draw? =
      if p.colorImage.isSome then p.calls.map (place, ·) else [] := by
    intro p place
    have hops : ∀ ops : List Operation,
        (ops.map ImageEvent.operation).filterMap ImageEvent.draw? = [] := by
      intro ops
      simp [ImageEvent.draw?]
    have hdemands : (p.imageUses.map ImageEvent.demand).filterMap ImageEvent.draw? = [] := by
      simp [ImageEvent.draw?]
    have hcalls : (p.calls.map (ImageEvent.draw place p)).filterMap ImageEvent.draw? =
        p.calls.map (place, ·) := by
      rw [List.filterMap_map]
      exact congrFun List.filterMap_eq_map _
    rw [Pair.events, List.filterMap_append, List.filterMap_append, hops, hops, List.append_nil,
      List.nil_append, Pair.drawEvents]
    cases himage : p.colorImage with
    | none => simp
    | some image =>
      by_cases hempty : p.isEmpty = true
      · have hcalls : p.calls = [] := List.isEmpty_iff.mp hempty
        simp [hempty, hcalls]
      · simp [hempty, hdemands, hcalls, ImageEvent.draw?]
  rw [events, List.filterMap_flatMap, drawnCalls]
  exact List.flatMap_congr fun x _ => hpair x.1 x.2

/-- A draw in the list of an image is the one of its number, and the events before it are done. -/
lemma exists_drawn (hr : r.Sound) (h : w.recordImage m s slot r = .ok () r')
    {before after : List Command} {d : DrawCommand}
    (hsplit : r'.commands = before ++ .draw d :: after) :
    ∃ done place p call rest r₁,
      w.drawnCalls[before.countP Command.isDraw]? = some (place, call) ∧
      w.events = done ++ .draw place p call :: rest ∧
      w.Performs slot done { r with commands := [] } r₁ ∧ r₁.commands = before ∧
      w.Performed slot (.draw place p call) r₁ (r₁.add (.draw d)) ∧
      w.Performs slot rest (r₁.add (.draw d)) r' := by
  obtain ⟨done, place, p, call, rest, r₁, hevents, hdone, rfl, hdraw, hrest⟩ :=
    (performs_recordImage hr h).exists_draw hsplit (Nat.zero_le _)
  refine ⟨done, place, p, call, rest, r₁, ?_, hevents, hdone, rfl, hdraw, hrest⟩
  have hcount := hdone.countP_isDraw
  rw [← filterMap_draw?_events, hevents, List.filterMap_append, List.filterMap_cons]
  simp [hcount, ImageEvent.draw?]

end Workload

end Scanout
