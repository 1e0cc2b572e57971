import Scanout.Proofs.Target.Lookup
import Scanout.Proofs.Workload.Events

/-!
# Images drawn to in several formats

When an image is drawn to in another format, the target of the format before stays. A lookup by
address does not tell the formats apart. So it answers with the target that was drawn to last,
whatever order the targets are visited in, exactly if no target of another format is left; otherwise
each format that was drawn before is found in some order.
-/

namespace Scanout

/-- The targets drawn to as colors, with their slots, in the order of the draws. -/
abbrev DrawLog := List (TargetKey × Slot)

namespace DrawLog

variable {log : DrawLog} {address : Nat} {slot : Slot} {key : TargetKey}

/-- The key under which an image was drawn to last. -/
def latest? (log : DrawLog) (address : Nat) (slot : Slot) : Option TargetKey :=
  ((log.filter fun d => d.1.address = address && d.2 = slot).map Prod.fst).getLast?

lemma of_latest? (h : log.latest? address slot = some key) :
    (key, slot) ∈ log ∧ key.address = address := by
  obtain ⟨d, hd, rfl⟩ := List.mem_map.mp (List.mem_of_getLast? h)
  obtain ⟨hmem, hd⟩ := List.mem_filter.mp hd
  simp only [Bool.and_eq_true, decide_eq_true_eq] at hd
  obtain ⟨haddress, rfl⟩ := hd
  exact ⟨hmem, haddress⟩

end DrawLog

namespace ImagePart

variable {slot : Slot} {part : ImagePart} {d : TargetKey × Slot}

/-- What a part draws to. -/
def drawn (slot : Slot) : ImagePart → DrawLog
  | .operation _ => []
  | .draws _ p =>
    match p.colorImage with
    | some image =>
      if p.isEmpty then []
      else [(.ofImage image.address image.width image.size .color, slot)]
    | none => []

/-- What is drawn to is a color target that the part demands. -/
lemma of_mem_drawn (h : d ∈ part.drawn slot) :
    ∃ place p use, part = .draws place p ∧ .demand use ∈ p.drawEvents place ∧
      use.key = d.1 ∧ use.type = .color ∧ d.2 = slot := by
  cases part with
  | operation => cases h
  | draws place p =>
    simp only [drawn] at h
    split at h
    · rename_i image himage
      split at h
      · cases h
      · rename_i hempty
        obtain rfl := List.mem_singleton.mp h
        refine ⟨place, p, ⟨image.address, image.size, image.width, p.drawHeight, .color⟩, rfl, ?_,
          rfl, rfl, rfl⟩
        simp [Pair.drawEvents, Pair.imageUses, himage, hempty]
    · cases h

end ImagePart

/-- A run of the renderer, and what was drawn to since all targets were last given up. Images are
recorded part by part. -/
inductive Renderer.Run (limits : DeviceLimits) : DrawLog → Renderer → Prop where
  | new (config : TargetConfig) : Run limits [] (.new (.new limits) config)
  | begin {log : DrawLog} {r : Renderer} (before : Run limits log r) :
      Run limits log { r with commands := [] }
  | part {log : DrawLog} {r r' : Renderer} {w : Workload} {m : Matcher} {s : SubFrame} {slot : Slot}
      {part : ImagePart} (before : Run limits log r)
      (recorded : w.recordPart m s slot part r = .ok () r') :
      Run limits (log ++ part.drawn slot) r'
  | submit {log : DrawLog} {r r' : Renderer} (before : Run limits log r)
      (submitted : Rendering.submit r = .ok () r') : Run limits log r'
  | upload {log : DrawLog} {r r' : Renderer} {ops : List Operation} (before : Run limits log r)
      (uploaded : Rendering.upload ops r = .ok () r') : Run limits log r'
  | fill {log : DrawLog} {r r' : Renderer} {screen : Screen} {command : TextureId → Command}
      {shown : Shown} (before : Run limits log r)
      (filled : Rendering.throughScratch screen command r = .ok shown r') : Run limits log r'
  | configured {log : DrawLog} {r : Renderer} {config : TargetConfig} (before : Run limits log r)
      (changed : (r.setConfig config).1 = true) : Run limits [] (r.setConfig config).2

/-- Each target that was drawn to is still in its place. -/
structure Renderer.Logged (log : DrawLog) (r : Renderer) : Prop where
  sound : r.Sound
  places : log ⊆ r.targets.map Target.place
  colors : ∀ d ∈ log, d.1.kind = .color

/-- What an image draws to. -/
def Workload.drawnIn (w : Workload) (slot : Slot) : DrawLog := w.imageParts.flatMap (·.drawn slot)

namespace Renderer

variable {limits : DeviceLimits} {log : DrawLog} {r r' : Renderer} {slot : Slot} {key : TargetKey}
  {w : Workload} {m : Matcher} {s : SubFrame} {part : ImagePart} {touched : TargetKey → Prop}

namespace Logged

lemma nil (hr : r.Sound) : r.Logged [] where
  sound := hr
  places := List.nil_subset _
  colors d hd := by cases hd

lemma enlarges (h : r.Logged log) (henlarges : r.Enlarges touched r') : r'.Logged log where
  sound := henlarges.sound h.sound
  places := List.Subset.trans h.places (henlarges.places_subset h.sound)
  colors := h.colors

/-- A part makes and enlarges targets only, among them those that it draws to. -/
lemma recordPart (h : r.Logged log) (recorded : w.recordPart m s slot part r = .ok () r') :
    r'.Logged (log ++ part.drawn slot) := by
  have henlarges : r.Enlarges TargetKey.IsOfImage r' := by
    cases part with
    | operation op => exact op.confined_record.enlarges recorded
    | draws place p => exact Workload.confined_recordDraws.enlarges recorded
  have h' := h.enlarges henlarges
  refine ⟨h'.sound, List.append_subset.mpr ⟨h'.places, fun d hd => ?_⟩, fun d hd => ?_⟩
  · obtain ⟨place, p, use, rfl, hdemand, hkey, -, rfl⟩ := ImagePart.of_mem_drawn hd
    have hperforms := Workload.performs_recordDraws h.sound recorded
    obtain ⟨t, ht, htk, hts⟩ := hperforms.exists_demanded h.sound hdemand
    exact List.mem_map.mpr ⟨t, ht, Prod.ext (htk.trans hkey) hts⟩
  · rcases List.mem_append.mp hd with hd | hd
    · exact h.colors d hd
    · obtain ⟨_, _, use, -, -, hkey, htype, -⟩ := ImagePart.of_mem_drawn hd
      simp [← hkey, ImageUse.key, TargetKey.ofImage, TargetKind.ofWrite, htype]

lemma exists_holds (h : r.Logged log) (hkey : (key, slot) ∈ log) :
    ∃ t, t.key = key ∧ r.Holds key.address .color slot t := by
  obtain ⟨t, ht, hplace⟩ := List.mem_map.mp (h.places hkey)
  obtain ⟨rfl, rfl⟩ := Prod.mk.inj hplace
  exact ⟨t, rfl, ht, rfl, h.colors _ hkey, rfl⟩

end Logged

namespace Run

lemma logged (run : r.Run limits log) : r.Logged log := by
  induction run with
  | new => exact .nil .new
  | @begin _ r before ih =>
    have henlarges : r.Enlarges (fun _ => True) { r with commands := [] } := .begin
    exact ih.enlarges henlarges
  | part before recorded ih => exact ih.recordPart recorded
  | @submit _ r r' before submitted ih =>
    have henlarges : r.Enlarges (fun _ => True) r' := by
      rw [Rendering.of_submit submitted]
      exact .of_eq rfl rfl rfl
    exact ih.enlarges henlarges
  | upload before uploaded ih => exact ih.enlarges (Rendering.confined_upload.enlarges uploaded)
  | fill before filled ih => exact ih.enlarges (Rendering.confined_throughScratch.enlarges filled)
  | configured before changed ih => exact .nil ih.sound.setConfig

/-- Parts that are recorded one after another continue a run. -/
lemma recordParts {parts : List ImagePart} (run : r.Run limits log)
    (h : parts.forM (w.recordPart m s slot) r = .ok () r') :
    r'.Run limits (log ++ parts.flatMap (·.drawn slot)) := by
  induction parts generalizing log r with
  | nil =>
    obtain rfl := Rendering.forM_nil_eq_ok.mp h
    simpa using run
  | cons part parts ih =>
    obtain ⟨r₁, hpart, h⟩ := Rendering.forM_cons_eq_ok.mp h
    rw [List.flatMap_cons, ← List.append_assoc]
    exact ih (run.part hpart) h

/-- An image that is rendered continues a run. -/
lemma renderImage (run : r.Run limits log) (h : w.renderImage m s slot r = .ok () r') :
    r'.Run limits (log ++ w.drawnIn slot) := by
  obtain ⟨r₁, hrecord, hsubmit⟩ := Workload.recordImage_of_renderImage h
  exact (run.begin.recordParts (Workload.recordImage_eq_ok.mp hrecord)).submit hsubmit

end Run

/-- The target under which an image was drawn to last is there. A lookup by address finds it in
every order of the targets exactly if no color target of another format is left for the image in the
slot. Each format that was drawn to in the slot is found in some order. -/
theorem latest_format_found_iff (run : r.Run limits log) {address : Nat}
    (latest : log.latest? address slot = some key) :
    ∃ t, r.find? key slot = some t ∧
      ((∀ order : List Target, order.Perm r.targets →
          (r.visiting order).findByAddress? address .color slot = some t) ↔
        ∀ s, r.Holds address .color slot s → s.key = key) ∧
      ∀ key', (key', slot) ∈ log → key'.address = address →
        ∃ (s : Target) (order : List Target), s.key = key' ∧ order.Perm r.targets ∧
          (r.visiting order).findByAddress? address .color slot = some s := by
  have hlogged := run.logged
  have hr := hlogged.sound
  obtain ⟨hlog, rfl⟩ := DrawLog.of_latest? latest
  obtain ⟨t, rfl, ht⟩ := hlogged.exists_holds hlog
  have hfind : r.find? t.key slot = some t :=
    hr.find?_eq_some_iff.mpr ⟨ht.1, rfl, ht.2.2.2⟩
  refine ⟨t, hfind, ?_, ?_⟩
  · rw [found_visiting_iff ht]
    refine forall₂_congr fun s hs => ⟨congrArg Target.key, fun hkey => ?_⟩
    -- the place of a target is taken once
    have hsame : r.find? t.key slot = some s := hr.find?_eq_some_iff.mpr ⟨hs.1, hkey, hs.2.2.2⟩
    exact Option.some.inj (hsame.symm.trans hfind)
  · intro key' hkey' haddress
    obtain ⟨s, rfl, hs⟩ := hlogged.exists_holds hkey'
    obtain ⟨order, horder, hfound⟩ := exists_visiting hs
    rw [haddress] at hfound
    exact ⟨s, order, rfl, horder, hfound⟩

/-- A frame that draws one row of an image of the given width. -/
def ruled (width : Nat) : Workload :=
  ((({ Workload.empty with id := 1 } : Workload).setColorImage 16 .bits8 width).addDraw
    (Workload.drawDown 1)).synchronized

/-- The key of such an image. -/
def ruledKey (width : Nat) : TargetKey := .ofImage 16 width .bits8 .color

/-- The renderer after such a frame was rendered in a slot. -/
def withRuled (r : Renderer) (width : Nat) (slot : Slot) : Renderer :=
  Rendering.final ((ruled width).renderImage .new .direct slot) r

lemma Run.withRuled {width : Nat} (run : r.Run limits log)
    (h : Rendering.succeeds ((ruled width).renderImage .new .direct slot) r = true) :
    (r.withRuled width slot).Run limits (log ++ (ruled width).drawnIn slot) :=
  run.renderImage (Rendering.eq_ok_of_succeeds h)

/-- Two formats in different slots. -/
def ruledApart : Renderer :=
  (Workload.freshRenderer.withRuled 1 .main).withRuled 2 (.intermediate 0)

/-- The format drawn to in the second slot is found there in every order. -/
theorem formats_apart_found :
    ∃ log, ruledApart.Run default log ∧ log.latest? 16 (.intermediate 0) = some (ruledKey 2) ∧
      (ruledKey 1, .main) ∈ log ∧
      ∃ t, ruledApart.find? (ruledKey 2) (.intermediate 0) = some t ∧
        ∀ order : List Target, order.Perm ruledApart.targets →
          (ruledApart.visiting order).findByAddress? 16 .color (.intermediate 0) = some t := by
  have run : ruledApart.Run default _ :=
    ((Run.new default).withRuled (by decide +kernel)).withRuled (by decide +kernel)
  have latest : DrawLog.latest? (([] ++ (ruled 1).drawnIn .main) ++
      (ruled 2).drawnIn (.intermediate 0)) 16 (.intermediate 0) = some (ruledKey 2) := by
    decide +kernel
  have honly : ∀ t ∈ ruledApart.targets, t.slot = .intermediate 0 → t.key = ruledKey 2 := by
    decide +kernel
  refine ⟨_, run, latest, by decide +kernel, ?_⟩
  obtain ⟨t, hfind, hfound, -⟩ := latest_format_found_iff run latest
  exact ⟨t, hfind, hfound.mpr fun s hs => honly s hs.1 hs.2.2.2⟩

/-- Two formats in the same slot. -/
def ruledTwice : Renderer := (Workload.freshRenderer.withRuled 1 .main).withRuled 2 .main

/-- A region is copied from the target of the format that was drawn first. -/
theorem earlier_format_found :
    ∃ log, ruledTwice.Run default log ∧ log.latest? 16 .main = some (ruledKey 2) ∧
      (∃ t, ruledTwice.find? (ruledKey 2) .main = some t) ∧
      ∃ s, ruledTwice.findByAddress? 16 .color .main = some s ∧
        Operation.copySource? ruledTwice 16 .main = some s ∧ s.key = ruledKey 1 := by
  have run : ruledTwice.Run default _ :=
    ((Run.new default).withRuled (by decide +kernel)).withRuled (by decide +kernel)
  have hmade : (ruledTwice.find? (ruledKey 2) .main).isSome = true := by decide +kernel
  have hfound : (ruledTwice.findByAddress? 16 .color .main).map Target.key = some (ruledKey 1) := by
    decide +kernel
  obtain ⟨s, hs, hkey⟩ := Option.map_eq_some_iff.mp hfound
  refine ⟨_, run, by decide +kernel, Option.isSome_iff_exists.mp hmade, s, hs, ?_, hkey⟩
  rw [Operation.copySource?, hs, Option.some_or]

end Renderer

end Scanout
