import Scanout.Proofs.Workload.Recording

/-!
# Images that outgrow their render targets

Enlarging a target destroys its texture. A command list is refused exactly if recording it enlarged
a target that an earlier command of the list names, and whether it does is decided by the workload
and the sizes of the targets before.
-/

namespace Scanout

namespace Workload

/-- Record the command list of an image. -/
def recordImage (w : Workload) (m : Matcher) (s : SubFrame) (slot : Slot) : Rendering Unit := do
  Rendering.begin
  w.recordPairs m s slot

/-- Go through the uses of several parts of an image. -/
def dryRun (w : Workload) (bound : Bool) (slot : Slot) (d : DryRun) (parts : List ImagePart) :
    DryRun :=
  parts.foldl (fun d part => d.useAll slot (w.partUses bound slot d.layout part)) d

/-- While an image is recorded, a target is enlarged that the list names already. The copies that
draws sample count as named if `bound` is set. -/
def outgrows (w : Workload) (bound : Bool) (slot : Slot) (l : Layout) : Bool :=
  (w.dryRun bound slot ⟨l, [], false⟩ w.imageParts).outgrown

end Workload

/-- The renderers that come of rendering images one after another on a device. The settings may
change in between. -/
inductive Renderer.Rendered (limits : DeviceLimits) : Renderer → Prop where
  | new (config : TargetConfig) : Rendered limits (.new (.new limits) config)
  | image {r r' : Renderer} {w : Workload} {m : Matcher} {s : SubFrame} {slot : Slot}
      (before : Rendered limits r) (rendered : w.renderImage m s slot r = .ok () r') :
      Rendered limits r'
  | configured {r : Renderer} (before : Rendered limits r) (config : TargetConfig) :
      Rendered limits (r.setConfig config).2

namespace Device

variable {d : Device} {commands : List Command}

lemma flatMap_textures_false :
    commands.flatMap (Command.textures false) = commands.flatMap checkedTextures :=
  List.flatMap_congr fun c _ => Command.textures_false c

/-- A command list is taken exactly if all textures that it is checked for exist. -/
lemma missing?_eq_none_iff :
    d.missing? commands = none ↔ ∀ x ∈ commands.flatMap (Command.textures false), x ∈ d.live := by
  rw [flatMap_textures_false, missing?_eq_none_iff_checked]

lemma of_missing? {x : TextureId} (h : d.missing? commands = some x) :
    x ∈ commands.flatMap (Command.textures false) ∧ x ∉ d.live := by
  rw [flatMap_textures_false]
  exact checked_of_missing? h

end Device

namespace Workload

variable {w : Workload} {m : Matcher} {s : SubFrame} {slot : Slot} {r r' : Renderer} {d : DryRun}
  {bound : Bool} {limits : DeviceLimits}

lemma recordPair_eq_ok {place : Nat} {p : Pair} :
    w.recordPair m s slot place p r = .ok () r' ↔
      (p.before.map ImagePart.operation ++ .draws place p :: p.after.map ImagePart.operation).forM
        (w.recordPart m s slot) r = .ok () r' := by
  simp only [recordPair, Operation.recordAll, Rendering.bind_eq_ok, Rendering.forM_append_eq_ok,
    Rendering.forM_cons_eq_ok, Rendering.forM_map_eq_ok, recordPart]
  constructor
  · rintro ⟨_, r₁, hbefore, _, r₂, hdraws, hafter⟩
    exact ⟨r₁, hbefore, r₂, hdraws, hafter⟩
  · rintro ⟨r₁, hbefore, r₂, hdraws, hafter⟩
    exact ⟨(), r₁, hbefore, (), r₂, hdraws, hafter⟩

/-- The pairs are recorded part by part. -/
lemma recordPairs_eq_ok :
    w.recordPairs m s slot r = .ok () r' ↔
      w.imageParts.forM (w.recordPart m s slot) r = .ok () r' := by
  unfold recordPairs imageParts
  induction w.pairs.zipIdx generalizing r with
  | nil => rw [Rendering.forM_nil_eq_ok, List.flatMap_nil, Rendering.forM_nil_eq_ok]
  | cons pair pairs ih =>
    rw [List.flatMap_cons, Rendering.forM_cons_eq_ok, Rendering.forM_append_eq_ok]
    constructor
    · rintro ⟨r₁, hpair, h⟩
      exact ⟨r₁, recordPair_eq_ok.mp hpair, ih.mp h⟩
    · rintro ⟨r₁, hpair, h⟩
      exact ⟨r₁, recordPair_eq_ok.mpr hpair, ih.mpr h⟩

lemma tracks_recordPart {part : ImagePart} (h : r.Tracks slot (r.named bound) d)
    (hx : w.recordPart m s slot part r = .ok () r') :
    r'.Tracks slot (r'.named bound) (d.useAll slot (w.partUses bound slot d.layout part)) := by
  cases part with
  | operation op => exact Operation.tracks_record h hx
  | draws place p => exact tracks_recordDraws h hx

/-- Recording the parts of an image keeps step with the dry run. -/
lemma tracks_recordParts {parts : List ImagePart} (h : r.Tracks slot (r.named bound) d)
    (hx : parts.forM (w.recordPart m s slot) r = .ok () r') :
    r'.Tracks slot (r'.named bound) (w.dryRun bound slot d parts) := by
  induction parts generalizing r d with
  | nil =>
    obtain rfl := Rendering.forM_nil_eq_ok.mp hx
    exact h
  | cons part parts ih =>
    obtain ⟨r₁, hpart, hx⟩ := Rendering.forM_cons_eq_ok.mp hx
    exact ih (tracks_recordPart h hpart) hx

lemma recordImage_eq_ok :
    w.recordImage m s slot r = .ok () r' ↔
      w.imageParts.forM (w.recordPart m s slot) { r with commands := [] } = .ok () r' := by
  simp only [recordImage, Rendering.bind_eq_ok, Rendering.begin, Rendering.modify_eq_ok]
  rw [← recordPairs_eq_ok]
  constructor
  · rintro ⟨_, _, rfl, h⟩
    exact h
  · intro h
    exact ⟨(), _, rfl, h⟩

/-- Recording an image keeps step with the dry run of all its parts. -/
lemma tracks_recordImage (hr : r.Sound) (h : w.recordImage m s slot r = .ok () r') :
    r'.Tracks slot (r'.named bound) (w.dryRun bound slot ⟨r.layout, [], false⟩ w.imageParts) := by
  have hstart : Renderer.Tracks { r with commands := [] } slot [] ⟨r.layout, [], false⟩ :=
    ⟨hr.congr rfl rfl rfl, rfl, by simp, by simp⟩
  exact tracks_recordParts hstart (recordImage_eq_ok.mp h)

/-- An image is submitted after it was recorded. -/
lemma renderImage_of_recordImage (h : w.recordImage m s slot r = .ok () r') :
    w.renderImage m s slot r = Rendering.submit r' := by
  have hrender :
      w.renderImage m s slot = (w.recordImage m s slot >>= fun _ => Rendering.submit) := by
    simp only [renderImage, recordImage, bind_assoc]
  rw [hrender, Rendering.bind_apply, h]

lemma recordImage_of_renderImage (h : w.renderImage m s slot r = .ok () r') :
    ∃ r₁, w.recordImage m s slot r = .ok () r₁ ∧ Rendering.submit r₁ = .ok () r' := by
  simp only [renderImage, Rendering.bind_eq_ok] at h
  obtain ⟨_, r₁, hbegin, _, r₂, hpairs, hsubmit⟩ := h
  refine ⟨r₂, ?_, hsubmit⟩
  simp only [recordImage, Rendering.bind_eq_ok]
  exact ⟨_, r₁, hbegin, hpairs⟩

end Workload

namespace Rendering

variable {r r' : Renderer}

/-- The command list in hand is taken if no texture is missing, and refused otherwise. -/
lemma submit_eq : submit r =
    match r.device.missing? r.commands with
    | some x => EStateM.Result.error (Stop.refused (.unknownTexture x)) r
    | none => .ok ()
        { r with device := { r.device with submitted := r.commands :: r.device.submitted } } := by
  cases hmissing : r.device.missing? r.commands with
  | some x => exact submit_of_missing hmissing
  | none => exact submit_of_none_missing hmissing

/-- Submitting changes nothing but what the device has taken. -/
lemma of_submit (h : submit r = .ok () r') :
    r' = { r with device := { r.device with submitted := r.commands :: r.device.submitted } } := by
  rw [submit_eq] at h
  cases hm : r.device.missing? r.commands with
  | some x => simp [hm] at h
  | none =>
    simp only [hm, EStateM.Result.ok.injEq, true_and] at h
    exact h.symm

end Rendering

namespace Renderer

variable {r : Renderer} {limits : DeviceLimits}

lemma Rendered.sound (h : r.Rendered limits) : r.Sound := by
  induction h with
  | new => exact .new
  | image _ rendered ih =>
    obtain ⟨r₁, hrecord, hsubmit⟩ := Workload.recordImage_of_renderImage rendered
    have hrecorded : r₁.Tracks _ (r₁.named false) _ := Workload.tracks_recordImage ih hrecord
    obtain rfl := Rendering.of_submit hsubmit
    exact hrecorded.sound.congr rfl rfl rfl
  | configured _ _ ih => exact ih.setConfig

end Renderer

namespace Workload

variable {w : Workload} {m : Matcher} {s : SubFrame} {slot : Slot} {r r' : Renderer}
  {limits : DeviceLimits}

/-- Every texture named in a command list is live when the list is handed to the device, exactly if
no target was outgrown while it was recorded; and the list is refused exactly if one was that a
command goes to or comes from. -/
theorem image_refused_iff_outgrows (hr : r.Rendered limits)
    (h : w.recordImage m s slot r = .ok () r') :
    ((∀ x ∈ r'.named true, x ∈ r'.device.live) ↔ w.outgrows true slot r.layout = false) ∧
    ((∃ r'', w.renderImage m s slot r = .ok () r'') ↔ w.outgrows false slot r.layout = false) ∧
    ((∃ x ∈ r'.named false, x ∉ r'.device.live ∧
        w.renderImage m s slot r = .error (.refused (.unknownTexture x)) r') ↔
      w.outgrows false slot r.layout = true) := by
  have hbound : r'.Tracks slot (r'.named true) _ := tracks_recordImage hr.sound h
  have hchecked : r'.Tracks slot (r'.named false) _ := tracks_recordImage hr.sound h
  have hlive :
      (∀ x ∈ r'.named false, x ∈ r'.device.live) ↔ w.outgrows false slot r.layout = false :=
    hchecked.live_iff
  refine ⟨hbound.live_iff, ?_⟩
  rw [← Bool.not_eq_false, ← hlive, renderImage_of_recordImage h, Rendering.submit_eq]
  cases hm : r'.device.missing? r'.commands with
  | none =>
    have hall : ∀ x ∈ r'.named false, x ∈ r'.device.live := Device.missing?_eq_none_iff.mp hm
    exact ⟨⟨fun _ => hall, fun _ => ⟨_, rfl⟩⟩,
      ⟨fun ⟨x, hx, hgone, _⟩ => absurd (hall x hx) hgone, fun hn => absurd hall hn⟩⟩
  | some x =>
    have hx : x ∈ r'.named false ∧ x ∉ r'.device.live := Device.of_missing? hm
    exact ⟨⟨fun ⟨_, he⟩ => by simp at he, fun hall => absurd (hall x hx.1) hx.2⟩,
      ⟨fun _ hall => hx.2 (hall x hx.1), fun _ => ⟨x, hx.1, hx.2, rfl⟩⟩⟩

/-- A draw of the first column down to a row. -/
def drawDown (rows : Nat) : Draw := ⟨0, 3, none, ⟨0, 0, 1, rows⟩, .zero, false⟩

/-- A frame that draws a row of one image and of another, and then rows of the first again. -/
def returning (rows : Nat) : Workload :=
  let first := (({ empty with id := 1 } : Workload).setColorImage 0 .bits8 1).addDraw (drawDown 1)
  let second := (first.setColorImage 16 .bits8 1).addDraw (drawDown 1)
  (second.setColorImage 0 .bits8 1).addDraw (drawDown rows)

/-- Memory that was never written. -/
def blankMemory : ByteArray := ⟨Array.replicate 64 0⟩

/-- A workload after it was synchronized with blank memory. -/
def synchronized (w : Workload) : Workload :=
  match (w.synchronize .empty blankMemory).outcome with
  | .ok (_, w, _) => w
  | .error _ => w

lemma synchronize_outcome (h : (w.synchronize .empty blankMemory).outcome.isOk = true) :
    ∃ stats table,
      (w.synchronize .empty blankMemory).outcome = .ok (stats, w.synchronized, table) := by
  simp only [synchronized]
  cases hx : (w.synchronize .empty blankMemory).outcome with
  | ok x => exact ⟨x.1, x.2.2, rfl⟩
  | error f => simp [hx, Except.isOk, Except.toBool] at h

/-- A renderer that has rendered nothing. -/
def freshRenderer : Renderer := .new (.new default) default

/-- The image of a workload can be recorded on a fresh renderer, which then passes a check. -/
def recordsWith (w : Workload) (check : Renderer → Bool) : Bool :=
  match w.recordImage .new .direct .main freshRenderer with
  | .ok _ r => check r
  | .error .. => false

lemma of_recordsWith {check : Renderer → Bool} (h : w.recordsWith check = true) :
    ∃ r, w.recordImage .new .direct .main freshRenderer = .ok () r ∧ check r = true := by
  simp only [recordsWith] at h
  split at h
  · rename_i r hr
    exact ⟨r, hr, h⟩
  · cases h

/-- A frame that goes no further down when it comes back to an image is not refused. -/
theorem returning_one_accepted :
    ∃ r, (returning 1).synchronized.renderImage .new .direct .main freshRenderer = .ok () r := by
  have hcheck : (returning 1).synchronized.recordsWith (fun _ => true) = true := by decide +kernel
  obtain ⟨r, hrecord, -⟩ := of_recordsWith hcheck
  exact (image_refused_iff_outgrows (.new default) hrecord).2.1.mpr (by decide +kernel)

/-- A frame that goes further down when it comes back to an image names a texture that was destroyed
in between, and the device refuses it. -/
theorem returning_two_refused :
    (∃ stats table, ((returning 2).synchronize .empty blankMemory).outcome =
      .ok (stats, (returning 2).synchronized, table)) ∧
    ∃ r, (returning 2).synchronized.recordImage .new .direct .main freshRenderer = .ok () r ∧
      1 ∈ r.named false ∧ 1 ∉ r.device.live ∧
      (returning 2).synchronized.renderImage .new .direct .main freshRenderer =
        .error (.refused (.unknownTexture 1)) r := by
  have hcheck : (returning 2).synchronized.recordsWith
      (fun r => r.device.missing? r.commands = some 1) = true := by decide +kernel
  obtain ⟨r, hrecord, hmissing⟩ := of_recordsWith hcheck
  have hmissing : r.device.missing? r.commands = some 1 := by simpa using hmissing
  obtain ⟨hnamed, hgone⟩ := Device.of_missing? hmissing
  refine ⟨synchronize_outcome (by decide +kernel), r, hrecord, hnamed, hgone, ?_⟩
  rw [renderImage_of_recordImage hrecord, Rendering.submit_eq, hmissing]

end Workload

end Scanout
