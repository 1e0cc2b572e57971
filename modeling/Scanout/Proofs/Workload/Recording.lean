import Scanout.Pipeline.Render
import Scanout.Proofs.Target.Use
import Scanout.Workload.Sync

/-!
# Recording the image of a workload, part by part

The command list of an image is recorded in parts: the operations around the pairs, and the draws of
each pair. Each part has its uses of render targets, which depend on the targets found at that
moment, and keeps track of the textures named.
-/

namespace Scanout

namespace Command

/-- The copy that a draw samples. -/
def boundCopy? (d : DrawCommand) : Option TextureId :=
  match d.texture with
  | some (.tileCopy x) => some x
  | _ => none

/-- The textures that a command names; the copies that draws sample count if `bound` is set. -/
def textures (bound : Bool) : Command → List TextureId
  | .draw d => Device.checkedTextures (.draw d) ++ if bound then (boundCopy? d).toList else []
  | c => Device.checkedTextures c

@[simp] lemma textures_false (c : Command) : c.textures false = Device.checkedTextures c := by
  cases c <;> simp [textures]

end Command

/-- The textures that the command list in hand names. -/
def Renderer.named (r : Renderer) (bound : Bool) : List TextureId :=
  r.commands.flatMap (Command.textures bound)

namespace Layout

/-- The target that a rendered region is copied from. -/
def copySource? (l : Layout) (address : Nat) (slot : Slot) : Option Extent :=
  (l.findByAddress? address .color slot).or (l.findByAddress? address .color .main)

end Layout

namespace Operation

/-- The uses that an operation makes of the targets in the slot at hand. -/
def uses (l : Layout) (slot : Slot) : Operation → List Use
  | upload type change =>
    [.demand (.ofImage change.address change.width change.size type) change.width
      (rowsDownTo change.rect)]
  | copyTile copy =>
    match l.copySource? copy.address slot with
    | some source =>
      (if source.slot = slot then [.mention source.key] else []) ++
        [.demand copy.key (copy.fbRect.right - copy.fbRect.left).toNat
          (copy.fbRect.bottom - copy.fbRect.top).toNat]
    | none => []
  | reinterpret address size width source target rect =>
    match l.findByAddress? address (.ofWrite source) slot with
    | some found =>
      if found.key.kind = .ofWrite source then
        [.mention found.key, .demand (.ofImage address width size target) width (rowsDownTo rect)]
      else []
    | none => []
  | synchronize address size width =>
    let key := TargetKey.ofImage address width size .color
    if (l.find? key slot).isSome then [.mention key] else []

end Operation

/-- A part of the recording of an image. -/
inductive ImagePart where
  | operation (op : Operation)
  | draws (place : Nat) (p : Pair)

namespace Workload

/-- The copy in the slot at hand that a draw samples. -/
def sampledCopy? (w : Workload) (l : Layout) (slot : Slot) (call : Call) : Option TargetKey := do
  let draw ← w.draws[call.draw]?
  let place ← draw.tile
  let copy ← w.tileCopies[place]?.join
  let _ ← l.find? copy.key slot
  return copy.key

/-- The mentions of the copies that draws sample. -/
def sampledUses (w : Workload) (bound : Bool) (l : Layout) (slot : Slot) (calls : List Call) :
    List Use :=
  if bound then (calls.filterMap (w.sampledCopy? l slot)).map .mention else []

/-- The uses that the draws of a pair make of the targets in the slot at hand. -/
def drawUses (w : Workload) (bound : Bool) (l : Layout) (slot : Slot) (p : Pair) : List Use :=
  match p.colorImage with
  | some image =>
    if p.isEmpty then []
    else
      .demand (.ofImage image.address image.width image.size .color) image.width p.drawHeight ::
        ((Sync.writtenDepth p).toList.map fun address =>
          .demand (.ofImage address image.width .bits16 .depth) image.width p.drawHeight) ++
        w.sampledUses bound l slot p.calls
  | none => []

/-- The parts of the recording of an image, in order. -/
def imageParts (w : Workload) : List ImagePart :=
  w.pairs.zipIdx.flatMap fun (p, place) =>
    p.before.map .operation ++ .draws place p :: p.after.map .operation

/-- Record a part of an image. -/
def recordPart (w : Workload) (m : Matcher) (s : SubFrame) (slot : Slot) :
    ImagePart → Rendering Unit
  | .operation op => op.record slot
  | .draws place p => w.recordDraws m s slot place p

/-- The uses that a part of an image makes of the targets in the slot at hand. -/
def partUses (w : Workload) (bound : Bool) (slot : Slot) (l : Layout) : ImagePart → List Use
  | .operation op => op.uses l slot
  | .draws _ p => w.drawUses bound l slot p

end Workload

namespace DryRun

variable {slot : Slot} {d : DryRun}

/-- Go through several uses. -/
def useAll (slot : Slot) (d : DryRun) (uses : List Use) : DryRun := uses.foldl (use slot) d

@[simp] lemma useAll_append {uses uses' : List Use} :
    d.useAll slot (uses ++ uses') = (d.useAll slot uses).useAll slot uses' := List.foldl_append

end DryRun

namespace Renderer

variable {r r' r₁ : Renderer} {slot : Slot} {key : TargetKey} {width height : Nat} {t : Target}
  {bound : Bool} {named : List TextureId} {d : DryRun}

lemma commands_of_requested (h : Target.Requested key slot width height r t r') :
    r'.commands = r.commands := by
  cases h with
  | kept => rfl
  | made absent new => exact new.commands
  | grown found small new => exact new.commands

lemma named_of_requested (h : Target.Requested key slot width height r t r') :
    r'.named bound = r.named bound := by
  rw [named, named, commands_of_requested h]

lemma named_emit {c : Command} :
    { r with commands := r.commands ++ [c] }.named bound = r.named bound ++ c.textures bound := by
  simp [named]

/-- Recording a command that names what was found keeps track. -/
lemma Tracks.emit {c : Command} (h : r₁.Tracks slot named d)
    (hr : { r₁ with commands := r₁.commands ++ [c] } = r')
    (hn : ∀ x, x ∈ named ↔ x ∈ c.textures bound ∨ x ∈ r₁.named bound) :
    r'.Tracks slot (r'.named bound) d := by
  subst hr
  refine h.congr ?_ ?_ fun x => ?_
  · rfl
  · rfl
  · rw [named_emit, List.mem_append, hn, or_comm]

lemma copySource?_layout {address : Nat} :
    r.layout.copySource? address slot =
      (Operation.copySource? r address slot).map Target.extent := by
  simp only [Layout.copySource?, Operation.copySource?, findByAddress?_layout, Option.map_or]

end Renderer

namespace Operation

variable {r r' : Renderer} {slot : Slot} {d : DryRun} {bound : Bool}

lemma of_copySource? {address : Nat} {t : Target} (h : copySource? r address slot = some t) :
    t ∈ r.targets := by
  rcases Option.or_eq_some_iff.mp h with h | ⟨-, h⟩
  · exact (Renderer.mem_of_findByAddress? h).1
  · exact (Renderer.mem_of_findByAddress? h).1

lemma width_eq {rect : Rect} {n : Nat} (h : rect.width = .ok n) :
    n = (rect.right - rect.left).toNat := by
  unfold Rect.width signed32 at h
  split at h
  · simpa [bind, Except.bind, pure, Except.pure, eq_comm] using h
  · simp [bind, Except.bind] at h

lemma height_eq {rect : Rect} {n : Nat} (h : rect.height = .ok n) :
    n = (rect.bottom - rect.top).toNat := by
  unfold Rect.height signed32 at h
  split at h
  · simpa [bind, Except.bind, pure, Except.pure, eq_comm] using h
  · simp [bind, Except.bind] at h

/-- Recording an operation keeps step with going through its uses. -/
lemma tracks_record {op : Operation} (h : r.Tracks slot (r.named bound) d)
    (hx : op.record slot r = .ok () r') :
    r'.Tracks slot (r'.named bound) (d.useAll slot (op.uses d.layout slot)) := by
  rw [← h.layout]
  cases op with
  | upload type change =>
    simp only [record, Rendering.bind_eq_ok, Rendering.emit_eq_ok] at hx
    obtain ⟨t, r₁, hreq, hr⟩ := hx
    have hreq := Target.Requested.of_request hreq
    refine (h.requested hreq).emit hr fun x => ?_
    simp [Command.textures, Device.checkedTextures, Renderer.named_of_requested hreq]
  | copyTile copy =>
    simp only [record, Rendering.bind_eq_ok] at hx
    obtain ⟨_, _, hget, hx⟩ := hx
    obtain ⟨rfl, rfl⟩ := Rendering.get_eq_ok.mp hget
    simp only [uses, Renderer.copySource?_layout]
    cases hs : copySource? r copy.address slot with
    | none =>
      simp only [hs, Rendering.note_eq_ok] at hx
      subst hx
      refine h.congr ?_ ?_ fun x => ?_
      · rfl
      · rfl
      · rfl
    | some source =>
      simp only [hs, Rendering.bind_eq_ok, Rendering.ofFault_eq_ok, Rendering.emit_eq_ok] at hx
      obtain ⟨width, _, ⟨hw, rfl⟩, height, _, ⟨hh, rfl⟩, t, r₁, hreq, hr⟩ := hx
      obtain rfl := width_eq hw
      obtain rfl := height_eq hh
      have hreq := Target.Requested.of_request hreq
      have hsource := of_copySource? hs
      -- the source is named in the slot at hand unless it is a final image
      by_cases hslot : source.slot = slot
      · have hf : r.find? source.key slot = some source :=
          h.sound.find?_eq_some_iff.mpr ⟨hsource, rfl, hslot⟩
        have hslot' : source.extent.slot = slot := hslot
        simp only [Option.map_some, hslot', if_true]
        refine ((h.mention hf).requested hreq).emit hr fun x => ?_
        simp [Command.textures, Device.checkedTextures, Renderer.named_of_requested hreq,
          or_left_comm, or_assoc]
      · have hslot' : source.extent.slot ≠ slot := hslot
        simp only [Option.map_some, hslot', if_false]
        refine ((h.mention_other hsource hslot).requested hreq).emit hr fun x => ?_
        simp [Command.textures, Device.checkedTextures, Renderer.named_of_requested hreq,
          or_left_comm, or_assoc]
  | reinterpret address size width source target rect =>
    simp only [record, Rendering.bind_eq_ok] at hx
    obtain ⟨_, _, hget, hx⟩ := hx
    obtain ⟨rfl, rfl⟩ := Rendering.get_eq_ok.mp hget
    simp only [uses, Renderer.findByAddress?_layout]
    cases hs : r.findByAddress? address (.ofWrite source) slot with
    | none =>
      simp only [hs, Rendering.pure_eq_ok] at hx
      obtain ⟨-, rfl⟩ := hx
      exact h
    | some found =>
      by_cases hkind : found.key.kind = .ofWrite source
      · simp only [hs, hkind, if_true, Rendering.bind_eq_ok, Rendering.emit_eq_ok] at hx
        obtain ⟨t, r₁, hreq, hr⟩ := hx
        have hreq := Target.Requested.of_request hreq
        obtain ⟨hmem, -, hslot, -⟩ := Renderer.mem_of_findByAddress? hs
        have hf : r.find? found.key slot = some found :=
          h.sound.find?_eq_some_iff.mpr ⟨hmem, rfl, hslot⟩
        have hkind' : found.extent.key.kind = .ofWrite source := hkind
        simp only [Option.map_some, hkind', if_true]
        refine ((h.mention hf).requested hreq).emit hr fun x => ?_
        simp [Command.textures, Device.checkedTextures, Renderer.named_of_requested hreq,
          or_left_comm, or_assoc]
      · have hkind' : found.extent.key.kind ≠ .ofWrite source := hkind
        simp only [hs, hkind, if_false, Rendering.pure_eq_ok] at hx
        obtain ⟨-, rfl⟩ := hx
        simp only [Option.map_some, hkind', if_false]
        exact h
  | synchronize address size width =>
    simp only [record, Rendering.bind_eq_ok] at hx
    obtain ⟨_, _, hget, hx⟩ := hx
    obtain ⟨rfl, rfl⟩ := Rendering.get_eq_ok.mp hget
    simp only [uses, Renderer.find?_layout, Option.isSome_map]
    cases hf : r.find? (.ofImage address width size .color) slot with
    | none =>
      simp only [hf, Rendering.pure_eq_ok] at hx
      obtain ⟨-, rfl⟩ := hx
      exact h
    | some t =>
      simp only [hf, Rendering.emit_eq_ok] at hx
      refine (h.mention hf).emit hx fun x => ?_
      simp [Command.textures, Device.checkedTextures]

end Operation

namespace Workload

variable {w : Workload} {m : Matcher} {s : SubFrame} {slot : Slot} {place : Nat} {color : Target}
  {depth : Option Target} {call : Call} {r r' : Renderer} {d : DryRun} {bound : Bool}

/-- Recording a draw adds one command, which names the targets of its pair. -/
lemma of_recordCall (h : w.recordCall m s slot place color depth call r = .ok () r') :
    ∃ draw d, w.draws[call.draw]? = some draw ∧ d.color = color.texture ∧
      d.depth = depth.map Target.texture ∧ d.texture = w.binding r slot draw.tile ∧
      r' = { r with commands := r.commands ++ [.draw d] } := by
  simp only [recordCall, Rendering.bind_eq_ok, Rendering.ofFault_eq_ok, Rendering.emit_eq_ok] at h
  obtain ⟨draw, _, ⟨hdraw, rfl⟩, transform, _, ⟨-, rfl⟩, projection, _, ⟨-, rfl⟩, scroll, _,
    ⟨-, rfl⟩, _, _, hget, h⟩ := h
  obtain ⟨rfl, rfl⟩ := Rendering.get_eq_ok.mp hget
  refine ⟨draw, _, ?_, rfl, rfl, rfl, h.symm⟩
  simp only [fetch] at hdraw
  split at hdraw <;> simp_all

/-- The copy that a draw samples is in the slot at hand, or among the final images. -/
lemma boundCopy_cases {draw : Draw} {c : DrawCommand} (hdraw : w.draws[call.draw]? = some draw)
    (hc : c.texture = w.binding r slot draw.tile) :
    (Command.boundCopy? c = none ∧ w.sampledCopy? r.layout slot call = none) ∨
    (∃ k t, w.sampledCopy? r.layout slot call = some k ∧ r.find? k slot = some t ∧
      Command.boundCopy? c = some t.texture) ∨
    (∃ t ∈ r.targets, w.sampledCopy? r.layout slot call = none ∧ t.slot ≠ slot ∧
      Command.boundCopy? c = some t.texture) := by
  simp only [binding, sampledCopy?, Command.boundCopy?, hdraw, hc, Option.bind_eq_bind,
    Option.bind_some, Renderer.find?_layout]
  cases draw.tile with
  | none => exact .inl ⟨rfl, rfl⟩
  | some tile =>
    simp only [Option.bind_some]
    cases hcopy : w.tileCopies[tile]?.join with
    | none =>
      refine .inl ⟨?_, rfl⟩
      cases w.tiles[tile]? <;> rfl
    | some copy =>
      simp only [Option.bind_some]
      cases hf : r.find? copy.key slot with
      | some t => exact .inr (.inl ⟨copy.key, t, rfl, hf, rfl⟩)
      | none =>
        cases hm : r.find? copy.key .main with
        | none => exact .inl ⟨rfl, rfl⟩
        | some t =>
          obtain ⟨ht, hk, hs⟩ := Renderer.mem_of_find? hm
          refine .inr (.inr ⟨t, ht, rfl, ?_, rfl⟩)
          rintro rfl
          simp [hs, hm] at hf

/-- The textures of the targets that a pair draws to. -/
def drawnTextures (color : Target) (depth : Option Target) : List TextureId :=
  color.texture :: (depth.map Target.texture).toList

lemma sampledUses_cons {l : Layout} {calls : List Call} :
    w.sampledUses bound l slot (call :: calls) =
      w.sampledUses bound l slot [call] ++ w.sampledUses bound l slot calls := by
  cases bound with
  | false => rfl
  | true =>
    simp only [sampledUses, if_true, ← List.map_append, ← List.filterMap_append,
      List.singleton_append]

/-- Recording a draw keeps step with going through the copies that it samples. -/
lemma tracks_recordCall (h : r.Tracks slot (drawnTextures color depth ++ r.named bound) d)
    (hx : w.recordCall m s slot place color depth call r = .ok () r') :
    r'.targets = r.targets ∧ (∀ x ∈ drawnTextures color depth, x ∈ r'.named bound) ∧
      r'.Tracks slot (drawnTextures color depth ++ r'.named bound)
        (d.useAll slot (w.sampledUses bound r.layout slot [call])) := by
  obtain ⟨draw, c, hdraw, hcolor, hdepth, hbind, rfl⟩ := of_recordCall hx
  have hnamed : ∀ x, x ∈ Renderer.named { r with commands := r.commands ++ [.draw c] } bound ↔
      x ∈ r.named bound ∨ x ∈ drawnTextures color depth ∨
        x ∈ if bound then (Command.boundCopy? c).toList else [] := by
    intro x
    simp [Renderer.named_emit, Command.textures, Device.checkedTextures, hcolor, hdepth,
      drawnTextures, or_assoc]
  refine ⟨rfl, fun x hx => (hnamed x).mpr (.inr (.inl hx)), ?_⟩
  cases bound with
  | false =>
    refine h.congr ?_ ?_ fun x => ?_
    · rfl
    · rfl
    · simp only [List.mem_append, hnamed, Bool.false_eq_true, if_false, List.not_mem_nil, or_false]
      tauto
  | true =>
    rcases boundCopy_cases hdraw hbind with ⟨hb, hk⟩ | ⟨k, t, hk, hf, hb⟩ | ⟨t, ht, hk, hslot, hb⟩
    · simp only [sampledUses, if_true, List.filterMap_cons, hk, List.filterMap_nil, List.map_nil]
      refine h.congr ?_ ?_ fun x => ?_
      · rfl
      · rfl
      · simp only [List.mem_append, hnamed, hb, if_true, Option.toList_none, List.not_mem_nil,
          or_false]
        tauto
    · simp only [sampledUses, if_true, List.filterMap_cons, hk, List.filterMap_nil, List.map_cons,
        List.map_nil]
      refine (h.mention hf).congr ?_ ?_ fun x => ?_
      · rfl
      · rfl
      · simp only [List.mem_append, hnamed, hb, if_true, Option.toList_some, List.mem_cons]
        tauto
    · simp only [sampledUses, if_true, List.filterMap_cons, hk, List.filterMap_nil, List.map_nil]
      refine (h.mention_other ht hslot).congr ?_ ?_ fun x => ?_
      · rfl
      · rfl
      · simp only [List.mem_append, hnamed, hb, if_true, Option.toList_some, List.mem_cons]
        tauto

/-- Recording all draws of a pair keeps step with going through the copies that they sample. -/
lemma tracks_recordCalls {calls : List Call}
    (h : r.Tracks slot (drawnTextures color depth ++ r.named bound) d)
    (hx : calls.forM (w.recordCall m s slot place color depth) r = .ok () r') :
    (calls ≠ [] → ∀ x ∈ drawnTextures color depth, x ∈ r'.named bound) ∧
      r'.Tracks slot (drawnTextures color depth ++ r'.named bound)
        (d.useAll slot (w.sampledUses bound r.layout slot calls)) := by
  induction calls generalizing r d with
  | nil =>
    obtain rfl := Rendering.forM_nil_eq_ok.mp hx
    refine ⟨fun h => absurd rfl h, ?_⟩
    cases bound <;> exact h
  | cons call calls ih =>
    obtain ⟨r₁, hcall, hx⟩ := Rendering.forM_cons_eq_ok.mp hx
    obtain ⟨htargets, hsub, h₁⟩ := tracks_recordCall h hcall
    obtain ⟨hsub', h'⟩ := ih h₁ hx
    have hlayout : r₁.layout = r.layout := congrArg (List.map Target.extent) htargets
    rw [hlayout, ← DryRun.useAll_append, ← sampledUses_cons] at h'
    refine ⟨fun _ => ?_, h'⟩
    cases calls with
    | nil =>
      obtain rfl := Rendering.forM_nil_eq_ok.mp hx
      exact hsub
    | cons => exact hsub' (by simp)

/-- The depth target of a pair is requested if its draws write to one. -/
lemma of_depthTarget? {p : Pair} {width : Nat} {depth : Option Target}
    (h : depthTarget? p width slot r = .ok depth r') :
    (Sync.writtenDepth p = none ∧ depth = none ∧ r' = r) ∨
    ∃ address t, Sync.writtenDepth p = some address ∧ depth = some t ∧
      Target.Requested (.ofImage address width .bits16 .depth) slot width p.drawHeight r t r' := by
  simp only [depthTarget?] at h
  simp only [Sync.writtenDepth]
  cases hd : p.depthImage with
  | none =>
    simp only [hd, Rendering.pure_eq_ok] at h
    simp [h.1.symm, h.2]
  | some address =>
    simp only [hd] at h
    cases he : p.depthRect.isEmpty with
    | true =>
      simp only [he, if_true, Rendering.pure_eq_ok] at h
      simp [h.1.symm, h.2]
    | false =>
      simp only [he, Bool.false_eq_true, if_false, Rendering.bind_eq_ok, Rendering.pure_eq_ok] at h
      obtain ⟨t, r₁, hreq, rfl, rfl⟩ := h
      exact .inr ⟨address, t, rfl, rfl, .of_request hreq⟩

/-- Marking an image as written concerns no target. -/
lemma of_markWritten {address : Nat} {type : WriteType}
    (h : Rendering.markWritten address type r = .ok () r') :
    r'.targets = r.targets ∧ r'.device = r.device ∧ r'.commands = r.commands := by
  obtain rfl := Rendering.modify_eq_ok.mp h
  exact ⟨rfl, rfl, rfl⟩

/-- The draws of a pair are recorded after its targets were requested. -/
lemma of_recordDraws {p : Pair} (h : w.recordDraws m s slot place p r = .ok () r') :
    ((p.colorImage = none ∨ p.isEmpty = true) ∧ r' = r) ∨
    ∃ image color r₁ depth r₂ s' r₃, p.colorImage = some image ∧ p.isEmpty = false ∧
      Target.Requested (.ofImage image.address image.width image.size .color) slot image.width
        p.drawHeight r color r₁ ∧
      depthTarget? p image.width slot r₁ = .ok depth r₂ ∧
      p.calls.forM (w.recordCall m s' slot place color depth) r₂ = .ok () r₃ ∧
      r'.targets = r₃.targets ∧ r'.device = r₃.device ∧ r'.commands = r₃.commands := by
  simp only [recordDraws] at h
  cases hi : p.colorImage with
  | none =>
    simp only [hi, Rendering.pure_eq_ok] at h
    exact .inl ⟨.inl rfl, h.2.symm⟩
  | some image =>
    simp only [hi] at h
    cases he : p.isEmpty with
    | true =>
      simp only [he, if_true, Rendering.pure_eq_ok] at h
      exact .inl ⟨.inr rfl, h.2.symm⟩
    | false =>
      simp only [he, Bool.false_eq_true, if_false, Rendering.bind_eq_ok] at h
      obtain ⟨color, r₁, hcolor, depth, r₂, hdepth, _, r₃, hcalls, _, r₄, hmark, h⟩ := h
      obtain ⟨ht, hd, hc⟩ := of_markWritten hmark
      refine .inr ⟨image, color, r₁, depth, r₂, _, r₃, rfl, rfl, .of_request hcolor, hdepth,
        hcalls, ?_⟩
      cases depth with
      | none =>
        obtain ⟨-, rfl⟩ := Rendering.pure_eq_ok.mp h
        exact ⟨ht, hd, hc⟩
      | some t =>
        obtain ⟨ht', hd', hc'⟩ := of_markWritten h
        exact ⟨ht'.trans ht, hd'.trans hd, hc'.trans hc⟩

lemma copy_key_ne {copy : TileCopy} {address width : Nat} {size : PixelSize} {type : WriteType} :
    copy.key ≠ TargetKey.ofImage address width size type := by
  cases type <;> simp [TileCopy.key, TargetKey.ofImage, TargetKind.ofWrite]

/-- Targets of other keys are left alone by a request, so the same copies are sampled after it. -/
lemma sampledUses_of_requested {key : TargetKey} {width height : Nat} {t : Target}
    {calls : List Call} (hr : r.Sound) (h : Target.Requested key slot width height r t r')
    (hkey : ∀ copy : TileCopy, copy.key ≠ key) :
    w.sampledUses bound r'.layout slot calls = w.sampledUses bound r.layout slot calls := by
  have hcopy : w.sampledCopy? r'.layout slot = w.sampledCopy? r.layout slot := by
    funext call
    simp only [sampledCopy?, Renderer.find?_layout, Renderer.find?_of_requested hr h (hkey _)]
  simp only [sampledUses, hcopy]

/-- Recording the draws of a pair keeps step with going through their uses. -/
lemma tracks_recordDraws {p : Pair} (h : r.Tracks slot (r.named bound) d)
    (hx : w.recordDraws m s slot place p r = .ok () r') :
    r'.Tracks slot (r'.named bound) (d.useAll slot (w.drawUses bound d.layout slot p)) := by
  rw [← h.layout]
  rcases of_recordDraws hx with ⟨hnone, rfl⟩ | ⟨image, color, r₁, depth, r₂, s', r₃, hi, he, hcolor,
    hdepth, hcalls, ht, hdev, hc⟩
  · have huses : w.drawUses bound r'.layout slot p = [] := by
      simp only [drawUses]
      rcases hnone with hi | he
      · simp [hi]
      · cases hi : p.colorImage <;> simp [he]
    rw [huses]
    exact h
  · have hnonempty : p.calls ≠ [] := by
      rintro hn
      simp [Pair.isEmpty, hn] at he
    have hfirst := h.requested hcolor
    -- with the targets at hand, the draws name them and the copies that they sample
    have close : ∀ {d' : DryRun}, r₂.Tracks slot (drawnTextures color depth ++ r₂.named bound) d' →
        r'.Tracks slot (r'.named bound)
          (d'.useAll slot (w.sampledUses bound r₂.layout slot p.calls)) := by
      intro d' h₂
      obtain ⟨hsub, h₃⟩ := tracks_recordCalls h₂ hcalls
      refine h₃.congr ht hdev fun x => ?_
      rw [Renderer.named, hc, ← Renderer.named, List.mem_append]
      exact ⟨.inr, fun hx => hx.elim (hsub hnonempty x) fun hx => hx⟩
    simp only [drawUses, hi, he, Bool.false_eq_true, if_false]
    rcases of_depthTarget? hdepth with ⟨hw, rfl, rfl⟩ | ⟨address, t, hw, rfl, hreq⟩
    · have h₂ := close (hfirst.congr rfl rfl fun x => ?_)
      · rw [sampledUses_of_requested h.sound hcolor fun _ => copy_key_ne] at h₂
        rw [hw]
        exact h₂
      · simp [drawnTextures, Renderer.named_of_requested hcolor]
    · have h₂ := close ((hfirst.requested hreq).congr rfl rfl fun x => ?_)
      · rw [sampledUses_of_requested hfirst.sound hreq fun _ => copy_key_ne,
          sampledUses_of_requested h.sound hcolor fun _ => copy_key_ne] at h₂
        rw [hw]
        exact h₂
      · simp [drawnTextures, Renderer.named_of_requested hreq, Renderer.named_of_requested hcolor,
          or_left_comm]

end Workload

end Scanout
