import Scanout.Proofs.Workload.Operations

/-!
# What textures were created for

Each texture that is created leaves a note of the kind of its target, and the device counts the
textures from `1` on without giving a number out again. So the notes tell the format that each
texture was created in, also of one that was destroyed since. A law says which commands are in
order, given what their textures were created for; every computation on the render targets obeys it
whose operations do.
-/

namespace Scanout

/-- What the note of a new texture says that it is for. -/
def Note.created? : Note → Option TargetKind
  | .targetCreated kind .. => some kind
  | _ => none

/-- What a texture was created for, by the kinds of all textures in the order of their creation. -/
def purpose? (kinds : List TargetKind) : TextureId → Option TargetKind
  | 0 => none
  | n + 1 => kinds[n]?

lemma purpose?_mono {kinds kinds' : List TargetKind} {x : TextureId} {kind : TargetKind}
    (hle : kinds <+: kinds') (h : purpose? kinds x = some kind) :
    purpose? kinds' x = some kind := by
  cases x with
  | zero => cases h
  | succ n =>
    obtain ⟨hn, -⟩ := List.getElem?_eq_some_iff.mp h
    obtain ⟨rest, rfl⟩ := hle
    exact (List.getElem?_append_left hn).trans h

lemma purpose?_concat {kinds : List TargetKind} {kind : TargetKind} :
    purpose? (kinds ++ [kind]) (kinds.length + 1) = some kind := List.getElem?_concat_length

/-- A law for commands, given what the textures were created for. It speaks of uploads and copies
only, and textures that are created later do not matter to it. -/
structure Law where
  Holds : List TargetKind → Command → Prop
  mono {kinds kinds' : List TargetKind} {c : Command} (hle : kinds <+: kinds') :
    Holds kinds c → Holds kinds' c
  barrier (kinds : List TargetKind) (x : TextureId) : Holds kinds (.barrier x)
  draw (kinds : List TargetKind) (d : DrawCommand) : Holds kinds (.draw d)

namespace Renderer

/-- What the textures were created for, in the order of their creation. -/
def created (r : Renderer) : List TargetKind := r.notes.filterMap Note.created?

/-- The format that a texture was created in. -/
def createdAs? (r : Renderer) (x : TextureId) : Option TextureFormat :=
  (purpose? r.created x).map Target.formatFor

/-- The command lists recorded: the one in hand and those submitted. -/
def lists (r : Renderer) : List (List Command) := r.commands :: r.device.submitted

/-- The notes tell of each texture of the device and of each target what it is for, and the commands
recorded keep to the law. The textures created `before` are among those that the notes tell of. -/
structure Obeys (law : Law) (before : List TargetKind) (r : Renderer) : Prop where
  before_le : before <+: r.created
  next : r.device.nextTexture = r.created.length + 1
  targets : ∀ t ∈ r.targets, purpose? r.created t.texture = some t.key.kind
  shapes : ∀ x shape, r.device.shape? x = some shape → r.createdAs? x = some shape.format
  lawful : ∀ commands ∈ r.lists, ∀ c ∈ commands, law.Holds r.created c

end Renderer

/-- What is kept under other numbers is found as before. -/
lemma lookup_filter_of_ne {α : Type} {entries : List (Nat × α)} {x y : Nat} (hne : y ≠ x) :
    (entries.filter (·.1 ≠ x)).lookup y = entries.lookup y := by
  induction entries with
  | nil => rfl
  | cons entry entries ih =>
    by_cases hentry : entry.1 = x
    · have hother : (y == entry.1) = false := by simpa [hentry] using hne
      rw [List.filter_cons_of_neg (by simpa using hentry), ih]
      exact (List.lookup_cons.trans (by rw [hother])).symm
    · rw [List.filter_cons_of_pos (by simpa using hentry), List.lookup_cons, List.lookup_cons, ih]

namespace Device

variable {d : Device} {shape : TextureShape} {x y : TextureId}

lemma isSome_shape? : (d.shape? x).isSome = true ↔ x ∈ d.live := by
  rw [shape?, List.lookup_isSome_iff, live, List.mem_map]
  simp only [beq_iff_eq, @eq_comm _ x]

/-- What is left when a texture is destroyed has the shape that it had. -/
lemma shape?_of_destroy (h : (d.destroy x).shape? y = some shape) : d.shape? y = some shape := by
  have hlive : y ∈ (d.destroy x).live := isSome_shape?.mp (by rw [h]; rfl)
  simp only [destroy] at h
  split at h
  · rwa [shape?, lookup_filter_of_ne (mem_live_destroy.mp hlive).2] at h
  · exact h

lemma shape?_foldl_destroy {ts : List Target}
    (h : (ts.foldl (fun d t => d.destroy t.texture) d).shape? x = some shape) :
    d.shape? x = some shape := by
  induction ts generalizing d with
  | nil => exact h
  | cons t ts ih => exact shape?_of_destroy (ih h)

lemma submitted_foldl_destroy {ts : List Target} :
    (ts.foldl (fun d t => d.destroy t.texture) d).submitted = d.submitted := by
  induction ts generalizing d with
  | nil => rfl
  | cons t ts ih => exact ih.trans submitted_destroy

/-- A texture is created with the shape asked for, or not at all. -/
lemma create_cases (d : Device) (shape : TextureShape) :
    (∃ e d', d.create shape = (.error e, d') ∧ d'.textures = d.textures ∧
      d'.nextTexture = d.nextTexture ∧ d'.submitted = d.submitted) ∨
    ∃ d', d.create shape = (.ok d.nextTexture, d') ∧
      d'.textures = d.textures ++ [(d.nextTexture, shape)] ∧
      d'.nextTexture = d.nextTexture + 1 ∧ d'.submitted = d.submitted := by
  simp only [create]
  split
  · exact .inl ⟨_, _, rfl, rfl, rfl, rfl⟩
  · split
    · exact .inl ⟨_, _, rfl, rfl, rfl, rfl⟩
    · exact .inr ⟨_, rfl, rfl, rfl, rfl⟩

end Device

namespace Renderer

variable {r r' : Renderer} {law : Law} {before : List TargetKind} {t : Target} {n : Note}

lemma created_note (hn : n.created? = none) :
    { r with notes := r.notes ++ [n] }.created = r.created := by
  simp [created, hn]

namespace Obeys

lemma new {limits : DeviceLimits} {config : TargetConfig} :
    (Renderer.new (.new limits) config).Obeys law [] where
  before_le := List.prefix_rfl
  next := rfl
  targets t ht := by cases ht
  shapes x shape h := by cases h
  lawful := by simp [lists, Renderer.new, Device.new]

/-- Whatever was created so far is there from now on. -/
lemma since (h : r.Obeys law before) : r.Obeys law r.created :=
  { h with before_le := List.prefix_rfl }

/-- Nothing is created, but targets may be given up. -/
lemma shrink (h : r.Obeys law before) (hcreated : r'.created = r.created)
    (hnext : r'.device.nextTexture = r.device.nextTexture) (htargets : r'.targets ⊆ r.targets)
    (hshapes : ∀ x shape, r'.device.shape? x = some shape → r.device.shape? x = some shape)
    (hlists : ∀ commands ∈ r'.lists, ∀ c ∈ commands, law.Holds r.created c) :
    r'.Obeys law before where
  before_le := hcreated ▸ h.before_le
  next := by rw [hcreated, hnext, h.next]
  targets t ht := hcreated ▸ h.targets t (htargets ht)
  shapes x shape hshape := by
    rw [createdAs?, hcreated]
    exact h.shapes x shape (hshapes x shape hshape)
  lawful := hcreated ▸ hlists

/-- Notes that tell of no texture do not matter. -/
lemma note (h : r.Obeys law before) (hn : n.created? = none) :
    { r with notes := r.notes ++ [n] }.Obeys law before :=
  h.shrink (created_note hn) rfl (List.Subset.refl _) (fun _ _ => id) h.lawful

lemma add (h : r.Obeys law before) {c : Command} (hc : law.Holds r.created c) :
    (r.add c).Obeys law before := by
  refine h.shrink rfl rfl (List.Subset.refl _) (fun _ _ => id) ?_
  intro commands hcommands c' hc'
  rcases List.mem_cons.mp hcommands with rfl | hcommands
  · rcases List.mem_append.mp hc' with hc' | hc'
    · exact h.lawful _ List.mem_cons_self c' hc'
    · exact List.mem_singleton.mp hc' ▸ hc
  · exact h.lawful _ (List.mem_cons_of_mem _ hcommands) c' hc'

lemma remove (h : r.Obeys law before) (t : Target) : (r.remove t).Obeys law before := by
  refine h.shrink rfl Device.nextTexture_destroy ((List.filter_subset_self _))
    (fun _ _ => Device.shape?_of_destroy) ?_
  rw [lists, show (r.remove t).device.submitted = r.device.submitted from Device.submitted_destroy]
  exact h.lawful

lemma setConfig (h : r.Obeys law before) (config : TargetConfig) :
    (r.setConfig config).2.Obeys law before := by
  simp only [Renderer.setConfig]
  split
  · exact h
  · refine h.shrink (created_note rfl) nextTexture_foldl_destroy (List.nil_subset _)
      (fun _ _ => Device.shape?_foldl_destroy) ?_
    have hsubmitted : r.destroyAll.device.submitted = r.device.submitted :=
      Device.submitted_foldl_destroy
    simp only [lists, hsubmitted]
    exact h.lawful

/-- A texture is created and noted, for a target that is kept as the latest. -/
lemma create (h : r.Obeys law before) {shape : TextureShape} {d : Device} {notes : List Note}
    (hdevice : d.textures = r.device.textures ++ [(r.device.nextTexture, shape)])
    (hnext : d.nextTexture = r.device.nextTexture + 1)
    (hsubmitted : d.submitted = r.device.submitted)
    (hnotes : notes.filterMap Note.created? = r.created ++ [t.key.kind])
    (htexture : t.texture = r.device.nextTexture)
    (hformat : shape.format = Target.formatFor t.key.kind) :
    { r with device := d, notes, targets := r.targets ++ [t] }.Obeys law before where
  before_le := by
    rw [created, hnotes]
    exact h.before_le.trans (List.prefix_append _ _)
  next := by
    have hlength := congrArg List.length hnotes
    rw [List.length_append, List.length_singleton] at hlength
    rw [hnext, h.next, ← hlength]
    rfl
  targets s hs := by
    rw [created, hnotes]
    rcases List.mem_append.mp hs with hs | hs
    · exact purpose?_mono (List.prefix_append _ _) (h.targets s hs)
    · rw [List.mem_singleton.mp hs, htexture, h.next, purpose?_concat]
  shapes x known hknown := by
    rw [createdAs?, created, hnotes]
    rw [Device.shape?, hdevice, List.lookup_append] at hknown
    rcases Option.or_eq_some_iff.mp hknown with hold | ⟨-, hlast⟩
    · obtain ⟨kind, hkind, hsame⟩ := Option.map_eq_some_iff.mp (h.shapes x known hold)
      rw [purpose?_mono (List.prefix_append _ _) hkind, ← hsame]
      rfl
    · rw [List.lookup_cons] at hlast
      split at hlast
      · rename_i hx
        rw [eq_of_beq hx, h.next, purpose?_concat, ← Option.some.inj hlast, hformat]
        rfl
      · cases hlast
  lawful := by
    rw [lists, hsubmitted, created, hnotes]
    exact fun commands hcommands c hc =>
      law.mono (List.prefix_append _ _) (h.lawful commands hcommands c hc)

end Obeys

end Renderer

open Rendering

variable {r r' : Renderer} {slot : Slot} {law : Law} {before : List TargetKind}

namespace Target

variable {key : TargetKey} {width height : Nat} {t : Target}

/-- A target that is kept as the latest, if its texture is created. -/
lemma keeps_insert : Keeps (Renderer.Obeys law before) (do
    let new ← create key slot width height
    modify fun r => r.insert new
    return new : Rendering Target) r := by
  intro h
  rw [final_bind]
  simp only [create, Rendering.get_bind]
  generalize hshape : TextureShape.mk _ _ _ _ = shape
  have hformat : shape.format = formatFor key.kind := by rw [← hshape]
  obtain ⟨e, d, hd, htextures, hnext, hsubmitted⟩ | ⟨d, hd, htextures, hnext, hsubmitted⟩ :=
    r.device.create_cases shape
  · rw [hd]
    refine h.shrink rfl hnext (List.Subset.refl _) ?_ ?_
    · intro x shape hx
      change d.textures.lookup x = _ at hx
      rwa [htextures] at hx
    · change ∀ commands ∈ r.commands :: d.submitted, _
      rw [hsubmitted]
      exact h.lawful
  · rw [hd]
    refine h.create htextures hnext hsubmitted ?_ rfl hformat
    rw [List.filterMap_append]
    rfl

lemma keeps_request : Keeps (Renderer.Obeys law before) (request key slot width height) r := by
  refine .get_bind ?_
  split
  · rename_i old hfound
    split
    · exact .pure
    · exact fun h => keeps_insert ((h.note rfl).remove old)
  · exact keeps_insert

/-- A request only adds to what was created, the texture that it answers with among it. -/
lemma created_of_request (h : request key slot width height r = .ok t r') :
    r.created <+: r'.created := by
  have hinsert : ∀ {width height : Nat} {r : Renderer}, (do
      let new ← create key slot width height
      modify fun r => r.insert new
      return new : Rendering Target) r = .ok t r' → r.created <+: r'.created := by
    intro width height r h
    obtain ⟨new, r₁, hnew, h⟩ := Rendering.bind_eq_ok.mp h
    cases h
    simp only [create, Rendering.get_bind] at hnew
    generalize TextureShape.mk _ _ _ _ = shape at hnew
    obtain ⟨e, d, hd, -⟩ | ⟨d, hd, -⟩ := r.device.create_cases shape
    · rw [hd] at hnew
      cases hnew
    · rw [hd] at hnew
      cases hnew
      exact (List.prefix_append _ _).filterMap _
  simp only [request, Rendering.get_bind] at h
  cases hfind : r.find? key slot with
  | none =>
    simp only [hfind] at h
    exact hinsert h
  | some old =>
    simp only [hfind] at h
    split at h
    · cases h
      exact List.prefix_rfl
    · exact ((List.prefix_append _ _).filterMap _).trans (hinsert h)

end Target

namespace Rendering

lemma keeps_add {c : Command} (hc : r.Obeys law before → law.Holds r.created c) :
    Keeps (Renderer.Obeys law before) (emit c) r := fun h => h.add (hc h)

lemma keeps_note {n : Note} (hn : n.created? = none) :
    Keeps (Renderer.Obeys law before) (note n) r :=
  fun h => h.note hn

lemma keeps_markWritten {address : Nat} {type : WriteType} :
    Keeps (Renderer.Obeys law before) (markWritten address type) r :=
  fun h => h.shrink rfl rfl (List.Subset.refl _) (fun _ _ => id) h.lawful

lemma keeps_begin : Keeps (Renderer.Obeys law before) begin r := by
  refine fun h => h.shrink rfl rfl (List.Subset.refl _) (fun _ _ => id) ?_
  intro commands hcommands c hc
  rcases List.mem_cons.mp hcommands with rfl | hcommands
  · cases hc
  · exact h.lawful _ (List.mem_cons_of_mem _ hcommands) c hc

lemma keeps_submit : Keeps (Renderer.Obeys law before) submit r := by
  intro h
  rw [final]
  cases hmissing : r.device.missing? r.commands with
  | some x =>
    rw [submit_of_missing hmissing]
    exact h
  | none =>
    rw [submit_of_none_missing hmissing]
    refine h.shrink rfl rfl (List.Subset.refl _) (fun _ _ => id) ?_
    intro commands hcommands
    exact h.lawful commands ((List.mem_cons.mp hcommands).elim (· ▸ List.mem_cons_self) id)

/-- The command that fills the scratch image keeps to the law. -/
lemma keeps_throughScratch {screen : Screen} {command : TextureId → Command}
    (hcommand : r.Obeys law before → ∀ kinds x, r.created <+: kinds →
      purpose? kinds x = some .present → law.Holds kinds (command x)) :
    Keeps (Renderer.Obeys law before) (throughScratch screen command) r := by
  intro h
  refine Keeps.bind Target.keeps_request (fun t r' hrequest => ?_) h
  refine .bind keeps_begin fun _ r₁ hbegin => ?_
  refine .bind (keeps_add fun h₁ => ?_) fun _ _ _ => .bind keeps_submit fun _ _ _ => .pure
  obtain ⟨ht, hkey, -⟩ := (Target.Requested.of_request hrequest).mem
  have hle := Target.created_of_request hrequest
  cases hbegin
  have hpurpose := h₁.targets t ht
  rw [hkey] at hpurpose
  exact hcommand h _ _ hle hpurpose

end Rendering

namespace Operation

/-- The commands that the operation may come to keep to the law. -/
def Obeys (law : Law) : Operation → Prop
  | upload _ change => ∀ kinds x, law.Holds kinds (.upload x change.rect change.size change.data)
  | copyTile copy => ∀ kinds source x, (purpose? kinds source).isSome = true →
    purpose? kinds x = some .tileCopy → law.Holds kinds (.copy source x copy.fbRect false)
  | reinterpret _ _ _ source target rect => ∀ kinds x y,
    purpose? kinds x = some (.ofWrite source) → purpose? kinds y = some (.ofWrite target) →
      law.Holds kinds (.copy x y rect true)
  | synchronize .. => True

lemma keeps_record {op : Operation} (hop : op.Obeys law) :
    Keeps (Renderer.Obeys law before) (op.record slot) r := by
  cases op with
  | upload type change =>
    exact .bind Target.keeps_request fun t r' _ => keeps_add fun _ => hop _ _
  | copyTile copy =>
    refine .get_bind ?_
    split
    · rename_i source hsource
      intro h
      refine Keeps.bind .ofFault (fun width _ hwidth => ?_) h
      obtain ⟨-, rfl⟩ := Rendering.ofFault_eq_ok.mp hwidth
      refine Keeps.bind .ofFault fun height _ hheight => ?_
      obtain ⟨-, rfl⟩ := Rendering.ofFault_eq_ok.mp hheight
      refine .bind Target.keeps_request fun t r' hrequest => keeps_add fun h' => ?_
      obtain ⟨ht, hkey, -⟩ := (Target.Requested.of_request hrequest).mem
      have hpurpose := h'.targets t ht
      rw [hkey] at hpurpose
      refine hop _ _ _ ?_ hpurpose
      rw [purpose?_mono (Target.created_of_request hrequest)
        (h.targets source (of_copySource? hsource))]
      rfl
    · exact keeps_note rfl
  | reinterpret address size width source target rect =>
    refine .get_bind ?_
    split
    · rename_i found hfound
      split
      · rename_i hkind
        intro h
        refine Keeps.bind Target.keeps_request (fun t r' hrequest => keeps_add fun h' => ?_) h
        obtain ⟨ht, hkey, -⟩ := (Target.Requested.of_request hrequest).mem
        have hpurpose := h'.targets t ht
        rw [hkey] at hpurpose
        refine hop _ _ _ ?_ hpurpose
        rw [purpose?_mono (Target.created_of_request hrequest)
          (h.targets found (Renderer.mem_of_findByAddress? hfound).1), hkind]
      · exact .pure
    · exact .pure
  | synchronize =>
    refine .get_bind ?_
    split
    · exact keeps_add fun _ => law.barrier _ _
    · exact .pure

end Operation

namespace Workload

variable {w : Workload} {m : Matcher} {s : SubFrame} {p : Pair}

lemma keeps_recordCall {place : Nat} {color : Target} {depth : Option Target} {call : Call} :
    Keeps (Renderer.Obeys law before) (w.recordCall m s slot place color depth call) r := by
  refine .bind .ofFault fun _ _ _ => .bind .ofFault fun _ _ _ => .bind .ofFault fun _ _ _ => ?_
  exact .bind .ofFault fun _ _ _ => .get_bind (keeps_add fun _ => law.draw _ _)

lemma keeps_depthTarget? {width : Nat} :
    Keeps (Renderer.Obeys law before) (depthTarget? p width slot) r := by
  unfold depthTarget?
  split
  · split
    · exact .pure
    · exact .bind Target.keeps_request fun _ _ _ => .pure
  · exact .pure

lemma keeps_recordDraws {place : Nat} :
    Keeps (Renderer.Obeys law before) (w.recordDraws m s slot place p) r := by
  unfold recordDraws
  split
  · split
    · exact .pure
    · refine .bind Target.keeps_request fun _ _ _ => .bind keeps_depthTarget? fun depth _ _ => ?_
      refine .bind (.forM fun _ _ _ => keeps_recordCall) fun _ _ _ => ?_
      refine .bind keeps_markWritten fun _ _ _ => ?_
      cases depth with
      | none => exact .pure
      | some target => exact keeps_markWritten
  · exact .pure

/-- An image is rendered by the law if the operations around its draws obey it. -/
lemma keeps_renderImage (h : ∀ p ∈ w.pairs, ∀ op ∈ p.before ++ p.after, op.Obeys law) :
    Keeps (Renderer.Obeys law before) (w.renderImage m s slot) r := by
  refine .bind keeps_begin fun _ _ _ => .bind (.forM ?_) fun _ _ _ => keeps_submit
  rintro ⟨p, place⟩ hp _
  have hops := h p (List.fst_mem_of_mem_zipIdx hp)
  refine .bind (.forM fun op hop _ => ?_) fun _ _ _ => .bind keeps_recordDraws fun _ _ _ =>
    .forM fun op hop _ => ?_
  · exact Operation.keeps_record (hops op (List.mem_append_left _ hop))
  · exact Operation.keeps_record (hops op (List.mem_append_right _ hop))

end Workload

/-- The uploads of a present are performed by the law if they obey it. -/
lemma Rendering.keeps_upload {ops : List Operation} (h : ∀ op ∈ ops, op.Obeys law) :
    Keeps (Renderer.Obeys law before) (upload ops) r := by
  refine .bind keeps_begin fun _ _ _ => .bind (.forM fun op hop _ => ?_) fun _ _ _ =>
    .bind (.forM fun op _ _ => ?_) fun _ _ _ => keeps_submit
  · exact Operation.keeps_record (h op hop)
  · cases op with
    | upload type change => exact keeps_markWritten
    | _ => exact .pure

end Scanout
