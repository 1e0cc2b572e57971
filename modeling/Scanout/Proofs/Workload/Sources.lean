import Scanout.Proofs.Target.Lookup
import Scanout.Proofs.Target.Submission
import Scanout.Proofs.Workload.Operations
import Scanout.Proofs.Workload.Outgrown

/-!
# Where operations read from

An operation writes to the target of its key in the slot at hand. What it reads from is looked up in
that slot too, and what was not rendered there, among the final images. `Operation.Follows` is this
rule, and `Operation.Followed` a recording of several operations in order that keeps to it. A
conversion is recorded by the rule only if its source is in the slot at hand, or in neither.
-/

namespace Scanout

/-- A target found in the slot at hand, or failing that among the final images. -/
def Slot.OrMain (found : Slot → Target → Prop) (slot : Slot) (t : Target) : Prop :=
  found slot t ∨ (∀ s, ¬ found slot s) ∧ found .main t

namespace Operation

/-- The commands that an operation comes to by the rule, where `r` has the targets before it and
`r'` those after it. -/
inductive Follows (slot : Slot) (r r' : Renderer) : Operation → List Command → Prop where
  | upload {type : WriteType} {change : MemoryChange} {t : Target}
      (into : r'.find? (.ofImage change.address change.width change.size type) slot = some t) :
      Follows slot r r' (.upload type change)
        [.upload t.texture change.rect change.size change.data]
  | copyTile {copy : TileCopy} {source t : Target}
      (reads : slot.OrMain (r.Prefers copy.address .color) source)
      (into : r'.find? copy.key slot = some t) :
      Follows slot r r' (.copyTile copy) [.copy source.texture t.texture copy.fbRect false]
  | copyNothing {copy : TileCopy}
      (absent : ∀ source, ¬ slot.OrMain (r.Prefers copy.address .color) source) :
      Follows slot r r' (.copyTile copy) []
  | reinterpret {address width : Nat} {size : PixelSize} {type type' : WriteType} {rect : Rect}
      {source t : Target} (reads : slot.OrMain (r.Holds address (.ofWrite type)) source)
      (into : r'.find? (.ofImage address width size type') slot = some t) :
      Follows slot r r' (.reinterpret address size width type type' rect)
        [.copy source.texture t.texture rect true]
  | reinterpretNothing {address width : Nat} {size : PixelSize} {type type' : WriteType}
      {rect : Rect} (absent : ∀ source, ¬ slot.OrMain (r.Holds address (.ofWrite type)) source) :
      Follows slot r r' (.reinterpret address size width type type' rect) []
  | synchronize {address width : Nat} {size : PixelSize} {t : Target}
      (drawn : r.find? (.ofImage address width size .color) slot = some t) :
      Follows slot r r' (.synchronize address size width) [.barrier t.texture]
  | synchronizeNothing {address width : Nat} {size : PixelSize}
      (absent : r.find? (.ofImage address width size .color) slot = none) :
      Follows slot r r' (.synchronize address size width) []

/-- Operations are recorded in order, and each adds the commands that it comes to by the rule. -/
inductive Followed (slot : Slot) : List Operation → Renderer → Renderer → Prop where
  | nil {r : Renderer} : Followed slot [] r r
  | cons {op : Operation} {ops : List Operation} {r r₁ r' : Renderer} {cs : List Command}
      (recorded : op.record slot r = .ok () r₁) (commands : r₁.commands = r.commands ++ cs)
      (follows : op.Follows slot r r₁ cs) (rest : Followed slot ops r₁ r') :
      Followed slot (op :: ops) r r'

/-- An operation that is not recorded by the rule: a copy of a region that has no size, or a
conversion whose source is only among the final images. -/
inductive Strays (slot : Slot) (r : Renderer) : Operation → Prop where
  | unmeasured {copy : TileCopy} {source : Target}
      (reads : slot.OrMain (r.Prefers copy.address .color) source)
      (region : ∀ width height,
        ¬ (copy.fbRect.width = .ok width ∧ copy.fbRect.height = .ok height)) :
      Strays slot r (.copyTile copy)
  | elsewhere {address width : Nat} {size : PixelSize} {type type' : WriteType} {rect : Rect}
      {source : Target} (absent : ∀ s, ¬ r.Holds address (.ofWrite type) slot s)
      (final : r.Holds address (.ofWrite type) .main source) :
      Strays slot r (.reinterpret address size width type type' rect)

variable {r r' r₁ : Renderer} {slot : Slot} {op : Operation} {ops : List Operation} {e : Stop}

lemma orMain_of_copySource? {address : Nat} {source : Target}
    (h : copySource? r address slot = some source) :
    slot.OrMain (r.Prefers address .color) source := by
  rcases Option.or_eq_some_iff.mp h with h | ⟨hnone, h⟩
  · exact .inl (Renderer.prefers_of_findByAddress? h)
  · exact .inr ⟨fun _ => Renderer.not_prefers_of_none hnone, Renderer.prefers_of_findByAddress? h⟩

lemma not_orMain_of_copySource? {address : Nat} {source : Target}
    (h : copySource? r address slot = none) : ¬ slot.OrMain (r.Prefers address .color) source := by
  obtain ⟨hslot, hmain⟩ := Option.or_eq_none_iff.mp h
  rintro (h | ⟨-, h⟩)
  · exact Renderer.not_prefers_of_none hslot h
  · exact Renderer.not_prefers_of_none hmain h

/-- A command that is added once its target was requested goes into that target. -/
lemma add_of_requested {key : TargetKey} {width height : Nat} {t : Target} (c : Command)
    (h : Target.Requested key slot width height r t r₁) :
    (r₁.add c).commands = r.commands ++ [c] ∧ (r₁.add c).find? key slot = some t := by
  rw [Renderer.commands_add, Renderer.commands_of_requested h, Renderer.find?_add]
  exact ⟨rfl, Renderer.find?_self_of_requested h⟩

/-- An operation that does not stray comes to the commands of the rule. -/
lemma Follows.of_recorded (h : op.Recorded slot r r') (hstrays : ¬ op.Strays slot r) :
    ∃ cs, r'.commands = r.commands ++ cs ∧ op.Follows slot r r' cs := by
  cases h with
  | upload requested =>
    obtain ⟨hcommands, hinto⟩ := add_of_requested _ requested
    exact ⟨_, hcommands, .upload hinto⟩
  | copyTile found requested =>
    obtain ⟨hcommands, hinto⟩ := add_of_requested _ requested
    exact ⟨_, hcommands, .copyTile (orMain_of_copySource? found) hinto⟩
  | copyNothing absent =>
    exact ⟨[], by simp, .copyNothing fun _ => not_orMain_of_copySource? absent⟩
  | reinterpret isFound kind requested =>
    obtain ⟨hmem, haddress, hslot, -⟩ := Renderer.mem_of_findByAddress? isFound
    obtain ⟨hcommands, hinto⟩ := add_of_requested _ requested
    exact ⟨_, hcommands, .reinterpret (.inl ⟨hmem, haddress, kind, hslot⟩) hinto⟩
  | @reinterpretNothing address _ _ source _ _ _ absent =>
    have hnone : ∀ s, ¬ r.Holds address (.ofWrite source) slot s := by
      intro s hs
      obtain ⟨t, hfound, ht⟩ := Renderer.findByAddress?_of_holds hs
      exact absent t hfound ht.2.2.1
    refine ⟨[], by simp, .reinterpretNothing fun s hs => ?_⟩
    rcases hs with hs | ⟨-, hs⟩
    · exact hnone s hs
    · exact hstrays (.elsewhere hnone hs)
  | synchronize found => exact ⟨_, rfl, .synchronize found⟩
  | synchronizeNothing absent => exact ⟨[], by simp, .synchronizeNothing absent⟩

/-- An operation that strays does not come to the commands of the rule. -/
lemma Strays.not_follows (hstrays : op.Strays slot r) (h : op.record slot r = .ok () r')
    {cs : List Command} (hcommands : r'.commands = r.commands ++ cs) :
    ¬ op.Follows slot r r' cs := by
  cases hstrays with
  | @unmeasured copy source reads region =>
    simp only [record, Rendering.get_bind] at h
    cases hs : copySource? r copy.address slot with
    | none => exact absurd reads (not_orMain_of_copySource? hs)
    | some found =>
      simp only [hs, Rendering.bind_eq_ok, Rendering.ofFault_eq_ok] at h
      obtain ⟨width, _, ⟨hwidth, rfl⟩, height, _, ⟨hheight, -⟩, -⟩ := h
      exact absurd ⟨hwidth, hheight⟩ (region width height)
  | elsewhere absent final =>
    have hr : r' = r := by
      cases Recorded.of_record h with
      | reinterpretNothing => rfl
      | reinterpret isFound kind requested =>
        obtain ⟨hmem, haddress, hslot, -⟩ := Renderer.mem_of_findByAddress? isFound
        exact absurd ⟨hmem, haddress, kind, hslot⟩ (absent _)
    obtain rfl : cs = [] := by simpa [hr] using hcommands
    rintro ⟨⟩
    rename_i hnone
    exact hnone _ (.inr ⟨absent, final⟩)

/-- A request fails only if the device refuses a texture. -/
lemma refused_of_request_error {key : TargetKey} {width height : Nat}
    (h : Target.request key slot width height r = .error e r') : ∃ cause, e = .refused cause := by
  have hcreate : ∀ {r : Renderer} {width height : Nat},
      Target.create key slot width height r = .error e r' → ∃ cause, e = .refused cause := by
    intro r width height h
    simp only [Target.create, Rendering.get_bind] at h
    generalize r.device.create _ = c at h
    obtain ⟨texture | cause, device⟩ := c
    · cases h
      exact ⟨_, rfl⟩
    · cases h
  simp only [Target.request, Rendering.get_bind] at h
  cases hf : r.find? key slot with
  | none =>
    simp only [hf] at h
    exact hcreate (Target.create_of_error h)
  | some old =>
    simp only [hf] at h
    split at h
    · cases h
    · exact hcreate (Target.create_of_error h)

/-- Recording an operation fails only if the device refuses a texture, or a region has no size. -/
lemma of_record_error (h : op.record slot r = .error e r') :
    (∃ cause, e = .refused cause) ∨ op.Strays slot r := by
  have hemit : ∀ {key : TargetKey} {width height : Nat} {c : Target → Command},
      (do
        let t ← Target.request key slot width height
        Rendering.emit (c t) : Rendering Unit) r = .error e r' → ∃ cause, e = .refused cause := by
    intro key width height c h
    rcases Rendering.bind_eq_error.mp h with h | ⟨t, r₁, -, h⟩
    · exact refused_of_request_error h
    · cases h
  cases op with
  | upload type change => exact .inl (hemit h)
  | copyTile copy =>
    simp only [record, Rendering.get_bind] at h
    cases hs : copySource? r copy.address slot with
    | none =>
      simp only [hs] at h
      cases h
    | some source =>
      cases hw : copy.fbRect.width with
      | error f => exact .inr (.unmeasured (orMain_of_copySource? hs) (by simp [hw]))
      | ok width =>
        cases hh : copy.fbRect.height with
        | error f => exact .inr (.unmeasured (orMain_of_copySource? hs) (by simp [hh]))
        | ok height =>
          simp only [hs, hw, hh] at h
          exact .inl (hemit h)
  | reinterpret address size width source target rect =>
    simp only [record, Rendering.get_bind] at h
    cases hs : r.findByAddress? address (.ofWrite source) slot with
    | none =>
      simp only [hs] at h
      cases h
    | some found =>
      simp only [hs] at h
      split at h
      · exact .inl (hemit h)
      · cases h
  | synchronize address size width =>
    simp only [record, Rendering.get_bind] at h
    cases hf : r.find? (.ofImage address width size .color) slot with
    | none | some t =>
      simp only [hf] at h
      cases h

lemma recordAll_cons : recordAll slot (op :: ops) r =
    match op.record slot r with
    | .ok _ r₁ => recordAll slot ops r₁
    | .error e r₁ => .error e r₁ := by
  change (op.record slot >>= fun _ => recordAll slot ops) r = _
  rw [Rendering.bind_apply]
  cases op.record slot r <;> rfl

lemma followed_cons_iff (h : op.record slot r = .ok () r₁) :
    Followed slot (op :: ops) r r' ↔ ¬ op.Strays slot r ∧ Followed slot ops r₁ r' := by
  constructor
  · rintro (_ | ⟨recorded, commands, follows, rest⟩)
    cases h.symm.trans recorded
    exact ⟨fun hstrays => hstrays.not_follows h commands follows, rest⟩
  · rintro ⟨hstrays, rest⟩
    obtain ⟨cs, hcommands, hfollows⟩ := Follows.of_recorded (.of_record h) hstrays
    exact .cons h hcommands hfollows rest

/-- As long as the device refuses no texture, operations are recorded in order and by the rule
exactly if none of them strays when its turn comes. -/
theorem recordAll_follows_iff
    (hcreated : ∀ cause r', recordAll slot ops r ≠ .error (.refused cause) r') :
    (∃ r', recordAll slot ops r = .ok () r' ∧ Followed slot ops r r') ↔
      ∀ earlier op later r₁, ops = earlier ++ op :: later →
        recordAll slot earlier r = .ok () r₁ → ¬ op.Strays slot r₁ := by
  induction ops generalizing r with
  | nil => simpa using ⟨r, rfl, .nil⟩
  | cons op ops ih =>
    cases h : op.record slot r with
    | error e r₁ =>
      have herror : recordAll slot (op :: ops) r = .error e r₁ := by rw [recordAll_cons, h]
      have hstrays : op.Strays slot r :=
        (of_record_error h).resolve_left fun ⟨cause, he⟩ => hcreated cause r₁ (he ▸ herror)
      constructor
      · rintro ⟨r', hok, -⟩
        cases herror.symm.trans hok
      · intro hnone
        exact absurd hstrays (hnone [] op ops r rfl rfl)
    | ok u r₁ =>
      have hrest : recordAll slot (op :: ops) r = recordAll slot ops r₁ := by rw [recordAll_cons, h]
      simp only [hrest, followed_cons_iff h] at hcreated ⊢
      constructor
      · rintro ⟨r', hok, hstrays, hfollowed⟩ earlier op' later r₂ hsplit hearlier
        cases earlier with
        | nil =>
          cases hsplit
          cases hearlier
          exact hstrays
        | cons _ earlier =>
          obtain ⟨rfl, rfl⟩ := List.cons.inj hsplit
          rw [recordAll_cons, h] at hearlier
          exact (ih hcreated).mp ⟨r', hok, hfollowed⟩ earlier op' later r₂ rfl hearlier
      · intro hall
        obtain ⟨r', hok, hfollowed⟩ := (ih hcreated).mpr fun earlier op' later r₂ hsplit hearlier =>
          hall (op :: earlier) op' later r₂ (by rw [hsplit, List.cons_append])
            (by rw [recordAll_cons, h]; exact hearlier)
        exact ⟨r', hok, hall [] op ops r rfl rfl, hfollowed⟩

/-- A renderer that has made targets of one pixel. -/
def renderedInto (places : List (TargetKey × Slot)) : Renderer :=
  Rendering.final (places.forM fun (key, slot) => discard (Target.request key slot 1 1))
    Workload.freshRenderer

/-- The depths of an image of one pixel are converted to colors. -/
def dotConverted : Operation := .reinterpret 16 .bits16 1 .depth .color ⟨0, 0, 1, 1⟩

/-- A dot is copied to be sampled. -/
def dotCopied : Operation := .copyTile ⟨32, .bits16, 1, 0, ⟨0, 0, 1, 1⟩, ⟨0, 0, 1, 1⟩⟩

/-- Depths in the slot at hand, and a dot among the final images. -/
def depthsAtHand : Renderer :=
  renderedInto [(.ofImage 16 1 .bits16 .depth, .intermediate 0),
    (.ofImage 32 1 .bits16 .color, .main)]

/-- The depths are converted and the dot is copied. -/
theorem depths_at_hand_followed :
    ∃ r', recordAll (.intermediate 0) [dotConverted, dotCopied] depthsAtHand = .ok () r' ∧
      Followed (.intermediate 0) [dotConverted, dotCopied] depthsAtHand r' := by
  have hok : Rendering.succeeds (recordAll (.intermediate 0) [dotConverted, dotCopied])
      depthsAtHand = true := by decide +kernel
  have hheld : ∃ t ∈ depthsAtHand.targets, t.key.address = 16 ∧ t.key.kind = .depth ∧
      t.slot = .intermediate 0 := by decide +kernel
  refine (recordAll_follows_iff fun cause r' hrefused => ?_).mpr ?_
  · cases (Rendering.eq_ok_of_succeeds hok).symm.trans hrefused
  · rintro earlier op later r₁ hsplit hearlier hstrays
    rcases earlier with _ | ⟨first, _ | ⟨second, earlier⟩⟩
    · cases hsplit
      cases hearlier
      obtain ⟨t, ht⟩ := hheld
      cases hstrays with
      | elsewhere absent final => exact absent t ht
    · cases hsplit
      cases hstrays with
      | unmeasured reads region => exact region 1 1 ⟨rfl, rfl⟩
    · simp at hsplit

/-- Depths that are only among the final images. -/
def finalDepths : Renderer := renderedInto [(.ofImage 16 1 .bits16 .depth, .main)]

/-- The depths are not converted for an image in another slot. -/
theorem final_depths_not_converted :
    (∃ t, Slot.OrMain (finalDepths.Holds 16 .depth) (.intermediate 0) t) ∧
    ∃ r', recordAll (.intermediate 0) [dotConverted] finalDepths = .ok () r' ∧
      r'.commands = [] ∧ ¬ Followed (.intermediate 0) [dotConverted] finalDepths r' := by
  have hok : Rendering.succeeds (recordAll (.intermediate 0) [dotConverted]) finalDepths = true := by
    decide +kernel
  have hcommands : (Rendering.final (recordAll (.intermediate 0) [dotConverted])
      finalDepths).commands = [] := by decide +kernel
  have hheld : ∃ t ∈ finalDepths.targets, t.key.address = 16 ∧ t.key.kind = .depth ∧
      t.slot = .main := by decide +kernel
  have habsent : ∀ t ∈ finalDepths.targets, t.slot ≠ .intermediate 0 := by decide +kernel
  obtain ⟨t, ht⟩ := hheld
  have hnone : ∀ s, ¬ finalDepths.Holds 16 .depth (.intermediate 0) s := fun s hs =>
    habsent s hs.1 hs.2.2.2
  have hrecord := Rendering.eq_ok_of_succeeds hok
  refine ⟨⟨t, .inr ⟨hnone, ht⟩⟩, _, hrecord, hcommands, fun hfollowed => ?_⟩
  obtain ⟨r₁, hrecorded, -⟩ := Rendering.forM_cons_eq_ok.mp hrecord
  exact ((followed_cons_iff hrecorded).mp hfollowed).1 (.elsewhere hnone ht)

end Operation

end Scanout
