import Mathlib.Data.List.Induction
import Scanout.Proofs.Workload.Operations
import Scanout.Proofs.Workload.Outgrown

/-!
# Barriers before copies

What a draw wrote may be copied in the same command list only after a barrier on the texture.
Synchronizing a workload asks for barriers, but before some copies only. Which copies of an image go
without one is found out by going through its parts with the sizes of the targets alone.
-/

namespace Scanout

/-- A list is split in front of its last element or of an earlier one. -/
lemma append_singleton_eq_iff {α : Type} {xs before after : List α} {x y : α} :
    xs ++ [x] = before ++ y :: after ↔
      (after = [] ∧ xs = before ∧ x = y) ∨
        ∃ between, after = between ++ [x] ∧ xs = before ++ y :: between := by
  rcases List.eq_nil_or_concat after with rfl | ⟨between, z, rfl⟩
  · simp [List.append_singleton_inj]
  · rw [List.concat_eq_append, ← List.cons_append, ← List.append_assoc, List.append_singleton_inj]
    constructor
    · rintro ⟨rfl, rfl⟩
      exact .inr ⟨between, rfl, rfl⟩
    · rintro (⟨h, -⟩ | ⟨between', h, rfl⟩)
      · simp at h
      · obtain ⟨rfl, rfl⟩ := List.append_singleton_inj.mp h
        exact ⟨rfl, rfl⟩

namespace Command

/-- The textures that a command draws to. -/
def drawnTo : Command → List TextureId
  | .draw d => d.color :: d.depth.toList
  | _ => []

/-- Between a draw to a texture and a copy from it there is a barrier on the texture. -/
def Ordered (commands : List Command) : Prop :=
  ∀ before c between source destination rect reinterpret after,
    commands =
      before ++ c :: (between ++ .copy source destination rect reinterpret :: after) →
    source ∈ c.drawnTo → .barrier source ∈ between

/-- The textures that were drawn to and have had no barrier since. -/
def unsettled (commands : List Command) : List TextureId :=
  commands.foldl (fun xs c =>
    match c with
    | .barrier x => xs.filter (· ≠ x)
    | c => c.drawnTo ++ xs) []

variable {commands : List Command} {c : Command} {x : TextureId}

lemma unsettled_append_barrier :
    unsettled (commands ++ [.barrier x]) = (unsettled commands).filter (· ≠ x) := by
  simp [unsettled, List.foldl_append]

lemma unsettled_append (hc : ∀ x, c ≠ .barrier x) :
    unsettled (commands ++ [c]) = c.drawnTo ++ unsettled commands := by
  cases c with
  | barrier x => exact absurd rfl (hc x)
  | _ => simp [unsettled, List.foldl_append]

/-- A texture is unsettled after a draw to it until there is a barrier on it. -/
lemma mem_unsettled_iff : x ∈ unsettled commands ↔
    ∃ before c between, commands = before ++ c :: between ∧ x ∈ c.drawnTo ∧
      .barrier x ∉ between := by
  induction commands using List.reverseRecOn with
  | nil => simp [unsettled]
  | append_singleton commands e ih =>
    -- the last command draws to the texture, or an earlier one does and the last is no barrier
    have hlast : (∃ before c between, commands ++ [e] = before ++ c :: between ∧
        x ∈ c.drawnTo ∧ .barrier x ∉ between) ↔
        x ∈ e.drawnTo ∨ (x ∈ unsettled commands ∧ e ≠ .barrier x) := by
      rw [ih]
      simp only [append_singleton_eq_iff]
      constructor
      · rintro ⟨before, c, between, ⟨rfl, rfl, rfl⟩ | ⟨between, rfl, rfl⟩, hdrawn, hbarrier⟩
        · exact .inl hdrawn
        · simp only [List.mem_append, List.mem_singleton, not_or] at hbarrier
          exact .inr ⟨⟨before, c, between, rfl, hdrawn, hbarrier.1⟩, fun he => hbarrier.2 he.symm⟩
      · rintro (hdrawn | ⟨⟨before, c, between, rfl, hdrawn, hbarrier⟩, he⟩)
        · exact ⟨commands, e, [], .inl ⟨rfl, rfl, rfl⟩, hdrawn, List.not_mem_nil⟩
        · refine ⟨before, c, _, .inr ⟨between, rfl, rfl⟩, hdrawn, ?_⟩
          simp only [List.mem_append, List.mem_singleton, not_or]
          exact ⟨hbarrier, fun h => he h.symm⟩
    rw [hlast]
    by_cases he : ∃ y, e = .barrier y
    · obtain ⟨y, rfl⟩ := he
      rw [unsettled_append_barrier]
      simp [drawnTo, @eq_comm _ y]
    · have hne : e ≠ .barrier x := fun h => he ⟨x, h⟩
      rw [unsettled_append (not_exists.mp he), List.mem_append]
      simp [hne]

/-- A copy at the end is ordered if its source is settled. -/
lemma ordered_append_iff : Ordered (commands ++ [c]) ↔
    Ordered commands ∧ ∀ source destination rect reinterpret,
      c = .copy source destination rect reinterpret → source ∉ unsettled commands := by
  simp only [Ordered, mem_unsettled_iff]
  constructor
  · intro h
    refine ⟨fun before d between source destination rect reinterpret after hsplit => ?_, ?_⟩
    · exact h before d between source destination rect reinterpret (after ++ [c])
        (by simp [hsplit])
    · rintro source destination rect reinterpret rfl ⟨before, d, between, rfl, hdrawn, hbarrier⟩
      exact hbarrier (h before d between source destination rect reinterpret [] (by simp) hdrawn)
  · rintro ⟨hbefore, hlast⟩ before d between source destination rect reinterpret after hsplit hdrawn
    rw [← List.cons_append, ← List.append_assoc, append_singleton_eq_iff] at hsplit
    rcases hsplit with ⟨rfl, hcommands, rfl⟩ | ⟨after, rfl, hcommands⟩
    · by_contra hbarrier
      exact hlast _ _ _ _ rfl ⟨before, d, between, hcommands, hdrawn, hbarrier⟩
    · exact hbefore before d between source destination rect reinterpret after (by simp [hcommands])
        hdrawn

end Command

/-- How far an image was gone through for copies without a barrier. -/
structure Hazards where
  layout : Layout
  /-- the targets of the slot at hand that were drawn to and not synchronized since -/
  drawn : List TargetKey
  /-- one of them was copied -/
  exposed : Bool
  deriving DecidableEq, Repr

namespace Hazards

/-- A target is made large enough. If that replaces it, nothing was drawn to its texture. -/
def demand (slot : Slot) (h : Hazards) (key : TargetKey) (width height : Nat) : Hazards where
  layout := h.layout.demand key slot width height
  drawn :=
    if (h.layout.find? key slot).any (·.covers width height) then h.drawn
    else h.drawn.filter (· ≠ key)
  exposed := h.exposed

def draw (h : Hazards) (keys : List TargetKey) : Hazards := { h with drawn := keys ++ h.drawn }

/-- A target is copied. -/
def copy (slot : Slot) (h : Hazards) (source : Extent) : Hazards :=
  { h with exposed := h.exposed || decide (source.slot = slot ∧ source.key ∈ h.drawn) }

def settle (h : Hazards) (key : TargetKey) : Hazards :=
  { h with drawn := h.drawn.filter (· ≠ key) }

/-- Go through an operation. -/
def operation (slot : Slot) (h : Hazards) : Operation → Hazards
  | .upload type change =>
    h.demand slot (.ofImage change.address change.width change.size type) change.width
      (Operation.rowsDownTo change.rect)
  | .copyTile copy =>
    match h.layout.copySource? copy.address slot with
    | some source =>
      (h.copy slot source).demand slot copy.key (copy.fbRect.right - copy.fbRect.left).toNat
        (copy.fbRect.bottom - copy.fbRect.top).toNat
    | none => h
  | .reinterpret address size width source target rect =>
    match h.layout.findByAddress? address (.ofWrite source) slot with
    | some found =>
      if found.key.kind = .ofWrite source then
        (h.copy slot found).demand slot (.ofImage address width size target) width
          (Operation.rowsDownTo rect)
      else h
    | none => h
  | .synchronize address size width => h.settle (.ofImage address width size .color)

/-- Go through the draws of a pair. -/
def draws (slot : Slot) (h : Hazards) (p : Pair) : Hazards :=
  match p.colorImage with
  | some image =>
    if p.isEmpty then h
    else
      let color := TargetKey.ofImage image.address image.width image.size .color
      let h := h.demand slot color image.width p.drawHeight
      match Sync.writtenDepth p with
      | some address =>
        let depth := TargetKey.ofImage address image.width .bits16 .depth
        (h.demand slot depth image.width p.drawHeight).draw [color, depth]
      | none => h.draw [color]
  | none => h

def part (slot : Slot) (h : Hazards) : ImagePart → Hazards
  | .operation op => h.operation slot op
  | .draws _ p => h.draws slot p

end Hazards

/-- In the image of a workload a region is copied without a barrier from a target that was drawn to
before. -/
def Workload.exposes (w : Workload) (slot : Slot) (l : Layout) : Bool :=
  (w.imageParts.foldl (Hazards.part slot) ⟨l, [], false⟩).exposed

namespace Renderer

/-- The command list in hand is as far as the hazards say. -/
structure Faces (r : Renderer) (slot : Slot) (h : Hazards) : Prop where
  sound : r.Sound
  layout : r.layout = h.layout
  ordered : Command.Ordered r.commands ↔ h.exposed = false
  unsettled : ∀ t ∈ r.targets,
    t.texture ∈ Command.unsettled r.commands ↔ t.slot = slot ∧ t.key ∈ h.drawn
  old : ∀ x ∈ Command.unsettled r.commands, x < r.device.nextTexture

namespace Faces

variable {r r' : Renderer} {slot : Slot} {h : Hazards} {key : TargetKey} {width height : Nat}
  {t : Target}

lemma find?_any_covers (hr : r.Faces slot h) :
    (h.layout.find? key slot).any (·.covers width height) =
      (r.find? key slot).any (·.covers width height) := by
  rw [← hr.layout, find?_layout, Option.any_map]
  rfl

/-- A demand leaves nothing unsettled in a target that it makes. -/
lemma demand (hr : r.Faces slot h) (hreq : Target.Requested key slot width height r t r') :
    r'.Faces slot (h.demand slot key width height) := by
  have hcommands := commands_of_requested hreq
  have hlayout : r'.layout = h.layout.demand key slot width height := by
    rw [layout_of_requested hreq, hr.layout]
  rcases hreq.renewed hr.sound with ⟨hlarge, rfl⟩ | ⟨hsmall, hnew, hnext, htargets⟩
  · have hdrawn : (h.demand slot key width height).drawn = h.drawn :=
      if_pos (hr.find?_any_covers.trans hlarge)
    exact ⟨hr.sound, hlayout, hr.ordered, by rw [hdrawn]; exact hr.unsettled, hr.old⟩
  · have hdrawn : (h.demand slot key width height).drawn = h.drawn.filter (· ≠ key) :=
      if_neg (by rw [hr.find?_any_covers, hsmall]; exact Bool.false_ne_true)
    have hplace : t.place = (key, slot) := by
      obtain ⟨-, rfl, rfl⟩ := hreq.mem
      rfl
    refine ⟨hr.sound.requested hreq, hlayout, by rw [hcommands]; exact hr.ordered, ?_, ?_⟩
    · rw [hcommands, hdrawn]
      intro s hs
      rcases (htargets s).mp hs with rfl | ⟨hs, hne⟩
      · have hkey : s.key = key := congrArg Prod.fst hplace
        constructor
        · intro hx
          exact absurd (hr.old _ hx) (by rw [hnew]; exact Nat.lt_irrefl _)
        · rintro ⟨-, hx⟩
          simp [hkey] at hx
      · rw [hr.unsettled s hs]
        refine and_congr_right fun hslot => ?_
        have hne : s.key ≠ key := fun he => hne (by rw [Target.place, he, hslot])
        simp [hne]
    · rw [hcommands]
      exact fun x hx => (hr.old x hx).trans hnext

/-- An upload is no draw, barrier or copy. -/
lemma upload (hr : r.Faces slot h) {target : TextureId} {rect : Rect} {size : PixelSize}
    {data : ByteArray} : (r.add (.upload target rect size data)).Faces slot h where
  sound := hr.sound.congr rfl rfl rfl
  layout := hr.layout
  ordered := by
    rw [commands_add, Command.ordered_append_iff, hr.ordered]
    simp
  unsettled := by
    rw [commands_add, Command.unsettled_append (by simp)]
    exact hr.unsettled
  old := by
    rw [commands_add, Command.unsettled_append (by simp)]
    exact hr.old

/-- A copy is exposed if its source is unsettled. -/
lemma copy (hr : r.Faces slot h) {source : Target} (hs : source ∈ r.targets)
    (hreq : Target.Requested key slot width height r t r') {rect : Rect} {reinterpret : Bool} :
    (r'.add (.copy source.texture t.texture rect reinterpret)).Faces slot
      ((h.copy slot source.extent).demand slot key width height) := by
  have hr' := hr.demand hreq
  refine ⟨hr'.sound.congr rfl rfl rfl, hr'.layout, ?_, ?_, ?_⟩
  · have hsource := hr.unsettled source hs
    rw [commands_add, Command.ordered_append_iff, hr'.ordered, commands_of_requested hreq]
    change _ ↔ (h.exposed || decide (source.slot = slot ∧ source.key ∈ h.drawn)) = false
    rw [Bool.or_eq_false_iff, decide_eq_false_iff_not, ← hsource]
    refine and_congr_right fun _ => ⟨fun hlast => hlast _ _ _ _ rfl, ?_⟩
    rintro hx _ _ _ _ ⟨⟩
    exact hx
  · rw [commands_add, Command.unsettled_append (by simp)]
    exact hr'.unsettled
  · rw [commands_add, Command.unsettled_append (by simp)]
    exact hr'.old

/-- A barrier settles its target. -/
lemma settle (hr : r.Faces slot h) (hf : r.find? key slot = some t) :
    (r.add (.barrier t.texture)).Faces slot (h.settle key) := by
  obtain ⟨ht, rfl, rfl⟩ := mem_of_find? hf
  refine ⟨hr.sound.congr rfl rfl rfl, hr.layout, ?_, ?_, ?_⟩
  · rw [commands_add, Command.ordered_append_iff, hr.ordered]
    simp [Hazards.settle]
  · rw [commands_add, Command.unsettled_append_barrier]
    intro s hs
    simp only [List.mem_filter, decide_eq_true_eq, hr.unsettled s hs, Hazards.settle, and_assoc]
    refine and_congr_right fun hslot => and_congr_right fun _ => ?_
    refine not_congr ⟨fun he => ?_, fun he => ?_⟩
    · rw [List.inj_on_of_nodup_map hr.sound.textures hs ht he]
    · rw [List.inj_on_of_nodup_map hr.sound.places hs ht (Prod.ext he hslot)]
  · rw [commands_add, Command.unsettled_append_barrier]
    exact fun x hx => hr.old x (List.mem_of_mem_filter hx)

/-- There is nothing to settle in a target that was not made. -/
lemma settle_none (hr : r.Faces slot h) (hf : r.find? key slot = none) :
    r.Faces slot (h.settle key) := by
  refine ⟨hr.sound, hr.layout, hr.ordered, fun s hs => ?_, hr.old⟩
  rw [hr.unsettled s hs]
  refine and_congr_right fun hslot => ?_
  have hne : s.key ≠ key := by
    rintro rfl
    exact Sound.find?_eq_none hf hs (by rw [Target.place, hslot])
  simp [Hazards.settle, hne]

/-- Only which targets are unsettled counts, not how often they were drawn to. -/
lemma congr (hr : r.Faces slot h) {h' : Hazards} (hlayout : h'.layout = h.layout)
    (hexposed : h'.exposed = h.exposed) (hdrawn : ∀ k, k ∈ h'.drawn ↔ k ∈ h.drawn) :
    r.Faces slot h' :=
  ⟨hr.sound, hr.layout.trans hlayout.symm, by rw [hexposed]; exact hr.ordered,
    fun t ht => by rw [hdrawn]; exact hr.unsettled t ht, hr.old⟩

/-- A draw leaves its targets unsettled. -/
lemma draw (hr : r.Faces slot h) {color : Target} {depth : Option Target} {d : DrawCommand}
    (hcolor : color ∈ r.targets) (hdepth : ∀ t, depth = some t → t ∈ r.targets)
    (hslot : ∀ t ∈ color :: depth.toList, t.slot = slot)
    (hd : d.color = color.texture) (hd' : d.depth = depth.map Target.texture) :
    (r.add (.draw d)).Faces slot (h.draw ((color :: depth.toList).map Target.key)) := by
  have hdrawn : (Command.draw d).drawnTo = (color :: depth.toList).map Target.texture := by
    simp only [Command.drawnTo, hd, hd']
    cases depth <;> rfl
  have hmem : ∀ t ∈ color :: depth.toList, t ∈ r.targets := by
    intro t ht
    rcases List.mem_cons.mp ht with rfl | ht
    · exact hcolor
    · exact hdepth t (Option.mem_toList.mp ht)
  refine ⟨hr.sound.congr rfl rfl rfl, hr.layout, ?_, ?_, ?_⟩
  · rw [commands_add, Command.ordered_append_iff, hr.ordered]
    simp [Hazards.draw]
  · rw [commands_add, Command.unsettled_append (by simp), hdrawn]
    intro s hs
    have htargets : s.texture ∈ (color :: depth.toList).map Target.texture ↔
        s.slot = slot ∧ s.key ∈ (color :: depth.toList).map Target.key := by
      simp only [List.mem_map]
      constructor
      · rintro ⟨t, ht, he⟩
        obtain rfl := List.inj_on_of_nodup_map hr.sound.textures (hmem t ht) hs he
        exact ⟨hslot t ht, t, ht, rfl⟩
      · rintro ⟨hs', t, ht, he⟩
        have hplace : t.place = s.place := Prod.ext he ((hslot t ht).trans hs'.symm)
        obtain rfl := List.inj_on_of_nodup_map hr.sound.places (hmem t ht) hs hplace
        exact ⟨t, ht, rfl⟩
    rw [List.mem_append, htargets, hr.unsettled s hs, ← and_or_left]
    simp only [Hazards.draw, List.mem_append]
  · rw [commands_add, Command.unsettled_append (by simp), hdrawn]
    intro x hx
    rcases List.mem_append.mp hx with hx | hx
    · obtain ⟨t, ht, rfl⟩ := List.mem_map.mp hx
      exact hr.sound.texture_lt (hmem t ht)
    · exact hr.old x hx

end Faces

end Renderer

namespace Operation

variable {r r' : Renderer} {slot : Slot} {h : Hazards} {op : Operation}

lemma faces_record (hr : r.Faces slot h) (hx : op.record slot r = .ok () r') :
    r'.Faces slot (h.operation slot op) := by
  have hlayout := hr.layout
  cases Recorded.of_record hx with
  | upload requested => exact (hr.demand requested).upload
  | copyTile found requested =>
    simp only [Hazards.operation, ← hlayout, Renderer.copySource?_layout, found, Option.map_some]
    exact hr.copy (of_copySource? found) requested
  | copyNothing absent =>
    simp only [Hazards.operation, ← hlayout, Renderer.copySource?_layout, absent, Option.map_none]
    exact ⟨hr.sound.congr rfl rfl rfl, hr.layout, hr.ordered, hr.unsettled, hr.old⟩
  | @reinterpret _ _ _ _ _ _ _ _ found _ isFound kind requested =>
    have hkind : found.extent.key.kind = .ofWrite _ := kind
    simp only [Hazards.operation, ← hlayout, Renderer.findByAddress?_layout, isFound,
      Option.map_some, hkind, if_true]
    exact hr.copy (Renderer.mem_of_findByAddress? isFound).1 requested
  | @reinterpretNothing address _ _ source _ _ _ absent =>
    simp only [Hazards.operation, ← hlayout, Renderer.findByAddress?_layout]
    cases hf : r.findByAddress? address (.ofWrite source) slot with
    | none => exact hr
    | some found =>
      have hkind : found.extent.key.kind ≠ .ofWrite source := absent found hf
      simp only [Option.map_some, hkind, if_false]
      exact hr
  | synchronize found => exact hr.settle found
  | synchronizeNothing absent => exact hr.settle_none absent

end Operation

namespace Workload

variable {w : Workload} {m : Matcher} {s : SubFrame} {slot : Slot} {place : Nat} {r r' : Renderer}
  {h : Hazards}

/-- The draws of a pair leave its targets unsettled. -/
lemma faces_recordCalls {color : Target} {depth : Option Target} {calls : List Call}
    (hne : calls ≠ []) (hr : r.Faces slot h) (hcolor : color ∈ r.targets)
    (hdepth : ∀ t, depth = some t → t ∈ r.targets)
    (hslot : ∀ t ∈ color :: depth.toList, t.slot = slot)
    (hx : calls.forM (w.recordCall m s slot place color depth) r = .ok () r') :
    r'.Faces slot (h.draw ((color :: depth.toList).map Target.key)) := by
  induction calls generalizing r h with
  | nil => exact absurd rfl hne
  | cons call calls ih =>
    obtain ⟨r₁, hcall, hx⟩ := Rendering.forM_cons_eq_ok.mp hx
    obtain ⟨_, d, -, hd, hd', -, rfl⟩ := of_recordCall hcall
    have hdrawn := hr.draw hcolor hdepth hslot hd hd'
    by_cases hnil : calls = []
    · subst hnil
      obtain rfl := Rendering.forM_nil_eq_ok.mp hx
      exact hdrawn
    · refine (ih hnil hdrawn hcolor hdepth hx).congr rfl rfl fun k => ?_
      simp only [Hazards.draw, List.mem_append]
      tauto

lemma faces_recordDraws {p : Pair} (hr : r.Faces slot h)
    (hx : w.recordDraws m s slot place p r = .ok () r') : r'.Faces slot (h.draws slot p) := by
  rcases of_recordDraws hx with ⟨hnone, rfl⟩ | ⟨image, color, r₁, depth, r₂, s', r₃, hi, he, hcolor,
    hdepth, hcalls, ht, hdev, hc⟩
  · have hdraws : h.draws slot p = h := by
      simp only [Hazards.draws]
      rcases hnone with hi | he
      · simp [hi]
      · cases hi : p.colorImage <;> simp [he]
    rwa [hdraws]
  · have hne : p.calls ≠ [] := by
      rintro hn
      simp [Pair.isEmpty, hn] at he
    have hr₁ := hr.demand hcolor
    obtain ⟨hcolormem, hcolorkey, hcolorslot⟩ := hcolor.mem
    have hmarked : ∀ {h' : Hazards}, r₃.Faces slot h' → r'.Faces slot h' := fun hr₃ =>
      ⟨hr₃.sound.congr ht (by rw [hdev]) (by rw [hdev]), (congrArg _ ht).trans hr₃.layout,
        by rw [hc]; exact hr₃.ordered, by rw [hc, ht]; exact hr₃.unsettled,
        by rw [hc, hdev]; exact hr₃.old⟩
    apply hmarked
    simp only [Hazards.draws, hi, he, Bool.false_eq_true, if_false]
    rcases of_depthTarget? hdepth with ⟨hw, rfl, rfl⟩ | ⟨address, t, hw, rfl, hreq⟩
    · simp only [hw]
      have := faces_recordCalls hne hr₁ hcolormem (by simp) (by simp [hcolorslot]) hcalls
      simpa [hcolorkey] using this
    · simp only [hw]
      obtain ⟨hdepthmem, hdepthkey, hdepthslot⟩ := hreq.mem
      have hcolormem₂ : color ∈ r₂.targets := by
        refine Renderer.mem_of_requested hr₁.sound hreq hcolormem ?_
        simp [Target.place, hcolorkey, TargetKey.ofImage, TargetKind.ofWrite]
      have := faces_recordCalls hne (hr₁.demand hreq) hcolormem₂ (by simp [hdepthmem])
        (by simp [hcolorslot, hdepthslot]) hcalls
      simpa [hcolorkey, hdepthkey] using this

lemma faces_recordPart {part : ImagePart} (hr : r.Faces slot h)
    (hx : w.recordPart m s slot part r = .ok () r') : r'.Faces slot (h.part slot part) := by
  cases part with
  | operation op => exact Operation.faces_record hr hx
  | draws place p => exact faces_recordDraws hr hx

/-- Recording the parts of an image keeps step with going through them. -/
lemma faces_recordParts {parts : List ImagePart} (hr : r.Faces slot h)
    (hx : parts.forM (w.recordPart m s slot) r = .ok () r') :
    r'.Faces slot (parts.foldl (Hazards.part slot) h) := by
  induction parts generalizing r h with
  | nil =>
    obtain rfl := Rendering.forM_nil_eq_ok.mp hx
    exact hr
  | cons part parts ih =>
    obtain ⟨r₁, hpart, hx⟩ := Rendering.forM_cons_eq_ok.mp hx
    exact ih (faces_recordPart hr hpart) hx

/-- In the command list of an image there is a barrier between each draw to a texture and each copy
from it, exactly if no region is copied from a target that was drawn to and not synchronized since.
-/
theorem copies_ordered_iff (hr : r.Sound) (h : w.recordImage m s slot r = .ok () r') :
    Command.Ordered r'.commands ↔ w.exposes slot r.layout = false := by
  have hstart : Renderer.Faces { r with commands := [] } slot ⟨r.layout, [], false⟩ :=
    ⟨hr.congr rfl rfl rfl, rfl, by simp [Command.Ordered], by simp [Command.unsettled],
      by simp [Command.unsettled]⟩
  exact (faces_recordParts hstart (recordImage_eq_ok.mp h)).ordered

/-- A frame that draws a dot and samples it for another. -/
def dotSampled : Workload :=
  let first := (({ empty with id := 1 } : Workload).setColorImage 0 .bits8 1).addDraw (drawDown 1)
  let tiled := first.addTile ⟨0, 1, .bits8, 0, ⟨0, 0, 1, 1⟩, ⟨0, 0, 1, 1⟩, 7⟩
  (tiled.setColorImage 16 .bits8 1).addDraw { drawDown 1 with tile := some 0 }

/-- There is a barrier before a region that is sampled is copied. -/
theorem sampled_dot_ordered :
    ∃ r, dotSampled.synchronized.recordImage .new .direct .main freshRenderer = .ok () r ∧
      (∃ x rect, .copy 1 x rect false ∈ r.commands) ∧ Command.Ordered r.commands := by
  have hcheck : dotSampled.synchronized.recordsWith (fun r => r.commands.any fun
      | .copy source _ _ reinterpret => source = 1 && !reinterpret
      | _ => false) = true := by decide +kernel
  obtain ⟨r, hrecord, hcopy⟩ := of_recordsWith hcheck
  refine ⟨r, hrecord, ?_, (copies_ordered_iff .new hrecord).mpr (by decide +kernel)⟩
  obtain ⟨c, hc, hcopies⟩ := List.any_eq_true.mp hcopy
  cases c with
  | copy source x rect reinterpret =>
    simp only [Bool.and_eq_true, decide_eq_true_eq, Bool.not_eq_true'] at hcopies
    obtain ⟨rfl, rfl⟩ := hcopies
    exact ⟨x, rect, hc⟩
  | _ => cases hcopies

/-- A frame that draws depths, and then colors over them. -/
def depthDrawnOver : Workload :=
  let deep :=
    ((({ empty with id := 1 } : Workload).setColorImage 16 .bits16 1).setDepthImage 32).addDraw
      { drawDown 1 with writesDepth := true }
  (deep.setColorImage 32 .bits16 1).addDraw (drawDown 1)

/-- In a list of five commands the fourth copies what the third has drawn to. -/
def copiesDrawn : List Command → Bool
  | [_, _, c, .copy source _ _ _, _] => source ∈ c.drawnTo
  | _ => false

/-- The depths are converted without a barrier after the draw that wrote them. -/
theorem drawn_depth_converted_unordered :
    (∃ stats table, (depthDrawnOver.synchronize .empty blankMemory).outcome =
      .ok (stats, depthDrawnOver.synchronized, table)) ∧
    ∃ r, depthDrawnOver.synchronized.recordImage .new .direct .main freshRenderer = .ok () r ∧
      ¬ Command.Ordered r.commands := by
  have hcheck : depthDrawnOver.synchronized.recordsWith
      (fun r => copiesDrawn r.commands) = true := by decide +kernel
  obtain ⟨r, hrecord, hlist⟩ := of_recordsWith hcheck
  simp only [copiesDrawn] at hlist
  refine ⟨synchronize_outcome (by decide +kernel), r, hrecord, fun hordered => ?_⟩
  split at hlist
  · rename_i c₁ c₂ c source destination rect reinterpret c₃ hcommands
    have hbarrier := hordered [c₁, c₂] c [] source destination rect reinterpret [c₃]
      (by rw [hcommands]; rfl) (by simpa using hlist)
    cases hbarrier
  · cases hlist

end Workload

end Scanout
