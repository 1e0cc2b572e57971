import Scanout.Proofs.Target.Request

/-!
# Command lists that a device takes

A command uses textures in several roles. The device takes a command list exactly if the textures
that are used in any role but one exist: it does not look at the copies that draws sample. A list
that is taken comes after the earlier ones, and one that is refused leaves no trace.
-/

namespace Scanout

/-- What a command uses a texture for. -/
inductive TextureRole where
  | uploadTarget
  | copySource
  | copyDestination
  | barrier
  | color
  | depth
  /-- a draw samples the copy in it -/
  | sample
  deriving DecidableEq

namespace Command

/-- The command uses the texture in this role. -/
inductive Uses : Command → TextureRole → TextureId → Prop where
  | uploadTarget (t : TextureId) (rect : Rect) (size : PixelSize) (data : ByteArray) :
      Uses (.upload t rect size data) .uploadTarget t
  | copySource (source destination : TextureId) (rect : Rect) (reinterpret : Bool) :
      Uses (.copy source destination rect reinterpret) .copySource source
  | copyDestination (source destination : TextureId) (rect : Rect) (reinterpret : Bool) :
      Uses (.copy source destination rect reinterpret) .copyDestination destination
  | barrier (t : TextureId) : Uses (.barrier t) .barrier t
  | color (d : DrawCommand) : Uses (.draw d) .color d.color
  | depth {d : DrawCommand} {t : TextureId} (tested : d.depth = some t) : Uses (.draw d) .depth t
  | sample {d : DrawCommand} {t : TextureId} (bound : d.texture = some (.tileCopy t)) :
      Uses (.draw d) .sample t

end Command

namespace Device

variable {d : Device} {c : Command} {commands : List Command} {t : TextureId}

/-- All textures that the commands use in this role exist. -/
def Supplies (d : Device) (commands : List Command) (role : TextureRole) : Prop :=
  ∀ c ∈ commands, ∀ t, c.Uses role t → t ∈ d.live

/-- The device takes the command list. -/
def Takes (d : Device) (commands : List Command) : Prop := ∃ d', d.submit commands = .ok d'

/-- The device after it was given the command list, taken or not. -/
def given (d : Device) (commands : List Command) : Device :=
  (d.submit commands).toOption.getD d

/-- The command lists taken, the first one first. -/
def submissions (d : Device) : List (List Command) := d.submitted.reverse

/-- A command is checked for the textures that it uses other than to sample them. -/
lemma mem_checkedTextures_iff :
    t ∈ checkedTextures c ↔ ∃ role, role ≠ .sample ∧ c.Uses role t := by
  constructor
  · intro h
    cases c with
    | upload target rect size data =>
      obtain rfl := List.mem_singleton.mp h
      exact ⟨.uploadTarget, nofun, .uploadTarget ..⟩
    | copy source destination rect reinterpret =>
      rcases List.mem_pair.mp h with rfl | rfl
      · exact ⟨.copySource, nofun, .copySource ..⟩
      · exact ⟨.copyDestination, nofun, .copyDestination ..⟩
    | barrier texture =>
      obtain rfl := List.mem_singleton.mp h
      exact ⟨.barrier, nofun, .barrier _⟩
    | draw draw =>
      rcases List.mem_cons.mp h with rfl | h
      · exact ⟨.color, nofun, .color _⟩
      · exact ⟨.depth, nofun, .depth (Option.mem_toList.mp h)⟩
  · rintro ⟨role, hrole, huse⟩
    cases huse with
    | uploadTarget | barrier => exact List.mem_singleton_self _
    | copySource => exact List.mem_cons_self
    | copyDestination => exact List.mem_cons_of_mem _ (List.mem_singleton_self _)
    | color => exact List.mem_cons_self
    | depth tested => exact List.mem_cons_of_mem _ (Option.mem_toList.mpr tested)
    | sample => exact absurd rfl hrole

/-- No texture is missing exactly if those that are used in any role but one exist. -/
lemma missing?_eq_none_iff_supplies :
    d.missing? commands = none ↔ ∀ role, role ≠ .sample → d.Supplies commands role := by
  rw [missing?_eq_none_iff_checked]
  constructor
  · intro hlive role hrole c hc t huse
    exact hlive t (List.mem_flatMap.mpr ⟨c, hc, mem_checkedTextures_iff.mpr ⟨role, hrole, huse⟩⟩)
  · intro hsupplies t ht
    obtain ⟨c, hc, ht⟩ := List.mem_flatMap.mp ht
    obtain ⟨role, hrole, huse⟩ := mem_checkedTextures_iff.mp ht
    exact hsupplies role hrole c hc t huse

/-- The texture that is reported missing is used, and does not exist. -/
lemma exists_use_of_missing? (h : d.missing? commands = some t) :
    t ∉ d.live ∧ ∃ c ∈ commands, ∃ role, role ≠ .sample ∧ c.Uses role t := by
  obtain ⟨hchecked, hgone⟩ := checked_of_missing? h
  obtain ⟨c, hc, ht⟩ := List.mem_flatMap.mp hchecked
  exact ⟨hgone, c, hc, mem_checkedTextures_iff.mp ht⟩

lemma takes_iff : d.Takes commands ↔ ∀ role, role ≠ .sample → d.Supplies commands role := by
  rw [← missing?_eq_none_iff_supplies]
  cases hmissing : d.missing? commands with
  | none => exact iff_of_true ⟨_, submit_of_none_missing hmissing⟩ rfl
  | some t =>
    refine iff_of_false ?_ nofun
    rintro ⟨d', h⟩
    rw [submit_of_missing hmissing] at h
    cases h

lemma given_of_submit_eq_ok {d' : Device} (h : d.submit commands = .ok d') :
    d.given commands = d' := by
  rw [given, h]
  rfl

lemma given_of_submit_eq_error {e : DeviceError} (h : d.submit commands = .error e) :
    d.given commands = d := by
  rw [given, h]
  rfl

/-- A list that is taken comes after the others, and changes nothing else. -/
lemma given_of_takes (h : d.Takes commands) :
    (d.given commands).submissions = d.submissions ++ [commands] ∧
      d.given commands = { d with submitted := (d.given commands).submitted } := by
  have hmissing := missing?_eq_none_iff_supplies.mpr (takes_iff.mp h)
  rw [given_of_submit_eq_ok (submit_of_none_missing hmissing)]
  exact ⟨List.reverse_cons, rfl⟩

/-- A list that is not taken changes nothing, and a texture that it uses is missing. -/
lemma given_of_not_takes (h : ¬d.Takes commands) :
    d.given commands = d ∧ ∃ t, d.submit commands = .error (.unknownTexture t) ∧ t ∉ d.live ∧
      ∃ c ∈ commands, ∃ role, role ≠ .sample ∧ c.Uses role t := by
  cases hmissing : d.missing? commands with
  | none => exact absurd ⟨_, submit_of_none_missing hmissing⟩ h
  | some t =>
    have hrefused := submit_of_missing hmissing
    exact ⟨given_of_submit_eq_error hrefused, t, hrefused, exists_use_of_missing? hmissing⟩

/-- Who hands over a command list goes on with the device that was given it. -/
lemma submit_renderer (r : Renderer) :
    Rendering.submit r = match r.device.submit r.commands with
      | .ok _ => .ok () { r with device := r.device.given r.commands }
      | .error e => .error (.refused e) { r with device := r.device.given r.commands } := by
  cases hsubmit : r.device.submit r.commands with
  | ok d' =>
    simp only [Rendering.submit, Rendering.get_bind, hsubmit, given_of_submit_eq_ok hsubmit]
    rfl
  | error e =>
    simp only [Rendering.submit, Rendering.get_bind, hsubmit, given_of_submit_eq_error hsubmit]
    rfl

/-- A command list is taken exactly if all textures exist that it uses other than to sample them.
So that it is taken exactly if all textures that it uses exist is true unless only copies that
draws sample are missing. If it is taken, it comes after the others and all else stays; if not,
everything stays and a texture that it uses is missing. -/
theorem taken_as_supplied_iff (d : Device) (commands : List Command) :
    (d.Takes commands ↔ ∀ role, role ≠ .sample → d.Supplies commands role) ∧
    ((d.Takes commands ↔ ∀ role, d.Supplies commands role) ↔
      d.Supplies commands .sample ∨ ∃ role, role ≠ .sample ∧ ¬d.Supplies commands role) ∧
    (d.Takes commands → (d.given commands).submissions = d.submissions ++ [commands] ∧
      d.given commands = { d with submitted := (d.given commands).submitted }) ∧
    (¬d.Takes commands → d.given commands = d ∧
      ∃ t, d.submit commands = .error (.unknownTexture t) ∧ t ∉ d.live ∧
        ∃ c ∈ commands, ∃ role, role ≠ .sample ∧ c.Uses role t) ∧
    ∀ r : Renderer, r.device = d → r.commands = commands →
      Rendering.submit r = match d.submit commands with
        | .ok _ => .ok () { r with device := d.given commands }
        | .error e => .error (.refused e) { r with device := d.given commands } := by
  refine ⟨takes_iff, ?_, given_of_takes, given_of_not_takes, ?_⟩
  · rw [takes_iff]
    constructor
    · intro hagree
      by_cases hothers : ∀ role, role ≠ .sample → d.Supplies commands role
      · exact .inl (hagree.mp hothers .sample)
      · simp only [not_forall] at hothers
        obtain ⟨role, hrole, hmissing⟩ := hothers
        exact .inr ⟨role, hrole, hmissing⟩
    · rintro (hsample | ⟨role, hrole, hmissing⟩)
      · refine ⟨fun hothers role => ?_, fun hall role _ => hall role⟩
        by_cases hrole : role = .sample
        · exact hrole ▸ hsample
        · exact hothers role hrole
      · exact iff_of_false (fun hothers => hmissing (hothers role hrole))
          (fun hall => hmissing (hall role))
  · rintro r rfl rfl
    exact submit_renderer r

/-- A device with one texture, of number 1. -/
def withOneTexture : Device := ((Device.new default).create ⟨8, 8, .rgba8, 1⟩).2

/-- A draw to texture 1 that samples a copy in texture 77. -/
def strayDraw : DrawCommand := { (default : DrawCommand) with
  color := 1, texture := some (.tileCopy 77) }

/-- A draw is taken although it samples a texture that does not exist. -/
theorem stray_draw_taken :
    withOneTexture.Takes [.draw strayDraw] ∧ (Command.draw strayDraw).Uses .sample 77 ∧
    77 ∉ withOneTexture.live ∧
    ¬(withOneTexture.Takes [.draw strayDraw] ↔
      ∀ role, withOneTexture.Supplies [.draw strayDraw] role) := by
  have htaken : withOneTexture.Takes [.draw strayDraw] := ⟨_, rfl⟩
  have hsample : (Command.draw strayDraw).Uses .sample 77 := .sample rfl
  have hgone : 77 ∉ withOneTexture.live := by decide
  refine ⟨htaken, hsample, hgone, ?_⟩
  intro hagree
  apply hgone
  exact hagree.mp htaken .sample _ (List.mem_singleton_self _) 77 hsample

end Device

end Scanout
