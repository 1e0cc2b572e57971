import Mathlib.Tactic.Common
import Scanout.Target.Record

/-!
# Rendering computations that succeed

A rendering computation that succeeds is taken apart into its steps, and each primitive is given by
what it does to the render targets, the device and the command list in hand. A request for a target
comes to one of three things: the target is kept, made, or replaced by a larger one.
-/

namespace Scanout

namespace Device

variable {d : Device} {commands : List Command} {t : TextureId}

/-- A command list is refused if a texture is missing. -/
lemma submit_of_missing (h : d.missing? commands = some t) :
    d.submit commands = .error (.unknownTexture t) := by
  simp only [submit, h]

/-- A command list is taken if no texture is missing. -/
lemma submit_of_none_missing (h : d.missing? commands = none) :
    d.submit commands = .ok { d with submitted := commands :: d.submitted } := by
  simp only [submit, h]

end Device

namespace Rendering

variable {α β : Type} {r r' : Renderer}

/-- Of two computations in a row, the second goes on with the result of the first. -/
lemma bind_apply {x : Rendering α} {f : α → Rendering β} : (x >>= f) r =
    match x r with
    | .ok a r' => f a r'
    | .error e r' => .error e r' := by
  change EStateM.bind x f r = _
  simp only [EStateM.bind]
  cases x r <;> rfl

lemma bind_eq_ok {x : Rendering α} {f : α → Rendering β} {b : β} :
    (x >>= f) r = .ok b r' ↔ ∃ a r₁, x r = .ok a r₁ ∧ f a r₁ = .ok b r' := by
  rw [bind_apply]
  cases x r <;> simp

lemma pure_eq_ok {a b : α} : (pure a : Rendering α) r = .ok b r' ↔ a = b ∧ r = r' := by
  change EStateM.Result.ok a r = _ ↔ _
  simp

lemma get_eq_ok {s : Renderer} : (get : Rendering Renderer) r = .ok s r' ↔ r = s ∧ r = r' := by
  change EStateM.Result.ok r r = _ ↔ _
  simp

lemma set_eq_ok {s : Renderer} {u : PUnit} :
    (set s : Rendering PUnit) r = .ok u r' ↔ s = r' := by
  change EStateM.Result.ok _ s = _ ↔ _
  simp

lemma modify_eq_ok {f : Renderer → Renderer} {u : PUnit} :
    (modify f : Rendering PUnit) r = .ok u r' ↔ f r = r' := by
  change EStateM.Result.ok _ (f r) = _ ↔ _
  simp

lemma throw_ne_ok {e : Stop} {b : β} : (throw e : Rendering β) r ≠ .ok b r' := by
  change EStateM.Result.error e r ≠ _
  simp

lemma ofFault_eq_ok {x : Except Fault α} {a : α} :
    (liftM x : Rendering α) r = .ok a r' ↔ x = .ok a ∧ r = r' := by
  change ofFault x r = _ ↔ _
  cases x with
  | ok b => simp [ofFault, pure_eq_ok]
  | error f => simp [ofFault, throw_ne_ok]

/-- A computation that looks at the state first depends on it. -/
lemma get_bind {f : Renderer → Rendering β} : ((get : Rendering Renderer) >>= f) r = f r r := rfl

lemma emit_eq_ok {c : Command} {u : Unit} :
    emit c r = .ok u r' ↔ { r with commands := r.commands ++ [c] } = r' := modify_eq_ok

lemma note_eq_ok {n : Note} {u : Unit} :
    note n r = .ok u r' ↔ { r with notes := r.notes ++ [n] } = r' := modify_eq_ok

/-- A list of computations succeeds if its first one does, and then the others. -/
lemma forM_cons_eq_ok {f : α → Rendering Unit} {a : α} {as : List α} {u : Unit} :
    (a :: as).forM f r = .ok u r' ↔ ∃ r₁, f a r = .ok () r₁ ∧ as.forM f r₁ = .ok () r' := by
  change (f a >>= fun _ => as.forM f) r = _ ↔ _
  rw [bind_eq_ok]
  constructor
  · rintro ⟨_, r₁, h, h'⟩
    exact ⟨r₁, h, h'⟩
  · rintro ⟨r₁, h, h'⟩
    exact ⟨_, r₁, h, h'⟩

lemma forM_nil_eq_ok {f : α → Rendering Unit} {u : Unit} :
    ([] : List α).forM f r = .ok u r' ↔ r = r' := by
  change (pure PUnit.unit : Rendering PUnit) r = _ ↔ _
  simp [pure_eq_ok]

lemma forM_append_eq_ok {f : α → Rendering Unit} {as bs : List α} {u : Unit} :
    (as ++ bs).forM f r = .ok u r' ↔ ∃ r₁, as.forM f r = .ok () r₁ ∧ bs.forM f r₁ = .ok () r' := by
  induction as generalizing r with
  | nil =>
    simp only [List.nil_append, forM_nil_eq_ok]
    constructor
    · intro h
      exact ⟨r, rfl, h⟩
    · rintro ⟨_, rfl, h⟩
      exact h
  | cons a as ih =>
    simp only [List.cons_append, forM_cons_eq_ok, ih]
    constructor
    · rintro ⟨r₁, h, r₂, h', h''⟩
      exact ⟨r₂, ⟨r₁, h, h'⟩, h''⟩
    · rintro ⟨r₂, ⟨r₁, h, h'⟩, h''⟩
      exact ⟨r₁, h, r₂, h', h''⟩

lemma forM_map_eq_ok {γ : Type} {f : α → Rendering Unit} {g : γ → α} {cs : List γ} {u : Unit} :
    (cs.map g).forM f r = .ok u r' ↔ cs.forM (fun c => f (g c)) r = .ok u r' := by
  induction cs generalizing r with
  | nil => rw [List.map_nil, forM_nil_eq_ok, forM_nil_eq_ok]
  | cons c cs ih => simp only [List.map_cons, forM_cons_eq_ok, ih]

/-- The command list in hand is refused if a texture is missing. -/
lemma submit_of_missing {t : TextureId} (h : r.device.missing? r.commands = some t) :
    submit r = .error (.refused (.unknownTexture t)) r := by
  simp only [submit, get_bind, Device.submit_of_missing h]
  rfl

/-- The command list in hand is taken if no texture is missing. -/
lemma submit_of_none_missing (h : r.device.missing? r.commands = none) :
    submit r = .ok ()
      { r with device := { r.device with submitted := r.commands :: r.device.submitted } } := by
  simp only [submit, get_bind, Device.submit_of_none_missing h]
  rfl

end Rendering

end Scanout
