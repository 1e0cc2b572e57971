import Scanout.Proofs.Target.Growth
import Scanout.Proofs.Workload.Recording

/-!
# What recording an operation comes to

An operation adds at most one command to the list in hand, once the target that it writes to is
large enough. Which target it reads from is found before.
-/

namespace Scanout

/-- A command is added to the list in hand. -/
def Renderer.add (r : Renderer) (c : Command) : Renderer :=
  { r with commands := r.commands ++ [c] }

namespace Renderer

variable {r : Renderer} {c : Command}

@[simp] lemma commands_add : (r.add c).commands = r.commands ++ [c] := rfl

@[simp] lemma find?_add {key : TargetKey} {slot : Slot} :
    (r.add c).find? key slot = r.find? key slot := rfl

end Renderer

namespace Operation

/-- What recording an operation comes to. -/
inductive Recorded (slot : Slot) : Operation → Renderer → Renderer → Prop where
  | upload {type : WriteType} {change : MemoryChange} {r r₁ : Renderer} {t : Target}
      (requested : Target.Requested (.ofImage change.address change.width change.size type) slot
        change.width (rowsDownTo change.rect) r t r₁) :
      Recorded slot (.upload type change) r
        (r₁.add (.upload t.texture change.rect change.size change.data))
  | copyTile {copy : TileCopy} {r r₁ : Renderer} {source t : Target}
      (found : copySource? r copy.address slot = some source)
      (requested : Target.Requested copy.key slot (copy.fbRect.right - copy.fbRect.left).toNat
        (copy.fbRect.bottom - copy.fbRect.top).toNat r t r₁) :
      Recorded slot (.copyTile copy) r (r₁.add (.copy source.texture t.texture copy.fbRect false))
  | copyNothing {copy : TileCopy} {r : Renderer} (absent : copySource? r copy.address slot = none) :
      Recorded slot (.copyTile copy) r
        { r with notes := r.notes ++ [.tileCopyWithoutSource copy.address] }
  | reinterpret {address width : Nat} {size : PixelSize} {source target : WriteType} {rect : Rect}
      {r r₁ : Renderer} {found t : Target}
      (isFound : r.findByAddress? address (.ofWrite source) slot = some found)
      (kind : found.key.kind = .ofWrite source)
      (requested : Target.Requested (.ofImage address width size target) slot width
        (rowsDownTo rect) r t r₁) :
      Recorded slot (.reinterpret address size width source target rect) r
        (r₁.add (.copy found.texture t.texture rect true))
  | reinterpretNothing {address width : Nat} {size : PixelSize} {source target : WriteType}
      {rect : Rect} {r : Renderer}
      (absent : ∀ found, r.findByAddress? address (.ofWrite source) slot = some found →
        found.key.kind ≠ .ofWrite source) :
      Recorded slot (.reinterpret address size width source target rect) r r
  | synchronize {address width : Nat} {size : PixelSize} {r : Renderer} {t : Target}
      (found : r.find? (.ofImage address width size .color) slot = some t) :
      Recorded slot (.synchronize address size width) r (r.add (.barrier t.texture))
  | synchronizeNothing {address width : Nat} {size : PixelSize} {r : Renderer}
      (absent : r.find? (.ofImage address width size .color) slot = none) :
      Recorded slot (.synchronize address size width) r r

variable {r r' : Renderer} {slot : Slot} {op : Operation}

lemma Recorded.of_record (h : op.record slot r = .ok () r') : op.Recorded slot r r' := by
  cases op with
  | upload type change =>
    simp only [record, Rendering.bind_eq_ok, Rendering.emit_eq_ok] at h
    obtain ⟨t, r₁, hrequest, rfl⟩ := h
    exact .upload (.of_request hrequest)
  | copyTile copy =>
    simp only [record, Rendering.get_bind] at h
    cases hs : copySource? r copy.address slot with
    | none =>
      simp only [hs, Rendering.note_eq_ok] at h
      exact h ▸ .copyNothing hs
    | some source =>
      simp only [hs, Rendering.bind_eq_ok, Rendering.ofFault_eq_ok, Rendering.emit_eq_ok] at h
      obtain ⟨width, _, ⟨hwidth, rfl⟩, height, _, ⟨hheight, rfl⟩, t, r₁, hrequest, rfl⟩ := h
      rw [width_eq hwidth, height_eq hheight] at hrequest
      exact .copyTile hs (.of_request hrequest)
  | reinterpret address size width source target rect =>
    simp only [record, Rendering.get_bind] at h
    cases hs : r.findByAddress? address (.ofWrite source) slot with
    | none =>
      simp only [hs, Rendering.pure_eq_ok] at h
      exact h.2 ▸ .reinterpretNothing (by simp [hs])
    | some found =>
      by_cases hkind : found.key.kind = .ofWrite source
      · simp only [hs, hkind, if_true, Rendering.bind_eq_ok, Rendering.emit_eq_ok] at h
        obtain ⟨t, r₁, hrequest, rfl⟩ := h
        exact .reinterpret hs hkind (.of_request hrequest)
      · simp only [hs, hkind, if_false, Rendering.pure_eq_ok] at h
        exact h.2 ▸ .reinterpretNothing (by simp [hs, hkind])
  | synchronize address size width =>
    simp only [record, Rendering.get_bind] at h
    cases hf : r.find? (.ofImage address width size .color) slot with
    | none =>
      simp only [hf, Rendering.pure_eq_ok] at h
      exact h.2 ▸ .synchronizeNothing hf
    | some t =>
      simp only [hf, Rendering.emit_eq_ok] at h
      exact h ▸ .synchronize hf

end Operation

end Scanout
