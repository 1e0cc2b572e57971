import Scanout.Proofs.Pipeline.Lawful

/-!
# Copies between formats

Three parts of the pipeline record copies. Where a depth image is converted for colors, or colors
for depths, the copy is marked as a reinterpretation, and where a screen is put together it is
marked if the image is found among the depths. Where a rendered region is copied for sampling it
never is, and the region may be found among the depths as well. So a copy is marked exactly if the
formats of its textures differ, unless it is of depths for sampling.
-/

namespace Scanout

/-- A copy is marked as a reinterpretation if the formats differ and it is not made for sampling. -/
def Law.converting : Law where
  Holds kinds
    | .copy source destination _ reinterpret =>
      ∃ a b, purpose? kinds source = some a ∧ purpose? kinds destination = some b ∧
        (reinterpret = true ↔ Target.formatFor a ≠ Target.formatFor b ∧ b ≠ .tileCopy)
    | _ => True
  mono {kinds kinds' c} hle h := by
    cases c with
    | copy =>
      obtain ⟨a, b, ha, hb, h⟩ := h
      exact ⟨a, b, purpose?_mono hle ha, purpose?_mono hle hb, h⟩
    | _ => trivial
  barrier _ _ := trivial
  draw _ _ := trivial

lemma Law.fits_converting : converting.Fits fun _ => True where
  queued op hop := by
    cases hop with
    | copyTile copy =>
      intro kinds source x hsource hx
      obtain ⟨a, ha⟩ := Option.isSome_iff_exists.mp hsource
      exact ⟨a, _, ha, hx, by simp⟩
    | upload => exact fun _ _ => trivial
    | @reinterpret _ _ _ source target _ other =>
      intro kinds x y hx hy
      refine ⟨_, _, hx, hy, ?_⟩
      cases source <;> cases target <;>
        simp_all [TargetKind.ofWrite, Target.formatFor]
  bytes _ _ _ _ _ _ _ _ := trivial
  image kinds x y kind rect hx hy :=
    ⟨kind, _, hx, hy, by cases kind <;> simp [Target.formatFor]⟩

namespace Pipeline

/-- The render targets after a run. -/
def rendererAfter (start : Pipeline) (actions : List Action) : Renderer :=
  (start.follow actions).2.shared.renderer

/-- Each texture that a command list copies from or to has the format that it was created in, which
is the one the device gave for it whenever it existed. A copy is marked as a reinterpretation
exactly if the two formats differ, unless depths are copied for sampling; then it is not. -/
theorem copies_convert_iff {host : Host} {config : Config} {start : Pipeline}
    {actions : List Action} (hstart : Pipeline.start host config = .ok start)
    (hbuilds : ∀ a ∈ actions, a.Builds) :
    (∀ earlier later, actions = earlier ++ later → ∀ x shape,
      (start.rendererAfter earlier).device.shape? x = some shape →
        (start.rendererAfter actions).createdAs? x = some shape.format) ∧
    ∀ commands ∈ (start.rendererAfter actions).lists, ∀ source destination rect reinterpret,
      .copy source destination rect reinterpret ∈ commands →
        ∃ a b, (start.rendererAfter actions).createdAs? source = some a ∧
          (start.rendererAfter actions).createdAs? destination = some b ∧
          ((reinterpret = true ↔ a ≠ b) ↔
            ¬ (a = .depth32 ∧
              purpose? (start.rendererAfter actions).created destination = some .tileCopy)) := by
  constructor
  · rintro earlier later rfl x shape hshape
    have hearlier := obeys_follow hstart (List.forall_mem_append.mp hbuilds).1
      (fun _ _ => trivial) Law.fits_converting
    have hlater := obeys_follow_append hstart hbuilds (fun _ _ => trivial) Law.fits_converting
      hearlier.since
    obtain ⟨kind, hkind, hformat⟩ := Option.map_eq_some_iff.mp (hearlier.shapes x shape hshape)
    rw [rendererAfter, Renderer.createdAs?, purpose?_mono hlater.before_le hkind, ← hformat]
    rfl
  · intro commands hcommands source destination rect reinterpret hcopy
    have hobeys := obeys_follow hstart hbuilds (fun _ _ => trivial) Law.fits_converting
    obtain ⟨a, b, ha, hb, hmarked⟩ := hobeys.lawful commands hcommands _ hcopy
    refine ⟨Target.formatFor a, Target.formatFor b, ?_, ?_, ?_⟩
    · rw [rendererAfter, Renderer.createdAs?, ha]
      rfl
    · rw [rendererAfter, Renderer.createdAs?, hb]
      rfl
    · rw [rendererAfter, hb, Option.some.injEq]
      cases reinterpret <;> cases a <;> cases b <;> simp_all [Target.formatFor]

/-- Draw depths next to one color image, then draw to another, sampling the depths if there is a
tile. -/
def drawOver (address : Nat) (tile : Option Nat) (w : Workload) : Workload :=
  let w := w.addTile ⟨16, 1, .bits16, 0, ⟨0, 0, 1, 1⟩, ⟨0, 0, 1, 1⟩, 7⟩
  let w := ((w.setColorImage 32 .bits16 1).setDepthImage 16).addDraw
    ⟨0, 3, none, ⟨0, 0, 1, 1⟩, .zero, true⟩
  (w.setColorImage address .bits16 1).addDraw ⟨0, 3, tile, ⟨0, 0, 1, 1⟩, .zero, false⟩

lemma built_drawOver {address : Nat} {tile : Option Nat} {w : Workload} (h : w.Built) :
    (drawOver address tile w).Built :=
  .addDraw (.setColorImage (.addDraw (.setDepthImage (.setColorImage (.addTile h _) _ _ _) _) _) _ _
    _) _

/-- Memory without anything in it. -/
def blankRam : ByteArray := ⟨Array.replicate 64 0⟩

/-- A frame is filled, submitted and drawn. -/
def drawn (fill : Workload → Workload) : List Action :=
  .call (.fill fill) :: .call (.submitWorkload blankRam 30) :: List.replicate 6 .render

lemma builds_drawn {fill : Workload → Workload} (h : ∀ w : Workload, w.Built → (fill w).Built) :
    ∀ a ∈ drawn fill, a.Builds := by
  intro a ha
  obtain rfl | rfl | ha : a = .call (.fill fill) ∨ a = .call (.submitWorkload blankRam 30) ∨
      a ∈ List.replicate 6 Action.render := by simpa [drawn] using ha
  · exact h
  · trivial
  · rw [List.eq_of_mem_replicate ha]
    trivial

/-- The render targets after colors were drawn to the image of the depths. -/
def overdrawn : Renderer := (fresh .default).rendererAfter (drawn (drawOver 16 none))

/-- The depths are converted for the colors. -/
theorem overdrawn_depths_converted :
    .copy 2 3 ⟨0, 0, 1, 1⟩ true ∈ overdrawn.commands ∧
      ∃ a b, overdrawn.createdAs? 2 = some a ∧ overdrawn.createdAs? 3 = some b ∧
        (true = true ↔ a ≠ b) := by
  have hcopy : .copy 2 3 ⟨0, 0, 1, 1⟩ true ∈ overdrawn.commands := by decide +kernel
  have hcolors : purpose? overdrawn.created 3 = some .color := by decide +kernel
  have hstart : Pipeline.start .default .default = .ok (fresh .default) :=
    start_fresh (by decide +kernel)
  obtain ⟨-, hcopies⟩ := copies_convert_iff hstart (builds_drawn fun _ => built_drawOver)
  obtain ⟨a, b, ha, hb, hmarked⟩ := hcopies _ List.mem_cons_self _ _ _ _ hcopy
  refine ⟨hcopy, a, b, ha, hb, hmarked.mpr fun hsampled => ?_⟩
  cases hcolors.symm.trans hsampled.2

/-- The render targets after the depths were sampled. -/
def sampledDepths : Renderer := (fresh .default).rendererAfter (drawn (drawOver 0 (some 0)))

/-- The copy of the depths for sampling is not marked, although it is to a texture of colors. -/
theorem sampled_depths_not_converted :
    (∀ a ∈ drawn (drawOver 0 (some 0)), a.Builds) ∧
      sampledDepths.device.submitted = [sampledDepths.commands] ∧
      .copy 2 3 ⟨0, 0, 1, 1⟩ false ∈ sampledDepths.commands ∧
      (sampledDepths.device.shape? 2).map TextureShape.format = some .depth32 ∧
      (sampledDepths.device.shape? 3).map TextureShape.format = some .rgba8 := by
  refine ⟨builds_drawn fun _ => built_drawOver, ?_⟩
  decide +kernel

end Pipeline

end Scanout
