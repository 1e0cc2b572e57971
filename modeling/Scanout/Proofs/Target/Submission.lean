import Scanout.Pipeline.Present
import Scanout.Pipeline.Render
import Scanout.Proofs.Target.Rendering

/-!
# What a rendering computation hands to the device

Recording makes and gives up textures, but hands no command list to the device: that is the last
step of rendering an image, and of performing the uploads of a present. So either of them hands over
one list if it succeeds, and none if it does not.
-/

namespace Scanout

namespace Device

variable {d : Device}

lemma submitted_create {shape : TextureShape} : (d.create shape).2.submitted = d.submitted := by
  simp only [create]
  split
  · rfl
  · split <;> rfl

lemma submitted_destroy {t : TextureId} : (d.destroy t).submitted = d.submitted := by
  simp only [destroy]
  split <;> rfl

end Device

namespace Rendering

variable {α β : Type} {r : Renderer} {x : Rendering α} {f : α → Rendering β} {I : Renderer → Prop}

/-- What a computation leaves behind, whether it succeeds or not. -/
def final (x : Rendering α) (r : Renderer) : Renderer :=
  match x r with
  | .ok _ r' | .error _ r' => r'

def succeeds (x : Rendering α) (r : Renderer) : Bool :=
  match x r with
  | .ok .. => true
  | .error .. => false

lemma eq_ok_of_succeeds {x : Rendering Unit} (h : succeeds x r = true) :
    x r = .ok () (final x r) := by
  simp only [succeeds] at h
  simp only [final]
  split at h
  · rename_i hx
    rw [hx]
  · cases h

lemma final_bind : final (x >>= f) r =
    match x r with
    | .ok a r' => final (f a) r'
    | .error _ r' => r' := by
  rw [final, bind_apply]
  cases x r <;> rfl

/-- What the computation leaves behind has a property if it held before. -/
def Keeps (I : Renderer → Prop) (x : Rendering α) (r : Renderer) : Prop := I r → I (final x r)

namespace Keeps

lemma bind (hx : Keeps I x r) (hf : ∀ a r', x r = .ok a r' → Keeps I (f a) r') :
    Keeps I (x >>= f) r := by
  intro h
  have hx := hx h
  rw [final_bind]
  simp only [final] at hx
  cases hxr : x r with
  | ok a r' =>
    simp only [hxr] at hx
    exact hf a r' hxr hx
  | error e r' =>
    simp only [hxr] at hx
    exact hx

/-- A computation that looks at the state first depends on it. -/
lemma get_bind {f : Renderer → Rendering β} (hf : Keeps I (f r) r) :
    Keeps I ((get : Rendering Renderer) >>= f) r := hf

lemma pure {a : α} : Keeps I (Pure.pure a : Rendering α) r := id

lemma throw {e : Stop} : Keeps I (MonadExcept.throw e : Rendering α) r := id

lemma ofFault {y : Except Fault α} : Keeps I (liftM y : Rendering α) r := by
  cases y <;> exact id

lemma update {g : Renderer → Renderer} (h : I r → I (g r)) :
    Keeps I (modify g : Rendering PUnit) r := h

lemma forM {f : α → Rendering Unit} {as : List α} (hf : ∀ a ∈ as, ∀ r', Keeps I (f a) r') :
    Keeps I (as.forM f) r := by
  induction as generalizing r with
  | nil => exact pure
  | cons a as ih =>
    refine bind (hf a List.mem_cons_self r) fun _ r' _ => ?_
    exact ih fun b hb => hf b (List.mem_cons_of_mem _ hb)

end Keeps

/-- The computation hands nothing to the device. -/
def Silent (x : Rendering α) (r : Renderer) : Prop :=
  (final x r).device.submitted = r.device.submitted

lemma Keeps.silent (h : Keeps (fun r' => r'.device.submitted = r.device.submitted) x r) :
    Silent x r := h rfl

/-- The property is of the marks and of what was handed to the device; recording draws and
operations concerns neither. -/
def Aside (I : Renderer → Prop) : Prop :=
  ∀ r r' : Renderer, r'.writtenAs = r.writtenAs → r'.device.submitted = r.device.submitted →
    I r → I r'

lemma aside_writtenAs {ways : List (Nat × WriteType)} : Aside fun r => r.writtenAs = ways :=
  fun _ _ hways _ h => hways.trans h

lemma aside_submitted {lists : List (List Command)} : Aside fun r => r.device.submitted = lists :=
  fun _ _ _ hsubmitted h => hsubmitted.trans h

lemma submitted_markWritten {address : Nat} {type : WriteType} {lists : List (List Command)} :
    Keeps (fun r => r.device.submitted = lists) (markWritten address type) r := fun h => h

/-- The computation hands one command list to the device if it succeeds, and none otherwise. -/
def Submits (x : Rendering α) (r : Renderer) : Prop :=
  match x r with
  | .ok _ r' => ∃ commands, r'.device.submitted = commands :: r.device.submitted
  | .error _ r' => r'.device.submitted = r.device.submitted

lemma Silent.submits (hx : Silent x r) : Submits (x >>= fun _ => submit) r := by
  simp only [Silent, final] at hx
  rw [Submits, bind_apply]
  cases hxr : x r with
  | ok a r' =>
    simp only [hxr] at hx
    dsimp only
    cases hmissing : r'.device.missing? r'.commands with
    | some t =>
      rw [submit_of_missing hmissing]
      exact hx
    | none =>
      rw [submit_of_none_missing hmissing]
      exact ⟨_, congrArg _ hx⟩
  | error e r' =>
    simp only [hxr] at hx
    exact hx

lemma Submits.of_begin (h : Submits x { r with commands := [] }) :
    Submits (begin >>= fun _ => x) r := h

end Rendering

open Rendering

variable {r : Renderer} {slot : Slot} {I : Renderer → Prop}

namespace Rendering.Aside

variable {key : TargetKey} {width height : Nat}

lemma emit (hI : Aside I) {c : Command} : Keeps I (Rendering.emit c) r := hI _ _ rfl rfl

lemma note (hI : Aside I) {n : Note} : Keeps I (Rendering.note n) r := hI _ _ rfl rfl

lemma create (hI : Aside I) : Keeps I (Target.create key slot width height) r := by
  refine .get_bind ?_
  refine .bind (hI _ _ rfl Device.submitted_create) fun _ r' _ => ?_
  split
  · exact .throw
  · exact .bind hI.note fun _ _ _ => .pure

lemma request (hI : Aside I) : Keeps I (Target.request key slot width height) r := by
  refine .get_bind ?_
  split
  · split
    · exact .pure
    · refine .bind hI.note fun _ r' _ => ?_
      refine .bind (hI _ _ rfl Device.submitted_destroy) fun _ r' _ => ?_
      exact .bind hI.create fun _ _ _ => .bind (hI _ _ rfl rfl) fun _ _ _ => .pure
  · exact .bind hI.create fun _ _ _ => .bind (hI _ _ rfl rfl) fun _ _ _ => .pure

lemma record (hI : Aside I) (op : Operation) : Keeps I (op.record slot) r := by
  cases op with
  | upload type change => exact .bind hI.request fun _ _ _ => hI.emit
  | copyTile copy =>
    refine .get_bind ?_
    split
    · refine .bind .ofFault fun _ _ _ => .bind .ofFault fun _ _ _ => ?_
      exact .bind hI.request fun _ _ _ => hI.emit
    · exact hI.note
  | reinterpret =>
    refine .get_bind ?_
    split
    · split
      · exact .bind hI.request fun _ _ _ => hI.emit
      · exact .pure
    · exact .pure
  | synchronize =>
    refine .get_bind ?_
    split
    · exact hI.emit
    · exact .pure

lemma recordAll (hI : Aside I) {ops : List Operation} : Keeps I (Operation.recordAll slot ops) r :=
  .forM fun op _ _ => hI.record op

variable {w : Workload} {m : Matcher} {s : SubFrame} {p : Pair} {place : Nat}

lemma recordCall (hI : Aside I) {color : Target} {depth : Option Target} {call : Call} :
    Keeps I (w.recordCall m s slot place color depth call) r := by
  refine .bind .ofFault fun _ _ _ => .bind .ofFault fun _ _ _ => .bind .ofFault fun _ _ _ => ?_
  exact .bind .ofFault fun _ _ _ => .get_bind hI.emit

lemma depthTarget? (hI : Aside I) : Keeps I (Workload.depthTarget? p width slot) r := by
  unfold Workload.depthTarget?
  split
  · split
    · exact .pure
    · exact .bind hI.request fun _ _ _ => .pure
  · exact .pure

end Rendering.Aside

namespace Workload

variable {w : Workload} {m : Matcher} {s : SubFrame} {p : Pair} {lists : List (List Command)}

lemma submitted_recordDraws {place : Nat} :
    Keeps (fun r => r.device.submitted = lists) (w.recordDraws m s slot place p) r := by
  have hI : Aside fun r => r.device.submitted = lists := aside_submitted
  unfold recordDraws
  split
  · split
    · exact .pure
    · refine .bind hI.request fun _ _ _ => .bind hI.depthTarget? fun depth _ _ => ?_
      refine .bind (.forM fun _ _ _ => hI.recordCall) fun _ _ _ => ?_
      refine .bind submitted_markWritten fun _ _ _ => ?_
      cases depth with
      | none => exact .pure
      | some target => exact submitted_markWritten
  · exact .pure

lemma silent_recordPairs : Silent (w.recordPairs m s slot) r :=
  Keeps.silent (.forM fun _ _ _ => .bind aside_submitted.recordAll fun _ _ _ =>
    .bind submitted_recordDraws fun _ _ _ => aside_submitted.recordAll)

/-- Rendering an image hands it to the device as one command list. -/
lemma submits_renderImage : Submits (w.renderImage m s slot) r :=
  .of_begin silent_recordPairs.submits

end Workload

/-- The uploads of a present are handed to the device as one command list. -/
lemma Rendering.submits_upload {ops : List Operation} : Submits (upload ops) r := by
  refine .of_begin ?_
  simp only [← bind_assoc]
  refine Silent.submits (Keeps.silent ?_)
  refine .bind aside_submitted.recordAll fun _ _ _ => .forM fun op _ _ => ?_
  cases op with
  | upload => exact submitted_markWritten
  | _ => exact .pure

end Scanout
