import Scanout.Proofs.Pipeline.Order
import Scanout.Proofs.Ring.Exchange

/-!
# The handing over of workloads

The producer hands workloads over to the render worker through their ring. Whatever else the parties
do, in every run the ring goes through an exchange: the workloads that were submitted are the items
published, and the render worker is the consumer. It keeps the slots of paused workloads.
-/

namespace Scanout

open Scanout.Ring (Exchange Consumer)

/-- The render worker as the consumer of the ring of workloads. -/
def RenderPhase.consumer : RenderPhase → Consumer
  | .claim => .idle
  | .await place | .abandon place | .configure place | .plan place | .finish place _ => .holds place
  | .draw job | .publish job _ | .announce job | .conclude job => .holds job.place
  | .release place paused => .owes place paused
  | .leave | .stopped | .lost => .left

namespace Control

/-- The ring of workloads is that of an exchange of what was submitted. -/
structure Exchanges (c : Control) (log : History) (e : Exchange Workload) : Prop where
  ring : e.ring = c.workloads
  consumer : e.consumer = c.render.consumer
  published : e.published.map Prod.snd = log.submitted

variable {c c' : Control} {log events : History} {e : Exchange Workload} {n m : Nat}

namespace Exchanges

lemma start : (Control.start n m).Exchanges [] (.start n .empty) := ⟨rfl, rfl, rfl⟩

/-- Nothing is done to the ring. -/
lemma stay (h : c.Exchanges log e) (hring : c'.workloads = c.workloads)
    (hconsumer : c'.render.consumer = c.render.consumer) (hsubmitted : events.submitted = []) :
    ∃ moves, c'.Exchanges (log ++ events) (e.follow moves) :=
  ⟨[], h.ring.trans hring.symm, h.consumer.trans hconsumer.symm, by
    rw [History.submitted_append, hsubmitted, List.append_nil]
    exact h.published⟩

/-- One step of the consumer is made. -/
lemma single (h : c.Exchanges log e) (move : Exchange.Move Workload)
    (hring : (e.act move).ring = c'.workloads)
    (hconsumer : (e.act move).consumer = c'.render.consumer)
    (hpublished : (e.act move).published = e.published) (hsubmitted : events.submitted = []) :
    ∃ moves, c'.Exchanges (log ++ events) (e.follow moves) :=
  ⟨[move], hring, hconsumer, by
    rw [History.submitted_append, hsubmitted, List.append_nil, ← h.published]
    exact congrArg _ hpublished⟩

/-- The consumer gives up the item in hand, and may stop the ring. -/
lemma quit (h : c.Exchanges log e) {place : Nat} (hholds : c.render.consumer = .holds place)
    (lost : Bool) (hsubmitted : events.submitted = []) :
    ∃ moves, (c.breakRender lost).Exchanges (log ++ events) (e.follow moves) := by
  have hconsumer := h.consumer.trans hholds
  have hquit : e.act .quit = { e with consumer := .left } := by simp only [Exchange.act, hconsumer]
  have hpublished : e.published.map Prod.snd = (log ++ events).submitted := by
    rw [History.submitted_append, hsubmitted, List.append_nil]
    exact h.published
  cases lost with
  | false => exact ⟨[.quit], by
      simp only [Exchange.follow, List.foldl_cons, List.foldl_nil, hquit]
      exact ⟨h.ring, rfl, hpublished⟩⟩
  | true => exact ⟨[.quit, .stop], by
      simp only [Exchange.follow, List.foldl_cons, List.foldl_nil, hquit]
      exact ⟨congrArg Ring.stop h.ring, rfl, hpublished⟩⟩

lemma render (h : c.Exchanges log e) (move : c.RenderMove events c') :
    ∃ moves, c'.Exchanges (log ++ events) (e.follow moves) := by
  have hsubmitted := move.frame.submitted
  cases move with
  | claim at_ got =>
    have hidle : e.consumer = .idle := h.consumer.trans (by rw [at_]; rfl)
    refine h.single .claim ?_ ?_ ?_ hsubmitted <;> simp only [Exchange.act, hidle, h.ring, got]
    rfl
  | close at_ stopped =>
    have hidle : e.consumer = .idle := h.consumer.trans (by rw [at_]; rfl)
    refine h.single .claim ?_ ?_ ?_ hsubmitted <;> simp only [Exchange.act, hidle, h.ring, stopped]
    rfl
  | giveUp at_ =>
    have hholds : e.consumer = .holds _ := h.consumer.trans (by rw [at_]; rfl)
    refine h.single .quit ?_ ?_ ?_ hsubmitted <;> simp only [Exchange.act, hholds, h.ring]
    rfl
  | planLost at_ => exact h.quit (by rw [at_]; rfl) true hsubmitted
  | drawBroken at_ lost => exact h.quit (by rw [at_]; rfl) lost hsubmitted
  | @finish place paused ring at_ done =>
    have hholds : e.consumer = .holds place := h.consumer.trans (by rw [at_]; rfl)
    refine h.single (.finish paused) ?_ ?_ ?_ hsubmitted <;>
      simp only [Exchange.act, hholds, h.ring, done]
    rfl
  | finishLost at_ => exact h.quit (by rw [at_]; rfl) true hsubmitted
  | @release place paused at_ =>
    have howes : e.consumer = .owes place paused := h.consumer.trans (by rw [at_]; rfl)
    refine h.single .release ?_ ?_ ?_ hsubmitted <;> simp only [Exchange.act, howes, h.ring]
    rfl
  | leave at_ =>
    exact h.single .stop (congrArg Ring.stop h.ring) (h.consumer.trans (by rw [at_]; rfl)) rfl
      hsubmitted
  | publish at_ =>
    refine h.stay rfl ?_ hsubmitted
    rw [at_]
    dsimp only
    split <;> rfl
  | pass at_ | abandon at_ | configure at_ | plan at_ | draw at_ | exhaust at_ | announce at_
  | conclude at_ => exact h.stay rfl (by rw [at_]; rfl) hsubmitted

/-- The slot being filled is published, if the ring has room. -/
lemma publish (h : c.Exchanges log e) (item : Pending) :
    ∃ moves, (c.publish item).2.Exchanges (log ++ (c.publish item).1) (e.follow moves) := by
  cases item with
  | present number =>
    rcases hadvance : c.presents.advance with ⟨attempt, ring⟩
    simp only [Control.publish, hadvance]
    cases attempt <;> exact h.stay rfl rfl (by simp [History.submitted])
  | workload number =>
    rcases hadvance : c.workloads.advance with ⟨attempt, ring⟩
    simp only [Control.publish, hadvance]
    cases attempt with
    | done place =>
      refine ⟨[.advance, .fill .reset], ?_⟩
      have hact : e.act .advance =
          { e with ring, published := e.published ++ c.workloads.current?.toList.map (place, ·) } := by
        simp only [Exchange.act, h.ring, hadvance]
      simp only [Exchange.follow, List.foldl_cons, List.foldl_nil, hact]
      refine ⟨rfl, h.consumer, ?_⟩
      cases c.workloads.current? <;> simp [Exchange.act, h.published, History.submitted]
    | _ =>
      refine h.single .advance ?_ ?_ ?_ rfl <;> simp only [Exchange.act, h.ring, hadvance]
      exact h.consumer

lemma fill (h : c.Exchanges log e) (f : Workload → Workload) :
    { c with workloads := c.workloads.modifyCurrent f }.Exchanges log (e.act (.fill f)) :=
  ⟨congrArg (·.modifyCurrent f) h.ring, h.consumer, h.published⟩

lemma producer (h : c.Exchanges log e) (move : c.ProducerMove events c') :
    ∃ moves, c'.Exchanges (log ++ events) (e.follow moves) := by
  cases move with
  | stay => exact h.stay rfl rfl rfl
  | fill _ f => exact ⟨[.fill f], by rw [List.append_nil]; exact h.fill f⟩
  | @publish item c₁ offers =>
    cases offers with
    | pending => exact h.publish item
    | present _ q =>
      have h₁ : { c with presents := c.presents.setCurrent q }.Exchanges log e :=
        ⟨h.ring, h.consumer, h.published⟩
      exact h₁.publish (.present q.id)
    | workload _ w =>
      obtain ⟨moves, h₁⟩ := (h.fill fun _ => w).publish (.workload w.id)
      exact ⟨.fill (fun _ => w) :: moves, h₁⟩
  | shutdown => exact h.single .stop (congrArg Ring.stop h.ring) h.consumer rfl rfl

lemma move (h : c.Exchanges log e) (move : c.Move events c') :
    ∃ moves, c'.Exchanges (log ++ events) (e.follow moves) := by
  cases move with
  | render m => exact h.render m
  | present m =>
    have hframe := m.frame
    exact h.stay hframe.workloads (congrArg _ hframe.render) hframe.submitted
  | producer m => exact h.producer m

end Exchanges

lemma Reached.exchanges (h : Reached n m log c) :
    ∃ moves, c.Exchanges log ((Exchange.start n .empty).follow moves) := by
  induction h with
  | start => exact ⟨[], .start⟩
  | step before move ih =>
    obtain ⟨moves, h⟩ := ih
    obtain ⟨moves', h'⟩ := h.move move
    exact ⟨moves ++ moves', by rwa [Exchange.follow_append]⟩

end Control

namespace Pipeline

variable {p : Pipeline} {log : History}

/-- In every run the ring of workloads goes through an exchange. The items published are the
workloads submitted, in their order, and the consumer stands where the render worker does. -/
theorem Ran.exchanges (h : Ran log p) :
    ∃ n moves, 3 ≤ n ∧ p.control.Exchanges log ((Exchange.start n .empty).follow moves) := by
  obtain ⟨n, m, hn, -, h⟩ := h.reached
  obtain ⟨moves, h⟩ := h.exchanges
  exact ⟨n, moves, hn, h⟩

end Pipeline

end Scanout
