import Mathlib.Algebra.GroupWithZero.Nat
import Mathlib.Algebra.Order.BigOperators.Group.List
import Scanout.Proofs.Workload.References

/-!
# Counterparts in the frame before

What a workload is blended with is found again in the frame before by its place or by its identity.
Workloads of one shape have their draws in the same places, so a draw is blended with the one in its
own place. Transforms are looked up by identity, and the last of an identity is found: a transform
is blended with its own counterpart unless a later one has the same identity.
-/

namespace Scanout

/-- The places before a group and the place in the group are the place in all groups together. -/
lemma getElem?_flatMap_of {α β : Type} {f : α → List β} {as : List α} {a : α} {b : β}
    {group place : Nat} (ha : as[group]? = some a) (hb : (f a)[place]? = some b) :
    (as.flatMap f)[((as.take group).map fun a => (f a).length).sum + place]? = some b := by
  induction as generalizing group with
  | nil => simp at ha
  | cons first rest ih =>
    cases group with
    | zero =>
      obtain rfl : first = a := Option.some.inj ha
      have hplace : place < (f first).length := (List.getElem?_eq_some_iff.mp hb).1
      rw [List.flatMap_cons, List.take_zero, List.map_nil, List.sum_nil, Nat.zero_add,
        List.getElem?_append_left hplace]
      exact hb
    | succ group =>
      rw [List.flatMap_cons, List.take_succ_cons, List.map_cons, List.sum_cons, Nat.add_assoc,
        List.getElem?_append_right (Nat.le_add_right _ _), Nat.add_sub_cancel_left]
      exact ih ha

namespace Topology

/-- The draws before a pair. -/
def offset (t : Topology) (pair : Nat) : Nat := ((t.pairs.take pair).map Prod.snd).sum

/-- The pair has a draw at the position. -/
def Holds (t : Topology) (pair position : Nat) : Prop :=
  ∃ address count, t.pairs[pair]? = some (address, count) ∧ position < count

variable {t : Topology} {pair pair' position position' address count : Nat}

lemma offset_add_le (h : t.pairs[pair]? = some (address, count)) (hlt : pair < pair') :
    t.offset pair + count ≤ t.offset pair' := by
  have hnext : t.offset (pair + 1) = t.offset pair + count := by
    simp [offset, List.take_add_one, h]
  rw [← hnext, offset, offset, List.map_take, List.map_take]
  exact List.monotone_sum_take _ hlt

/-- No two positions of a shape are the same place. -/
lemma Holds.unique (h : t.Holds pair position) (h' : t.Holds pair' position')
    (heq : t.offset pair + position = t.offset pair' + position') :
    pair = pair' ∧ position = position' := by
  obtain ⟨address, count, hpair, hposition⟩ := h
  obtain ⟨address', count', hpair', hposition'⟩ := h'
  rcases Nat.lt_trichotomy pair pair' with hlt | rfl | hlt
  · have := offset_add_le hpair hlt
    omega
  · exact ⟨rfl, Nat.add_left_cancel heq⟩
  · have := offset_add_le hpair' hlt
    omega

end Topology

namespace Workload

variable {w previous : Workload} {l : Ledger} {i pair position : Nat}

/-- The draw at place `i` was issued in a pair, at a position among the draws of this pair. -/
def DrawnAt (w : Workload) (i pair position : Nat) : Prop :=
  ∃ p c, w.pairs[pair]? = some p ∧ p.calls[position]? = some c ∧ c.draw = i

lemma topology_holds_iff : w.topology.Holds pair position ↔
    ∃ p c, w.pairs[pair]? = some p ∧ p.calls[position]? = some c := by
  simp only [Topology.Holds, topology, List.getElem?_map, Option.map_eq_some_iff, Prod.mk.injEq]
  constructor
  · rintro ⟨-, -, ⟨p, hp, -, rfl⟩, hposition⟩
    exact ⟨p, _, hp, List.getElem?_eq_getElem hposition⟩
  · rintro ⟨p, c, hp, hc⟩
    exact ⟨_, _, ⟨p, hp, rfl, rfl⟩, (List.getElem?_eq_some_iff.mp hc).1⟩

/-- A workload that was built follows the ledger of its steps. -/
lemma Built.exists_follows (h : Built w) : ∃ l, w.Follows l := by
  induction h with
  | empty => exact ⟨.empty, .reset .empty⟩
  | @reset w before ih => exact ⟨.empty, .reset w⟩
  | setColorImage before address size width ih =>
    obtain ⟨l, hl⟩ := ih
    exact ⟨_, hl.setColorImage address size width⟩
  | setDepthImage before address ih =>
    obtain ⟨l, hl⟩ := ih
    exact ⟨_, hl.setDepthImage address⟩
  | addTransform before id matrix ih =>
    obtain ⟨l, hl⟩ := ih
    exact ⟨_, hl.perform (.transform id matrix)⟩
  | addProjection before kind matrix ih =>
    obtain ⟨l, hl⟩ := ih
    exact ⟨_, hl.addProjection kind matrix⟩
  | addTile before tile ih =>
    obtain ⟨l, hl⟩ := ih
    exact ⟨_, hl.perform (.tile tile)⟩
  | addDraw before draw ih =>
    obtain ⟨l, hl⟩ := ih
    exact ⟨_, hl.addDraw draw⟩
  | stamp before id presentId submissionFrame gameRate paused ih =>
    obtain ⟨l, hl⟩ := ih
    exact ⟨l, ⟨hl.1, hl.2, hl.3, hl.4, hl.5, hl.6, hl.7, hl.8, hl.9⟩⟩

/-- Where a draw was issued is read off the shape. -/
lemma drawnAt_iff
    (hplaces : (w.pairs.flatMap Pair.calls).map Call.draw = List.range w.draws.length) :
    w.DrawnAt i pair position ↔
      w.topology.Holds pair position ∧ i = w.topology.offset pair + position := by
  have hplace : ∀ p c, w.pairs[pair]? = some p → p.calls[position]? = some c →
      c.draw = w.topology.offset pair + position := by
    intro p c hp hc
    have hoffset : w.topology.offset pair =
        ((w.pairs.take pair).map fun p => p.calls.length).sum := by
      simp [Topology.offset, topology, Function.comp_def]
    have hcall := congrArg (Option.map Call.draw) (getElem?_flatMap_of hp hc)
    rw [← hoffset, ← List.getElem?_map, hplaces] at hcall
    obtain ⟨hlt, heq⟩ := List.getElem?_eq_some_iff.mp hcall
    rw [List.getElem_range] at heq
    exact heq.symm
  rw [topology_holds_iff]
  constructor
  · rintro ⟨p, c, hp, hc, rfl⟩
    exact ⟨⟨p, c, hp, hc⟩, hplace p c hp hc⟩
  · rintro ⟨⟨p, c, hp, hc⟩, rfl⟩
    exact ⟨p, c, hp, hc, hplace p c hp hc⟩

lemma Follows.lt_of_drawnAt (h : w.Follows l) (hat : w.DrawnAt i pair position) :
    i < w.draws.length := by
  obtain ⟨p, c, hp, hc, rfl⟩ := hat
  exact h.resolves.draws p (List.mem_of_getElem? hp) c (List.mem_of_getElem? hc)

/-- The number of draws is read off the shape. -/
lemma Follows.length_draws (h : w.Follows l) :
    w.draws.length = (w.topology.pairs.map Prod.snd).sum := by
  have hlength := congrArg List.length h.calls_draw
  rw [List.length_map, List.length_range, List.length_flatMap] at hlength
  simp [← hlength, topology, Function.comp_def]

/-- Every draw was issued in one place. -/
lemma Follows.existsUnique_drawnAt (h : w.Follows l) (hi : i < w.draws.length) :
    ∃! at_ : Nat × Nat, w.DrawnAt i at_.1 at_.2 := by
  have hmem : i ∈ (w.pairs.flatMap Pair.calls).map Call.draw := by
    rw [h.calls_draw]
    exact List.mem_range.mpr hi
  obtain ⟨c, hc, rfl⟩ := List.mem_map.mp hmem
  obtain ⟨p, hp, hc⟩ := List.mem_flatMap.mp hc
  obtain ⟨pair, hpair⟩ := List.mem_iff_getElem?.mp hp
  obtain ⟨position, hposition⟩ := List.mem_iff_getElem?.mp hc
  refine ⟨(pair, position), ⟨p, c, hpair, hposition, rfl⟩, ?_⟩
  rintro ⟨pair', position'⟩ h'
  obtain ⟨hholds, heq⟩ := (drawnAt_iff h.calls_draw).mp ⟨p, c, hpair, hposition, rfl⟩
  obtain ⟨hholds', heq'⟩ := (drawnAt_iff h.calls_draw).mp h'
  obtain ⟨rfl, rfl⟩ := hholds.unique hholds' (heq.symm.trans heq')
  rfl

/-- The transform is the last of an identity. -/
def LastNamed (w : Workload) (id : Nat) (t : Transform) : Prop :=
  ∃ before after, w.transforms = before ++ t :: after ∧ t.id = id ∧ ∀ u ∈ after, u.id ≠ id

lemma lastNamed_iff {id : Nat} {t : Transform} :
    w.LastNamed id t ↔ w.transforms.reverse.find? (·.id = id) = some t := by
  rw [List.find?_eq_some_iff_append]
  constructor
  · rintro ⟨before, after, htransforms, hid, hafter⟩
    refine ⟨by simpa using hid, after.reverse, before.reverse, by simp [htransforms], ?_⟩
    intro u hu
    simpa using hafter u (List.mem_reverse.mp hu)
  · rintro ⟨hid, after, before, hreverse, hafter⟩
    refine ⟨before.reverse, after.reverse, ?_, by simpa using hid, ?_⟩
    · rw [← List.reverse_reverse w.transforms, hreverse]
      simp
    · intro u hu
      simpa using hafter u (List.mem_reverse.mp hu)

/-- Where an identity is used, there is a last transform of it. -/
lemma exists_lastNamed {t : Transform} (ht : t ∈ w.transforms) : ∃ last, w.LastNamed t.id last := by
  simp only [lastNamed_iff, ← Option.isSome_iff_exists, List.find?_isSome, List.mem_reverse]
  exact ⟨t, ht, by simp⟩

lemma LastNamed.unique {id : Nat} {t u : Transform} (h : w.LastNamed id t)
    (h' : w.LastNamed id u) : t = u :=
  Option.some.inj ((lastNamed_iff.mp h).symm.trans (lastNamed_iff.mp h'))

/-- A transform is the last of its identity if no later one has it. -/
lemma lastNamed_of_later {place : Nat} {t : Transform} (ht : w.transforms[place]? = some t)
    (hlater : ∀ later u, place < later → w.transforms[later]? = some u → u.id ≠ t.id) :
    w.LastNamed t.id t := by
  obtain ⟨hplace, rfl⟩ := List.getElem?_eq_some_iff.mp ht
  refine ⟨w.transforms.take place, w.transforms.drop (place + 1), ?_, rfl, ?_⟩
  · rw [List.cons_getElem_drop_succ, List.take_append_drop]
  · intro u hu
    obtain ⟨k, hk⟩ := List.mem_iff_getElem?.mp hu
    rw [List.getElem?_drop] at hk
    exact hlater _ u (by omega) hk

end Workload

namespace Matcher

open Workload

variable {m : Matcher} {w previous : Workload} {s : SubFrame} {place : Nat}

/-- A draw is blended with the draw at its place. -/
lemma scroll_remember {current prior : Draw} (hs : blends s = true)
    (hcurrent : w.draws[place]? = some current) (hprior : previous.draws[place]? = some prior) :
    (m.remember previous).scroll w place s =
      .ok ⟨Matrix.blendComponent s.currentWeight prior.scroll.x current.scroll.x,
        Matrix.blendComponent s.currentWeight prior.scroll.y current.scroll.y⟩ := by
  have hscroll : (PreviousFrame.ofWorkload previous).scrolls[place]? = some prior.scroll := by
    simp [PreviousFrame.ofWorkload, hprior]
  simp only [scroll, fetch, hcurrent, remember, Option.bind_some, hscroll, hs, if_true]
  rfl

/-- A transform is blended with the last of its identity. -/
lemma transform_remember {current last : Transform} (hs : blends s = true)
    (hcurrent : w.transforms[place]? = some current) (hlast : previous.LastNamed current.id last) :
    (m.remember previous).transform w place s =
      .ok (last.matrix.blend current.matrix s.currentWeight) := by
  have hfound : (PreviousFrame.ofWorkload previous).transform? current.id = some last.matrix := by
    rw [PreviousFrame.transform?, PreviousFrame.ofWorkload, lastNamed_iff.mp hlast]
    rfl
  simp only [transform, fetch, hcurrent, bind, Except.bind, remember, Option.bind, hfound, hs,
    if_true]
  rfl

/-- Workloads of one shape have as many draws, and each draw of the one was issued in the pair and
at the position in which the draw of the other with its place was issued. So wherever the frame
before takes part, a draw is blended with the one that was issued in its pair and position. -/
theorem draws_blend_in_place (hw : w.Built) (hprevious : previous.Built)
    (hshape : w.topology = previous.topology) :
    w.draws.length = previous.draws.length ∧
      (∀ i < w.draws.length, ∃! at_ : Nat × Nat, w.DrawnAt i at_.1 at_.2) ∧
      (∀ i pair position, w.DrawnAt i pair position ↔ previous.DrawnAt i pair position) ∧
      ∀ (m : Matcher) (s : SubFrame) (i j pair position : Nat), blends s = true →
        w.DrawnAt i pair position → previous.DrawnAt j pair position →
          ∃ current prior, w.draws[i]? = some current ∧ previous.draws[j]? = some prior ∧
            (m.remember previous).scroll w i s =
              .ok ⟨Matrix.blendComponent s.currentWeight prior.scroll.x current.scroll.x,
                Matrix.blendComponent s.currentWeight prior.scroll.y current.scroll.y⟩ := by
  obtain ⟨l, h⟩ := hw.exists_follows
  obtain ⟨l', h'⟩ := hprevious.exists_follows
  have hsame : ∀ i pair position, w.DrawnAt i pair position ↔ previous.DrawnAt i pair position := by
    intro i pair position
    rw [drawnAt_iff h.calls_draw, drawnAt_iff h'.calls_draw, hshape]
  refine ⟨?_, fun i hi => h.existsUnique_drawnAt hi, hsame, ?_⟩
  · rw [h.length_draws, h'.length_draws, hshape]
  · intro m s i j pair position hs hat hat'
    obtain rfl : i = j := by
      have hj := (drawnAt_iff h'.calls_draw).mp hat'
      have hi := (drawnAt_iff h'.calls_draw).mp ((hsame i pair position).mp hat)
      exact hi.2.trans hj.2.symm
    have hcurrent := List.getElem?_eq_getElem (h.lt_of_drawnAt hat)
    have hprior := List.getElem?_eq_getElem (h'.lt_of_drawnAt hat')
    exact ⟨_, _, hcurrent, hprior, scroll_remember hs hcurrent hprior⟩

/-- A weight of one half each. -/
def halfway : SubFrame := ⟨0, .half, .half⟩

/-- A draw to one image and two to another, with a texture that has moved by `x` in the last. -/
def scrolled (x : Single) : Workload :=
  let dot (x : Single) : Draw := ⟨0, 3, none, ⟨0, 0, 1, 1⟩, ⟨x, 0⟩, false⟩
  ((((empty.setColorImage 16 .bits8 1).addDraw (dot 0)).setColorImage 32 .bits8 1).addDraw
    (dot 0)).addDraw (dot x)

lemma built_scrolled (x : Single) : (scrolled x).Built :=
  ((((Built.empty.setColorImage _ _ _).addDraw _).setColorImage _ _ _).addDraw _).addDraw _

/-- The last draw is the second of its pair in both frames, and is blended with its counterpart. -/
theorem scrolled_draw_blended :
    (scrolled 4).Built ∧ (scrolled 2).Built ∧ (scrolled 4).topology = (scrolled 2).topology ∧
      (scrolled 4).DrawnAt 2 1 1 ∧ (scrolled 2).DrawnAt 2 1 1 ∧
      (new.remember (scrolled 2)).scroll (scrolled 4) 2 halfway = .ok ⟨3, 0⟩ := by
  have hshape : (scrolled 4).topology = (scrolled 2).topology := by decide +kernel
  obtain ⟨-, -, hsame, hblend⟩ :=
    draws_blend_in_place (built_scrolled 4) (built_scrolled 2) hshape
  have hat : (scrolled 4).DrawnAt 2 1 1 :=
    ⟨(scrolled 4).pairs[1], ⟨0, 2⟩, by decide +kernel, by decide +kernel, rfl⟩
  have hat' := (hsame 2 1 1).mp hat
  refine ⟨built_scrolled 4, built_scrolled 2, hshape, hat, hat', ?_⟩
  obtain ⟨current, prior, hcurrent, hprior, hscroll⟩ :=
    hblend new halfway 2 2 1 1 (by decide +kernel) hat hat'
  have hx : current.scroll = ⟨4, 0⟩ := by
    have hsome : (scrolled 4).draws[2]?.map Draw.scroll = some ⟨4, 0⟩ := by decide +kernel
    simpa [hcurrent] using hsome
  have hx' : prior.scroll = ⟨2, 0⟩ := by
    have hsome : (scrolled 2).draws[2]?.map Draw.scroll = some ⟨2, 0⟩ := by decide +kernel
    simpa [hprior] using hsome
  rw [hscroll, hx, hx']
  decide +kernel

/-- Workloads of one shape have the same identities in the same places. Where the frame before takes
part, a transform is blended with the one in its own place exactly if the last one of its identity
there gives the same blend. It always is if no later transform has its identity. -/
theorem transform_blends_in_place_iff {current : Transform}
    (hshape : w.topology = previous.topology)
    (hcurrent : w.transforms[place]? = some current) (hs : blends s = true) :
    ∃ prior, previous.transforms[place]? = some prior ∧ prior.id = current.id ∧
      ((m.remember previous).transform w place s =
          .ok (prior.matrix.blend current.matrix s.currentWeight) ↔
        ∀ last, previous.LastNamed current.id last →
          last.matrix.blend current.matrix s.currentWeight =
            prior.matrix.blend current.matrix s.currentWeight) ∧
      ((∀ later u, place < later → w.transforms[later]? = some u → u.id ≠ current.id) →
        (m.remember previous).transform w place s =
          .ok (prior.matrix.blend current.matrix s.currentWeight)) := by
  have hids : ∀ i : Nat,
      w.transforms[i]?.map Transform.id = previous.transforms[i]?.map Transform.id := by
    intro i
    have hmap := congrArg (·.transformIds[i]?) hshape
    simpa only [topology, List.getElem?_map] using hmap
  obtain ⟨prior, hprior, hid⟩ : ∃ prior, previous.transforms[place]? = some prior ∧
      prior.id = current.id := by
    have hplace := hids place
    rw [hcurrent] at hplace
    exact Option.map_eq_some_iff.mp hplace.symm
  obtain ⟨last, hlast⟩ := exists_lastNamed (List.mem_of_getElem? hprior)
  rw [hid] at hlast
  refine ⟨prior, hprior, hid, ?_, ?_⟩
  · rw [transform_remember hs hcurrent hlast, Except.ok.injEq]
    constructor
    · intro h last' hlast'
      rwa [← hlast.unique hlast']
    · intro h
      exact h last hlast
  · intro hlater
    have hown : previous.LastNamed current.id prior := by
      rw [← hid]
      apply lastNamed_of_later hprior
      intro later u hlt hu
      have hsome := hids later
      rw [hu] at hsome
      obtain ⟨v, hv, hvid⟩ := Option.map_eq_some_iff.mp hsome
      rw [← hvid, hid]
      exact hlater later v hlt hv
    exact transform_remember hs hcurrent hown

/-- A transform that moves, and one at rest with an identity of its own. -/
def accompanied (x : Single) : Workload :=
  (empty.addTransform 1 (.shift x 0 0)).addTransform 2 (.shift 4 0 0)

/-- A transform whose identity is its own is blended with its counterpart. -/
theorem moved_transform_blended :
    (accompanied 4).topology = (accompanied 2).topology ∧
      (accompanied 4).transforms[0]? = some ⟨1, .shift 4 0 0⟩ ∧ blends halfway = true ∧
      (new.remember (accompanied 2)).transform (accompanied 4) 0 halfway =
        .ok (.shift 3 0 0) := by
  have hshape : (accompanied 4).topology = (accompanied 2).topology := by decide +kernel
  have hcurrent : (accompanied 4).transforms[0]? = some ⟨1, .shift 4 0 0⟩ := rfl
  have hs : blends halfway = true := by decide +kernel
  obtain ⟨prior, hprior, -, -, hblend⟩ := transform_blends_in_place_iff hshape hcurrent hs
  refine ⟨hshape, hcurrent, hs, ?_⟩
  rw [hblend]
  · obtain rfl : (⟨1, .shift 2 0 0⟩ : Transform) = prior := Option.some.inj hprior
    decide +kernel
  · intro later u hlt hu
    match later with
    | 1 =>
      obtain rfl : (⟨2, .shift 4 0 0⟩ : Transform) = u := Option.some.inj hu
      decide
    | later + 2 => cases hu

/-- Two transforms at rest, of one identity. -/
def twins : Workload :=
  { (empty.addTransform 1 (.shift 2 0 0)).addTransform 1 (.shift 4 0 0) with gameRate := 30 }

lemma built_twins : twins.Built :=
  ((Built.empty.addTransform _ _).addTransform _ _).stamp _ _ _ 30 _

/-- In the image halfway between two frames that are the same, the first of two transforms of one
identity is halfway to the second. -/
theorem twin_blended_with_other :
    twins.Built ∧ twins.transforms[0]? = some ⟨1, .shift 2 0 0⟩ ∧
      (∃ made m, ((new.remember twins).plan twins 60 true).outcome = .ok (made, m) ∧
        made.matched = true ∧ made.subFrames[0]? = some halfway) ∧ blends halfway = true ∧
      (new.remember twins).transform twins 0 halfway = .ok (.shift 3 0 0) ∧
      (new.remember twins).transform twins 0 halfway ≠
        .ok ((Matrix.shift 2 0 0).blend (.shift 2 0 0) halfway.currentWeight) := by
  refine ⟨built_twins, rfl, ?_, by decide +kernel⟩
  refine ⟨⟨[halfway, ⟨1, 0, 1⟩], true, 60⟩, ⟨⟨60, 60, some ⟨30, 60⟩⟩, some (.ofWorkload twins)⟩, ?_⟩
  decide +kernel

end Matcher

end Scanout
