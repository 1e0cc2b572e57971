import Mathlib.Algebra.Order.Field.Rat
import Mathlib.Tactic.FieldSimp
import Mathlib.Tactic.Linarith
import Mathlib.Tactic.Positivity
import Mathlib.Tactic.Ring
import Scanout.Proofs.Interpolation.Pace

/-!
# The spacing of the images

Images are shown at the rate of the display, and workloads come in at that of the game. The weights
are such that each image shows the moment at which it is shown: counted in workloads, the `j`-th
image shows the time `j * game / target`, in whichever workload it falls. Apart from the rounding of
the weights, motion across workloads is even.
-/

namespace Scanout

namespace Ticks

/-- The weight of the current frame in an image, in numbers of any kind. -/
def weight {α : Type} [OfNat α 0] [OfNat α 1] [Sub α] [Div α] (number : Nat → α)
    (clamp : α → α → α → α) (r : Rates) (ahead : Nat) : α :=
  clamp (1 - number ahead / number r.target) 0 1

/-- An image has the weight in single precision. -/
lemma imageAhead_eq (r : Rates) (index ahead : Nat) :
    imageAhead r index ahead =
      ⟨index, 1 - weight .ofNat .clamp r ahead, weight .ofNat .clamp r ahead⟩ := rfl

/-- The number moved to the nearest end of `low … high` if it lies outside. -/
def exactClamp (x low high : ℚ) : ℚ := if x < low then low else if high < x then high else x

/-- The weight without any rounding. -/
def exactWeight (r : Rates) (ahead : Nat) : ℚ := weight Nat.cast exactClamp r ahead

lemma exactClamp_of_le {x low high : ℚ} (hlow : low ≤ x) (hhigh : x ≤ high) :
    exactClamp x low high = x := by
  rw [exactClamp, if_neg (not_lt.mpr hlow), if_neg (not_lt.mpr hhigh)]

/-- The image at a place of the `n`-th plan, the `j`-th image overall, is as far ahead as it is to
be. Its weight is computed from this distance, and would need no correction without rounding. -/
structure Spaced (r : Rates) (now : Ticks) (n j place ahead : Nat) (s : SubFrame) : Prop where
  computed : now.ahead r place = .ok ahead
  image : s = ⟨place, 1 - weight .ofNat .clamp r ahead, weight .ofNat .clamp r ahead⟩
  /-- the image is not later than the workload -/
  unsaturated : (ahead : ℤ) = now.logical - (now.display + (place + 1) * r.game)
  distance : (ahead : ℤ) = n * r.target - j * r.game
  ahead_lt : ahead < r.target
  unclamped : exactWeight r ahead = 1 - ahead / r.target
  weight_pos : 0 < exactWeight r ahead
  weight_le : exactWeight r ahead ≤ 1
  /-- the moment shown, in workloads -/
  position : (n - 1 : ℚ) + exactWeight r ahead = j * r.game / r.target

variable {r : Rates} {n place ahead : Nat} {now : Ticks} {p : FramePlan} {s : SubFrame}

/-- A distance below the time of a workload needs no clamp. -/
lemma exactWeight_eq (hlt : ahead < r.target) :
    exactWeight r ahead = 1 - ahead / r.target ∧ 0 < exactWeight r ahead ∧
      exactWeight r ahead ≤ 1 := by
  have hpos : (0 : ℚ) < r.target := by exact_mod_cast Nat.zero_lt_of_lt hlt
  have hnonneg : (0 : ℚ) ≤ ahead / r.target := by positivity
  have hone : (ahead : ℚ) / r.target < 1 := by
    rw [div_lt_one hpos]
    exact_mod_cast hlt
  have heq : exactWeight r ahead = 1 - ahead / r.target :=
    exactClamp_of_le (by linarith) (by linarith)
  rw [heq]
  exact ⟨rfl, by linarith, by linarith⟩

/-- The images of a plan are where those of the display are. -/
lemma Planned.spaced (h : Planned r n now p) (hr : Gains r) (hlt : (n + 1) * r.target < 2 ^ 64)
    (hs : p.subFrames[place]? = some s) :
    ∃ ahead, Spaced r now (n + 1) (n * r.target / r.game + place + 1) place ahead s := by
  set before := n * r.target / r.game with hbefore
  have hplace : place < p.size := (List.getElem?_eq_some_iff.mp hs).1
  -- the tick of the image, and that it falls into the time of this workload
  have htick : now.display + (place + 1) * r.game = (before + place + 1) * r.game := by
    rw [h.display, ← hbefore]
    ring
  have hle : (before + place + 1) * r.game ≤ (n + 1) * r.target := by
    have hcount : before + place + 1 ≤ (n + 1) * r.target / r.game := by
      rw [← h.size]
      omega
    exact (Nat.mul_le_mul_right _ hcount).trans (Nat.div_mul_le_self _ _)
  have hafter : n * r.target < (before + place + 1) * r.game := by
    have hnext : n * r.target < (before + 1) * r.game := by
      rw [hbefore, Nat.mul_comm (_ + 1)]
      exact Nat.lt_mul_div_succ _ hr.game_pos
    exact hnext.trans_le (Nat.mul_le_mul_right _ (by omega))
  obtain ⟨ahead, hahead⟩ := Nat.exists_eq_add_of_le hle
  have hdiff : now.logical - (now.display + (place + 1) * r.game) = ahead := by
    rw [h.logical, htick]
    omega
  have hlt' : ahead < r.target := by
    rw [Nat.add_one_mul] at hahead
    omega
  have hdistance : (ahead : ℤ) =
      ((n + 1 : ℕ) : ℤ) * r.target - ((before + place + 1 : ℕ) : ℤ) * r.game := by
    have := congrArg (Nat.cast (R := ℤ)) hahead
    push_cast at this ⊢
    linarith
  obtain ⟨hunclamped, hpos, hone⟩ := exactWeight_eq hlt'
  refine ⟨ahead, ?_, ?_, ?_, hdistance, hlt', hunclamped, hpos, hone, ?_⟩
  · rw [ahead_eq_ok (by omega), hdiff]
  · rw [h.images, List.getElem?_map, List.getElem?_range hplace] at hs
    rw [← Option.some.inj hs, imageAt, hdiff, imageAhead_eq]
  · have htick' : ((now.display + (place + 1) * r.game : ℕ) : ℤ) =
        ((before + place + 1 : ℕ) : ℤ) * r.game := by exact_mod_cast htick
    rw [hdistance, h.logical]
    push_cast at htick' ⊢
    rw [htick']
  · have htarget : (r.target : ℚ) ≠ 0 := by
      have := hr.game_pos.trans hr.game_lt
      exact_mod_cast this.ne'
    have hdistance' : (ahead : ℚ) =
        ((n + 1 : ℕ) : ℚ) * r.target - ((before + place + 1 : ℕ) : ℚ) * r.game := by
      exact_mod_cast hdistance
    rw [hunclamped, hdistance']
    field_simp
    ring

end Ticks

namespace TickCall

variable {r : Rates} {t t' : Ticks} {n m : Nat} {plans : List FramePlan} {p : FramePlan}

/-- Plans that were made at the same rates from a restart are counted, and fit a word. -/
lemma Plans.counted (h : Plans t (List.replicate n (.plan r true)) plans t')
    (hstart : (t.restarted r).Counts r 0) (hr : Ticks.Gains r) :
    n * r.target < 2 ^ 64 ∧ (t'.restarted r).Counts r n ∧ plans.length = n ∧
      (plans.map FramePlan.size).sum = n * r.target / r.game := by
  have hlt : n * r.target < 2 ^ 64 := by
    induction n generalizing plans t' with
    | zero => norm_num
    | succ n ih =>
      rw [List.replicate_succ', plans_append] at h
      obtain ⟨earlier, next, later, hearlier, hlater, -⟩ := h
      have hcounts : (next.restarted r).Counts r n := by
        obtain ⟨plans', next', hplans', hcounts, -⟩ :=
          exists_plans_replicate (n := n) hstart hr (by rw [Nat.zero_add]; exact ih hearlier)
        obtain ⟨-, rfl⟩ := hearlier.unique hplans'
        rwa [Nat.zero_add] at hcounts
      obtain ⟨first, last, more, hfirst, -, -⟩ := plans_cons.1 hlater
      obtain ⟨⟨p, ticks⟩, hplan, -⟩ := Traced.bind_eq_ok.1 hfirst
      obtain ⟨now, -, hadvance, -⟩ := (Ticks.plan_eq_ok_iff hr.interpolates).1 hplan
      have hfits := Ticks.lt_of_advance_eq_ok hadvance
      rwa [hcounts.logical, ← Nat.add_one_mul] at hfits
  obtain ⟨plans', t'', hplans', hcounts, hlength, hsum, -⟩ :=
    exists_plans_replicate (n := n) hstart hr (by rwa [Nat.zero_add])
  obtain ⟨rfl, rfl⟩ := h.unique hplans'
  rw [Nat.zero_add] at hcounts hsum
  exact ⟨hlt, hcounts, hlength, by simpa using hsum⟩

/-- Each of the plans was made after the ones before it. -/
lemma Plans.planned (h : Plans t (List.replicate n (.plan r true)) plans t')
    (hstart : (t.restarted r).Counts r 0) (hr : Ticks.Gains r) (hp : plans[m]? = some p) :
    ∃ before now, Plans t (List.replicate m (.plan r true)) (plans.take m) before ∧
      (before.restarted r).advance r = .ok now ∧ Ticks.Planned r m now p ∧
      ((plans.take m).map FramePlan.size).sum = m * r.target / r.game := by
  obtain ⟨hlt, -, hlength, -⟩ := h.counted hstart hr
  have hm : m < n := hlength ▸ (List.getElem?_eq_some_iff.mp hp).1
  obtain ⟨rest, rfl⟩ := Nat.exists_eq_add_of_lt hm
  rw [Nat.add_assoc, Nat.add_comm rest, List.replicate_add, List.replicate_add, plans_append] at h
  obtain ⟨earlier, before, later, hearlier, hlater, rfl⟩ := h
  obtain ⟨-, hcounts, hearlierLength, hsum⟩ := hearlier.counted hstart hr
  subst hearlierLength
  rw [List.take_left]
  rw [List.getElem?_append_right le_rfl, Nat.sub_self] at hp
  obtain ⟨first, last, more, hfirst, -, rfl⟩ := plans_cons.1 hlater
  have hle : (earlier.length + 1) * r.target < 2 ^ 64 :=
    (Nat.mul_le_mul_right _ (by omega)).trans_lt hlt
  obtain ⟨now, p', ticks, hadvance, hplan, hplanned, -⟩ := hcounts.planned hr hle
  obtain ⟨rfl, -⟩ : first = [p'] ∧ last = ticks := by
    simpa using hfirst.symm.trans (perform_plan hplan)
  obtain rfl : p' = p := Option.some.inj hp
  exact ⟨before, now, hearlier, hadvance, hplanned, hsum⟩

/-- Plans at rates that call for interpolation, one after the other from a restart, succeed exactly
as long as the logical ticks fit a word. The `j`-th image overall, in the plan of the `n`-th
workload, lies `n * target - j * game` ticks before this workload: not after it, and by less than
the time of a workload. So the difference is not cut off, the exact weight not clamped, and the
moment shown is that of the `j`-th frame of the display. -/
theorem images_evenly_spaced (hpos : 0 < r.game) (hlt : r.game < r.target)
    (hstart : t.restarted r = ⟨0, 0, some r⟩) :
    ((∃ plans t', Plans t (List.replicate n (.plan r true)) plans t') ↔ n * r.target < 2 ^ 64) ∧
      ∀ plans t', Plans t (List.replicate n (.plan r true)) plans t' → plans.length = n ∧
        ∀ m p place s, plans[m]? = some p → p.subFrames[place]? = some s →
          ∃ before now ahead, Plans t (List.replicate m (.plan r true)) (plans.take m) before ∧
            (before.restarted r).advance r = .ok now ∧
            Ticks.Spaced r now (m + 1) (((plans.take m).map FramePlan.size).sum + place + 1) place
              ahead s := by
  have hr : Ticks.Gains r := ⟨hpos, hlt⟩
  have hcounts : (t.restarted r).Counts r 0 := by
    rw [hstart]
    exact ⟨rfl, by simp, by simp⟩
  refine ⟨⟨?_, ?_⟩, ?_⟩
  · rintro ⟨plans, t', h⟩
    exact (h.counted hcounts hr).1
  · intro hfits
    obtain ⟨plans, t', h, -⟩ :=
      exists_plans_replicate (n := n) hcounts hr (by rwa [Nat.zero_add])
    exact ⟨plans, t', h⟩
  · intro plans t' h
    obtain ⟨hfits, -, hlength, -⟩ := h.counted hcounts hr
    refine ⟨hlength, fun m p place s hp hs => ?_⟩
    have hm : m < n := hlength ▸ (List.getElem?_eq_some_iff.mp hp).1
    obtain ⟨before, now, hbefore, hadvance, hplanned, hsum⟩ := h.planned hcounts hr hp
    have hle : (m + 1) * r.target < 2 ^ 64 := (Nat.mul_le_mul_right _ hm).trans_lt hfits
    obtain ⟨ahead, hspaced⟩ := hplanned.spaced hr hle hs
    rw [hsum]
    exact ⟨before, now, ahead, hbefore, hadvance, hspaced⟩

/-- Seven workloads at 50 frames a second on a display of 144, after some at 30. The second image of
the last is the 19th overall. -/
theorem nineteenth_image_on_time :
    let r : Rates := ⟨50, 144⟩
    let t : Ticks := ⟨7, 3, some ⟨30, 144⟩⟩
    (0 < r.game ∧ r.game < r.target ∧ t.restarted r = ⟨0, 0, some r⟩) ∧
      ∃ plans t' p s now, Plans t (List.replicate 7 (.plan r true)) plans t' ∧
        plans[6]? = some p ∧ p.subFrames[1]? = some s ∧ Ticks.Spaced r now 7 19 1 58 s := by
  intro r t
  have hpos : 0 < r.game := by decide
  have hlt : r.game < r.target := by decide
  have hstart : t.restarted r = ⟨0, 0, some r⟩ := by decide
  obtain ⟨hsucceeds, hspaced⟩ := images_evenly_spaced (n := 7) hpos hlt hstart
  obtain ⟨plans, t', hplans⟩ := hsucceeds.2 (by decide)
  obtain ⟨hlength, himages⟩ := hspaced plans t' hplans
  have hsizes : plans.map FramePlan.size = [2, 3, 3, 3, 3, 3, 3] := by
    have hcomputed : (performAll t (List.replicate 7 (.plan r true))).outcome.map
        (fun made => made.1.map FramePlan.size) = .ok [2, 3, 3, 3, 3, 3, 3] := by decide +kernel
    rw [hplans] at hcomputed
    exact Except.ok.inj hcomputed
  have hp : plans[6]? = some plans[6] := List.getElem?_eq_getElem (by omega)
  have hsize : plans[6].size = 3 := by
    have hmap := congrArg (·[6]?) hsizes
    simpa [hp] using hmap
  have hone : 1 < plans[6].subFrames.length := by
    rw [FramePlan.size] at hsize
    omega
  obtain ⟨s, hs⟩ : ∃ s, plans[6].subFrames[1]? = some s := ⟨_, List.getElem?_eq_getElem hone⟩
  obtain ⟨before, now, ahead, -, -, h⟩ := himages 6 _ 1 _ hp hs
  have hsum : ((plans.take 6).map FramePlan.size).sum = 17 := by
    rw [List.map_take, hsizes]
    rfl
  rw [hsum] at h
  obtain rfl : ahead = 58 := by
    have hdistance := h.distance
    norm_num [r] at hdistance
    exact_mod_cast hdistance
  exact ⟨⟨hpos, hlt, hstart⟩, plans, t', _, _, now, hplans, hp, hs, h⟩

end TickCall

end Scanout
