import Mathlib.Tactic.Common
import Mathlib.Tactic.Lemma
import Mathlib.Tactic.NormNum
import Scanout.Interpolation.Ticks
import Scanout.Proofs.Traced

/-!
# The pace of the images

As long as the rates stay the same, the images keep pace with the display: after `n` workloads
there have been as many as display frames fit into the time of `n` workloads. What one workload
leaves over is the remainder of a division, so the ticks never run away, and nothing overflows
before `2 ^ 32` workloads are planned.
-/

namespace Scanout

lemma word64_of_lt {m : Nat} (h : m < 2 ^ 64) : word64 m = .ok m := if_pos h

lemma lt_of_word64_eq_ok {m n : Nat} (h : word64 m = .ok n) : m < 2 ^ 64 := by
  unfold word64 at h
  split at h
  · assumption
  · cases h

lemma mapM_eq_ok {α β : Type} {f : α → Except Fault β} {g : α → β} {as : List α}
    (h : ∀ a ∈ as, f a = .ok (g a)) : as.mapM f = .ok (as.map g) := by
  induction as with
  | nil => rfl
  | cons a as ih =>
    rw [List.mapM_cons, h a List.mem_cons_self, ih fun b hb => h b (List.mem_cons_of_mem a hb)]
    rfl

namespace Ticks

variable {r : Rates} {n : Nat} {t : Ticks}

/-! ### One workload -/

/-- With a workload at `r` more than one workload and one image would be outstanding. -/
def RunsAway (t : Ticks) (r : Rates) : Prop := r.target + r.game < t.logical + r.target - t.display

/-- The rates call for interpolation. -/
structure Gains (r : Rates) : Prop where
  game_pos : 0 < r.game
  game_lt : r.game < r.target

/-- The rates call for interpolation, each a word of 32 bits. -/
structure Blends (r : Rates) : Prop extends Gains r where
  target_lt : r.target < 2 ^ 32

lemma Gains.interpolates (hr : Gains r) : interpolates r = true := by
  simp [Ticks.interpolates, hr.game_pos, hr.game_lt]

/-- `n` workloads at `r` have come in since the ticks were started, and all images that fit into
their time were planned. -/
structure Counts (r : Rates) (n : Nat) (t : Ticks) : Prop where
  rates : t.rates = some r
  logical : t.logical = n * r.target
  display : t.display = r.game * (n * r.target / r.game)

/-- What the workload after `n` others at the rates `r` is shown as. -/
structure Paced (r : Rates) (n : Nat) (p : FramePlan) : Prop where
  gap : p.tickGap = r.target + n * r.target % r.game
  size : n * r.target / r.game + p.size = (n + 1) * r.target / r.game
  places : p.subFrames.map SubFrame.index = List.range p.size

/-- The image at a place, planned at the ticks `t`. -/
def imageAt (t : Ticks) (r : Rates) (index : Nat) : SubFrame :=
  imageAhead r index (t.logical - (t.display + (index + 1) * r.game))

/-- The workload after `n` others at the rates `r` has come in and made the ticks `now`, and the
plan is made by these. -/
structure Planned (r : Rates) (n : Nat) (now : Ticks) (p : FramePlan) : Prop
    extends Paced r n p where
  logical : now.logical = (n + 1) * r.target
  display : now.display = r.game * (n * r.target / r.game)
  images : p.subFrames = (List.range p.size).map (now.imageAt r)

/-- The ticks that the images do not use up are the remainder of a division. -/
lemma Counts.outstanding (h : t.Counts r n) : t.display + n * r.target % r.game = t.logical := by
  rw [h.logical, h.display, Nat.div_add_mod]

lemma Counts.not_runsAway (h : t.Counts r n) (hr : Gains r) : ¬ t.RunsAway r := by
  have hmod := Nat.mod_lt (n * r.target) hr.game_pos
  have hout := h.outstanding
  rw [RunsAway]
  omega

/-- The logical ticks of fewer than `2 ^ 32` workloads fit a word. -/
lemma logical_lt (hr : Blends r) (hn : n < 2 ^ 32) : n * r.target < 2 ^ 64 := by
  calc n * r.target ≤ (2 ^ 32 - 1) * (2 ^ 32 - 1) :=
        Nat.mul_le_mul (Nat.le_sub_one_of_lt hn) (Nat.le_sub_one_of_lt hr.target_lt)
    _ < 2 ^ 64 := by norm_num

lemma advance_of_not_runsAway (h : ¬ t.RunsAway r) (hlt : t.logical + r.target < 2 ^ 64) :
    t.advance r = .ok { t with logical := t.logical + r.target } := by
  rw [RunsAway] at h
  simp only [advance, word64_of_lt hlt, bind, Except.bind, if_neg h]
  rfl

/-- A workload that comes in leaves the logical ticks a word. -/
lemma lt_of_advance_eq_ok {now : Ticks} (h : t.advance r = .ok now) :
    t.logical + r.target < 2 ^ 64 := by
  simp only [advance, Except.bind_eq_ok_iff] at h
  obtain ⟨logical, hlogical, -⟩ := h
  exact lt_of_word64_eq_ok hlogical

lemma ahead_eq_ok {index : Nat} (h : t.display + (index + 1) * r.game < 2 ^ 64) :
    t.ahead r index = .ok (t.logical - (t.display + (index + 1) * r.game)) := by
  simp only [ahead, word64_of_lt (by omega : (index + 1) * r.game < 2 ^ 64), bind, Except.bind,
    word64_of_lt h]
  rfl

/-- Images within the time of the workload are planned without overflow. -/
lemma images_eq_ok {count : Nat} (h : t.display + count * r.game < 2 ^ 64) :
    t.images r count = .ok ((List.range count).map (t.imageAt r)) := by
  apply mapM_eq_ok
  intro index hindex
  have hle : (index + 1) * r.game ≤ count * r.game :=
    Nat.mul_le_mul_right _ (List.mem_range.1 hindex)
  rw [ahead_eq_ok (by omega)]
  rfl

/-- Images are numbered in order. -/
lemma index_imageAt (count : Nat) :
    ((List.range count).map (t.imageAt r)).map SubFrame.index = List.range count := by
  rw [List.map_map]
  exact List.map_id _

/-- The images of `n` workloads and those of one more. -/
lemma div_add_images (r : Rates) (n : Nat) :
    n * r.target / r.game + (r.target + n * r.target % r.game) / r.game =
      (n + 1) * r.target / r.game := by
  rcases Nat.eq_zero_or_pos r.game with hzero | hpos
  · simp [hzero]
  · have hsum : (n + 1) * r.target =
        (r.target + n * r.target % r.game) + r.game * (n * r.target / r.game) := by
      rw [Nat.add_one_mul, Nat.add_assoc, Nat.mod_add_div, Nat.add_comm]
    rw [hsum, Nat.add_mul_div_left _ _ hpos, Nat.add_comm]

lemma consume_eq_ok {count : Nat} (h : t.display + count * r.game < 2 ^ 64) :
    t.consume r count = .ok { t with display := t.display + count * r.game } := by
  simp only [consume, bind, Except.bind, word64_of_lt h,
    word64_of_lt (by omega : count * r.game < 2 ^ 64)]
  rfl

lemma plan_passthrough (r : Rates) {enabled : Bool} (h : (!enabled || !interpolates r) = true) :
    (t.plan r enabled).outcome = .ok (.direct, .zero) := by
  rw [plan, if_pos h]
  rfl

/-- A plan that blends is made in these steps. -/
lemma plan_eq_ok_iff {p : FramePlan} {t' : Ticks} (hr : interpolates r = true) :
    (t.plan r true).outcome = .ok (p, t') ↔
      ∃ now images, (t.restarted r).advance r = .ok now ∧
        now.images r (now.imageCount r) = .ok images ∧
        now.consume r (now.imageCount r) = .ok t' ∧ p = ⟨images, true, now.gap⟩ := by
  have hrest : Traced.outcome (do
      let t ← (t.restarted r).advance r
      let count := t.imageCount r
      let subFrames ← t.images r count
      return ((⟨subFrames, true, t.gap⟩, ← t.consume r count) : FramePlan × Ticks)) =
        .ok (p, t') ↔
      ∃ now images, (t.restarted r).advance r = .ok now ∧
        now.images r (now.imageCount r) = .ok images ∧
        now.consume r (now.imageCount r) = .ok t' ∧ p = ⟨images, true, now.gap⟩ := by
    simp only [Traced.bind_eq_ok, Traced.lift_eq_ok, Traced.pure_eq_ok, Prod.mk.injEq]
    constructor
    · rintro ⟨now, hadvance, images, himages, t', hconsume, rfl, rfl⟩
      exact ⟨now, images, hadvance, himages, hconsume, rfl⟩
    · rintro ⟨now, images, hadvance, himages, hconsume, rfl⟩
      exact ⟨now, hadvance, images, himages, t', hconsume, rfl, rfl⟩
  rw [plan, if_neg (by simp [hr])]
  cases t.rates with
  | none => exact hrest
  | some old =>
    rw [Traced.bind_eq_ok]
    constructor
    · rintro ⟨_, -, h⟩
      exact hrest.1 h
    · intro h
      refine ⟨(), ?_, hrest.2 h⟩
      rw [Traced.noteWhen]
      split <;> rfl

/-- One more workload at the rates `r`, as long as its ticks fit a word. -/
lemma Counts.planned (h : (t.restarted r).Counts r n) (hr : Gains r)
    (hlt : (n + 1) * r.target < 2 ^ 64) :
    ∃ now p t', (t.restarted r).advance r = .ok now ∧ (t.plan r true).outcome = .ok (p, t') ∧
      Planned r n now p ∧ t'.Counts r (n + 1) := by
  have hout := h.outstanding
  generalize hstart : t.restarted r = s at h hout
  have hlogical : s.logical + r.target = (n + 1) * r.target := by
    rw [h.logical, Nat.add_one_mul]
  let now : Ticks := { s with logical := s.logical + r.target }
  have hadvance : s.advance r = .ok now :=
    advance_of_not_runsAway (h.not_runsAway hr) (by omega)
  have hgap : now.gap = r.target + n * r.target % r.game := by
    change s.logical + r.target - s.display = _
    omega
  have hcount : now.imageCount r = (r.target + n * r.target % r.game) / r.game := by
    have hge : r.game ≤ r.target + n * r.target % r.game :=
      Nat.le_add_right_of_le hr.game_lt.le
    rw [imageCount, hgap]
    exact Nat.max_eq_left ((Nat.one_le_div_iff hr.game_pos).2 hge)
  -- the last image lies no later than the workload itself
  have hend : now.display + now.imageCount r * r.game =
      r.game * ((n + 1) * r.target / r.game) := by
    change s.display + _ = _
    rw [hcount, h.display, Nat.mul_comm _ r.game, ← Nat.mul_add, div_add_images]
  have hend_lt : now.display + now.imageCount r * r.game < 2 ^ 64 := by
    have := Nat.mul_div_le ((n + 1) * r.target) r.game
    omega
  let images := (List.range (now.imageCount r)).map (now.imageAt r)
  have hsize : images.length = now.imageCount r := by simp [images]
  let after : Ticks := { now with display := now.display + now.imageCount r * r.game }
  refine ⟨now, ⟨images, true, now.gap⟩, after, hadvance, ?_,
    ⟨⟨hgap, ?_, ?_⟩, hlogical, h.display, ?_⟩, ⟨h.rates, hlogical, hend⟩⟩
  · rw [plan_eq_ok_iff hr.interpolates, hstart]
    exact ⟨now, images, hadvance, images_eq_ok hend_lt, consume_eq_ok hend_lt, rfl⟩
  · rw [FramePlan.size, hsize, hcount, div_add_images]
  · rw [FramePlan.size, hsize]
    exact index_imageAt _
  · rw [FramePlan.size, hsize]

/-- One more workload at the rates `r`. -/
lemma Counts.plan (h : (t.restarted r).Counts r n) (hr : Blends r) (hn : n + 1 < 2 ^ 32) :
    ∃ p t', (t.plan r true).outcome = .ok (p, t') ∧ Paced r n p ∧ t'.Counts r (n + 1) := by
  obtain ⟨now, p, t', -, hplan, hplanned, hcounts⟩ := h.planned hr.toGains (logical_lt hr hn)
  exact ⟨p, t', hplan, hplanned.toPaced, hcounts⟩

/-- Ticks that count in other rates start anew. -/
lemma counts_restarted (h : t.rates ≠ some r) : (t.restarted r).Counts r 0 := by
  rw [restarted, if_neg h]
  exact ⟨rfl, by simp, by simp⟩

lemma Counts.restarted (h : t.Counts r n) : (t.restarted r).Counts r n := by
  rwa [Ticks.restarted, if_pos h.rates]

/-- Ticks that were only just started have counted nothing. -/
lemma Counts.of_restarted (h : (t.restarted r).Counts r n) (hn : 0 < n) (hr : Gains r) :
    t.Counts r n := by
  by_cases hrates : t.rates = some r
  · rwa [Ticks.restarted, if_pos hrates] at h
  · have hzero : n * r.target = 0 := by
      rw [← h.logical, Ticks.restarted, if_neg hrates]
    have hpos : 0 < n * r.target := Nat.mul_pos hn (hr.game_pos.trans hr.game_lt)
    omega

/-- The ticks after at most `k` plans. -/
def Steady (k : Nat) (t : Ticks) : Prop := t = .zero ∨ ∃ r n, n ≤ k ∧ t.Counts r n

lemma Steady.restarted {k : Nat} (h : t.Steady k) (r : Rates) :
    ∃ n ≤ k, (t.restarted r).Counts r n := by
  by_cases hrates : t.rates = some r
  · obtain rfl | ⟨r', n, hn, hcounts⟩ := h
    · cases hrates
    · obtain rfl : r' = r := Option.some.inj (hcounts.rates.symm.trans hrates)
      exact ⟨n, hn, hcounts.restarted⟩
  · exact ⟨0, Nat.zero_le k, counts_restarted hrates⟩

/-- A plan is not empty, and its images are numbered in order. -/
structure Numbered (p : FramePlan) : Prop where
  ne_nil : p.subFrames ≠ []
  places : p.subFrames.map SubFrame.index = List.range p.size

lemma numbered_direct : Numbered .direct := ⟨by simp [FramePlan.direct], rfl⟩

lemma Paced.size_eq {p : FramePlan} (h : Paced r n p) :
    p.size = (r.target + n * r.target % r.game) / r.game := by
  have := h.size
  rw [← div_add_images] at this
  omega

lemma Paced.numbered {p : FramePlan} (h : Paced r n p) (hr : Gains r) : Numbered p := by
  refine ⟨fun hnil => ?_, h.places⟩
  have hpos : 0 < p.size := by
    rw [h.size_eq]
    exact Nat.div_pos (Nat.le_add_right_of_le hr.game_lt.le) hr.game_pos
  rw [FramePlan.size, hnil] at hpos
  exact absurd hpos (Nat.lt_irrefl 0)

end Ticks

/-! ### Many workloads -/

/-- A use of the ticks. -/
inductive TickCall where
  | plan (rates : Rates) (enabled : Bool)
  | reset
  deriving DecidableEq, Repr

namespace TickCall

def isPlan : TickCall → Bool
  | plan _ _ => true
  | reset => false

@[simp] lemma isPlan_plan (r : Rates) (enabled : Bool) : (plan r enabled).isPlan = true := rfl

/-- The rates are words of 32 bits. -/
def Fits : TickCall → Prop
  | plan r _ => r.game < 2 ^ 32 ∧ r.target < 2 ^ 32
  | reset => True

instance : DecidablePred Fits
  | plan r _ => inferInstanceAs (Decidable (r.game < 2 ^ 32 ∧ r.target < 2 ^ 32))
  | reset => inferInstanceAs (Decidable True)

/-- The plan that a call makes, and the ticks after it. -/
def perform (t : Ticks) : TickCall → Traced (List FramePlan × Ticks)
  | plan r enabled => do
    let (p, t) ← t.plan r enabled
    return ([p], t)
  | reset => return ([], .zero)

def performAll (t : Ticks) : List TickCall → Traced (List FramePlan × Ticks)
  | [] => return ([], t)
  | c :: cs => do
    let (plans, t) ← c.perform t
    let (more, t) ← performAll t cs
    return (plans ++ more, t)

/-- From the ticks `t` the calls make `plans` and leave the ticks `t'`. -/
def Plans (t : Ticks) (calls : List TickCall) (plans : List FramePlan) (t' : Ticks) : Prop :=
  (performAll t calls).outcome = .ok (plans, t')

variable {t t' : Ticks} {c : TickCall} {calls : List TickCall} {plans : List FramePlan}
  {r : Rates} {k n : Nat}

lemma plans_nil : Plans t [] plans t' ↔ plans = [] ∧ t' = t := by
  rw [Plans, performAll, Traced.pure_eq_ok, Prod.mk.injEq, eq_comm, @eq_comm _ t]

lemma plans_cons : Plans t (c :: calls) plans t' ↔
    ∃ first next more, (c.perform t).outcome = .ok (first, next) ∧ Plans next calls more t' ∧
      plans = first ++ more := by
  simp only [Plans, performAll, Traced.bind_eq_ok, Traced.pure_eq_ok, Prod.exists, Prod.mk.injEq]
  constructor
  · rintro ⟨first, next, hfirst, more, last, hmore, rfl, rfl⟩
    exact ⟨first, next, more, hfirst, hmore, rfl⟩
  · rintro ⟨first, next, more, hfirst, hmore, rfl⟩
    exact ⟨first, next, hfirst, more, t', hmore, rfl, rfl⟩

lemma plans_append {before : List TickCall} : Plans t (before ++ calls) plans t' ↔
    ∃ earlier next later, Plans t before earlier next ∧ Plans next calls later t' ∧
      plans = earlier ++ later := by
  induction before generalizing t plans with
  | nil => simp [plans_nil]
  | cons c before ih =>
    simp only [List.cons_append, plans_cons, ih]
    constructor
    · rintro ⟨first, mid, -, hfirst, ⟨more, next, later, hmore, hlater, rfl⟩, rfl⟩
      exact ⟨first ++ more, next, later, ⟨first, mid, more, hfirst, hmore, rfl⟩, hlater,
        (List.append_assoc _ _ _).symm⟩
    · rintro ⟨-, next, later, ⟨first, mid, more, hfirst, hmore, rfl⟩, hlater, rfl⟩
      exact ⟨first, mid, more ++ later, hfirst, ⟨more, next, later, hmore, hlater, rfl⟩,
        List.append_assoc _ _ _⟩

lemma Plans.unique {plans' : List FramePlan} {t'' : Ticks} (h : Plans t calls plans t')
    (h' : Plans t calls plans' t'') : plans' = plans ∧ t'' = t' := by
  have := h'.symm.trans h
  simpa using this

lemma perform_plan {enabled : Bool} {p : FramePlan}
    (h : (t.plan r enabled).outcome = .ok (p, t')) :
    ((plan r enabled).perform t).outcome = .ok ([p], t') :=
  Traced.bind_eq_ok.2 ⟨(p, t'), h, rfl⟩

/-- A plan either passes the workload through or blends it. -/
lemma passes_or_blends {enabled : Bool} (hfits : (plan r enabled).Fits) :
    (!enabled || !Ticks.interpolates r) = true ∨ enabled = true ∧ Ticks.Blends r := by
  by_cases h : (!enabled || !Ticks.interpolates r) = true
  · exact .inl h
  · have hboth : enabled = true ∧ 0 < r.game ∧ r.game < r.target := by
      simpa [Ticks.interpolates, Nat.pos_iff_ne_zero] using h
    exact .inr ⟨hboth.1, ⟨hboth.2.1, hboth.2.2⟩, hfits.2⟩

/-- One call succeeds, and ticks that count in some rates afterwards were told to. -/
lemma exists_perform (h : t.Steady k) (hfits : c.Fits) (hk : c.isPlan = true → k + 1 < 2 ^ 32) :
    ∃ plans t', (c.perform t).outcome = .ok (plans, t') ∧
      t'.Steady (k + if c.isPlan then 1 else 0) ∧ (∀ p ∈ plans, Ticks.Numbered p) ∧
      ∀ r, t'.rates = some r → c = .plan r true := by
  cases c with
  | reset =>
    exact ⟨[], .zero, rfl, .inl rfl, fun _ hp => absurd hp List.not_mem_nil, fun _ hr => nomatch hr⟩
  | plan r enabled =>
    obtain hpass | ⟨rfl, hr⟩ := passes_or_blends hfits
    · refine ⟨[.direct], .zero, perform_plan (Ticks.plan_passthrough r hpass), .inl rfl, ?_,
        fun _ hr => nomatch hr⟩
      intro p hp
      exact List.mem_singleton.1 hp ▸ Ticks.numbered_direct
    · obtain ⟨n, hn, hcounts⟩ := h.restarted r
      have hlt : n + 1 < 2 ^ 32 := Nat.lt_of_le_of_lt (Nat.add_le_add_right hn 1) (hk rfl)
      obtain ⟨p, t', hplan, hpaced, hcounts'⟩ := hcounts.plan hr hlt
      refine ⟨[p], t', perform_plan hplan, .inr ⟨r, n + 1, Nat.add_le_add_right hn 1, hcounts'⟩,
        ?_, ?_⟩
      · intro q hq
        exact List.mem_singleton.1 hq ▸ hpaced.numbered hr.toGains
      · intro r' hr'
        obtain rfl : r = r' := Option.some.inj (hcounts'.rates.symm.trans hr')
        rfl

/-- Fewer than `2 ^ 32` plans succeed. -/
lemma exists_plans (h : t.Steady k) (hfits : ∀ c ∈ calls, c.Fits)
    (hk : k + calls.countP isPlan < 2 ^ 32) :
    ∃ plans t', Plans t calls plans t' ∧ t'.Steady (k + calls.countP isPlan) ∧
      (∀ p ∈ plans, Ticks.Numbered p) ∧
      ∀ r, t'.rates = some r → t = t' ∧ calls = [] ∨ calls.getLast? = some (.plan r true) := by
  induction calls generalizing t k with
  | nil =>
    exact ⟨[], t, plans_nil.2 ⟨rfl, rfl⟩, h, fun _ hp => absurd hp List.not_mem_nil,
      fun _ _ => .inl ⟨rfl, rfl⟩⟩
  | cons c calls ih =>
    rw [List.countP_cons, Nat.add_comm (calls.countP isPlan), ← Nat.add_assoc] at hk ⊢
    obtain ⟨first, next, hfirst, hnext, hnumbered, hrates⟩ :=
      exists_perform h (hfits c List.mem_cons_self) fun hc => by rw [if_pos hc] at hk; omega
    obtain ⟨more, t', hmore, hsteady, hnumbered', hrates'⟩ :=
      ih hnext (fun c' hc' => hfits c' (List.mem_cons_of_mem c hc')) hk
    refine ⟨first ++ more, t', plans_cons.2 ⟨first, next, more, hfirst, hmore, rfl⟩, hsteady,
      List.forall_mem_append.2 ⟨hnumbered, hnumbered'⟩, fun r hr => .inr ?_⟩
    obtain ⟨rfl, rfl⟩ | hlast := hrates' r hr
    · rw [List.getLast?_singleton, hrates r hr]
    · rw [List.getLast?_cons, hlast]
      rfl

/-- The plans and the ticks after as many workloads at `r` as there are plans. -/
structure Streak (r : Rates) (plans : List FramePlan) (t : Ticks) : Prop where
  logical : t.logical = plans.length * r.target
  display : t.display = r.game * (plans.length * r.target / r.game)
  images : (plans.map FramePlan.size).sum = plans.length * r.target / r.game
  gap : ∀ i p, plans[i]? = some p → p.tickGap = r.target + i * r.target % r.game

/-- `n` workloads at `r`, after `m` others at these rates. -/
lemma exists_plans_replicate {m : Nat} (h : (t.restarted r).Counts r m) (hr : Ticks.Gains r)
    (hlt : (m + n) * r.target < 2 ^ 64) :
    ∃ plans t', Plans t (List.replicate n (.plan r true)) plans t' ∧
      (t'.restarted r).Counts r (m + n) ∧ plans.length = n ∧
      m * r.target / r.game + (plans.map FramePlan.size).sum = (m + n) * r.target / r.game ∧
      ∀ i p, plans[i]? = some p → p.tickGap = r.target + (m + i) * r.target % r.game := by
  induction n generalizing t m with
  | zero => exact ⟨[], t, plans_nil.2 ⟨rfl, rfl⟩, h, rfl, rfl, fun _ _ hp => nomatch hp⟩
  | succ n ih =>
    have hle : (m + 1) * r.target ≤ (m + (n + 1)) * r.target :=
      Nat.mul_le_mul_right _ (by omega)
    obtain ⟨now, p, next, -, hplan, hplanned, hnext⟩ := h.planned hr (Nat.lt_of_le_of_lt hle hlt)
    rw [show m + (n + 1) = m + 1 + n by omega] at hlt ⊢
    obtain ⟨plans, t', hplans, hcounts, hlength, hsum, hgaps⟩ := ih hnext.restarted hlt
    refine ⟨p :: plans, t', plans_cons.2 ⟨[p], next, plans, perform_plan hplan, hplans, rfl⟩,
      hcounts, by rw [List.length_cons, hlength], ?_, ?_⟩
    · rw [List.map_cons, List.sum_cons, ← Nat.add_assoc, hplanned.size]
      exact hsum
    · rintro (_ | i) q hq
      · obtain rfl : p = q := Option.some.inj hq
        exact hplanned.gap
      · rw [hgaps i q hq, Nat.add_right_comm m 1 i, Nat.add_assoc m i 1]

/-- The first ticks, and all that follow them. -/
lemma exists_plans_zero (hfits : ∀ c ∈ calls, c.Fits) (hcount : calls.countP isPlan < 2 ^ 32) :
    ∃ plans t, Plans .zero calls plans t ∧ t.Steady (calls.countP isPlan) ∧
      (∀ p ∈ plans, Ticks.Numbered p) ∧
      ∀ r, t.rates = some r → calls.getLast? = some (.plan r true) := by
  have hk : 0 + calls.countP isPlan < 2 ^ 32 := by rwa [Nat.zero_add]
  obtain ⟨plans, t, hplans, hsteady, hnumbered, hrates⟩ := exists_plans (.inl rfl) hfits hk
  rw [Nat.zero_add] at hsteady
  refine ⟨plans, t, hplans, hsteady, hnumbered, fun r hr => ?_⟩
  obtain ⟨rfl, -⟩ | hlast := hrates r hr
  · cases hr
  · exact hlast

/-- What holds of the ticks after calls that were made from the start. -/
lemma Plans.steady (h : Plans .zero calls plans t) (hfits : ∀ c ∈ calls, c.Fits)
    (hcount : calls.countP isPlan < 2 ^ 32) :
    t.Steady (calls.countP isPlan) ∧
      ∀ r, t.rates = some r → calls.getLast? = some (.plan r true) := by
  obtain ⟨plans', t', h', hsteady, -, hrates⟩ := exists_plans_zero hfits hcount
  obtain ⟨-, rfl⟩ := h.unique h'
  exact ⟨hsteady, hrates⟩

lemma blends_of_fits (hfits : (plan r true).Fits) (hr : Ticks.interpolates r = true) :
    Ticks.Blends r := by
  obtain h | ⟨-, h⟩ := passes_or_blends hfits
  · simp [hr] at h
  · exact h

/-- The ticks do not run away at a plan that blends. -/
lemma Plans.bounded {before after : List TickCall}
    (h : Plans .zero (before ++ .plan r true :: after) plans t)
    (hfits : ∀ c ∈ before ++ .plan r true :: after, c.Fits)
    (hcount : (before ++ .plan r true :: after).countP isPlan < 2 ^ 32)
    (hr : Ticks.interpolates r = true) :
    ∃ earlier s p, Plans .zero before earlier s ∧ ¬ (s.restarted r).RunsAway r ∧
      (s.restarted r).advance r =
        .ok { s.restarted r with logical := (s.restarted r).logical + r.target } ∧
      plans[earlier.length]? = some p ∧ 0 < p.tickGap ∧ p.tickGap ≤ r.target + r.game := by
  have hblends := blends_of_fits (hfits (plan r true) (by simp)) hr
  rw [List.countP_append, List.countP_cons_of_pos rfl] at hcount
  obtain ⟨earlier, s, later, hearlier, hlater, rfl⟩ := plans_append.1 h
  obtain ⟨first, next, more, hfirst, -, rfl⟩ := plans_cons.1 hlater
  have hsteady := (hearlier.steady (fun c hc => hfits c (List.mem_append_left _ hc)) (by omega)).1
  obtain ⟨n, hn, hcounts⟩ := hsteady.restarted r
  obtain ⟨p, t', hplan, hpaced, -⟩ := hcounts.plan hblends (by omega)
  obtain ⟨rfl, -⟩ : first = [p] ∧ next = t' := by
    simpa using hfirst.symm.trans (perform_plan hplan)
  have hmod := Nat.mod_lt (n * r.target) hblends.game_pos
  have hgap := hpaced.gap
  have hnot := hcounts.not_runsAway hblends.toGains
  have hlt := Ticks.logical_lt hblends (by omega : n + 1 < 2 ^ 32)
  rw [Nat.add_one_mul, ← hcounts.logical] at hlt
  exact ⟨earlier, s, p, hearlier, hnot, Ticks.advance_of_not_runsAway hnot hlt, by simp,
    by have := hblends.game_lt; omega, by omega⟩

/-- Plans at the same rates keep pace. -/
lemma Plans.streak {before : List TickCall}
    (h : Plans .zero (before ++ List.replicate n (.plan r true)) plans t) (hn : 0 < n)
    (hfits : ∀ c ∈ before ++ List.replicate n (.plan r true), c.Fits)
    (hcount : (before ++ List.replicate n (plan r true)).countP isPlan < 2 ^ 32)
    (hr : Ticks.interpolates r = true) (hlast : before.getLast? ≠ some (.plan r true)) :
    ∃ earlier s streak, Plans .zero before earlier s ∧ plans = earlier ++ streak ∧
      streak.length = n ∧ Streak r streak t := by
  have hblends := blends_of_fits (hfits (plan r true) (by simp [hn.ne'])) hr
  rw [List.countP_append, List.countP_replicate, if_pos (isPlan_plan r true)] at hcount
  obtain ⟨earlier, s, streak, hearlier, hstreak, rfl⟩ := plans_append.1 h
  have hrates := (hearlier.steady (fun c hc => hfits c (List.mem_append_left _ hc))
    (by omega)).2
  have hcounts : (s.restarted r).Counts r 0 :=
    Ticks.counts_restarted fun hs => hlast (hrates r hs)
  have hlt : (0 + n) * r.target < 2 ^ 64 := Ticks.logical_lt hblends (by omega)
  obtain ⟨streak', t', hstreak', hcounts', hlength, hsum, hgaps⟩ :=
    exists_plans_replicate hcounts hblends.toGains hlt
  obtain ⟨rfl, rfl⟩ := hstreak.unique hstreak'
  simp only [Nat.zero_add] at hcounts' hsum hgaps
  have hend := hcounts'.of_restarted hn hblends.toGains
  subst hlength
  refine ⟨earlier, s, streak', hearlier, rfl, rfl, hend.logical, hend.display, ?_, hgaps⟩
  simpa using hsum

/-- Fewer than `2 ^ 32` plans succeed, each with its images numbered in order. At no plan that
blends do the ticks run away, so that it gets at most the ticks of one workload and one image.
Plans at the same rates, one after the other, keep pace with the display. -/
theorem plans_keep_pace {calls : List TickCall} (hfits : ∀ c ∈ calls, c.Fits)
    (hcount : calls.countP isPlan < 2 ^ 32) :
    ∃ plans t, Plans .zero calls plans t ∧ (∀ p ∈ plans, Ticks.Numbered p) ∧
      (∀ before r after, calls = before ++ .plan r true :: after →
        Ticks.interpolates r = true →
        ∃ earlier s p, Plans .zero before earlier s ∧ ¬ (s.restarted r).RunsAway r ∧
          (s.restarted r).advance r =
            .ok { s.restarted r with logical := (s.restarted r).logical + r.target } ∧
          plans[earlier.length]? = some p ∧ 0 < p.tickGap ∧ p.tickGap ≤ r.target + r.game) ∧
      ∀ before r n, calls = before ++ List.replicate n (.plan r true) → 0 < n →
        Ticks.interpolates r = true → before.getLast? ≠ some (.plan r true) →
        ∃ earlier s streak, Plans .zero before earlier s ∧ plans = earlier ++ streak ∧
          streak.length = n ∧ Streak r streak t := by
  obtain ⟨plans, t, hplans, -, hnumbered, -⟩ := exists_plans_zero hfits hcount
  refine ⟨plans, t, hplans, hnumbered, ?_, ?_⟩
  · rintro before r after rfl hr
    exact hplans.bounded hfits hcount hr
  · rintro before r n rfl hn hr hlast
    exact hplans.streak hn hfits hcount hr hlast

/-- Seven workloads at 50 frames a second on a display of 144, after others at 30, a workload that
was passed through, and a reset. -/
theorem plans_keep_pace_seven :
    let before := [.plan ⟨50, 144⟩ true, .plan ⟨30, 144⟩ true, .plan ⟨60, 60⟩ true, .reset]
    let calls := before ++ List.replicate 7 (.plan ⟨50, 144⟩ true)
    (∀ c ∈ calls, c.Fits) ∧ calls.countP isPlan < 2 ^ 32 ∧
      ∃ earlier streak t, Plans .zero calls (earlier ++ streak) t ∧ streak.length = 7 ∧
        t.logical = 1008 ∧ t.display = 1000 ∧ (streak.map FramePlan.size).sum = 20 ∧
        streak[6]?.map FramePlan.tickGap = some 158 := by
  intro before calls
  have hfits : ∀ c ∈ calls, c.Fits := by decide
  have hcount : calls.countP isPlan < 2 ^ 32 := by decide
  obtain ⟨plans, t, hplans, -, -, hstreaks⟩ := plans_keep_pace hfits hcount
  obtain ⟨earlier, s, streak, -, rfl, hlength, hstreak⟩ :=
    hstreaks before ⟨50, 144⟩ 7 rfl (by decide) (by decide) (by decide)
  have hlast : streak[6]? = some streak[6] := List.getElem?_eq_getElem (by omega)
  refine ⟨hfits, hcount, earlier, streak, t, hplans, hlength, ?_, ?_, ?_, ?_⟩
  · rw [hstreak.logical, hlength]
    rfl
  · rw [hstreak.display, hlength]
    rfl
  · rw [hstreak.images, hlength]
    rfl
  · rw [hlast, Option.map_some, hstreak.gap 6 _ hlast]
    rfl

end TickCall

end Scanout
