import Mathlib.Algebra.GroupWithZero.Nat
import Mathlib.Algebra.Order.BigOperators.Group.List
import Scanout.Log.Limiter

/-!
# What a window remembers

The window of a category is what is left of the rulings on its messages. It holds the times of those
allowed in the last second, and it counts those dropped since the last report. So a message is
allowed exactly if few enough were in the second before, and every message dropped is reported once
or still counted. A report may follow another within a second, but only if in this second a message
is dropped and a later one allowed.
-/

namespace Scanout

/-- The last element of a sublist lies before the last element of the list, or is that element. -/
lemma sublist_concat_iff {α : Type} {before list : List α} {a last : α} :
    (before ++ [a]).Sublist (list ++ [last]) ↔
      (before ++ [a]).Sublist list ∨ before.Sublist list ∧ a = last := by
  constructor
  · intro hsub
    obtain ⟨early, late, hsplit, hearly, hlate⟩ := List.sublist_append_iff.mp hsub
    rcases List.sublist_singleton.mp hlate with rfl | rfl
    · rw [List.append_nil] at hsplit
      exact .inl (hsplit ▸ hearly)
    · obtain ⟨rfl, rfl⟩ := List.append_singleton_inj.mp hsplit
      exact .inr ⟨hearly, rfl⟩
  · rintro (hsub | ⟨hsub, rfl⟩)
    · exact hsub.trans (List.sublist_append_left _ _)
    · exact hsub.append_right _

/-- When a message wanted to be written, and what became of it. -/
structure Ruling where
  time : Nat
  verdict : LogWindow.Verdict
  deriving DecidableEq, Repr

namespace Ruling

def Allowed (r : Ruling) : Prop := r.verdict.allowed = true

instance (r : Ruling) : Decidable r.Allowed := inferInstanceAs (Decidable (_ = _))

/-- Dropped messages are reported with this one. -/
def Reports (r : Ruling) : Prop := r.verdict.report ≠ none

instance (r : Ruling) : Decidable r.Reports := inferInstanceAs (Decidable (_ ≠ _))

/-- The time lies in the second that ends now. -/
def inLastSecond (now time : Nat) : Bool := time ≤ now && now ≤ time + LogWindow.second

/-- The times of the messages allowed. -/
def allowedTimes (rs : List Ruling) : List Nat := (rs.filter fun r => r.Allowed).map time

/-- The number of messages dropped. -/
def drops (rs : List Ruling) : Nat := rs.countP fun r => ¬r.Allowed

/-- The number of dropped messages that were reported. -/
def reportedDrops (rs : List Ruling) : Nat := (rs.filterMap (·.verdict.report)).sum

/-- The times of the reports. -/
def reportTimes (rs : List Ruling) : List Nat := (rs.filter fun r => r.Reports).map time

variable {rs : List Ruling} {r : Ruling} {t : Nat}

lemma allowedTimes_concat :
    allowedTimes (rs ++ [r]) = allowedTimes rs ++ if r.Allowed then [r.time] else [] := by
  by_cases h : r.Allowed <;> simp [allowedTimes, h]

lemma drops_concat : drops (rs ++ [r]) = drops rs + if r.Allowed then 0 else 1 := by
  by_cases h : r.Allowed <;> simp [drops, h]

lemma reportedDrops_concat :
    reportedDrops (rs ++ [r]) = reportedDrops rs + r.verdict.report.getD 0 := by
  cases h : r.verdict.report <;> simp [reportedDrops, h]

lemma reportTimes_append {later : List Ruling} :
    reportTimes (rs ++ later) = reportTimes rs ++ reportTimes later := by
  simp [reportTimes]

lemma reportTimes_concat :
    reportTimes (rs ++ [r]) = reportTimes rs ++ if r.Reports then [r.time] else [] := by
  by_cases h : r.Reports <;> simp [reportTimes, h]

lemma mem_reportTimes : t ∈ reportTimes rs ↔ ∃ r ∈ rs, r.Reports ∧ r.time = t := by
  simp [reportTimes, and_assoc]

/-- A message is dropped, and nothing is reported from then on. -/
def HoldsBack (rs : List Ruling) : Prop :=
  ∃ before d later, rs = before ++ d :: later ∧ ¬d.Allowed ∧ ∀ r ∈ d :: later, ¬r.Reports

lemma not_holdsBack_nil : ¬HoldsBack [] := by
  rintro ⟨before, d, later, h, -⟩
  simp at h

/-- Dropped messages are held back after a ruling if it reports nothing, and they were held back
before or it drops its own. -/
lemma holdsBack_concat :
    HoldsBack (rs ++ [r]) ↔ ¬r.Reports ∧ (HoldsBack rs ∨ ¬r.Allowed) := by
  constructor
  · rintro ⟨before, d, later, h, hd, hlater⟩
    rcases later.eq_nil_or_concat with rfl | ⟨later, last, rfl⟩
    · obtain ⟨rfl, rfl⟩ := List.append_singleton_inj.mp h
      exact ⟨hlater _ List.mem_cons_self, .inr hd⟩
    · rw [List.concat_eq_append, ← List.cons_append] at h hlater
      rw [← List.append_assoc] at h
      obtain ⟨rfl, rfl⟩ := List.append_singleton_inj.mp h
      rw [List.forall_mem_append, List.forall_mem_singleton] at hlater
      exact ⟨hlater.2, .inl ⟨before, d, later, rfl, hd, hlater.1⟩⟩
  · rintro ⟨hr, ⟨before, d, later, rfl, hd, hlater⟩ | hdropped⟩
    · refine ⟨before, d, later ++ [r], by simp, hd, ?_⟩
      rw [← List.cons_append, List.forall_mem_append, List.forall_mem_singleton]
      exact ⟨hlater, hr⟩
    · exact ⟨rs, r, [], rfl, hdropped, by simpa using hr⟩

/-- Within a second of a report a message is dropped, and then one is allowed. -/
def CatchesUp (rs : List Ruling) : Prop :=
  ∃ s d a, [s, d, a].Sublist rs ∧ s.Reports ∧ ¬d.Allowed ∧ a.Allowed ∧
    a.time < s.time + LogWindow.second

/-- Any two reports are a second apart. -/
def ReportsApart (rs : List Ruling) : Prop :=
  (reportTimes rs).Pairwise fun earlier later => earlier + LogWindow.second ≤ later

lemma catchesUp_concat : CatchesUp (rs ++ [r]) ↔ CatchesUp rs ∨ r.Allowed ∧
    ∃ s d, [s, d].Sublist rs ∧ s.Reports ∧ ¬d.Allowed ∧ r.time < s.time + LogWindow.second := by
  constructor
  · rintro ⟨s, d, a, hsub, hs, hd, ha, htime⟩
    have hsub : ([s, d] ++ [a]).Sublist (rs ++ [r]) := hsub
    rcases sublist_concat_iff.mp hsub with hbefore | ⟨hbefore, rfl⟩
    · exact .inl ⟨s, d, a, hbefore, hs, hd, ha, htime⟩
    · exact .inr ⟨ha, s, d, hbefore, hs, hd, htime⟩
  · rintro (⟨s, d, a, hsub, h⟩ | ⟨ha, s, d, hsub, hs, hd, htime⟩)
    · exact ⟨s, d, a, hsub.trans (List.sublist_append_left _ _), h⟩
    · exact ⟨s, d, r, hsub.append_right [r], hs, hd, ha, htime⟩

lemma reportsApart_concat : ReportsApart (rs ++ [r]) ↔
    ReportsApart rs ∧ (r.Reports → ∀ s ∈ rs, s.Reports → s.time + LogWindow.second ≤ r.time) := by
  rw [ReportsApart, reportTimes_concat, List.pairwise_append]
  refine and_congr_right fun _ => ?_
  by_cases hr : r.Reports
  · rw [if_pos hr, and_iff_right (List.pairwise_singleton _ _), forall_prop_of_true hr]
    simp only [List.mem_singleton, forall_eq]
    constructor
    · intro h s hs hreports
      exact h s.time (mem_reportTimes.mpr ⟨s, hs, hreports, rfl⟩)
    · intro h t ht
      obtain ⟨s, hs, hreports, rfl⟩ := mem_reportTimes.mp ht
      exact h s hs hreports
  · simp [hr]

lemma ReportsApart.le_of_sublist {s e : Ruling} (h : ReportsApart rs) (hsub : [s, e].Sublist rs)
    (hs : s.Reports) (he : e.Reports) : s.time + LogWindow.second ≤ e.time := by
  have htimes : [s.time, e.time].Sublist (reportTimes rs) := by
    have hreports := (hsub.filter fun r => r.Reports).map time
    rwa [List.filter_eq_self.mpr (by simp [hs, he])] at hreports
  exact List.pairwise_iff_forall_sublist.mp h htimes

end Ruling

namespace LogWindow

open Ruling

variable {w : LogWindow} {now limit : Nat} {rs : List Ruling} {r : Ruling}

/-- What became of a message that wanted to be written. -/
def rule (w : LogWindow) (now limit : Nat) : Ruling := ⟨now, (w.offer now limit).1⟩

/-- A message is allowed or dropped, and what was dropped is reported or goes on being counted. -/
lemma offer_cases (w : LogWindow) (now limit : Nat) :
    (w.prune now).times.length < limit ∧ 0 < w.dropped ∧ w.offer now limit =
        (⟨true, some w.dropped⟩, ⟨(w.prune now).times ++ [now], 0, some now⟩) ∨
      (w.prune now).times.length < limit ∧ w.dropped = 0 ∧ w.offer now limit =
        (⟨true, none⟩, ⟨(w.prune now).times ++ [now], 0, w.lastReport⟩) ∨
      limit ≤ (w.prune now).times.length ∧ w.reportDue now = true ∧ w.offer now limit =
        (⟨false, some (w.dropped + 1)⟩, ⟨(w.prune now).times, 0, some now⟩) ∨
      limit ≤ (w.prune now).times.length ∧ w.reportDue now = false ∧ w.offer now limit =
        (⟨false, none⟩, ⟨(w.prune now).times, w.dropped + 1, w.lastReport⟩) := by
  by_cases hfew : (w.prune now).times.length < limit
  · rcases Nat.eq_zero_or_pos (w.prune now).dropped with hnone | hsome
    · refine .inr (.inl ⟨hfew, hnone, ?_⟩)
      simp only [offer, if_pos hfew, hnone, Nat.lt_irrefl, if_false]
      rfl
    · refine .inl ⟨hfew, hsome, ?_⟩
      simp only [offer, if_pos hfew, if_pos hsome]
      rfl
  · refine .inr (.inr ?_)
    have hfull := Nat.le_of_not_lt hfew
    cases hdue : { w.prune now with dropped := (w.prune now).dropped + 1 }.reportDue now with
    | true =>
      refine .inl ⟨hfull, hdue, ?_⟩
      simp only [offer, if_neg hfew, if_pos hdue]
      rfl
    | false =>
      refine .inr ⟨hfull, hdue, ?_⟩
      simp only [offer, if_neg hfew, hdue]
      rfl

lemma rule_allowed_iff : (w.rule now limit).Allowed ↔ (w.prune now).times.length < limit := by
  rcases w.offer_cases now limit with ⟨h, -, ho⟩ | ⟨h, -, ho⟩ | ⟨h, -, ho⟩ | ⟨h, -, ho⟩
  all_goals
    simp only [rule, Allowed, ho, true_iff, Bool.false_eq_true, false_iff, Nat.not_lt]
    exact h

lemma times_offer : (w.offer now limit).2.times =
    (w.prune now).times ++ if (w.rule now limit).Allowed then [now] else [] := by
  rcases w.offer_cases now limit with ⟨-, -, ho⟩ | ⟨-, -, ho⟩ | ⟨-, -, ho⟩ | ⟨-, -, ho⟩
  all_goals simp [rule, Allowed, ho]

/-- What is dropped is either reported or counted. -/
lemma dropped_offer :
    (w.rule now limit).verdict.report.getD 0 + (w.offer now limit).2.dropped =
      w.dropped + if (w.rule now limit).Allowed then 0 else 1 := by
  rcases w.offer_cases now limit with ⟨-, -, ho⟩ | ⟨-, hnone, ho⟩ | ⟨-, -, ho⟩ | ⟨-, -, ho⟩
  · simp [rule, Allowed, ho]
  · simp [rule, Allowed, ho, hnone]
  · simp [rule, Allowed, ho]
  · simp [rule, Allowed, ho]

lemma lastReport_offer : (w.offer now limit).2.lastReport =
    if (w.rule now limit).Reports then some now else w.lastReport := by
  rcases w.offer_cases now limit with ⟨-, -, ho⟩ | ⟨-, -, ho⟩ | ⟨-, -, ho⟩ | ⟨-, -, ho⟩
  all_goals simp [rule, Reports, ho]

/-- Drops are counted after a ruling if it reports nothing, and there were some before or it drops
its own. -/
lemma dropped_offer_pos : 0 < (w.offer now limit).2.dropped ↔
    ¬(w.rule now limit).Reports ∧ (0 < w.dropped ∨ ¬(w.rule now limit).Allowed) := by
  rcases w.offer_cases now limit with ⟨-, -, ho⟩ | ⟨-, hnone, ho⟩ | ⟨-, -, ho⟩ | ⟨-, -, ho⟩
  · simp [rule, Reports, Allowed, ho]
  · simp [rule, Reports, Allowed, ho, hnone]
  · simp [rule, Reports, Allowed, ho]
  · simp [rule, Reports, Allowed, ho]

/-- With a message that is allowed, all drops are reported. -/
lemma rule_reports_of_allowed (h : (w.rule now limit).Allowed) :
    (w.rule now limit).Reports ↔ 0 < w.dropped := by
  rcases w.offer_cases now limit with ⟨-, hsome, ho⟩ | ⟨-, hnone, ho⟩ | ⟨-, -, ho⟩ | ⟨-, -, ho⟩
  · exact iff_of_true (by simp [rule, Reports, ho]) hsome
  · exact iff_of_false (by simp [rule, Reports, ho]) (Nat.not_lt_of_le (Nat.le_of_eq hnone))
  · simp [rule, Allowed, ho] at h
  · simp [rule, Allowed, ho] at h

/-- With a message that is dropped, drops are reported only if this is due. -/
lemma reportDue_of_dropped (h : ¬(w.rule now limit).Allowed)
    (hreports : (w.rule now limit).Reports) : w.reportDue now = true := by
  rcases w.offer_cases now limit with ⟨-, -, ho⟩ | ⟨-, -, ho⟩ | ⟨-, hdue, -⟩ | ⟨-, -, ho⟩
  · simp [rule, Allowed, ho] at h
  · simp [rule, Allowed, ho] at h
  · exact hdue
  · simp [rule, Reports, ho] at hreports

/-- The rulings on messages in the order of their times, and the window that they leave. -/
inductive Past : List Ruling → LogWindow → Prop
  | new : Past [] .new
  | offer {rs : List Ruling} {w : LogWindow} (before : Past rs w) {now : Nat} (limit : Nat)
      (ordered : ∀ r ∈ rs, r.time ≤ now) : Past (rs ++ [w.rule now limit]) (w.offer now limit).2

/-- Of times in order, those of the last second are the ones after the first of them. -/
lemma times_prune (h : w.times.Pairwise (· ≤ ·)) (hpast : ∀ t ∈ w.times, t ≤ now) :
    (w.prune now).times = w.times.filter (inLastSecond now) := by
  obtain ⟨times, dropped, lastReport⟩ := w
  simp only [prune] at h hpast ⊢
  induction times with
  | nil => rfl
  | cons t times ih =>
    rw [List.pairwise_cons] at h
    by_cases hold : second < now - t
    · have hout : inLastSecond now t = false := by
        simp only [inLastSecond, Bool.and_eq_false_iff, decide_eq_false_iff_not]
        omega
      rw [List.dropWhile_cons_of_pos (by simpa using hold),
        List.filter_cons_of_neg (by simp [hout])]
      exact ih h.2 fun t' ht' => hpast t' (List.mem_cons_of_mem _ ht')
    · rw [List.dropWhile_cons_of_neg (by simpa using hold), eq_comm, List.filter_eq_self]
      intro t' ht'
      have hnow : t' ≤ now := hpast t' ht'
      have hle : t ≤ t' := by
        rcases List.mem_cons.mp ht' with rfl | ht'
        · exact Nat.le_refl _
        · exact h.1 t' ht'
      simp only [inLastSecond, Bool.and_eq_true, decide_eq_true_iff]
      omega

namespace Past

lemma times_sublist (h : Past rs w) : w.times.Sublist (allowedTimes rs) := by
  induction h with
  | new => exact List.Sublist.refl _
  | offer before limit ordered ih =>
    rw [times_offer, allowedTimes_concat]
    exact ((List.dropWhile_sublist _).trans ih).append_right _

lemma times_le (h : Past rs w) (ordered : ∀ r ∈ rs, r.time ≤ now) : ∀ t ∈ w.times, t ≤ now := by
  intro t ht
  obtain ⟨r, hr, rfl⟩ := List.mem_map.mp (h.times_sublist.subset ht)
  exact ordered r (List.mem_of_mem_filter hr)

lemma pairwise_times (h : Past rs w) : w.times.Pairwise (· ≤ ·) := by
  induction h with
  | new => exact List.Pairwise.nil
  | @offer rs w before now limit ordered ih =>
    rw [times_offer]
    have hkept : (w.prune now).times.Sublist w.times := List.dropWhile_sublist _
    split
    · rw [List.pairwise_append]
      refine ⟨ih.sublist hkept, List.pairwise_singleton _ _, ?_⟩
      simpa using fun t ht => before.times_le ordered t (hkept.subset ht)
    · rw [List.append_nil]
      exact ih.sublist hkept

/-- What is kept are the times of the last second at which a message was allowed. -/
lemma times_prune (h : Past rs w) (ordered : ∀ r ∈ rs, r.time ≤ now) :
    (w.prune now).times = (allowedTimes rs).filter (inLastSecond now) := by
  rw [LogWindow.times_prune h.pairwise_times (h.times_le ordered)]
  induction h generalizing now with
  | new => rfl
  | @offer rs w before earlier limit hbefore ih =>
    rw [List.forall_mem_append, List.forall_mem_singleton] at ordered
    -- What was outside the last second earlier is so now.
    have hlater : ∀ t, inLastSecond now t = true → t ≤ earlier → inLastSecond earlier t = true := by
      intro t ht hle
      have hnow : earlier ≤ now := ordered.2
      simp only [inLastSecond, Bool.and_eq_true, decide_eq_true_iff] at ht ⊢
      omega
    rw [times_offer, allowedTimes_concat, List.filter_append, List.filter_append,
      LogWindow.times_prune before.pairwise_times (before.times_le hbefore), ih hbefore,
      List.filter_filter]
    congr 1
    apply List.filter_congr
    intro t ht
    obtain ⟨r, hr, rfl⟩ := List.mem_map.mp ht
    have hle := hbefore r (List.mem_of_mem_filter hr)
    rw [Bool.eq_iff_iff, Bool.and_eq_true]
    exact ⟨fun h => h.1, fun h => ⟨h, hlater _ h hle⟩⟩

/-- A message is allowed if fewer were in the last second than may be. -/
lemma rule_allowed_iff (h : Past rs w) (ordered : ∀ r ∈ rs, r.time ≤ now) :
    (w.rule now limit).Allowed ↔ (allowedTimes rs).countP (inLastSecond now) < limit := by
  rw [LogWindow.rule_allowed_iff, h.times_prune ordered, List.countP_eq_length_filter]

/-- Every message dropped was reported once, or is still counted. -/
lemma drops_eq (h : Past rs w) : drops rs = reportedDrops rs + w.dropped := by
  induction h with
  | new => rfl
  | @offer rs w before now limit ordered ih =>
    have hstep : (w.rule now limit).verdict.report.getD 0 + (w.offer now limit).2.dropped =
        w.dropped + if (w.rule now limit).Allowed then 0 else 1 := dropped_offer
    rw [drops_concat, reportedDrops_concat]
    omega

lemma lastReport_eq (h : Past rs w) : w.lastReport = (reportTimes rs).getLast? := by
  induction h with
  | new => rfl
  | @offer rs w before now limit ordered ih =>
    rw [lastReport_offer, reportTimes_concat]
    split
    · rw [List.getLast?_concat]
      rfl
    · rw [List.append_nil]
      exact ih

/-- Drops are counted while there are some that were not reported. -/
lemma dropped_pos_iff (h : Past rs w) : 0 < w.dropped ↔ HoldsBack rs := by
  induction h with
  | new => exact iff_of_false (Nat.lt_irrefl 0) not_holdsBack_nil
  | offer before limit ordered ih => rw [dropped_offer_pos, holdsBack_concat, ih]

lemma pairwise_time (h : Past rs w) : (rs.map time).Pairwise (· ≤ ·) := by
  induction h with
  | new => exact List.Pairwise.nil
  | offer before limit ordered ih =>
    rw [List.map_append, List.pairwise_append]
    exact ⟨ih, List.pairwise_singleton _ _, by simpa [rule] using ordered⟩

/-- A report that comes with a dropped message is a second after all others. -/
lemma report_le_of_dropped (h : Past rs w) (hdropped : ¬(w.rule now limit).Allowed)
    (hreports : (w.rule now limit).Reports) : ∀ s ∈ rs, s.Reports → s.time + second ≤ now := by
  intro s hs hsreports
  have hmem : s.time ∈ reportTimes rs := mem_reportTimes.mpr ⟨s, hs, hsreports, rfl⟩
  have hordered : (reportTimes rs).Pairwise (· ≤ ·) :=
    h.pairwise_time.sublist (List.filter_sublist.map _)
  have hdue := reportDue_of_dropped hdropped hreports
  rw [reportDue, h.lastReport_eq] at hdue
  obtain ⟨earlier, last, hlast⟩ := (reportTimes rs).eq_nil_or_concat.resolve_left
    (List.ne_nil_of_mem hmem)
  rw [List.concat_eq_append] at hlast
  rw [hlast] at hmem hordered hdue
  have hle : s.time ≤ last := by
    rcases List.mem_append.mp hmem with hmem | hmem
    · exact (List.pairwise_append.mp hordered).2.2 _ hmem last List.mem_cons_self
    · exact Nat.le_of_eq (List.mem_singleton.mp hmem)
  rw [List.getLast?_concat, Option.all_some, decide_eq_true_iff] at hdue
  have hpos : 0 < second := by decide
  omega

/-- Of two reports within a second the later comes with a message that is allowed. -/
lemma allowed_of_near (h : Past rs w) {s e : Ruling} (hsub : [s, e].Sublist rs) (hs : s.Reports)
    (he : e.Reports) (hnear : e.time < s.time + second) : e.Allowed := by
  induction h with
  | new => exact absurd (List.eq_nil_of_sublist_nil hsub) (List.cons_ne_nil _ _)
  | @offer rs w before now limit ordered ih =>
    have hsub : ([s] ++ [e]).Sublist (rs ++ [w.rule now limit]) := hsub
    rcases sublist_concat_iff.mp hsub with hbefore | ⟨hbefore, rfl⟩
    · exact ih hbefore
    · by_contra hdropped
      exact absurd hnear (Nat.not_lt_of_le (before.report_le_of_dropped hdropped he s
        (List.singleton_sublist.mp hbefore) hs))

/-- What is dropped after a report and not held back was reported again. -/
lemma reports_of_not_holdsBack {s d : Ruling} (hsub : [s, d].Sublist rs) (hd : ¬d.Allowed)
    (hnone : ¬HoldsBack rs) : ∃ e, [s, e].Sublist rs ∧ e.Reports := by
  obtain ⟨before, later, rfl, hs, hlater⟩ := List.cons_sublist_iff.mp hsub
  obtain ⟨middle, after, rfl⟩ := List.append_of_mem (List.singleton_sublist.mp hlater)
  by_contra hno
  refine hnone ⟨before ++ middle, d, after, by simp, hd, ?_⟩
  intro e he hreports
  refine hno ⟨e, ?_, hreports⟩
  exact List.cons_sublist_iff.mpr ⟨before, _, rfl, hs,
    List.singleton_sublist.mpr (List.mem_append_right _ he)⟩

/-- Reports are a second apart unless the window catches up within a second of one. -/
lemma reportsApart_iff (h : Past rs w) : ReportsApart rs ↔ ¬CatchesUp rs := by
  induction h with
  | new => exact iff_of_true List.Pairwise.nil (by simp [CatchesUp])
  | @offer rs w before now limit ordered ih =>
    rw [reportsApart_concat, catchesUp_concat, not_or, ih]
    refine and_congr_right fun hapart => ?_
    rw [← ih] at hapart
    by_cases hallowed : (w.rule now limit).Allowed
    · rw [rule_reports_of_allowed hallowed, before.dropped_pos_iff]
      constructor
      · rintro hfar ⟨-, s, d, hsub, hs, hd, htime⟩
        by_cases hheld : HoldsBack rs
        · exact absurd htime (Nat.not_lt_of_le
            (hfar hheld s (hsub.subset List.mem_cons_self) hs))
        · obtain ⟨e, hse, he⟩ := reports_of_not_holdsBack hsub hd hheld
          have hle : e.time ≤ now := ordered e (hse.subset (by simp))
          exact absurd htime (Nat.not_lt_of_le (Nat.le_trans (hapart.le_of_sublist hse hs he) hle))
      · rintro hnone ⟨earlier, d, later, rfl, hd, hlater⟩ s hs hreports
        refine Nat.le_of_not_lt fun htime => hnone ⟨hallowed, s, d, ?_, hreports, hd, htime⟩
        have hearlier : s ∈ earlier := by
          rcases List.mem_append.mp hs with hs | hs
          · exact hs
          · exact absurd hreports (hlater s hs)
        exact (List.singleton_sublist.mpr hearlier).append
          (List.singleton_sublist.mpr List.mem_cons_self)
    · refine iff_of_true ?_ fun h => hallowed h.1
      intro hreports
      exact before.report_le_of_dropped hallowed hreports

end Past

end LogWindow

end Scanout
