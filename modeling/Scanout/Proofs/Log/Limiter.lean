import Mathlib.Data.List.Induction
import Scanout.Proofs.Log.Window

/-!
# Messages of all categories

A limiter has a window for each category and one limit, which may be changed at any time. The
messages of a category are judged as if there were no others: one is allowed exactly if fewer than
the limit were in the second that ends with it. And no drop is lost or counted twice.
-/

namespace Scanout

/-- What is asked of a limiter. -/
inductive LimiterCall where
  | offer (category : Category) (now : Nat)
  | setLimit (limit : Nat)
  deriving DecidableEq, Repr

namespace LimiterCall

def time? : LimiterCall → Option Nat
  | .offer _ now => some now
  | .setLimit _ => none

def limit? : LimiterCall → Option Nat
  | .offer .. => none
  | .setLimit limit => some limit

/-- The call is no message of another category. -/
def concerns (c : Category) : LimiterCall → Bool
  | .offer category _ => category = c
  | .setLimit _ => true

/-- Time does not run back. -/
def Chronological (calls : List LimiterCall) : Prop := (calls.filterMap time?).Pairwise (· ≤ ·)

instance (calls : List LimiterCall) : Decidable (Chronological calls) :=
  inferInstanceAs (Decidable (List.Pairwise _ _))

/-- The limit that was set last. -/
def limitAfter (limit : Nat) (calls : List LimiterCall) : Nat :=
  (calls.filterMap limit?).getLast?.getD limit

end LimiterCall

namespace LogLimiter

open LimiterCall Ruling

variable {l l' : LogLimiter} {c : Category} {calls : List LimiterCall} {call : LimiterCall}
  {limit now : Nat}

def perform (l : LogLimiter) : LimiterCall → LogLimiter
  | .offer category now => (l.offer category now).2
  | .setLimit limit => { l with limit }

def after (l : LogLimiter) (calls : List LimiterCall) : LogLimiter := calls.foldl perform l

/-- What becomes of a message of the category. -/
def ruling? (l : LogLimiter) (c : Category) : LimiterCall → Option Ruling
  | .offer category now => if category = c then some ⟨now, (l.offer category now).1⟩ else none
  | .setLimit _ => none

/-- What becomes of the messages of a category. -/
def rulings (l : LogLimiter) (c : Category) : List LimiterCall → List Ruling
  | [] => []
  | call :: calls => (l.ruling? c call).toList ++ (l.perform call).rulings c calls

@[simp] lemma after_concat : l.after (calls ++ [call]) = (l.after calls).perform call := by
  simp [after]

lemma rulings_append {later : List LimiterCall} :
    l.rulings c (calls ++ later) = l.rulings c calls ++ (l.after calls).rulings c later := by
  induction calls generalizing l with
  | nil => rfl
  | cons first calls ih => simp [rulings, ih, after]

lemma rulings_concat : l.rulings c (calls ++ [call]) =
    l.rulings c calls ++ ((l.after calls).ruling? c call).toList := by
  rw [rulings_append, rulings, rulings, List.append_nil]

lemma limit_after : (l.after calls).limit = limitAfter l.limit calls := by
  induction calls using List.reverseRecOn with
  | nil => rfl
  | append_singleton calls call ih =>
    rw [after_concat, limitAfter, List.filterMap_append]
    cases call with
    | offer category now =>
      rw [List.filterMap_cons_none rfl, List.filterMap_nil, List.append_nil]
      exact ih
    | setLimit limit =>
      have hset : [setLimit limit].filterMap limit? = [limit] := rfl
      rw [hset, List.getLast?_concat]
      rfl

lemma window_offer_self : (l.offer c now).2.windows c = ((l.windows c).offer now l.limit).2 :=
  if_pos rfl

lemma window_offer_of_ne {category : Category} (h : category ≠ c) :
    (l.offer category now).2.windows c = l.windows c :=
  if_neg (Ne.symm h)

lemma time_mem {r : Ruling} (h : r ∈ l.rulings c calls) : r.time ∈ calls.filterMap time? := by
  induction calls using List.reverseRecOn with
  | nil => exact absurd h List.not_mem_nil
  | append_singleton calls call ih =>
    rw [rulings_concat, List.mem_append] at h
    rw [List.filterMap_append, List.mem_append]
    rcases h with h | h
    · exact .inl (ih h)
    · cases call with
      | offer category now =>
        rw [ruling?] at h
        split at h
        · obtain rfl := List.mem_singleton.mp h
          exact .inr (by simp [time?])
        · exact absurd h List.not_mem_nil
      | setLimit limit => exact absurd h List.not_mem_nil

/-- The window of a category is what is left of the rulings on its messages. -/
lemma past_after (h : Chronological calls) :
    LogWindow.Past ((new limit).rulings c calls) (((new limit).after calls).windows c) := by
  induction calls using List.reverseRecOn with
  | nil => exact .new
  | append_singleton calls call ih =>
    rw [Chronological, List.filterMap_append, List.pairwise_append] at h
    obtain ⟨hbefore, -, hordered⟩ := h
    rw [rulings_concat, after_concat]
    cases call with
    | offer category now =>
      rw [ruling?, perform]
      by_cases hown : category = c
      · subst hown
        rw [if_pos rfl, window_offer_self]
        refine (ih hbefore).offer _ fun r hr => ?_
        exact hordered _ (time_mem hr) now (by simp [time?])
      · rw [if_neg hown, window_offer_of_ne hown, Option.toList_none, List.append_nil]
        exact ih hbefore
    | setLimit limit =>
      rw [ruling?, Option.toList_none, List.append_nil]
      exact ih hbefore

/-- Two limiters cannot be told apart by messages of a category. -/
structure SameFor (c : Category) (l l' : LogLimiter) : Prop where
  limit : l.limit = l'.limit
  window : l.windows c = l'.windows c

namespace SameFor

lemma offer_fst (h : SameFor c l l') : (l.offer c now).1 = (l'.offer c now).1 := by
  simp only [LogLimiter.offer, h.limit, h.window]

lemma ruling? (h : SameFor c l l') : l.ruling? c call = l'.ruling? c call := by
  cases call with
  | offer category now =>
    simp only [LogLimiter.ruling?]
    split
    · rename_i hown
      rw [hown, h.offer_fst]
    · rfl
  | setLimit limit => rfl

lemma perform (h : SameFor c l l') : SameFor c (l.perform call) (l'.perform call) := by
  cases call with
  | offer category now =>
    refine ⟨h.limit, ?_⟩
    by_cases hown : category = c
    · subst hown
      rw [LogLimiter.perform, LogLimiter.perform, window_offer_self, window_offer_self, h.limit,
        h.window]
    · rw [LogLimiter.perform, LogLimiter.perform, window_offer_of_ne hown,
        window_offer_of_ne hown, h.window]
  | setLimit limit => exact ⟨rfl, h.window⟩

/-- A message of another category changes nothing for this one. -/
lemma skip (h : SameFor c l l') (hother : call.concerns c = false) :
    SameFor c (l.perform call) l' ∧ l.ruling? c call = none := by
  cases call with
  | offer category now =>
    have hne : category ≠ c := of_decide_eq_false hother
    exact ⟨⟨h.limit, (window_offer_of_ne hne).trans h.window⟩, if_neg hne⟩
  | setLimit limit => cases hother

/-- Messages of other categories can be left out. -/
lemma filter_concerns (h : SameFor c l l') :
    l'.rulings c (calls.filter (concerns c)) = l.rulings c calls ∧
      SameFor c (l.after calls) (l'.after (calls.filter (concerns c))) := by
  induction calls generalizing l l' with
  | nil => exact ⟨rfl, h⟩
  | cons call calls ih =>
    cases hown : call.concerns c with
    | true =>
      rw [List.filter_cons_of_pos hown, rulings, rulings, h.ruling?, (ih h.perform).1]
      exact ⟨rfl, (ih h.perform).2⟩
    | false =>
      obtain ⟨hskip, hnone⟩ := h.skip hown
      rw [List.filter_cons_of_neg (by simp [hown]), rulings, hnone, (ih hskip).1]
      exact ⟨rfl, (ih hskip).2⟩

end SameFor

/-- A message of a category is allowed exactly if in the second that ends with it fewer of them were
allowed than the limit in force. Messages of other categories have no influence on what becomes of
these. And of these as many were dropped as were reported and are still counted. -/
theorem judged_by_last_second (limit : Nat) (calls : List LimiterCall) (c : Category) (now : Nat)
    (h : Chronological (calls ++ [.offer c now])) :
    let past := (new limit).rulings c calls
    let verdict := (((new limit).after calls).offer c now).1
    (verdict.allowed = true ↔
        (allowedTimes past).countP (inLastSecond now) < limitAfter limit calls) ∧
      ((new limit).rulings c (calls.filter (concerns c)) = past ∧
        (((new limit).after (calls.filter (concerns c))).offer c now).1 = verdict) ∧
      drops past = reportedDrops past + (((new limit).after calls).windows c).dropped := by
  rw [Chronological, List.filterMap_append, List.pairwise_append] at h
  have hpast : LogWindow.Past ((new limit).rulings c calls) (((new limit).after calls).windows c) :=
    past_after h.1
  have hordered : ∀ r ∈ (new limit).rulings c calls, r.time ≤ now := fun r hr =>
    h.2.2 _ (time_mem hr) now (by simp [time?])
  have hsame : SameFor c (new limit) (new limit) := ⟨rfl, rfl⟩
  have hlimit : ((new limit).after calls).limit = limitAfter limit calls := limit_after
  refine ⟨?_, ⟨hsame.filter_concerns.1, hsame.filter_concerns.2.offer_fst.symm⟩, hpast.drops_eq⟩
  rw [← hlimit]
  exact hpast.rule_allowed_iff hordered

/-- Two messages of a category at once, of which one is allowed, and two more after the limit was
raised, of which one is allowed. -/
def fullSecond : List LimiterCall :=
  [.offer .workload 0, .offer .workload 0, .offer .present 0, .setLimit 2,
    .offer .workload 999999999, .offer .workload 999999999]

/-- The first message still counts when a full second has passed, so the next one is dropped. Of the
two dropped before one was reported, and the other is still counted. -/
theorem full_second_counts :
    Chronological (fullSecond ++ [.offer .workload 1000000000]) ∧
      (((new 1).after fullSecond).offer .workload 1000000000).1.allowed = false ∧
      drops ((new 1).rulings .workload fullSecond) = 1 + 1 := by
  have hordered : Chronological (fullSecond ++ [.offer .workload 1000000000]) := by decide
  obtain ⟨hallowed, -, hdrops⟩ := judged_by_last_second 1 fullSecond .workload 1000000000 hordered
  refine ⟨hordered, ?_, ?_⟩
  · rw [Bool.eq_false_iff, ne_eq, hallowed]
    decide
  · rw [hdrops]
    decide

end LogLimiter

end Scanout
