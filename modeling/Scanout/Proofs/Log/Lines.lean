import Scanout.Proofs.Log.Limiter

/-!
# Lines of a log

A log writes a line for each message that is wanted and allowed, and before it, or in its place, a
summary whenever dropped messages are reported. Summaries of a category are a second apart as long
as no message of it is let through after another was dropped within a second of a summary: a summary
that comes with a dropped message waits for its second, one that comes with an allowed message does
not.
-/

namespace Scanout

/-- What is asked of a log. -/
inductive LogCall where
  | log (now : Nat) (category : Category) (level : Level) (text : String)
  | setLimit (limit : Nat)
  | setGlobal (level : Level)
  | setCategory (category : Category) (level : Level)
  deriving DecidableEq, Repr

/-- A line of a log, with the time at which it was written. -/
inductive LogLine where
  | summary (time : Nat) (category : Category) (count : Nat)
  | message (time : Nat) (category : Category) (text : String)
  deriving DecidableEq, Repr

namespace LogLine

def text : LogLine → String
  | .summary _ category count => s!"[{category.name}] {Log.dropReport count}"
  | .message _ category text => s!"[{category.name}] {text}"

/-- The time of a summary of the category. -/
def summaryTime? (c : Category) : LogLine → Option Nat
  | .summary time category _ => if category = c then some time else none
  | .message .. => none

end LogLine

namespace LogCall

def time? : LogCall → Option Nat
  | .log now .. => some now
  | _ => none

/-- Time does not run back. -/
def Chronological (calls : List LogCall) : Prop := (calls.filterMap time?).Pairwise (· ≤ ·)

instance (calls : List LogCall) : Decidable (Chronological calls) :=
  inferInstanceAs (Decidable (List.Pairwise _ _))

/-- What the limiter is asked, if the filter lets it be. -/
def limiterCall? (f : LogFilter) : LogCall → Option LimiterCall
  | .log now category level _ => if f.wants category level then some (.offer category now) else none
  | .setLimit limit => some (.setLimit limit)
  | .setGlobal _ | .setCategory .. => none

end LogCall

namespace LogFilter

def perform (f : LogFilter) : LogCall → LogFilter
  | .setGlobal level => f.setGlobal level
  | .setCategory category level => f.setCategory category level
  | .log .. | .setLimit _ => f

/-- What the limiter is asked behind the filter. -/
def limiterCalls (f : LogFilter) : List LogCall → List LimiterCall
  | [] => []
  | call :: calls => (call.limiterCall? f).toList ++ (f.perform call).limiterCalls calls

end LogFilter

namespace Log

open LogCall LogLine Ruling

variable {l : Log} {c : Category} {call : LogCall} {calls : List LogCall} {f : LogFilter}

def perform (l : Log) : LogCall → Log
  | .log now category level text => (l.log now category level fun _ => text).2
  | .setLimit limit => { l with limiter := { l.limiter with limit } }
  | .setGlobal level => { l with filter := l.filter.setGlobal level }
  | .setCategory category level => { l with filter := l.filter.setCategory category level }

def after (l : Log) (calls : List LogCall) : Log := calls.foldl perform l

/-- The lines that a call adds, the first one first. -/
def linesOf (l : Log) : LogCall → List LogLine
  | .log now category level text =>
    if l.filter.wants category level then
      let verdict := (l.limiter.offer category now).1
      (verdict.report.toList.map fun count => .summary now category count) ++
        if verdict.allowed then [.message now category text] else []
    else []
  | .setLimit _ | .setGlobal _ | .setCategory .. => []

/-- The lines that calls add. -/
def linesAfter (l : Log) : List LogCall → List LogLine
  | [] => []
  | call :: calls => l.linesOf call ++ (l.perform call).linesAfter calls

/-- What becomes of the messages of a category that are wanted. -/
def rulings (l : Log) (c : Category) (calls : List LogCall) : List Ruling :=
  l.limiter.rulings c (l.filter.limiterCalls calls)

/-- The times of the summaries of a category. -/
def summaryTimes (l : Log) (c : Category) (calls : List LogCall) : List Nat :=
  (l.linesAfter calls).filterMap (summaryTime? c)

/-- Only drops are reported. -/
lemma report_pos {w : LogWindow} {now limit count : Nat}
    (h : (w.offer now limit).1.report = some count) : 0 < count := by
  rcases w.offer_cases now limit with ⟨-, hd, ho⟩ | ⟨-, -, ho⟩ | ⟨-, -, ho⟩ | ⟨-, -, ho⟩
  all_goals rw [ho] at h
  · exact Option.some.inj h ▸ hd
  · cases h
  · exact Option.some.inj h ▸ Nat.succ_pos _
  · cases h

/-- A call goes through the filter to the limiter, and puts the texts of its lines on top. -/
lemma perform_eq (l : Log) (call : LogCall) : l.perform call =
    ⟨l.filter.perform call, l.limiter.after (call.limiterCall? l.filter).toList,
      ((l.linesOf call).map text).reverse ++ l.lines⟩ := by
  cases call with
  | log now category level message =>
    have hpos : ∀ count, (l.limiter.offer category now).1.report = some count → 0 < count :=
      fun _ => report_pos
    simp only [perform, log, linesOf, limiterCall?]
    cases l.filter.wants category level with
    | false => rfl
    | true =>
      have hafter : l.limiter.after [.offer category now] = (l.limiter.offer category now).2 := rfl
      rw [if_neg (by decide), if_pos rfl, if_pos rfl, Option.toList_some, hafter]
      rcases ho : l.limiter.offer category now with ⟨⟨allowed, report⟩, limiter⟩
      rw [ho] at hpos
      cases report with
      | none => cases allowed <;> rfl
      | some count =>
        simp only [if_pos (hpos count rfl)]
        cases allowed <;> rfl
  | setLimit limit => rfl
  | setGlobal level => rfl
  | setCategory category level => rfl

/-- A log holds the texts of its lines, the latest first. -/
lemma lines_after :
    (l.after calls).lines.reverse = l.lines.reverse ++ (l.linesAfter calls).map text := by
  induction calls generalizing l with
  | nil => simp [after, linesAfter]
  | cons call calls ih =>
    have hlines : (l.perform call).lines = ((l.linesOf call).map text).reverse ++ l.lines := by
      rw [perform_eq]
    rw [after, List.foldl_cons, ← after, ih, hlines]
    simp [linesAfter]

/-- A summary is written whenever dropped messages are reported. -/
lemma summaryTimes_linesOf : (l.linesOf call).filterMap (summaryTime? c) =
    reportTimes (l.limiter.rulings c (call.limiterCall? l.filter).toList) := by
  cases call with
  | log now category level message =>
    simp only [linesOf, limiterCall?]
    cases l.filter.wants category level with
    | false => rfl
    | true =>
      rw [if_pos rfl, if_pos rfl, Option.toList_some, LogLimiter.rulings, LogLimiter.rulings,
        LogLimiter.ruling?]
      rcases (l.limiter.offer category now).1 with ⟨allowed, report⟩
      by_cases hown : category = c <;> cases report <;> cases allowed <;>
        simp [hown, summaryTime?, reportTimes, Reports]
  | setLimit limit => rfl
  | setGlobal level => rfl
  | setCategory category level => rfl

lemma rulings_cons : l.rulings c (call :: calls) =
    l.limiter.rulings c (call.limiterCall? l.filter).toList ++
      (l.perform call).rulings c calls := by
  rw [rulings, rulings, perform_eq, LogFilter.limiterCalls, LogLimiter.rulings_append]

/-- The summaries of a category are the reports on its messages. -/
lemma summaryTimes_eq : l.summaryTimes c calls = reportTimes (l.rulings c calls) := by
  induction calls generalizing l with
  | nil => rfl
  | cons call calls ih =>
    rw [rulings_cons, reportTimes_append, ← ih, ← summaryTimes_linesOf, summaryTimes, linesAfter,
      List.filterMap_append]
    rfl

lemma times_limiterCall : ((call.limiterCall? f).toList.filterMap LimiterCall.time?).Sublist
    ([call].filterMap time?) := by
  cases call with
  | log now category level text =>
    rw [limiterCall?]
    split
    · exact List.Sublist.refl _
    · exact List.nil_sublist _
  | setLimit limit => exact List.Sublist.refl _
  | setGlobal level => exact List.Sublist.refl _
  | setCategory category level => exact List.Sublist.refl _

/-- The filter may leave messages out, but keeps their order. -/
lemma times_limiterCalls : ((f.limiterCalls calls).filterMap LimiterCall.time?).Sublist
    (calls.filterMap time?) := by
  induction calls generalizing f with
  | nil => exact List.Sublist.refl _
  | cons call calls ih =>
    rw [LogFilter.limiterCalls, List.filterMap_append, ← List.singleton_append,
      List.filterMap_append]
    exact times_limiterCall.append ih

/-- Summaries of a category are lines of the log. Of two of them within a second, the later comes
with a message that is allowed. And they are all a second apart exactly if no message of the
category is allowed after another was dropped within a second of a summary. -/
theorem summaries_apart_iff (filter : LogFilter) (limit : Nat) (calls : List LogCall)
    (h : Chronological calls) (c : Category) :
    let l : Log := ⟨filter, .new limit, []⟩
    (l.after calls).lines.reverse = (l.linesAfter calls).map text ∧
      (∀ s e, [s, e].Sublist (l.rulings c calls) → s.Reports → e.Reports →
        e.time < s.time + LogWindow.second → e.Allowed) ∧
      ((l.summaryTimes c calls).Pairwise (fun earlier later => earlier + LogWindow.second ≤ later) ↔
        ¬CatchesUp (l.rulings c calls)) := by
  have hpast : LogWindow.Past ((LogLimiter.new limit).rulings c (filter.limiterCalls calls))
      (((LogLimiter.new limit).after (filter.limiterCalls calls)).windows c) :=
    LogLimiter.past_after (List.Pairwise.sublist times_limiterCalls h)
  refine ⟨lines_after, fun s e => hpast.allowed_of_near, ?_⟩
  rw [summaryTimes_eq]
  exact hpast.reportsApart_iff

/-- Four messages: the second and the third come too early, and the last one when the first no
longer counts. -/
def unsteady : List LogCall :=
  [.setGlobal .info, .log 0 .workload .info "a", .log 900000000 .workload .info "b",
    .log 950000000 .workload .info "c", .log 1100000000 .workload .info "d"]

/-- With a limit of one, a summary comes with the first message that is dropped, and another one a
fifth of a second later with the next message that is allowed. -/
theorem unsteady_summaries_close : Chronological unsteady ∧
    let l : Log := ⟨.new, .new 1, []⟩
    CatchesUp (l.rulings .workload unsteady) ∧
      ¬(l.summaryTimes .workload unsteady).Pairwise
        (fun earlier later => earlier + LogWindow.second ≤ later) := by
  have hordered : Chronological unsteady := by decide
  obtain ⟨-, -, hapart⟩ := summaries_apart_iff .new 1 unsteady hordered .workload
  have hcatches : CatchesUp ((⟨.new, .new 1, []⟩ : Log).rulings .workload unsteady) :=
    ⟨⟨900000000, false, some 1⟩, ⟨950000000, false, none⟩, ⟨1100000000, true, some 1⟩,
      by decide, by decide, by decide, by decide, by decide⟩
  exact ⟨hordered, hcatches, fun h => hapart.mp h hcatches⟩

/-- Three messages at once, and a fourth after the limit was raised. -/
def raised : List LogCall :=
  [.setGlobal .trace, .setLimit 1, .log 0 .workload .info "m0", .log 0 .workload .info "m1",
    .log 0 .workload .info "m2", .setLimit 2, .log 0 .workload .info "n0"]

/-- Two summaries are written at the same time. -/
theorem two_summaries_at_once : Chronological raised ∧
    (new.linesAfter raised) = [.message 0 .workload "m0", .summary 0 .workload 1,
      .summary 0 .workload 1, .message 0 .workload "n0"] ∧
    ¬(new.summaryTimes .workload raised).Pairwise
      (fun earlier later => earlier + LogWindow.second ≤ later) := by
  decide

end Log

end Scanout
