import OverlaySugar.Conversion
import OverlaySugar.Proofs.Mirror

/-!
# Runs without a fatal line

A run that is not stopped is extended by one line at a time. What holds at the
start and is kept by every line that is not fatal holds of each such run, and
the mirror is the first example.
-/

set_option autoImplicit false

namespace OverlaySugar

namespace State

/-- The lines in front of a run that is not stopped do not stop it either. -/
theorem fatal_of_append {o : Options} {s : State} {xs ys : List Text}
    (h : (feedAll o s (xs ++ ys)).fatal = none) : (feedAll o s xs).fatal = none := by
  cases hx : (feedAll o s xs).fatal with
  | none => rfl
  | some f => rw [feedAll_append_of_fatal hx, hx] at h; cases h

theorem feedAll_singleton (o : Options) (s : State) (line : Text) :
    feedAll o s [line] = s.feed o line := by
  cases hf : (s.feed o line).fatal with
  | some f => exact feedAll_cons_of_fatal hf []
  | none =>
    rw [feedAll_cons_of_not_fatal hf, feedAll_nil]
    simp [Outcome.quiet, Outcome.after, ← hf]

theorem feedAll_concat {o : Options} {s : State} {xs : List Text}
    (h : (feedAll o s xs).fatal = none) (line : Text) :
    feedAll o s (xs ++ [line]) =
      ((feedAll o s xs).state.feed o line).after (feedAll o s xs).events := by
  rw [feedAll_append_of_not_fatal h, feedAll_singleton]

/-- Every line that is fed counts, fatal or not. -/
theorem linesRead_feed (o : Options) (s : State) (line : Text) :
    (s.feed o line).state.linesRead = s.linesRead + 1 := by
  obtain ⟨r, hr, ⟨n, -, hrule⟩ | ⟨-, hrule⟩ | ⟨-, hrule⟩⟩ := s.feed_cases o line
  all_goals
    rw [hr, Outcome.state_after]
    cases hrule <;> rfl

end State

def run (o : Options) (lines : List Text) : Outcome := State.feedAll o .initial lines

theorem run_concat {o : Options} {lines : List Text} (h : (run o lines).fatal = none)
    (line : Text) :
    run o (lines ++ [line]) = ((run o lines).state.feed o line).after (run o lines).events :=
  State.feedAll_concat h line

theorem run_fatal_of_concat {o : Options} {lines : List Text} {line : Text}
    (h : (run o (lines ++ [line])).fatal = none) :
    (run o lines).fatal = none ∧ ((run o lines).state.feed o line).fatal = none := by
  have hx : (run o lines).fatal = none := State.fatal_of_append h
  rw [run_concat hx, Outcome.fatal_after] at h
  exact ⟨hx, h⟩

theorem run_induction {o : Options} {P : List Text → Outcome → Prop}
    (start : P [] (.quiet .initial))
    (step : ∀ lines line, (run o lines).fatal = none → P lines (run o lines) →
      ((run o lines).state.feed o line).fatal = none →
      P (lines ++ [line]) (((run o lines).state.feed o line).after (run o lines).events))
    {lines : List Text} (h : (run o lines).fatal = none) : P lines (run o lines) := by
  induction lines using List.reverseRecOn with
  | nil => exact start
  | append_singleton lines line ih =>
    -- A run that goes through was not stopped before its last line either.
    obtain ⟨hx, hf⟩ := run_fatal_of_concat h
    rw [run_concat hx]
    exact step lines line hx (ih hx) hf

def readNext (o : Options) (lines : List Text) (line : Text) : Outcome :=
  (run o lines).state.feed o line

theorem linesRead_run {o : Options} {lines : List Text} (h : (run o lines).fatal = none) :
    (run o lines).state.linesRead = lines.length := by
  refine run_induction (P := fun lines r => r.state.linesRead = lines.length) rfl ?_ h
  intro lines line _ ih _
  rw [Outcome.state_after, State.linesRead_feed, ih, List.length_append]
  rfl

theorem mirrors_run {o : Options} {lines : List Text} (h : (run o lines).fatal = none) :
    Mirrors o (pathOf lines) (waiting o lines) (run o lines).state := by
  refine run_induction (P := fun lines r => Mirrors o (pathOf lines) (waiting o lines) r.state)
    (Mirrors.initial o) (fun lines line _ hm _ => ?_) h
  rw [pathOf_concat, waiting_concat]
  exact hm.feed line

theorem depth_run {o : Options} {lines : List Text} (h : (run o lines).fatal = none) :
    (run o lines).state.depth = levelFrom 0 lines :=
  (mirrors_run h).depth.trans (pathFrom_length [] lines)

theorem run_append {o : Options} {xs : List Text} (h : (run o xs).fatal = none) (ys : List Text) :
    run o (xs ++ ys) = (State.feedAll o (run o xs).state ys).after (run o xs).events :=
  State.feedAll_append_of_not_fatal h ys

/-- A run that is stopped was going through up to the line that stops it. -/
theorem exists_stop {o : Options} {lines : List Text} (h : (run o lines).fatal ≠ none) :
    ∃ pre line rest, lines = pre ++ line :: rest ∧ (run o pre).fatal = none ∧
      (readNext o pre line).fatal ≠ none := by
  induction lines using List.reverseRecOn with
  | nil => exact absurd rfl h
  | append_singleton lines line ih =>
    by_cases hx : (run o lines).fatal = none
    · rw [run_concat hx, Outcome.fatal_after] at h
      exact ⟨lines, line, [], rfl, hx, h⟩
    · obtain ⟨pre, stop, rest, rfl, hpre, hstop⟩ := ih hx
      exact ⟨pre, stop, rest ++ [line], by simp, hpre, hstop⟩

/-- What follows a line that stops the run is not read. -/
theorem run_stop {o : Options} {pre : List Text} {line : Text} {f : Fatal}
    (hpre : (run o pre).fatal = none) (hf : (readNext o pre line).fatal = some f)
    (rest : List Text) :
    run o (pre ++ line :: rest) = (readNext o pre line).after (run o pre).events := by
  rw [run_append hpre]
  exact congrArg (Outcome.after _) (State.feedAll_cons_of_fatal hf rest)

/-! ## Conversions -/

theorem convert_of_stop {o : Options} {lines : List Text} {f : Fatal}
    (h : (run o lines).fatal = some f) : convert o lines = ⟨run o lines, f.status, o.verbose⟩ := by
  have hr : (State.feedAll o .initial lines).fatal = some f := h
  rw [convert, Conversion.ofRun, hr]
  rfl

theorem convert_of_run {o : Options} {lines : List Text} (h : (run o lines).fatal = none) :
    convert o lines = ⟨(run o lines).state.finish.after (run o lines).events,
      (run o lines).state.finish.state.tally.exitStatus, o.verbose⟩ := by
  have hr : (State.feedAll o .initial lines).fatal = none := h
  rw [convert, Conversion.ofRun, hr]
  rfl

theorem outcome_of_run {o : Options} {lines : List Text} (h : (run o lines).fatal = none) :
    (convert o lines).outcome = (run o lines).state.finish.after (run o lines).events := by
  rw [convert_of_run h]

theorem fatal_convert (o : Options) (lines : List Text) :
    (convert o lines).fatal = (run o lines).fatal := by
  cases hr : (run o lines).fatal with
  | none =>
    rw [convert_of_run hr]
    rfl
  | some f =>
    rw [convert_of_stop hr]
    exact hr

theorem run_of_convert {o : Options} {lines : List Text} (h : (convert o lines).fatal = none) :
    (run o lines).fatal = none := by
  rwa [fatal_convert] at h

theorem tally_convert (o : Options) (lines : List Text) :
    (convert o lines).tally = (run o lines).state.tally := by
  cases hr : (run o lines).fatal with
  | none =>
    rw [convert_of_run hr]
    rfl
  | some f =>
    rw [convert_of_stop hr]
    rfl

/-- The status is that of the fatal line, if there is one, and follows from the counts else. -/
theorem status_convert (o : Options) (lines : List Text) :
    (convert o lines).status =
      match (convert o lines).fatal with
      | some f => f.status
      | none => (convert o lines).tally.exitStatus := by
  rw [fatal_convert, tally_convert]
  cases hr : (run o lines).fatal with
  | none =>
    rw [convert_of_run hr]
    rfl
  | some f => rw [convert_of_stop hr]

theorem emitted_finish (s : State) : s.finish.emitted = s.blockEnd.filterMap Event.line? :=
  filterMap_finish (fun _ => rfl) s

def Outcome.ending (r : Outcome) : List Text :=
  if r.fatal = none then r.state.blockEnd.filterMap Event.line? else []

theorem lines_convert (o : Options) (lines : List Text) :
    (convert o lines).lines = (run o lines).emitted ++ (run o lines).ending := by
  cases hr : (run o lines).fatal with
  | none =>
    rw [Conversion.lines, outcome_of_run hr, Outcome.emitted_after, emitted_finish,
      Outcome.ending, if_pos hr]
    rfl
  | some f =>
    rw [convert_of_stop hr, Outcome.ending, if_neg (by simp [hr]), List.append_nil]
    rfl

/-- What was written before is written still when more lines follow. -/
theorem lines_append {o : Options} {xs : List Text} (h : (run o xs).fatal = none)
    (ys : List Text) :
    (convert o (xs ++ ys)).lines = (run o xs).emitted ++
      ((State.feedAll o (run o xs).state ys).emitted ++
        (State.feedAll o (run o xs).state ys).ending) := by
  rw [lines_convert, run_append h, Outcome.emitted_after, List.append_assoc]
  rfl

end OverlaySugar
