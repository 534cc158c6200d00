import OverlaySugar.Proofs.Strict

/-!
# Conversion with force

With force a conversion is never stopped. As long as the conversion without
force goes on the two are the same, line by line. Where that one is stopped,
the one with force writes and reports as much, and goes on.
-/

set_option autoImplicit false

namespace OverlaySugar
open Text

namespace Options

def strict (o : Options) : Options := { o with force := false }

def forced (o : Options) : Options := { o with force := true }

end Options

/-! ## One line -/

section
variable {o : Options} {s : State} {line : Text}

theorem fatal_of_forced (hforce : o.force = true) (s : State) (line : Text) :
    (s.feed o line).fatal = none := by
  obtain ⟨r, hr, hrule⟩ := s.feed_cases o line
  rw [hr, Outcome.fatal_after]
  rcases hrule with ⟨n, -, hrule⟩ | ⟨-, hrule⟩ | ⟨-, hrule⟩
  · cases hrule with
    | stopOverlay hd hn hp hstrict => simp [hforce] at hstrict
    | stopReserved hd hr hn hstrict => simp [hforce] at hstrict
    | _ => rfl
  · cases hrule <;> rfl
  · cases hrule <;> rfl

theorem openAtDepth_forced {l : Line} {label name : Text}
    (h : (s.openAtDepth o.strict l label name).fatal = none) :
    s.openAtDepth o.forced l label name = s.openAtDepth o.strict l label name := by
  unfold State.openAtDepth at h ⊢
  split
  · rfl
  split
  · next hf hn =>
    rw [if_neg hf, if_pos hn] at h
    unfold State.openOverlay at h ⊢
    cases hp : s.pending with
    | some t => rfl
    | none => simp [hp, Options.strict, State.stop] at h
  split
  · next hf hn hr =>
    rw [if_neg hf, if_neg hn, if_pos hr] at h
    cases h
  · rfl

theorem take_forced {l : Line} (h : (s.take o.strict l).fatal = none) :
    s.take o.forced l = s.take o.strict l := by
  unfold State.take at h ⊢
  cases hd : s.dropping with
  | some top => rfl
  | none =>
    simp only [hd, State.handle] at h ⊢
    cases hc : l.content with
    | nodeOpen label name =>
      rw [hc] at h
      exact congrArg (Outcome.after s.deeperEnd) (openAtDepth_forced h)
    | nodeClose => rfl
    | target t => rfl
    | plain => rfl

/-- Force makes no difference to a line that does not stop the run without it. -/
theorem feed_forced (h : (s.feed o.strict line).fatal = none) :
    s.feed o.forced line = s.feed o.strict line :=
  congrArg (Outcome.after _) (take_forced h)

/-- Where a run without force is stopped, one with force writes what was written there, reports the
error and goes on. -/
theorem feed_forced_of_offends {pre : List Text} {status : ExitStatus} {finding : Finding}
    (h : Mirrors o.strict (pathOf pre) (waiting o.strict pre) s)
    (ho : Offends o.strict pre line status finding) :
    (∃ note, (s.feed o.forced line).messages =
        [⟨.error, located (finding.text ++ note) (s.linesRead + 1 : Nat)⟩]) ∧
      (s.feed o.strict line).emitted <+: (s.feed o.forced line).emitted := by
  have hstrict : o.strict.force = false := rfl
  have hforced : o.forced.force = true := rfl
  have hd : s.dropping = none := h.not_dropping.mpr (not_dropped_of_strict hstrict (pathOf pre))
  have hm : s.deeperEnd.filterMap Event.message? = [] := filterMap_deeperEnd rfl s
  rw [(stops_of_offends hstrict h ho).emitted, ← emitted_deeperEnd h]
  cases ho with
  | illegal hb hn =>
    rw [feed_illegal hd hb hn, State.openReserved, if_pos hforced, Outcome.messages_after,
      Outcome.emitted_after, List.filterMap_cons_none rfl, List.filterMap_cons_none rfl, hm]
    exact ⟨⟨", dropping node", rfl⟩, List.prefix_append _ _⟩
  | untargeted hb hn ht =>
    rw [waiting_eq_none_iff.mpr ht] at h
    have hp : (s.count line).deeper.pending = none := h.pending
    rw [feed_overlay hd hb hn, State.openOverlay, hp, missing_deeper h]
    simp only [hforced, if_true]
    rw [Outcome.messages_after, Outcome.emitted_after, List.filterMap_cons_none rfl,
      List.filterMap_cons_none rfl, hm]
    refine ⟨⟨"", ?_⟩, List.prefix_append _ _⟩
    rw [String.append_empty]
    rfl

end

/-! ## Runs -/

section
variable {o : Options} {lines : List Text}

theorem run_of_forced (hforce : o.force = true) (lines : List Text) :
    (run o lines).fatal = none := by
  by_contra h
  obtain ⟨pre, line, rest, -, -, hstop⟩ := exists_stop h
  exact hstop (fatal_of_forced hforce _ line)

theorem run_forced (h : (run o.strict lines).fatal = none) :
    run o.forced lines = run o.strict lines := by
  refine run_induction (P := fun lines r => run o.forced lines = r) rfl ?_ h
  intro lines line _ ih hf
  rw [run_concat (run_of_forced rfl lines), ih, feed_forced hf]

/-- With force the run goes on behind any line. -/
theorem events_run_forced {pre : List Text} (hpre : (run o.strict pre).fatal = none) (line : Text)
    (rest : List Text) : ∃ more, (run o.forced (pre ++ line :: rest)).events =
      (run o.strict pre).events ++
        (((run o.strict pre).state.feed o.forced line).events ++ more) := by
  have hline := run_concat (run_of_forced (o := o.forced) rfl pre) line
  rw [run_forced hpre] at hline
  rw [List.append_cons, run_append (run_of_forced rfl _), Outcome.events_after, hline,
    Outcome.events_after, List.append_assoc]
  exact ⟨_, rfl⟩

/-- Where the run without force is stopped, the one with force has done as much. -/
theorem run_forced_of_stop {f : Fatal} (hf : (run o.strict lines).fatal = some f) :
    (run o.strict lines).emitted <+: (run o.forced lines).emitted ∧
      ∃ before note after,
        (run o.strict lines).messages = before ++ [⟨.error, s!"line {f.line}: {f.message}"⟩] ∧
        (run o.forced lines).messages =
          before ++ ⟨.error, s!"line {f.line}: {f.message ++ note}"⟩ :: after := by
  have hne : (run o.strict lines).fatal ≠ none := by simp [hf]
  obtain ⟨pre, line, rest, rfl, hpre, hstop⟩ := exists_stop hne
  have hm := mirrors_run hpre
  obtain ⟨status, finding, ho⟩ := offends_of_fatal hm hstop
  have hstops : Stops _ (readNext o.strict pre line) status finding :=
    stops_of_offends rfl hm ho
  obtain ⟨⟨note, hnext⟩, hlines⟩ := feed_forced_of_offends hm ho
  obtain ⟨more, hevents⟩ := events_run_forced hpre line rest
  have hr := run_stop hpre hstops.fatal rest
  rw [hr, Outcome.fatal_after, hstops.fatal] at hf
  cases hf
  have hlocated (text : String) (k : Nat) :
      located text (k + 1 : Nat) = s!"line {((k + 1 : Nat) : Int)}: {text}" := if_neg (by omega)
  have hmess : (run o.forced (pre ++ line :: rest)).messages = (run o.strict pre).messages ++
      ((State.feed o.forced (run o.strict pre).state line).messages ++
        more.filterMap Event.message?) := by
    simp only [Outcome.messages, hevents, List.filterMap_append]
  have hemit : (run o.forced (pre ++ line :: rest)).emitted = (run o.strict pre).emitted ++
      ((State.feed o.forced (run o.strict pre).state line).emitted ++
        more.filterMap Event.line?) := by
    simp only [Outcome.emitted, hevents, List.filterMap_append]
  refine ⟨?_, (run o.strict pre).messages, note, more.filterMap Event.message?, ?_, ?_⟩
  · rw [hr, hemit, Outcome.emitted_after]
    exact (List.prefix_append_right_inj _).mpr (hlines.trans (List.prefix_append _ _))
  · rw [hr, Outcome.messages_after, hstops.messages, hlocated]
    rfl
  · rw [hmess, hnext, hlocated]
    rfl

end

theorem messages_finish (s : State) : s.finish.messages = [] :=
  (filterMap_finish (fun _ => rfl) s).trans (filterMap_blockEnd rfl s)

/-- Force keeps all that a conversion does without it. The two are the same where the one without
force is not stopped. Where it is, the one with force writes and reports as much, reports the error
of the same line next, and ends with errors. It is never stopped. -/
theorem force_extends (o : Options) (lines : List Text) :
    (convert o.forced lines).fatal = none ∧
    ((convert o.strict lines).fatal = none → convert o.forced lines = convert o.strict lines) ∧
    (∀ f, (convert o.strict lines).fatal = some f →
      1 ≤ (convert o.forced lines).tally.errors ∧
        (convert o.forced lines).status = .forcedErrors ∧
        (convert o.strict lines).lines <+: (convert o.forced lines).lines ∧
        ∃ before note after,
          (convert o.strict lines).messages =
            before ++ [⟨.error, s!"line {f.line}: {f.message}"⟩] ∧
          (convert o.forced lines).messages =
            before ++ ⟨.error, s!"line {f.line}: {f.message ++ note}"⟩ :: after) := by
  have hforced : (run o.forced lines).fatal = none := run_of_forced rfl lines
  refine ⟨(fatal_convert _ _).trans hforced, ?_, ?_⟩
  · intro h
    have hstrict := run_of_convert h
    have hrun := run_forced hstrict
    rw [convert_of_run hforced, convert_of_run hstrict, hrun]
    rfl
  · intro f hf
    rw [fatal_convert] at hf
    obtain ⟨hlines, before, note, after, hstrict, hmess⟩ := run_forced_of_stop hf
    have hcount : (run o.forced lines).state.finish.state.tally.errors =
        (run o.forced lines).messages.countP (·.severity == .error) :=
      reported_run o.forced lines .error
    have hone : 1 ≤ (run o.forced lines).state.finish.state.tally.errors := by
      rw [hcount, hmess, List.countP_append, List.countP_cons_of_pos rfl]
      omega
    rw [convert_of_stop hf, convert_of_run hforced]
    refine ⟨hone, ?_, ?_, before, note, after, hstrict, ?_⟩
    · rw [Tally.exitStatus, if_pos (by omega)]
    · rw [Conversion.lines, Conversion.lines, Outcome.emitted_after]
      exact hlines.trans (List.prefix_append _ _)
    · rw [Conversion.messages, Outcome.messages_after, messages_finish, List.append_nil]
      exact hmess

/-- A reserved node in the root stops the conversion without force. With force it is dropped, and
the property behind it is written. -/
theorem force_extends_past_reserved_node :
    let lines := ["/dts-v1/;", "/ \x7b", "\t__x__ \x7b", "\t\x7d;", "\ta = <1>;", "\x7d;"].map
      String.toList
    let strict := convert Options.standard.strict lines
    let forced := convert Options.standard.forced lines
    let error := "line 3: illegal node name '__x__'"
    strict.fatal = some ⟨.illegalNode, "illegal node name '__x__'", 3⟩ ∧
      strict.lines = ["/dts-v1/;".toList] ∧
      forced.lines = ["/dts-v1/;", "/ \x7b", "\ta = <1>;", "\x7d;"].map String.toList ∧
      forced.fatal = none ∧ forced.status = .forcedErrors ∧ strict.lines <+: forced.lines ∧
      ∃ before note after, strict.messages = before ++ [⟨.error, error⟩] ∧
        forced.messages = before ++ ⟨.error, error ++ note⟩ :: after := by
  intro lines strict forced error
  have hfatal : strict.fatal = some ⟨.illegalNode, "illegal node name '__x__'", 3⟩ := by
    decide +kernel
  obtain ⟨hnone, -, hstopped⟩ := force_extends Options.standard lines
  obtain ⟨-, hstatus, hlines, hmessages⟩ := hstopped _ hfatal
  exact ⟨hfatal, by decide +kernel, by decide +kernel, hnone, hstatus, hlines, hmessages⟩

end OverlaySugar
