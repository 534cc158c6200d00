import OverlaySugar.Proofs.Accounts
import OverlaySugar.Proofs.Targets

/-!
# Conversion without force

A conversion without force stops at the first line that opens a node with a
name for generated nodes, an overlay node with a target apart. Which line that
is depends on the lines in front of it alone. Nothing else stops it.
-/

set_option autoImplicit false

namespace OverlaySugar
open Text

inductive Offends (o : Options) (pre : List Text) (line : Text) : ExitStatus → Finding → Prop
  | illegal {n : OpenNode} (hb : braceOf line = .opens n) (hn : n.isIllegal = true) :
      Offends o pre line .illegalNode (.illegalNode n.name)
  | untargeted {n : OpenNode} (hb : braceOf line = .opens n) (hn : n.isOverlay = true)
      (ht : ∀ v, ¬ Available o pre v) :
      Offends o pre line .missingTarget (.missingTarget (reportedNode o (pathOf pre)))

def Faultless (o : Options) (lines : List Text) : Prop :=
  ∀ pre line rest status finding, lines = pre ++ line :: rest →
    ¬ Offends o pre line status finding

theorem Faultless.of_concat {o : Options} {lines : List Text} {line : Text}
    (h : Faultless o (lines ++ [line])) :
    Faultless o lines ∧ ∀ status finding, ¬ Offends o lines line status finding := by
  constructor
  · rintro pre line' rest status finding rfl
    exact h pre line' (rest ++ [line]) status finding (by simp)
  · exact fun status finding => h lines line [] status finding rfl

/-! ## A line that offends -/

structure Stops (s : State) (r : Outcome) (status : ExitStatus) (f : Finding) : Prop where
  fatal : r.fatal = some ⟨status, f.text, (s.linesRead + 1 : Nat)⟩
  messages : r.messages = [⟨.error, located f.text (s.linesRead + 1 : Nat)⟩]
  emitted : r.emitted = if s.inRootBlock then [rootBlockClose] else []

section
variable {o : Options} {p : List OpenNode} {t : Option Target} {s : State} {line : Text}
  {n : OpenNode}

theorem emitted_deeperEnd (h : Mirrors o p t s) :
    s.deeperEnd.filterMap Event.line? = if s.inRootBlock then [rootBlockClose] else [] := by
  rw [h.sound.deeperEnd_eq, State.blockEnd]
  split <;> rfl

theorem stops_of_eq (h : Mirrors o p t s) {x : String} {status : ExitStatus} {f : Finding}
    {r : Outcome} (hr : r = ((s.count line).deeper.stop status f
      (s.lineOf line).number).after (.trace x :: s.deeperEnd)) :
    Stops s r status f := by
  have hm : s.deeperEnd.filterMap Event.message? = [] := filterMap_deeperEnd rfl s
  constructor
  · rw [hr]
    rfl
  · rw [hr, Outcome.messages_after, List.filterMap_cons_none rfl, hm]
    rfl
  · rw [hr, Outcome.emitted_after, List.filterMap_cons_none rfl, emitted_deeperEnd h]
    exact List.append_nil _

theorem openNode_of_illegal {l : Line} {label name : Text} (hr : isReservedName name = true)
    (hn : isOverlayName name = false) :
    s.openNode o l label name = (s.deeper.openReserved o l name).after s.deeperEnd := by
  have hf : isFragmentName name = false := OpenNode.isFragment_of_reserved (n := ⟨label, name⟩) hr
  rw [State.openNode, State.openAtDepth, if_neg (by simp [hf]), if_neg (by simp [hn]), if_pos hr]

theorem feed_illegal (hd : s.dropping = none) (hb : braceOf line = .opens n)
    (hn : n.isIllegal = true) :
    s.feed o line = ((s.count line).deeper.openReserved o (s.lineOf line) n.name).after
      (.trace ((s.count line).traceText (s.lineOf line)) :: s.deeperEnd) := by
  simp only [OpenNode.isIllegal, Bool.and_eq_true, Bool.not_eq_true'] at hn
  rw [State.feed_of_opens hb hd, openNode_of_illegal hn.1 hn.2, Outcome.after_after,
    List.singleton_append]
  rfl

end

section
variable {o : Options} {pre : List Text} {line : Text} {s : State} {status : ExitStatus}
  {finding : Finding}

theorem not_dropped_of_strict (hforce : o.force = false) (p : List OpenNode) :
    p.any o.drops = false := by
  simp [Options.drops, hforce]

theorem waiting_eq_none_iff : waiting o pre = none ↔ ∀ v, ¬ Available o pre v := by
  rw [Option.eq_none_iff_forall_ne_some]
  exact forall_congr' fun v => not_congr waiting_eq_some_iff

/-- Without force a line that offends stops the run. -/
theorem stops_of_offends (hforce : o.force = false) (h : Mirrors o (pathOf pre) (waiting o pre) s)
    (ho : Offends o pre line status finding) : Stops s (s.feed o line) status finding := by
  have hd := h.not_dropping.mpr (not_dropped_of_strict hforce (pathOf pre))
  cases ho with
  | illegal hb hn =>
    apply stops_of_eq h
    rw [feed_illegal hd hb hn, State.openReserved, if_neg (by simp [hforce])]
  | untargeted hb hn ht =>
    rw [waiting_eq_none_iff.mpr ht] at h
    have hp : (s.count line).deeper.pending = none := h.pending
    apply stops_of_eq h
    rw [feed_overlay hd hb hn, State.openOverlay, hp, missing_deeper h]
    exact congrArg (Outcome.after _) (if_neg (by simp [hforce]))

/-- A line that stops the run offends. -/
theorem offends_of_fatal (h : Mirrors o (pathOf pre) (waiting o pre) s)
    (hf : (s.feed o line).fatal ≠ none) : ∃ status finding, Offends o pre line status finding := by
  obtain ⟨r, hr, hrule⟩ := s.feed_cases o line
  rw [hr, Outcome.fatal_after] at hf
  rcases hrule with ⟨n, hb, hrule⟩ | ⟨hb, hrule⟩ | ⟨hb, hrule⟩
  · cases hrule with
    | stopOverlay hd hn hp hforce =>
      have ht : waiting o pre = none := h.pending.symm.trans hp
      exact ⟨_, _, .untargeted hb hn (waiting_eq_none_iff.mp ht)⟩
    | stopReserved hd hreserved hn hforce =>
      exact ⟨_, _, .illegal hb (by simp [OpenNode.isIllegal, hreserved, hn])⟩
    | _ => exact absurd rfl hf
  · cases hrule <;> exact absurd rfl hf
  · cases hrule <;> exact absurd rfl hf

theorem errors_rootProperty (t : Tally) (verbose : Int) (property : String) (line : Int) :
    (t.rootProperty verbose property line).1.errors = t.errors := by
  simp only [Tally.rootProperty]
  split <;> rfl

/-- A line that does not stop the run is no error. -/
theorem errors_of_not_fatal (hforce : o.force = false) (hf : (s.feed o line).fatal = none) :
    (s.feed o line).state.tally.errors = s.tally.errors := by
  obtain ⟨r, hr, hrule⟩ := s.feed_cases o line
  rw [hr, Outcome.fatal_after] at hf
  rw [hr, Outcome.state_after]
  rcases hrule with ⟨n, -, hrule⟩ | ⟨-, hrule⟩ | ⟨-, hrule⟩
  · cases hrule with
    | notice hd hn hp hforced => simp [hforce] at hforced
    | dropNode hd hr hn hforced => simp [hforce] at hforced
    | stopOverlay hd hn hp hforced => cases hf
    | stopReserved hd hr hn hforced => cases hf
    | _ => rfl
  · cases hrule <;> rfl
  · cases hrule with
    | rootProperty hd hc hp => exact errors_rootProperty _ _ _ _
    | _ => rfl

end

/-! ## Runs -/

section
variable {o : Options} {lines : List Text}

theorem errors_run_strict (hforce : o.force = false) (h : (run o lines).fatal = none) :
    (run o lines).state.tally.errors = 0 := by
  refine run_induction (P := fun _ r => r.state.tally.errors = 0) rfl ?_ h
  intro lines line _ ih hf
  rw [Outcome.state_after, errors_of_not_fatal hforce hf, ih]

/-- The line that stops a run without force is its one error. -/
theorem errors_of_stops (hforce : o.force = false) (h : (run o lines).fatal = none) {line : Text}
    {status : ExitStatus} {finding : Finding}
    (hstop : Stops (run o lines).state (readNext o lines line) status finding) :
    (readNext o lines line).state.tally.errors = 1 := by
  have hcount : (readNext o lines line).state.tally.errors = (run o lines).state.tally.errors +
      (readNext o lines line).reports .error := accounts_feed o (run o lines).state line .error
  rw [hcount, errors_run_strict hforce h, Outcome.reports, hstop.messages]
  rfl

theorem run_of_faultless (h : Faultless o lines) : (run o lines).fatal = none := by
  induction lines using List.reverseRecOn with
  | nil => rfl
  | append_singleton lines line ih =>
    obtain ⟨hlines, hline⟩ := h.of_concat
    have hx := ih hlines
    rw [run_concat hx, Outcome.fatal_after]
    by_contra hf
    obtain ⟨status, finding, ho⟩ := offends_of_fatal (mirrors_run hx) hf
    exact hline status finding ho

theorem faultless_of_run (hforce : o.force = false) (h : (run o lines).fatal = none) :
    Faultless o lines := by
  rintro pre line rest status finding rfl ho
  rw [List.append_cons] at h
  obtain ⟨hpre, hf⟩ := run_fatal_of_concat (State.fatal_of_append h)
  have hstop := (stops_of_offends hforce (mirrors_run hpre) ho).fatal
  rw [hf] at hstop
  cases hstop

end

/-- Without force a conversion is stopped just when some line offends. The first such line stops
it: nothing of it or behind it is written, only an open block of root properties is ended, and it
is the one error and the last message. When no line offends there is no error. -/
theorem strict_stop {o : Options} (hforce : o.force = false) (lines : List Text) :
    ((convert o lines).fatal ≠ none ↔ ∃ pre line rest status finding,
      lines = pre ++ line :: rest ∧ Offends o pre line status finding) ∧
    (∀ pre line rest status finding, lines = pre ++ line :: rest →
      Offends o pre line status finding → Faultless o pre →
      (convert o lines).fatal = some ⟨status, finding.text, (pre.length + 1 : Nat)⟩ ∧
        (convert o lines).status = status ∧
        (convert o lines).outcome.state.linesRead = pre.length + 1 ∧
        (convert o lines).tally.errors = 1 ∧
        (convert o lines).messages.getLast? =
          some ⟨.error, s!"line {pre.length + 1}: {finding.text}"⟩ ∧
        (run o pre).fatal = none ∧
        (convert o lines).lines = (run o pre).emitted ++
          if (run o pre).state.inRootBlock then [rootBlockClose] else []) ∧
    (Faultless o lines → (convert o lines).tally.errors = 0 ∧
      ((convert o lines).status = .warnings ∨ (convert o lines).status = .ok)) := by
  refine ⟨?_, ?_, ?_⟩
  · rw [fatal_convert]
    constructor
    · intro h
      by_contra hnone
      refine h (run_of_faultless fun pre line rest status finding hsplit ho => ?_)
      exact hnone ⟨pre, line, rest, status, finding, hsplit, ho⟩
    · rintro ⟨pre, line, rest, status, finding, hsplit, ho⟩ h
      exact faultless_of_run hforce h pre line rest status finding hsplit ho
  · rintro pre line rest status finding rfl ho hpre
    have hrun := run_of_faultless hpre
    have hlen := linesRead_run hrun
    have hstop : Stops (run o pre).state (readNext o pre line) status finding :=
      stops_of_offends hforce (mirrors_run hrun) ho
    have hfatal := hstop.fatal
    have hmess := hstop.messages
    have hcount : (readNext o pre line).state.linesRead = pre.length + 1 := by
      rw [readNext, State.linesRead_feed, hlen]
    have herrors := errors_of_stops hforce hrun hstop
    rw [hlen] at hfatal hmess
    rw [located_succ] at hmess
    have hr := run_stop hrun hstop.fatal rest
    rw [convert_of_stop (by rw [hr, Outcome.fatal_after, hstop.fatal]), hr]
    refine ⟨hfatal, rfl, hcount, herrors, ?_, hrun, ?_⟩
    · rw [Conversion.messages, Outcome.messages_after, hmess]
      exact List.getLast?_concat
    · rw [Conversion.lines, Outcome.emitted_after, hstop.emitted]
      rfl
  · intro h
    have hrun := run_of_faultless h
    have herrors : (run o lines).state.finish.state.tally.errors = 0 :=
      errors_run_strict hforce hrun
    rw [convert_of_run hrun]
    refine ⟨herrors, ?_⟩
    rw [Tally.exitStatus, if_neg (by simp [herrors])]
    split
    · exact .inl rfl
    · exact .inr rfl

/-- A generated node in the root, where a block of root properties is open. -/
theorem strict_stop_in_root_block :
    let front := ["/ \x7b", "\tcompatible = \"x\";"].map String.toList
    let line := "\t__symbols__ \x7b".toList
    let lines := front ++ line :: ["\t\x7d;", "\x7d;"].map String.toList
    (convert .standard lines).fatal = some ⟨.illegalNode, "illegal node name '__symbols__'", 3⟩ ∧
      (convert .standard lines).lines =
        ["/ \x7b", "\tcompatible = \"x\";", "\x7d;"].map String.toList := by
  intro front line lines
  have hforce : Options.standard.force = false := rfl
  have hfront : Faultless .standard front := faultless_of_run hforce (by decide)
  have hline : Offends .standard front line .illegalNode (.illegalNode "__symbols__".toList) :=
    @Offends.illegal _ _ _ ⟨[], "__symbols__".toList⟩ (by decide) (by decide)
  obtain ⟨-, hstop, -⟩ := strict_stop hforce lines
  obtain ⟨hfatal, -, -, -, -, -, hlines⟩ := hstop front line _ _ _ rfl hline hfront
  refine ⟨hfatal, ?_⟩
  rw [hlines]
  decide

end OverlaySugar
