import OverlaySugar.Proofs.Provenance
import OverlaySugar.Proofs.SideBySide

/-!
# Conversions put together

Where no node is open a text can be cut: its conversion is that of the front
followed by that of the rest, and only the warning about root properties that
is given once is not given again. In the first node whole nodes of the second
level can change places, and what is written for each of them stays the same.
-/

set_option autoImplicit false

namespace OverlaySugar
open Text

/-! ## Documents in a row -/

section
variable {v : Int} {c d : Counts} {t u w : Tally}

/-- What is counted from zero on is added, but for a warning that is given once. -/
theorem Grows.add (h : Grows v c .zero u) (h' : Grows v c t w) :
    w.errors = t.errors + u.errors ∧ w.rootProperties = t.rootProperties + u.rootProperties ∧
      (w.warnings + if v = 0 ∧ t.rootProperties ≠ 0 ∧ u.rootProperties ≠ 0 then 1 else 0) =
        t.warnings + u.warnings := by
  obtain ⟨he, hp, hw⟩ := h.from_zero
  obtain ⟨he', hp', hw'⟩ := h'
  have hproperties : w.rootProperties = t.rootProperties + u.rootProperties := by omega
  have hadd := rootWarnings_add v t.rootProperties u.rootProperties
  rw [hproperties] at hw'
  refine ⟨by omega, hproperties, by omega⟩

/-- The warning that is left out is never the only one. -/
theorem Grows.warned_iff (ht : Grows v d .zero t) (h : Grows v c .zero u) (h' : Grows v c t w) :
    w.warnings ≠ 0 ↔ t.warnings ≠ 0 ∨ u.warnings ≠ 0 := by
  obtain ⟨-, -, hwarnings⟩ := h.add h'
  by_cases hboth : v = 0 ∧ t.rootProperties ≠ 0 ∧ u.rootProperties ≠ 0
  · obtain ⟨-, -, htw⟩ := ht.from_zero
    obtain ⟨-, -, huw⟩ := h.from_zero
    have htone := one_le_rootWarnings v hboth.2.1
    have huone := one_le_rootWarnings v hboth.2.2
    rw [if_pos hboth] at hwarnings
    omega
  · rw [if_neg hboth] at hwarnings
    omega

theorem exitStatus_of_add (he : w.errors = t.errors + u.errors)
    (hw : w.warnings ≠ 0 ↔ t.warnings ≠ 0 ∨ u.warnings ≠ 0) :
    w.exitStatus = if t.errors ≠ 0 ∨ u.errors ≠ 0 then .forcedErrors
      else if t.warnings ≠ 0 ∨ u.warnings ≠ 0 then .warnings else .ok := by
  have he' : w.errors ≠ 0 ↔ t.errors ≠ 0 ∨ u.errors ≠ 0 := by omega
  simp only [Tally.exitStatus, he', hw]

end

theorem grows_convert (o : Options) (lines : List Text) :
    ∃ c, Grows o.verbose c .zero (convert o lines).tally := by
  have hstart : Alike 0 .initial .initial := .intro rfl
  have hp : Parallel o o 0 _ _ _ _ := hstart.feedAll rfl lines (.inl rfl)
  obtain ⟨c, hc, -⟩ := hp.grows
  rw [tally_convert]
  exact ⟨c, hc⟩

section
variable {o : Options} {xs : List Text}

/-- Where no node is open a state is like the first one. -/
theorem alike_initial (h : (run o xs).fatal = none) (h0 : (run o xs).state.depth = 0) :
    Alike xs.length .initial (run o xs).state ∧ (run o xs).state.rootElided = false := by
  have hm := mirrors_run h
  rw [hm.eq_nil_iff_depth.mpr h0] at hm
  have hlen := linesRead_run h
  rw [hm.eq_initial]
  refine ⟨.intro ?_, rfl⟩
  change ((run o xs).state.linesRead : Int) = (0 : Nat) + (xs.length : Int)
  omega

theorem lines_of_closed (h : (run o xs).fatal = none) (h0 : (run o xs).state.depth = 0) :
    (convert o xs).lines = (run o xs).emitted := by
  obtain ⟨halike, -⟩ := alike_initial h h0
  have hend : (run o xs).state.blockEnd = [] := halike.blockEnd
  rw [lines_convert, Outcome.ending, if_pos h, hend]
  exact List.append_nil _

/-- Behind a text that leaves no node open all goes as from the start. -/
theorem convert_behind (h : (run o xs).fatal = none) (h0 : (run o xs).state.depth = 0)
    (ys : List Text) :
    (convert o (xs ++ ys)).lines = (convert o xs).lines ++ (convert o ys).lines ∧
      (convert o (xs ++ ys)).fatal = (convert o ys).fatal.map (Fatal.moved xs.length) ∧
      ∃ c, Grows o.verbose c .zero (convert o ys).tally ∧
        Grows o.verbose c (convert o xs).tally (convert o (xs ++ ys)).tally := by
  obtain ⟨halike, hroot⟩ := alike_initial h h0
  have hstart : (run o []).fatal = none := rfl
  obtain ⟨rest, rest', hrest, hlines, hlines', hfatal, c, hc, hc'⟩ :=
    convert_alike rfl hstart h halike hroot ys
  rw [eq_of_refits hrest] at hlines'
  have hlines : (convert o ys).lines = rest := hlines
  rw [← tally_convert] at hc'
  refine ⟨?_, hfatal, c, hc, hc'⟩
  rw [hlines', hlines, lines_of_closed h h0]

end

/-- A text that leaves no node open and the text behind it are converted as if each stood alone: the
lines follow, the counts add up, and a fatal line is fatal at its place in the whole. Only the
warning about root properties that is given once is not given again. -/
theorem convert_append {o : Options} {xs : List Text} (h : (convert o xs).fatal = none)
    (h0 : (convert o xs).outcome.state.depth = 0) (ys : List Text) :
    let x := convert o xs
    let y := convert o ys
    let whole := convert o (xs ++ ys)
    whole.lines = x.lines ++ y.lines ∧
      whole.fatal = y.fatal.map (Fatal.moved xs.length) ∧
      whole.tally.errors = x.tally.errors + y.tally.errors ∧
      whole.tally.rootProperties = x.tally.rootProperties + y.tally.rootProperties ∧
      (whole.tally.warnings + if o.verbose = 0 ∧ x.tally.rootProperties ≠ 0 ∧
        y.tally.rootProperties ≠ 0 then 1 else 0) = x.tally.warnings + y.tally.warnings ∧
      whole.status = if y.fatal.isSome then y.status
        else if x.tally.errors ≠ 0 ∨ y.tally.errors ≠ 0 then .forcedErrors
        else if x.tally.warnings ≠ 0 ∨ y.tally.warnings ≠ 0 then .warnings else .ok := by
  intro x y whole
  have hrun := run_of_convert h
  have hdepth : (run o xs).state.depth = 0 := by
    rw [outcome_of_run hrun] at h0
    exact h0
  obtain ⟨hlines, hfatal, c, hy, hwhole⟩ := convert_behind hrun hdepth ys
  obtain ⟨d, hx⟩ := grows_convert o xs
  obtain ⟨herrors, hproperties, hwarnings⟩ := hy.add hwhole
  refine ⟨hlines, hfatal, herrors, hproperties, hwarnings, ?_⟩
  change (convert o (xs ++ ys)).status = if (convert o ys).fatal.isSome then (convert o ys).status
    else _
  rw [status_convert, status_convert o ys, hfatal]
  cases (convert o ys).fatal with
  | some f => rfl
  | none => exact exitStatus_of_add herrors (hx.warned_iff hy hwhole)

/-- A root property on both sides of the cut, and a fatal line behind it. -/
theorem convert_append_of_roots :
    let xs := ["/ \x7b", "\tmodel = \"a\";", "\x7d;"].map String.toList
    let ys := ["/ \x7b", "\tmodel = \"b\";", "\t_node \x7b", "\t\x7d;"].map String.toList
    (convert .standard xs).fatal = none ∧ (convert .standard xs).outcome.state.depth = 0 ∧
      (convert .standard (xs ++ ys)).lines =
        ["/ \x7b", "\tmodel = \"a\";", "\x7d;", "/ \x7b", "\tmodel = \"b\";",
          "\x7d;"].map String.toList ∧
      (convert .standard (xs ++ ys)).fatal =
        some ⟨.illegalNode, "illegal node name '_node'", 6⟩ ∧
      (convert .standard (xs ++ ys)).tally.warnings = 1 := by
  intro xs ys
  have h : (convert .standard xs).fatal = none := by decide
  have h0 : (convert .standard xs).outcome.state.depth = 0 := by decide
  obtain ⟨hlines, hfatal, -, -, hwarnings, -⟩ := convert_append h h0 ys
  have hlines' : (convert .standard (xs ++ ys)).lines = _ := hlines
  have hfatal' : (convert .standard (xs ++ ys)).fatal = _ := hfatal
  have hboth : Options.standard.verbose = 0 ∧ (convert .standard xs).tally.rootProperties ≠ 0 ∧
      (convert .standard ys).tally.rootProperties ≠ 0 := by decide
  have hsum : (convert .standard xs).tally.warnings + (convert .standard ys).tally.warnings =
      2 := by decide
  rw [if_pos hboth, hsum] at hwarnings
  rw [hlines', hfatal']
  exact ⟨h, h0, by decide, by decide, Nat.succ.inj hwarnings⟩

/-! ## Blocks of the second level -/

structure Between (o : Options) (pre : List Text) : Prop where
  fatal : (run o pre).fatal = none
  depth : (run o pre).state.depth = 1
  dropping : (run o pre).state.dropping = none
  noBlock : (run o pre).state.inRootBlock = false

inductive Block : List Text → Prop
  | intro {opening closing : Text} {body : List Text} {n : OpenNode}
      (hopen : braceOf opening = .opens n) (hbody : Balanced body)
      (hclose : braceOf closing = .closes) : Block (opening :: body ++ [closing])

theorem offRoot_of_walk {j k : Nat} {lines : List Text} (h : walk j lines = some k) :
    OffRoot (j + 2) lines ∧ levelFrom (j + 2) lines = k + 2 := by
  induction lines generalizing j with
  | nil =>
    obtain rfl := Option.some.inj h
    exact ⟨trivial, rfl⟩
  | cons line rest ih =>
    have hnext : ∀ i, levelStep (j + 2) line = i + 2 → walk i rest = some k →
        OffRoot (j + 2) (line :: rest) ∧ levelFrom (j + 2) (line :: rest) = k + 2 := by
      intro i hlevel hrest
      obtain ⟨hoff, hend⟩ := ih hrest
      rw [OffRoot, levelFrom_cons, hlevel]
      exact ⟨⟨by omega, hoff⟩, hend⟩
    cases hb : braceOf line with
    | opens n =>
      apply hnext (j + 1)
      · rw [levelStep, hb]
      · simpa [walk, hb] using h
    | closes =>
      cases j with
      | zero => simp [walk, hb] at h
      | succ j =>
        apply hnext j
        · rw [levelStep, hb]
          rfl
        · simpa [walk, hb] using h
    | neither =>
      apply hnext j
      · rw [levelStep, hb]
      · simpa [walk, hb] using h

section
variable {o : Options} {p : List OpenNode} {t : Option Target} {s : State}
  {B pre pre' : List Text} {line : Text}

namespace Block

theorem offRoot (h : Block B) : OffRoot 1 B := by
  obtain @⟨opening, closing, body, n, hopen, hbody, hclose⟩ := h
  have hlevel : levelStep 1 opening = 2 := by rw [levelStep, hopen]
  obtain ⟨hoff, hend⟩ := offRoot_of_walk hbody
  refine ⟨fun _ => ⟨n, hopen⟩, ?_⟩
  rw [hlevel]
  apply offRoot_append hoff
  rw [hend]
  exact ⟨by omega, trivial⟩

theorem pathOf_append (h : Block B) (pre : List Text) : pathOf (pre ++ B) = pathOf pre := by
  obtain ⟨hopen, hbody, hclose⟩ := h
  rw [← List.append_assoc, pathOf_concat, pathOf_inside hopen hbody, descend, hclose]
  exact List.dropLast_concat

end Block

theorem noBlock_of_closes (hb : braceOf line = .closes) (h : s.inRootBlock = false) :
    (s.feed o line).state.inRootBlock = false := by
  obtain ⟨r, hr, hrule⟩ := s.feed_closes (o := o) hb
  rw [hr, Outcome.state_after]
  cases hrule with
  | root hd hs h1 he => rfl
  | _ => exact h

theorem Mirrors.eq_outer (h : Mirrors o p t s) (hp : p.length ≤ 1) (hd : s.dropping = none)
    (hb : s.inRootBlock = false) : s = { State.initial with
      depth := p.length, rootElided := s.rootElided, linesRead := s.linesRead,
      bytesRead := s.bytesRead, tally := s.tally } := by
  have hfrag : fragmentOf o p = none := fragmentOf_of_length_le hp
  have ht : s.pending = none := h.pending.trans (h.eq_none_of_length_le hp)
  obtain ⟨hdepth, -, -, hin, hstack, hname, -, -, -⟩ := h
  rw [hfrag] at hin hstack hname
  obtain ⟨d, f, q, i, n, b, e, x, _, _, _⟩ := s
  simp only at hd hb ht hdepth hin hstack hname
  rw [hd, hb, ht, hdepth, hin, hstack, hname]
  rfl

namespace Between

theorem alike (h : Between o pre) (h' : Between o pre') :
    Alike (pre'.length - pre.length) (run o pre).state (run o pre').state := by
  have hm := mirrors_run h.fatal
  have hm' := mirrors_run h'.fatal
  have hl : (pathOf pre).length = 1 := hm.depth.symm.trans h.depth
  have hl' : (pathOf pre').length = 1 := hm'.depth.symm.trans h'.depth
  have hlen := linesRead_run h.fatal
  have hlen' := linesRead_run h'.fatal
  rw [hm.eq_outer hl.le h.dropping h.noBlock, hm'.eq_outer hl'.le h'.dropping h'.noBlock, hl, hl']
  constructor
  change ((run o pre').state.linesRead : Int) = (run o pre).state.linesRead + _
  omega

/-- Inside a block more than the first node is open, so it starts no block of root properties. -/
theorem noBlock_append (h : Between o pre) (hB : Block B) (hf : (run o (pre ++ B)).fatal = none) :
    (run o (pre ++ B)).state.inRootBlock = false := by
  obtain @⟨opening, closing, body, n, hopen, hbody, hclose⟩ := hB
  rw [← List.append_assoc] at hf ⊢
  obtain ⟨hinside, -⟩ := run_fatal_of_concat hf
  have hm := mirrors_run hinside
  have hdepth : (run o (pre ++ opening :: body)).state.depth ≠ 1 := by
    have hpre := (mirrors_run h.fatal).depth
    rw [h.depth] at hpre
    rw [hm.depth, pathOf_inside hopen hbody, List.length_append, ← hpre, List.length_singleton]
    omega
  rw [run_concat hinside, Outcome.state_after]
  apply noBlock_of_closes hclose
  by_contra hb
  exact hdepth (hm.sound.block (by simpa using hb)).1

/-- Behind a block it is as in front of it. -/
theorem append (h : Between o pre) (hB : Block B) (hf : (run o (pre ++ B)).fatal = none) :
    Between o (pre ++ B) ∧
      (run o (pre ++ B)).state.rootElided = (run o pre).state.rootElided := by
  have hm := mirrors_run h.fatal
  have hm' := mirrors_run hf
  rw [hB.pathOf_append] at hm'
  have hdepth : (run o (pre ++ B)).state.depth = 1 := by rw [hm'.depth, ← hm.depth, h.depth]
  have hdropping := hm'.not_dropping.mpr (hm.not_dropping.mp h.dropping)
  exact ⟨⟨hf, hdepth, hdropping, h.noBlock_append hB hf⟩, hm'.rootElided.trans hm.rootElided.symm⟩

/-- A block goes the same way behind any lines that leave just the first node open. -/
theorem block_alike (h : Between o pre) (h' : Between o pre') (hB : Block B)
    (hf : (run o (pre ++ B)).fatal = none) :
    (run o (pre' ++ B)).fatal = none ∧
      (run o (pre' ++ B)).emitted =
        (run o pre').emitted ++ (State.feedAll o (run o pre).state B).emitted ∧
      ∃ c, Grows o.verbose c (run o pre).state.tally (run o (pre ++ B)).state.tally ∧
        Grows o.verbose c (run o pre').state.tally (run o (pre' ++ B)).state.tally := by
  have hoff : OffRoot (run o pre).state.depth B := by
    rw [h.depth]
    exact hB.offRoot
  have hp : Parallel o o _ _ _ _ _ := (h.alike h').feedAll rfl B (.inr hoff)
  rw [run_append h.fatal] at hf ⊢
  rw [run_append h'.fatal, Outcome.fatal_after, Outcome.emitted_after, hp.fatal,
    eq_of_refits hp.emitted, show (State.feedAll o (run o pre).state B).fatal = none from hf]
  exact ⟨rfl, rfl, hp.grows⟩

end Between

end

/-- Two conversions that agree up to some lines agree on all that follows. -/
theorem convert_same {o : Options} {xs xs' : List Text} (hx : (run o xs).fatal = none)
    (hx' : (run o xs').fatal = none) (h : Alike 0 (run o xs).state (run o xs').state)
    (hroot : (run o xs').state.rootElided = (run o xs).state.rootElided)
    (htally : (run o xs').state.tally = (run o xs).state.tally) (ys : List Text) :
    (∃ rest, (convert o (xs ++ ys)).lines = (run o xs).emitted ++ rest ∧
      (convert o (xs' ++ ys)).lines = (run o xs').emitted ++ rest) ∧
      (convert o (xs' ++ ys)).fatal = (convert o (xs ++ ys)).fatal ∧
      (convert o (xs' ++ ys)).tally = (convert o (xs ++ ys)).tally ∧
      (convert o (xs' ++ ys)).status = (convert o (xs ++ ys)).status := by
  obtain ⟨rest, rest', hrest, hlines, hlines', hfatal, c, hc, hc'⟩ :=
    convert_alike rfl hx hx' h hroot ys
  rw [eq_of_refits hrest] at hlines'
  have hmoved : Fatal.moved 0 = id := by
    funext f
    simp [Fatal.moved]
  rw [hmoved, Option.map_id_fun, id] at hfatal
  rw [htally] at hc'
  have htally' := hc.unique hc'
  refine ⟨⟨rest, hlines, hlines'⟩, hfatal, htally', ?_⟩
  rw [status_convert, status_convert o (xs ++ ys), hfatal, htally']

/-- Two blocks in a row leave the same behind in either order. -/
theorem Between.swap {o : Options} {pre B C : List Text} (hpre : Between o pre) (hB : Block B)
    (hC : Block C) (h : (run o (pre ++ B ++ C)).fatal = none) :
    (run o (pre ++ C ++ B)).fatal = none ∧
      Alike 0 (run o (pre ++ B ++ C)).state (run o (pre ++ C ++ B)).state ∧
      (run o (pre ++ C ++ B)).state.rootElided = (run o (pre ++ B ++ C)).state.rootElided ∧
      (run o (pre ++ C ++ B)).state.tally = (run o (pre ++ B ++ C)).state.tally := by
  have hfB : (run o (pre ++ B)).fatal = none := State.fatal_of_append h
  obtain ⟨hpreB, hrootB⟩ := hpre.append hB hfB
  have hfC : (run o (pre ++ C)).fatal = none := (hpreB.block_alike hpre hC h).1
  obtain ⟨hpreC, hrootC⟩ := hpre.append hC hfC
  obtain ⟨-, -, c, hc, hc'⟩ := hpre.block_alike hpreB hC hfC
  obtain ⟨hCB, -, b, hb, hb'⟩ := hpre.block_alike hpreC hB hfB
  obtain ⟨hpreBC, hrootBC⟩ := hpreB.append hC h
  obtain ⟨hpreCB, hrootCB⟩ := hpreC.append hB hCB
  have hlen : ((pre ++ C ++ B).length : Int) - (pre ++ B ++ C).length = 0 := by
    simp only [List.length_append]
    omega
  -- The same lines were read in both orders, so no line number moves behind the blocks.
  have halike := hpreBC.alike hpreCB
  rw [hlen] at halike
  refine ⟨hCB, halike, ?_, hb.swap hc' hc hb'⟩
  rw [hrootCB, hrootC, hrootBC, hrootB]

/-- Two blocks in a row can change places. Each is written the same behind any lines that leave just
the first node open, so what is written for the two changes places as well. Nothing else that is
written changes, nor what is counted and how the conversion ends. -/
theorem blocks_commute {o : Options} {pre B C : List Text} (hpre : Between o pre) (hB : Block B)
    (hC : Block C) (h : (run o (pre ++ B ++ C)).fatal = none) :
    ∃ b c,
      (∀ pre', Between o pre' → (run o (pre' ++ B)).fatal = none ∧
        (run o (pre' ++ B)).emitted = (run o pre').emitted ++ b) ∧
      (∀ pre', Between o pre' → (run o (pre' ++ C)).fatal = none ∧
        (run o (pre' ++ C)).emitted = (run o pre').emitted ++ c) ∧
      ∀ suf,
        (∃ rest,
          (convert o (pre ++ B ++ C ++ suf)).lines = (run o pre).emitted ++ b ++ c ++ rest ∧
          (convert o (pre ++ C ++ B ++ suf)).lines = (run o pre).emitted ++ c ++ b ++ rest) ∧
        (convert o (pre ++ C ++ B ++ suf)).fatal = (convert o (pre ++ B ++ C ++ suf)).fatal ∧
        (convert o (pre ++ C ++ B ++ suf)).tally = (convert o (pre ++ B ++ C ++ suf)).tally ∧
        (convert o (pre ++ C ++ B ++ suf)).status = (convert o (pre ++ B ++ C ++ suf)).status := by
  have hfB : (run o (pre ++ B)).fatal = none := State.fatal_of_append h
  have hpreB := (hpre.append hB hfB).1
  have hb : ∀ pre', Between o pre' → (run o (pre' ++ B)).fatal = none ∧
      (run o (pre' ++ B)).emitted =
        (run o pre').emitted ++ (State.feedAll o (run o pre).state B).emitted := by
    intro pre' h'
    obtain ⟨hf, hout, -⟩ := hpre.block_alike h' hB hfB
    exact ⟨hf, hout⟩
  have hc : ∀ pre', Between o pre' → (run o (pre' ++ C)).fatal = none ∧
      (run o (pre' ++ C)).emitted = (run o pre').emitted ++
        (State.feedAll o (run o (pre ++ B)).state C).emitted := by
    intro pre' h'
    obtain ⟨hf, hout, -⟩ := hpreB.block_alike h' hC h
    exact ⟨hf, hout⟩
  have hpreC := (hpre.append hC (hc pre hpre).1).1
  obtain ⟨hf, halike, hroot, htally⟩ := hpre.swap hB hC h
  refine ⟨_, _, hb, hc, fun suf => ?_⟩
  obtain ⟨⟨rest, hlines, hlines'⟩, hsame⟩ := convert_same h hf halike hroot htally suf
  refine ⟨⟨rest, ?_, ?_⟩, hsame⟩
  · rw [hlines, (hc _ hpreB).2, (hb _ hpre).2]
  · rw [hlines', (hb _ hpreC).2, (hc _ hpre).2]

/-- A node that is dropped, with a fragment in it, and a fragment with an unsupported path. -/
theorem blocks_commute_of_dropped :
    let o : Options := ⟨true, true, 0⟩
    let pre := ["/ \x7b".toList]
    let dropped := "\t_node \x7b".toList ::
      ["\t\tfragment@0 \x7b", "\t\ttarget = <&uart>;", "\t\t\x7d;"].map String.toList ++
      ["\t\x7d;".toList]
    let fragment := "\tfragment@1 \x7b".toList ::
      ["\t\ttarget-path = \"/soc\";", "\t\t__overlay__ \x7b", "\t\t\x7d;"].map String.toList ++
      ["\t\x7d;".toList]
    let last := ["\x7d;".toList]
    Between o pre ∧ Block dropped ∧ Block fragment ∧
      (run o (pre ++ dropped ++ fragment)).fatal = none ∧
      (convert o (pre ++ fragment ++ dropped ++ last)).tally = ⟨1, 1, 0⟩ ∧
      (convert o (pre ++ fragment ++ dropped ++ last)).status = .forcedErrors := by
  intro o pre dropped fragment last
  have hpre : Between o pre := ⟨by decide, by decide, by decide, by decide⟩
  have hdropped : Block dropped :=
    @Block.intro _ _ _ ⟨[], "_node".toList⟩ (by decide) (by decide) (by decide)
  have hfragment : Block fragment :=
    @Block.intro _ _ _ ⟨[], "fragment@1".toList⟩ (by decide) (by decide) (by decide)
  have h : (run o (pre ++ dropped ++ fragment)).fatal = none := by decide
  obtain ⟨b, c, -, -, hswap⟩ := blocks_commute hpre hdropped hfragment h
  obtain ⟨-, -, htally, hstatus⟩ := hswap last
  rw [htally, hstatus]
  exact ⟨hpre, hdropped, hfragment, h, by decide, by decide⟩

end OverlaySugar
