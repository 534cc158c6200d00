import OverlaySugar.Proofs.Reconversion
import OverlaySugar.Proofs.Remarks

/-!
# Blocks of root properties

Properties that stand directly in a root node are written in a root node of
their own. Such a block goes from one property to the next line with a brace,
and where it starts and ends can be read off the lines. Every line that bounds
a block in the output belongs to one of these, also where a fatal line ends it.
-/

set_option autoImplicit false

namespace OverlaySugar
open Text

/-! ## Blocks in the lines -/

namespace Site

def isInRoot (x : Site) : Bool :=
  match x.path with
  | [n] => n.isRoot && decide (BraceFree x.line)
  | _ => false

def divides (x : Site) : Bool := braceOf x.line != .neither && x.path.length == 1

def blockAfter (x : Site) (b : Bool) : Bool :=
  x.isRootProperty || (b && decide (BraceFree x.line))

theorem isRootProperty_eq_and (x : Site) :
    x.isRootProperty = (x.isInRoot && assignsProperty (dropTerminator x.line)) := by
  obtain ⟨_ | ⟨m, _ | ⟨n, p⟩⟩, line⟩ := x
  · rfl
  · rfl
  · rfl

theorem of_isInRoot {x : Site} (h : x.isInRoot = true) :
    ∃ n, x.path = [n] ∧ n.isRoot = true ∧ BraceFree x.line := by
  unfold isInRoot at h
  split at h
  · next n hp =>
    simp only [Bool.and_eq_true, decide_eq_true_eq] at h
    exact ⟨n, hp, h⟩
  · cases h

theorem isInRoot_of_isRootProperty {x : Site} (h : x.isRootProperty = true) :
    x.isInRoot = true := by
  rw [isRootProperty_eq_and, Bool.and_eq_true] at h
  exact h.1

theorem braceFree_of_isRootProperty {x : Site} (h : x.isRootProperty = true) :
    BraceFree x.line := by
  obtain ⟨-, -, -, hb⟩ := of_isInRoot (isInRoot_of_isRootProperty h)
  exact hb

end Site

def blockOpen (lines : List Text) : Bool :=
  (sitesFrom [] lines).foldl (fun b x => x.blockAfter b) false

structure RootBlock (front block back : List Text) : Prop where
  starts : ∃ first rest, block = first :: rest ∧ Site.isRootProperty ⟨pathOf front, first⟩ = true
  inRoot : ∀ x ∈ sitesFrom (pathOf front) block, x.isInRoot = true
  fresh : blockOpen front = false
  ends : ∀ line ∈ back.head?, ¬ BraceFree line

theorem blockOpen_concat (lines : List Text) (line : Text) :
    blockOpen (lines ++ [line]) = Site.blockAfter ⟨pathOf lines, line⟩ (blockOpen lines) := by
  rw [blockOpen, sitesFrom_append, List.foldl_append]
  rfl

/-- Lines without braces all stand where the first one does. -/
theorem sitesFrom_of_braceFree {lines : List Text} (h : ∀ line ∈ lines, BraceFree line)
    (p : List OpenNode) : sitesFrom p lines = lines.map (Site.mk p) := by
  induction lines with
  | nil => rfl
  | cons line rest ih =>
    rw [sitesFrom, descend_of_braceFree (h line (by simp)), ih fun x hx => h x (by simp [hx])]
    rfl

theorem isInRoot_of_braceFree {n : OpenNode} {lines : List Text} (hn : n.isRoot = true)
    (h : ∀ line ∈ lines, BraceFree line) :
    ∀ x ∈ sitesFrom [n] lines, x.isInRoot = true := by
  rw [sitesFrom_of_braceFree h]
  intro x hx
  obtain ⟨line, hline, rfl⟩ := List.mem_map.mp hx
  simp [Site.isInRoot, hn, h line hline]

/-- In a root node every brace divides. -/
theorem braceFree_of_undivided {n : OpenNode} {lines : List Text}
    (h : ∀ x ∈ sitesFrom [n] lines, x.divides = false) : ∀ line ∈ lines, BraceFree line := by
  induction lines with
  | nil => simp
  | cons line rest ih =>
    have hb : BraceFree line := by
      have hx := h ⟨[n], line⟩ (by simp [sitesFrom])
      simp only [Site.divides, List.length_singleton, BEq.rfl, Bool.and_true, bne_eq_false_iff_eq]
        at hx
      exact braceFree_of_neither hx
    intro x hx
    rcases List.mem_cons.mp hx with rfl | hx
    · exact hb
    · refine ih (fun y hy => h y ?_) x hx
      rw [sitesFrom, descend_of_braceFree hb]
      exact List.mem_cons_of_mem _ hy

/-- An open block starts at a root property where none was open. -/
theorem exists_start {lines : List Text} (h : blockOpen lines = true) :
    ∃ front first rest, lines = front ++ first :: rest ∧ blockOpen front = false ∧
      Site.isRootProperty ⟨pathOf front, first⟩ = true ∧ ∀ line ∈ rest, BraceFree line := by
  induction lines using List.reverseRecOn with
  | nil => cases h
  | append_singleton lines line ih =>
    rw [blockOpen_concat, Site.blockAfter, Bool.or_eq_true, Bool.and_eq_true,
      decide_eq_true_eq] at h
    cases hopen : blockOpen lines with
    | true =>
      have hb : BraceFree line := h.elim Site.braceFree_of_isRootProperty (·.2)
      obtain ⟨front, first, rest, rfl, hfresh, hfirst, hrest⟩ := ih hopen
      refine ⟨front, first, rest ++ [line], by simp, hfresh, hfirst, fun x hx => ?_⟩
      rcases List.mem_append.mp hx with hx | hx
      · exact hrest x hx
      · rwa [List.mem_singleton.mp hx]
    | false =>
      have hfirst : Site.isRootProperty ⟨pathOf lines, line⟩ = true := by simpa [hopen] using h
      exact ⟨lines, line, [], rfl, hopen, hfirst, by simp⟩

theorem blockOpen_of_property {front rest : List Text} {first : Text}
    (hfirst : Site.isRootProperty ⟨pathOf front, first⟩ = true)
    (hrest : ∀ line ∈ rest, BraceFree line) : blockOpen (front ++ first :: rest) = true := by
  induction rest using List.reverseRecOn with
  | nil => rw [blockOpen_concat, Site.blockAfter, hfirst, Bool.true_or]
  | append_singleton rest line ih =>
    have hopen := ih fun x hx => hrest x (by simp [hx])
    have hline : BraceFree line := hrest line (by simp)
    rw [← List.cons_append, ← List.append_assoc, blockOpen_concat, Site.blockAfter, hopen]
    simp [hline]

/-- The block that is open behind a root property starts there or in front of it. -/
theorem exists_start_of_property {pre : List Text} {line : Text}
    (h : Site.isRootProperty ⟨pathOf pre, line⟩ = true) :
    ∃ front before first rest, pre = front ++ before ∧ before ++ [line] = first :: rest ∧
      blockOpen front = false ∧ Site.isRootProperty ⟨pathOf front, first⟩ = true ∧
      ∀ x ∈ rest, BraceFree x := by
  have hopen : blockOpen (pre ++ [line]) = true := blockOpen_of_property h (by simp)
  obtain ⟨front, first, rest, heq, hfresh, hfirst, hrest⟩ := exists_start hopen
  obtain ⟨before, last, hlast⟩ : ∃ before last, first :: rest = before ++ [last] :=
    (List.eq_nil_or_concat' (first :: rest)).resolve_left (by simp)
  rw [hlast, ← List.append_assoc] at heq
  obtain ⟨hpre, hline⟩ := List.append_inj' heq rfl
  rw [← hline] at hlast
  exact ⟨front, before, first, rest, hpre, hlast.symm, hfresh, hfirst, hrest⟩

/-- The block of a root property goes on up to the next line with a brace. -/
theorem rootBlock_of_property {front rest back : List Text} {first : Text}
    (hfresh : blockOpen front = false)
    (hfirst : Site.isRootProperty ⟨pathOf front, first⟩ = true)
    (hrest : ∀ line ∈ rest, BraceFree line) (hback : ∀ line ∈ back.head?, ¬ BraceFree line) :
    RootBlock front (first :: rest) back := by
  obtain ⟨n, hp, hn, hb⟩ := Site.of_isInRoot (Site.isInRoot_of_isRootProperty hfirst)
  have hp : pathOf front = [n] := hp
  have hall : ∀ line ∈ first :: rest, BraceFree line := by
    intro x hx
    rcases List.mem_cons.mp hx with rfl | hx
    · exact hb
    · exact hrest x hx
  have hroot := isInRoot_of_braceFree hn hall
  rw [← hp] at hroot
  exact ⟨⟨first, rest, rfl, hfirst⟩, hroot, hfresh, hback⟩

/-- Lines split in front of the first one with a brace. -/
theorem exists_braceFree_split (lines : List Text) :
    ∃ rest back, lines = rest ++ back ∧ (∀ line ∈ rest, BraceFree line) ∧
      ∀ line ∈ back.head?, ¬ BraceFree line := by
  induction lines with
  | nil => exact ⟨[], [], rfl, by simp, by simp⟩
  | cons line lines ih =>
    by_cases hb : BraceFree line
    · obtain ⟨rest, back, rfl, hrest, hback⟩ := ih
      exact ⟨line :: rest, back, rfl, by simpa [hb] using hrest, hback⟩
    · exact ⟨[], line :: lines, rfl, by simp, by simpa using hb⟩

/-! ## One line -/

def unbounded (ts : List Text) : List (Bool × Text) := ts.map (false, ·)

inductive Frames (s : State) (x : Position) (r : Outcome) : Prop
  | ends (ts : List Text) (hb : ¬ BraceFree x.line) (hs : r.state.inRootBlock = false)
      (hout : r.framed = s.blockEnd.filterMap Event.framed? ++ unbounded ts)
  | goesOn (hb : BraceFree x.line) (hs : r.state.inRootBlock = true) (hf : r.fatal = none)
      (hx : x.site.isRootProperty = true ∨ s.inRootBlock = true)
      (hout : r.framed = s.blockStart.filterMap Event.framed? ++ unbounded [dropTerminator x.line])
  | outside (ts : List Text) (hb : BraceFree x.line) (hs : r.state.inRootBlock = false)
      (hf : r.fatal = none) (hx : x.site.isRootProperty = false) (hblock : s.inRootBlock = false)
      (hout : r.framed = unbounded ts)

section
variable {o : Options} {x : Position} {s : State} {l : Line} {r : Outcome} {n : OpenNode}

theorem frames_noBlock (ts : List Text) (hb : ¬ BraceFree x.line) (hblock : s.inRootBlock = false)
    (hs : r.state.inRootBlock = false) (hout : r.framed = unbounded ts) : Frames s x r := by
  have hend : s.blockEnd = [] := if_neg (by simp [hblock])
  exact .ends ts hb hs (by rw [hend, hout]; rfl)

/-- The end of the block is written in front of what a node that opens writes. -/
theorem frames_deeper (h : Mirrors o (pathOf x.front) (waiting o x.front) s)
    (hb : ¬ BraceFree x.line) (ts : List Text) {es : List Event}
    (hs : r.state.inRootBlock = s.deeper.inRootBlock) (hr : r.events = s.deeperEnd ++ es)
    (hes : es.filterMap Event.framed? = unbounded ts) : Frames s x r := by
  refine .ends ts hb (hs.trans h.deeper_block) ?_
  rw [Outcome.framed, hr, h.sound.deeperEnd_eq, List.filterMap_append, hes]

theorem frames_opens (h : Mirrors o (pathOf x.front) (waiting o x.front) s)
    (hb : braceOf x.line = .opens n) (hr : State.Opening o s l n.label n.name r) :
    Frames s x r := by
  have hbrace : ¬ BraceFree x.line := mt braceOf_of_braceFree (by simp [hb])
  cases hr with
  | inDropped hd =>
    have hblock := h.block_of_dropping (by simp [hd])
    exact frames_noBlock [] hbrace hblock hblock rfl
  | fragment hd h1 hn =>
    exact frames_deeper h hbrace [] rfl (List.append_nil _).symm rfl
  | heading hd hn hp => exact frames_deeper h hbrace [_] rfl rfl rfl
  | notice hd hn hp hf => exact frames_deeper h hbrace [_, _] rfl rfl rfl
  | stopOverlay hd hn hp hf => exact frames_deeper h hbrace [] rfl rfl rfl
  | dropNode hd hr hn hf => exact frames_deeper h hbrace [] rfl rfl rfl
  | stopReserved hd hr hn hf => exact frames_deeper h hbrace [] rfl rfl rfl
  | root hd h0 hn =>
    have hblock := noBlock_of_depth h (by omega)
    exact frames_noBlock [] hbrace hblock h.deeper_block rfl
  | top hd hr h0 hn =>
    have hblock := noBlock_of_depth h (by omega)
    exact frames_noBlock [_] hbrace hblock h.deeper_block rfl
  | inner hd hr h0 hn => exact frames_deeper h hbrace [_] rfl rfl rfl

theorem frames_closes (h : Mirrors o (pathOf x.front) (waiting o x.front) s)
    (hb : braceOf x.line = .closes) (hr : State.Closing o s l r) : Frames s x r := by
  have hbrace : ¬ BraceFree x.line := mt braceOf_of_braceFree (by simp [hb])
  cases hr with
  | dropped hd ht =>
    have hblock := h.block_of_dropping (by simp [hd])
    exact frames_noBlock [] hbrace hblock hblock rfl
  | inDropped hd ht =>
    have hblock := h.block_of_dropping (by simp [hd])
    exact frames_noBlock [] hbrace hblock hblock rfl
  | fragment hd hs =>
    obtain ⟨m, n, hp, -⟩ := h.at_fragment hs
    have hblock := noBlock_of_depth h (by rw [h.depth, hp]; simp)
    exact frames_noBlock [] hbrace hblock hblock (filterMap_unusedTarget (fun _ => rfl) s)
  | root hd hs h1 hr => exact .ends [] hbrace rfl (List.append_nil _).symm
  | stray hd hs h0 =>
    have hblock := noBlock_of_depth h (by omega)
    exact frames_noBlock [_] hbrace hblock hblock rfl
  | inner hd hs h0 hr =>
    have hblock : s.inRootBlock = false := by
      by_contra hblock
      obtain ⟨h1, he, -⟩ := h.sound.block (by simpa using hblock)
      cases he.symm.trans (hr h1)
    exact frames_noBlock [_] hbrace hblock hblock rfl

/-- Where a block is open no target is read. -/
theorem noBlock_of_target (h : Mirrors o (pathOf x.front) (waiting o x.front) s) {v : Target}
    (hv : x.site.target? o = some v) : s.inRootBlock = false := by
  have hl : (pathOf x.front).length = 2 := (Site.of_target? hv).2.1
  exact noBlock_of_depth h (by rw [h.depth, hl]; simp)

theorem frames_stays (h : Mirrors o (pathOf x.front) (waiting o x.front) s)
    (hb : BraceFree x.line)
    (hr : State.Staying o s (classify s.allowsTarget (x.number : Nat) x.line) r) :
    Frames s x r := by
  have htarget : x.site.target? o = _ := h.target?_eq hb (x.number : Nat)
  have hroot : s.isRootProperty (classify s.allowsTarget (x.number : Nat) x.line) =
      x.site.isRootProperty := h.isRootProperty_eq rfl hb
  cases hr with
  | inDropped hd =>
    have hblock := h.block_of_dropping (by simp [hd])
    have hdrop := isRootProperty_of_dropped (h.any_drops_of_dropping hd)
    exact .outside [] hb hblock rfl hdrop hblock rfl
  | reference hd hc =>
    rw [hc] at htarget
    have hblock := noBlock_of_target h htarget
    exact .outside [] hb hblock rfl (isRootProperty_of_target htarget) hblock rfl
  | path hd hc =>
    rw [hc] at htarget
    have hblock := noBlock_of_target h htarget
    exact .outside [] hb hblock rfl (isRootProperty_of_target htarget) hblock rfl
  | rootProperty hd hc hp =>
    have h1 : s.depth = 1 := by
      simp only [State.isRootProperty, Bool.and_eq_true, beq_iff_eq] at hp
      exact hp.1.1.2
    refine .goesOn hb rfl rfl (.inl (hroot.symm.trans hp)) ?_
    rw [Outcome.framed, Outcome.events_writing, filterMap_property (fun _ => rfl), h1]
    simp [indentFix, Event.framed?, Origin.boundsBlock, unbounded, classify]
  | plain hd hc hp =>
    cases hblock : s.inRootBlock with
    | true =>
      have h1 : s.depth = 1 := (h.sound.block hblock).1
      have hstart : s.blockStart = [] := if_pos hblock
      refine .goesOn hb hblock rfl (.inr hblock) ?_
      rw [hstart, h1]
      simp [Outcome.framed, indentFix, Event.framed?, Origin.boundsBlock, unbounded, classify]
    | false => exact .outside [_] hb hblock rfl (hroot.symm.trans hp) hblock rfl

theorem frames_feed (h : Mirrors o (pathOf x.front) (waiting o x.front) s)
    (hlen : s.linesRead = x.front.length) : Frames s x (s.feed o x.line) := by
  have hc := h.count x.line
  obtain ⟨r, hr, hrule⟩ := s.feed_cases o x.line
  have hframes : Frames (s.count x.line) x r := by
    rcases hrule with ⟨n, hb, hrule⟩ | ⟨hb, hrule⟩ | ⟨hb, hrule⟩
    · exact frames_opens hc hb hrule
    · exact frames_closes hc hb hrule
    · rw [lineOf_position hlen] at hrule
      exact frames_stays hc hb hrule
  rw [hr]
  cases hframes with
  | ends ts hb hs hout => exact .ends ts hb hs hout
  | goesOn hb hs hf hx hout => exact .goesOn hb hs hf hx hout
  | outside ts hb hs hf hx hblock hout => exact .outside ts hb hs hf hx hblock hout

end

/-! ## Runs -/

section
variable {o : Options} {lines : List Text}

theorem frames_next (h : (run o lines).fatal = none) (line : Text) :
    Frames (run o lines).state ⟨lines, line⟩ (readNext o lines line) :=
  @frames_feed o ⟨lines, line⟩ _ (mirrors_run h) (linesRead_run h)

theorem Frames.inRootBlock {s : State} {x : Position} {r : Outcome} (h : Frames s x r) :
    r.state.inRootBlock = x.site.blockAfter s.inRootBlock := by
  have hline : x.site.line = x.line := rfl
  cases h with
  | ends ts hb hs hout =>
    have hx : x.site.isRootProperty = false := by
      by_contra hx
      exact hb (Site.braceFree_of_isRootProperty (by simpa using hx))
    simp [hs, Site.blockAfter, hx, hline, hb]
  | goesOn hb hs hf hx hout =>
    rcases hx with hx | hx
    · simp [hs, Site.blockAfter, hx]
    · simp [hs, Site.blockAfter, hx, hline, hb]
  | outside ts hb hs hf hx hblock hout => simp [hs, Site.blockAfter, hx, hblock]

/-- The converter has a block open where the lines have one. -/
theorem inRootBlock_run (h : (run o lines).fatal = none) :
    (run o lines).state.inRootBlock = blockOpen lines := by
  refine run_induction (P := fun lines r => r.state.inRootBlock = blockOpen lines) rfl ?_ h
  intro lines line hx ih hf
  rw [Outcome.state_after, blockOpen_concat, ← ih]
  exact (frames_next hx line).inRootBlock

theorem framed_concat (h : (run o lines).fatal = none) (line : Text) :
    (run o (lines ++ [line])).framed = (run o lines).framed ++ (readNext o lines line).framed := by
  rw [run_concat h, Outcome.framed_after]
  rfl

theorem blockStart_framed {s : State} : s.blockStart.filterMap Event.framed? =
    if s.inRootBlock then [] else [(true, rootBlockOpen)] := by
  rw [State.blockStart]
  split <;> rfl

theorem blockEnd_framed {s : State} : s.blockEnd.filterMap Event.framed? =
    if s.inRootBlock then [(true, rootBlockClose)] else [] := by
  rw [State.blockEnd]
  split <;> rfl

/-- A root property and the lines without braces behind it are written behind the start of a
block. -/
theorem run_block {front rest : List Text} {first : Text} (h : (run o front).fatal = none)
    (hfresh : blockOpen front = false)
    (hfirst : Site.isRootProperty ⟨pathOf front, first⟩ = true)
    (hrest : ∀ line ∈ rest, BraceFree line) :
    (run o (front ++ first :: rest)).fatal = none ∧
      (run o (front ++ first :: rest)).framed = (run o front).framed ++
        (true, rootBlockOpen) :: unbounded ((first :: rest).map dropTerminator) := by
  induction rest using List.reverseRecOn with
  | nil =>
    have hblock := (inRootBlock_run h).trans hfresh
    rw [framed_concat h, run_concat h]
    cases frames_next h first with
    | ends ts hb hs hout => exact absurd (Site.braceFree_of_isRootProperty hfirst) hb
    | goesOn hb hs hf hx hout =>
      rw [hout, blockStart_framed, hblock]
      exact ⟨hf, rfl⟩
    | outside ts hb hs hf hx hblock hout => cases hfirst.symm.trans hx
  | append_singleton rest line ih =>
    have hbefore : ∀ x ∈ rest, BraceFree x := fun x hx => hrest x (by simp [hx])
    obtain ⟨hrun, hframed⟩ := ih hbefore
    have hblock := (inRootBlock_run hrun).trans (blockOpen_of_property hfirst hbefore)
    rw [← List.cons_append, ← List.append_assoc, framed_concat hrun, run_concat hrun]
    cases frames_next hrun line with
    | ends ts hb hs hout => exact absurd (hrest line (by simp)) hb
    | goesOn hb hs hf hx hout =>
      rw [hout, blockStart_framed, hblock, hframed]
      refine ⟨hf, ?_⟩
      simp [unbounded]
    | outside ts hb hs hf hx hnone hout => cases hblock.symm.trans hnone

/-! ## Where blocks start -/

theorem notMem_unbounded (t : Text) (ts : List Text) : (true, t) ∉ unbounded ts := by
  simp [unbounded]

theorem start_notMem_blockEnd (s : State) :
    (true, rootBlockOpen) ∉ s.blockEnd.filterMap Event.framed? := by
  rw [blockEnd_framed]
  split
  · decide
  · simp

/-- A line starts a block only if it is a root property and no block is open, and the start is the
first that it writes. -/
theorem Frames.start {s : State} {x : Position} {r : Outcome} {a b : List (Bool × Text)}
    (h : Frames s x r) (hr : r.framed = a ++ (true, rootBlockOpen) :: b) :
    a = [] ∧ s.inRootBlock = false ∧ x.site.isRootProperty = true := by
  have hmem : (true, rootBlockOpen) ∈ r.framed := by simp [hr]
  cases h with
  | ends ts hb hs hout =>
    rw [hout, List.mem_append] at hmem
    exact absurd hmem (not_or.mpr ⟨start_notMem_blockEnd s, notMem_unbounded _ ts⟩)
  | goesOn hb hs hf hx hout =>
    rw [hout, blockStart_framed] at hmem hr
    cases hblock : s.inRootBlock with
    | true =>
      rw [hblock] at hmem
      exact absurd hmem (notMem_unbounded _ _)
    | false =>
      rw [hblock] at hr hx
      refine ⟨?_, rfl, hx.resolve_right (by simp)⟩
      cases a with
      | nil => rfl
      | cons y a =>
        have htail : unbounded [dropTerminator x.line] = a ++ (true, rootBlockOpen) :: b :=
          (List.cons.inj hr).2
        have hstart : (true, rootBlockOpen) ∈ unbounded [dropTerminator x.line] := by simp [htail]
        exact absurd hstart (notMem_unbounded _ _)
  | outside ts hb hs hf hx hblock hout =>
    rw [hout] at hmem
    exact absurd hmem (notMem_unbounded _ ts)

def StartsAt (o : Options) (lines : List Text) (out : List (Bool × Text)) : Prop :=
  ∃ front first rest, lines = front ++ first :: rest ∧ (run o front).fatal = none ∧
    out = (run o front).framed ∧ blockOpen front = false ∧
    Site.isRootProperty ⟨pathOf front, first⟩ = true

theorem StartsAt.append {out : List (Bool × Text)} (h : StartsAt o lines out) (ys : List Text) :
    StartsAt o (lines ++ ys) out := by
  obtain ⟨front, first, rest, rfl, h⟩ := h
  exact ⟨front, first, rest ++ ys, by simp, h⟩

/-- An entry of two lists in a row is one of the first or of the second. -/
theorem append_eq_append_cons {α : Type} {xs ys a b : List α} {c : α}
    (h : xs ++ ys = a ++ c :: b) :
    (∃ b', xs = a ++ c :: b') ∨ ∃ a', a = xs ++ a' ∧ ys = a' ++ c :: b := by
  rcases List.append_eq_append_iff.mp h with ⟨a', ha, hys⟩ | ⟨xs', hxs, hb⟩
  · exact .inr ⟨a', ha, hys⟩
  · cases xs' with
    | nil => exact .inr ⟨[], by simpa using hxs.symm, by simpa using hb.symm⟩
    | cons x xs' =>
      obtain ⟨rfl, -⟩ := List.cons.inj hb
      exact .inl ⟨xs', hxs⟩

theorem startsAt_next (h : (run o lines).fatal = none)
    (ih : ∀ a b, (run o lines).framed = a ++ (true, rootBlockOpen) :: b → StartsAt o lines a)
    {line : Text} {a b : List (Bool × Text)}
    (hout : (run o lines).framed ++ (readNext o lines line).framed =
      a ++ (true, rootBlockOpen) :: b) : StartsAt o (lines ++ [line]) a := by
  rcases append_eq_append_cons hout with ⟨b', hb⟩ | ⟨a', ha, hnext⟩
  · exact (ih a b' hb).append [line]
  · obtain ⟨rfl, hblock, hx⟩ := (frames_next h line).start hnext
    exact ⟨lines, line, [], rfl, h, ha.trans (List.append_nil _),
      (inRootBlock_run h).symm.trans hblock, hx⟩

theorem startsAt_run (h : (run o lines).fatal = none) :
    ∀ a b, (run o lines).framed = a ++ (true, rootBlockOpen) :: b → StartsAt o lines a := by
  refine run_induction (P := fun lines r =>
    ∀ a b, r.framed = a ++ (true, rootBlockOpen) :: b → StartsAt o lines a) ?_ ?_ h
  · intro a b hout
    have hmem : (true, rootBlockOpen) ∈ (Outcome.quiet .initial).framed := by simp [hout]
    cases hmem
  · intro lines line hx ih hf a b hout
    rw [Outcome.framed_after] at hout
    exact startsAt_next hx ih hout

/-! ## Conversions -/

/-- The converted lines are those of the run, and the end of the block if it gets there. -/
theorem framed_of_run (h : (run o lines).fatal = none) : (convert o lines).outcome.framed =
    (run o lines).framed ++ (run o lines).state.blockEnd.filterMap Event.framed? := by
  rw [outcome_of_run h, Outcome.framed_after, framed_finish]
  rfl

theorem framed_of_stop {pre : List Text} {line : Text} (hpre : (run o pre).fatal = none)
    (hstop : (readNext o pre line).fatal ≠ none) (rest : List Text) :
    (convert o (pre ++ line :: rest)).outcome.framed =
      (run o pre).framed ++ (readNext o pre line).framed := by
  obtain ⟨f, hf⟩ := Option.ne_none_iff_exists'.mp hstop
  have hr := run_stop hpre hf rest
  have hfatal : (run o (pre ++ line :: rest)).fatal = some f := by rw [hr, Outcome.fatal_after, hf]
  rw [convert_of_stop hfatal, hr, Outcome.framed_after]
  rfl

theorem startsAt_convert {a b : List (Bool × Text)}
    (hout : (convert o lines).outcome.framed = a ++ (true, rootBlockOpen) :: b) :
    StartsAt o lines a := by
  by_cases h : (run o lines).fatal = none
  · rw [framed_of_run h] at hout
    rcases append_eq_append_cons hout with ⟨b', hb⟩ | ⟨a', ha, hend⟩
    · exact startsAt_run h a b' hb
    · have hmem : (true, rootBlockOpen) ∈
          (run o lines).state.blockEnd.filterMap Event.framed? := by simp [hend]
      exact absurd hmem (start_notMem_blockEnd _)
  · obtain ⟨pre, line, rest, rfl, hpre, hstop⟩ := exists_stop h
    rw [framed_of_stop hpre hstop] at hout
    have hstart := (startsAt_next hpre (startsAt_run hpre) hout).append rest
    rwa [List.append_assoc] at hstart

def blockBounds (k : Nat) : List (Bool × Text) :=
  (List.replicate k [(true, rootBlockOpen), (true, rootBlockClose)]).flatten

def Alternates (out : List (Bool × Text)) (b : Bool) : Prop :=
  ∃ k, out.filter (·.1) = blockBounds k ++ if b then [(true, rootBlockOpen)] else []

theorem filter_unbounded (ts : List Text) : (unbounded ts).filter (·.1) = [] := by
  simp [unbounded]

theorem Alternates.blockEnd {out : List (Bool × Text)} {s : State}
    (h : Alternates out s.inRootBlock) :
    Alternates (out ++ s.blockEnd.filterMap Event.framed?) false := by
  obtain ⟨k, hk⟩ := h
  rw [blockEnd_framed]
  cases hblock : s.inRootBlock with
  | true =>
    refine ⟨k + 1, ?_⟩
    rw [List.filter_append, hk, hblock, blockBounds, blockBounds, List.replicate_succ',
      List.flatten_append]
    simp
  | false =>
    rw [hblock] at hk
    exact ⟨k, by simpa using hk⟩

theorem Alternates.next {out : List (Bool × Text)} {s : State} {x : Position} {r : Outcome}
    (h : Alternates out s.inRootBlock) (hr : Frames s x r) :
    Alternates (out ++ r.framed) r.state.inRootBlock := by
  cases hr with
  | ends ts hb hs hout =>
    obtain ⟨k, hk⟩ := h.blockEnd
    refine ⟨k, ?_⟩
    rw [hout, hs, ← List.append_assoc, List.filter_append, hk, filter_unbounded, List.append_nil]
  | goesOn hb hs hf hx hout =>
    obtain ⟨k, hk⟩ := h
    refine ⟨k, ?_⟩
    rw [hout, hs, blockStart_framed, List.filter_append, List.filter_append, hk, filter_unbounded]
    cases s.inRootBlock <;> simp
  | outside ts hb hs hf hx hblock hout =>
    obtain ⟨k, hk⟩ := h
    rw [hblock] at hk
    refine ⟨k, ?_⟩
    rw [hout, hs, List.filter_append, hk, filter_unbounded, List.append_nil]

theorem alternates_run (h : (run o lines).fatal = none) :
    Alternates (run o lines).framed (run o lines).state.inRootBlock := by
  refine run_induction (P := fun _ r => Alternates r.framed r.state.inRootBlock) ⟨0, rfl⟩ ?_ h
  intro lines line hx ih hf
  rw [Outcome.framed_after]
  exact ih.next (frames_next hx line)

/-- At the end no block is open, however the conversion ends. -/
theorem alternates_convert (o : Options) (lines : List Text) :
    Alternates (convert o lines).outcome.framed false := by
  by_cases h : (run o lines).fatal = none
  · rw [framed_of_run h]
    exact (alternates_run h).blockEnd
  · obtain ⟨pre, line, rest, rfl, hpre, hstop⟩ := exists_stop h
    rw [framed_of_stop hpre hstop]
    -- Only a line with a brace is fatal, and that ends the block.
    have hframes := frames_next hpre line
    have hend := (alternates_run hpre).next hframes
    cases hframes with
    | ends ts hb hs hout => rwa [hs] at hend
    | goesOn hb hs hf hx hout => exact absurd hf hstop
    | outside ts hb hs hf hx hblock hout => exact absurd hf hstop

/-! ## Blocks in the output -/

theorem framed_append (h : (run o lines).fatal = none) (ys : List Text) :
    ∃ more, (convert o (lines ++ ys)).outcome.framed = (run o lines).framed ++ more := by
  have hrun : (run o (lines ++ ys)).framed =
      (run o lines).framed ++ (State.feedAll o (run o lines).state ys).framed := by
    rw [run_append h, Outcome.framed_after]
    rfl
  cases hf : (run o (lines ++ ys)).fatal with
  | none =>
    rw [framed_of_run hf, hrun, List.append_assoc]
    exact ⟨_, rfl⟩
  | some f =>
    rw [convert_of_stop hf]
    exact ⟨_, hrun⟩

/-- A line with a brace ends the block in front of it, also if it stops the conversion. -/
theorem framed_block_end (h : (run o lines).fatal = none) (hopen : blockOpen lines = true)
    {line : Text} (hb : ¬ BraceFree line) (rest : List Text) :
    ∃ more, (convert o (lines ++ line :: rest)).outcome.framed =
      (run o lines).framed ++ (true, rootBlockClose) :: more := by
  have hnext : ∃ ts, (readNext o lines line).framed =
      (true, rootBlockClose) :: unbounded ts := by
    cases frames_next h line with
    | ends ts hbrace hs hout =>
      rw [hout, blockEnd_framed, inRootBlock_run h, hopen]
      exact ⟨ts, rfl⟩
    | goesOn hfree hs hf hx hout => exact absurd hfree hb
    | outside ts hfree hs hf hx hblock hout => exact absurd hfree hb
  obtain ⟨ts, hts⟩ := hnext
  by_cases hstop : (readNext o lines line).fatal = none
  · have hgoes : (run o (lines ++ [line])).fatal = none := by
      rw [run_concat h, Outcome.fatal_after]
      exact hstop
    obtain ⟨more, hmore⟩ := framed_append hgoes rest
    rw [List.append_assoc, framed_concat h, hts, List.append_assoc] at hmore
    exact ⟨_, hmore⟩
  · exact ⟨_, by rw [framed_of_stop h hstop, hts]⟩

/-- The block stands in the output: behind what the lines `front` are converted to, where no
written node is open, its lines are written as they are between a start and an end. -/
structure WritesBlock (o : Options) (front block back : List Text) : Prop where
  isBlock : RootBlock front block back
  goes : (convert o front).fatal = none
  level : levelFrom 0 (convert o front).lines = 0
  written : ∃ more, (convert o (front ++ block ++ back)).outcome.framed =
    (convert o front).outcome.framed ++
      (true, rootBlockOpen) :: unbounded (block.map dropTerminator) ++
      (true, rootBlockClose) :: more

/-- Directly in a root node nothing is open in the output but the block. -/
theorem level_of_property {front : List Text} {first : Text} (h : (run o front).fatal = none)
    (hfresh : blockOpen front = false)
    (hfirst : Site.isRootProperty ⟨pathOf front, first⟩ = true) :
    levelFrom 0 (run o front).emitted = 0 := by
  obtain ⟨n, hp, hn, -⟩ := Site.of_isInRoot (Site.isInRoot_of_isRootProperty hfirst)
  have hp : pathOf front = [n] := hp
  have hm := mirrors_run h
  rw [hp] at hm
  have hroot : (run o front).state.rootElided = true := by rw [hm.rootElided]; simpa using hn
  have hdrop : o.drops n = false := Options.drops_of_legal (OpenNode.isIllegal_of_isRoot hn)
  have hd : (run o front).state.dropping = none := hm.not_dropping.mpr (by simp [hdrop])
  have hblock : (run o front).state.inRootBlock = false := (inRootBlock_run h).trans hfresh
  have hlevel := (output_balance h).1
  rw [outputDepth_of_not_dropping hd, hm.depth, hroot, hblock, hm.inFragment] at hlevel
  simpa [fragmentOf] using hlevel

theorem writesBlock_of_property {front rest back : List Text} {first : Text}
    (h : (run o front).fatal = none) (hfresh : blockOpen front = false)
    (hfirst : Site.isRootProperty ⟨pathOf front, first⟩ = true)
    (hrest : ∀ line ∈ rest, BraceFree line) (hback : ∀ line ∈ back.head?, ¬ BraceFree line) :
    WritesBlock o front (first :: rest) back := by
  obtain ⟨hrun, hframed⟩ := run_block h hfresh hfirst hrest
  have hopen := blockOpen_of_property hfirst hrest
  have hfront : (convert o front).outcome.framed = (run o front).framed := by
    rw [framed_of_run h, blockEnd_framed, inRootBlock_run h, hfresh]
    exact List.append_nil _
  refine ⟨rootBlock_of_property hfresh hfirst hrest hback, (fatal_convert o front).trans h, ?_, ?_⟩
  · rw [Conversion.lines, ← Outcome.map_framed, hfront, Outcome.map_framed]
    exact level_of_property h hfresh hfirst
  · rw [hfront, ← hframed]
    cases back with
    | nil =>
      rw [List.append_nil, framed_of_run hrun, blockEnd_framed, inRootBlock_run hrun, hopen]
      exact ⟨[], rfl⟩
    | cons line back => exact framed_block_end hrun hopen (hback line rfl) back

/-- Blocks start only where the lines have one. -/
theorem writesBlock_of_start {a b : List (Bool × Text)}
    (hout : (convert o lines).outcome.framed = a ++ (true, rootBlockOpen) :: b) :
    ∃ front block back, lines = front ++ block ++ back ∧
      a = (convert o front).outcome.framed ∧ WritesBlock o front block back := by
  obtain ⟨front, first, behind, rfl, h, rfl, hfresh, hfirst⟩ := startsAt_convert hout
  obtain ⟨rest, back, rfl, hrest, hback⟩ := exists_braceFree_split behind
  refine ⟨front, first :: rest, back, by simp, ?_,
    writesBlock_of_property h hfresh hfirst hrest hback⟩
  rw [framed_of_run h, blockEnd_framed, inRootBlock_run h, hfresh]
  exact (List.append_nil _).symm

/-- A root property stands in a block with all lines behind it up to one that divides. -/
theorem writesBlock_around {pre mid rest : List Text} {line : Text}
    (h : (run o pre).fatal = none)
    (hline : Site.isRootProperty ⟨pathOf pre, line⟩ = true)
    (hmid : ∀ x ∈ sitesFrom (pathOf (pre ++ [line])) mid, x.divides = false) :
    ∃ front before after back, pre = front ++ before ∧ rest = after ++ back ∧
      WritesBlock o front (before ++ line :: mid ++ after) back := by
  obtain ⟨n, hp, -, hb⟩ := Site.of_isInRoot (Site.isInRoot_of_isRootProperty hline)
  have hp : pathOf pre = [n] := hp
  rw [pathOf_concat, descend_of_braceFree hb, hp] at hmid
  have hfree := braceFree_of_undivided hmid
  obtain ⟨after, back, rfl, hafter, hback⟩ := exists_braceFree_split rest
  obtain ⟨front, before, first, behind, rfl, hblock, hfresh, hfirst, hbehind⟩ :=
    exists_start_of_property hline
  have hall : ∀ x ∈ behind ++ mid ++ after, BraceFree x := by
    intro x hx
    simp only [List.mem_append, or_assoc] at hx
    rcases hx with hx | hx | hx
    · exact hbehind x hx
    · exact hfree x hx
    · exact hafter x hx
  have hshape : before ++ line :: mid ++ after = first :: (behind ++ mid ++ after) := by
    rw [List.append_cons, hblock]
    simp
  refine ⟨front, before, after, back, rfl, rfl, ?_⟩
  rw [hshape]
  exact writesBlock_of_property (State.fatal_of_append h) hfresh hfirst hall hback

end

/-- Blocks of root properties are well formed, also where a fatal line ends the conversion. Their
starts and ends alternate. Each start belongs to a block of the lines, which is written from its
first property to its last line without any other between, where no other node is open. And each
root property in front of a fatal line is written in such a block, together with all that follows
it up to the next node of the second level or the end of the root. -/
theorem root_blocks (o : Options) (lines : List Text) :
    let out := (convert o lines).outcome.framed
    out.map Prod.snd = (convert o lines).lines ∧
      (∃ k, out.filter (·.1) = blockBounds k) ∧
      (∀ a b, out = a ++ (true, rootBlockOpen) :: b →
        ∃ front block back, lines = front ++ block ++ back ∧
          a = (convert o front).outcome.framed ∧ WritesBlock o front block back) ∧
      ∀ pre line mid rest, lines = pre ++ line :: mid ++ rest → (convert o pre).fatal = none →
        Site.isRootProperty ⟨pathOf pre, line⟩ = true →
        (∀ x ∈ sitesFrom (pathOf (pre ++ [line])) mid, x.divides = false) →
        ∃ front before after back, pre = front ++ before ∧ rest = after ++ back ∧
          WritesBlock o front (before ++ line :: mid ++ after) back := by
  intro out
  refine ⟨Outcome.map_framed _, ?_, fun a b => writesBlock_of_start, ?_⟩
  · obtain ⟨k, hk⟩ := alternates_convert o lines
    exact ⟨k, by simpa using hk⟩
  · intro pre line mid rest _ hpre hline hmid
    exact writesBlock_around (run_of_convert hpre) hline hmid

/-- A property behind a fatal line is not written at all, so it stands in no block. -/
theorem root_property_behind_fatal_line :
    ¬ ∀ (o : Options) (pre : List Text) (line : Text) (rest : List Text),
      Site.isRootProperty ⟨pathOf pre, line⟩ = true →
      ∃ a ts b, dropTerminator line ∈ ts ∧
        (convert o (pre ++ line :: rest)).outcome.framed =
          a ++ (true, rootBlockOpen) :: unbounded ts ++ (true, rootBlockClose) :: b := by
  intro h
  let pre := ["/ \x7b", "\t__symbols__ \x7b", "\t\x7d;"].map String.toList
  let line := "\ta = <1>;".toList
  let rest := ["\x7d;"].map String.toList
  obtain ⟨a, ts, b, -, hout⟩ := h .standard pre line rest (by decide)
  have hnone : (convert .standard (pre ++ line :: rest)).outcome.framed = [] := by decide
  simp [hnone] at hout

end OverlaySugar
