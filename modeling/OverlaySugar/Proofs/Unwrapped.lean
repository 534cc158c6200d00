import OverlaySugar.Proofs.Accounts
import OverlaySugar.Proofs.Balance
import OverlaySugar.Proofs.Provenance

/-!
# Input without wrappers

Lines that hold no fragment and no generated node are passed on one by one.
Where no first node is named `/` only their indentation changes. A root node is
taken apart: its properties are written in a root node of their own, and what
stands deeper in it is written without it.
-/

set_option autoImplicit false

namespace OverlaySugar
open Text

def Site.OpensPlain (x : Site) : Prop :=
  ∀ n, braceOf x.line = .opens n →
    isReservedName n.name = false ∧ (x.path.length = 1 → n.isFragment = false)

instance (x : Site) : Decidable x.OpensPlain :=
  inferInstanceAs (Decidable (∀ n, braceOf x.line = .opens n →
    isReservedName n.name = false ∧ (x.path.length = 1 → n.isFragment = false)))

def Unwrapped (lines : List Text) : Prop := ∀ x ∈ sitesFrom [] lines, x.OpensPlain

instance (lines : List Text) : Decidable (Unwrapped lines) :=
  inferInstanceAs (Decidable (∀ x ∈ sitesFrom [] lines, x.OpensPlain))

theorem sitesFrom_nil_concat (lines : List Text) (line : Text) :
    sitesFrom [] (lines ++ [line]) = sitesFrom [] lines ++ [⟨pathOf lines, line⟩] :=
  sitesFrom_append [] lines [line]

theorem map_line_sitesFrom (p : List OpenNode) (lines : List Text) :
    (sitesFrom p lines).map Site.line = lines := by
  induction lines generalizing p with
  | nil => rfl
  | cons line rest ih => exact congrArg (line :: ·) (ih (descend p line))

theorem Unwrapped.of_concat {lines : List Text} {line : Text} (h : Unwrapped (lines ++ [line])) :
    Unwrapped lines ∧ Site.OpensPlain ⟨pathOf lines, line⟩ := by
  rw [Unwrapped, sitesFrom_nil_concat] at h
  constructor
  · intro x hx
    exact h x (List.mem_append_left _ hx)
  · exact h _ (by simp)

theorem Unwrapped.of_append {xs ys : List Text} (h : Unwrapped (xs ++ ys)) : Unwrapped xs := by
  intro x hx
  apply h x
  rw [sitesFrom_append]
  exact List.mem_append_left _ hx

/-! ## What is written around a line -/

def blockEdge : Bool → Bool → List Text
  | true, false => [rootBlockClose]
  | false, true => [rootBlockOpen]
  | _, _ => []

theorem blockEdge_self (b : Bool) : blockEdge b b = [] := by cases b <;> rfl

theorem lines_blockEnd (s : State) :
    s.blockEnd.filterMap Event.line? = blockEdge s.inRootBlock false := by
  rw [State.blockEnd]
  cases s.inRootBlock <;> rfl

theorem lines_blockStart (s : State) :
    s.blockStart.filterMap Event.line? = blockEdge s.inRootBlock true := by
  rw [State.blockStart]
  cases s.inRootBlock <;> rfl

def blockRoot : OpenNode := ⟨[], rootName⟩

/-- The nodes that are open in what was written, when the nodes of a path are open in what was
read and `block` says whether a block of root properties is open. -/
def shown (block : Bool) : List OpenNode → List OpenNode
  | [] => []
  | m :: rest => if m.isRoot then (if block then [blockRoot] else rest) else m :: rest

theorem shown_concat {p : List OpenNode} (hp : p ≠ []) (n : OpenNode) :
    shown false (p ++ [n]) = shown false p ++ [n] := by
  obtain ⟨m, rest, rfl⟩ := List.exists_cons_of_ne_nil hp
  by_cases hm : m.isRoot = true
  · simp [shown, hm]
  · simp [shown, hm]

theorem shown_dropLast (p : List OpenNode) :
    shown false p.dropLast = (shown false p).dropLast := by
  obtain rfl | ⟨q, n, rfl⟩ := p.eq_nil_or_concat
  · rfl
  · rw [List.concat_eq_append, List.dropLast_concat]
    by_cases hq : q = []
    · subst hq
      by_cases hn : n.isRoot = true
      · simp [shown, hn]
      · simp [shown, hn]
    · rw [shown_concat hq, List.dropLast_concat]

theorem shown_root {block : Bool} {m : OpenNode} (hm : m.isRoot = true) :
    shown block [m] = if block then [blockRoot] else [] := by
  simp [shown, hm]

section
variable {o : Options} {p : List OpenNode} {t : Option Target} {s : State}

/-- Behind the end of a block its root node is closed. -/
theorem pathFrom_blockEnd (h : Mirrors o p t s) :
    pathFrom (shown s.inRootBlock p) (blockEdge s.inRootBlock false) = shown false p := by
  by_cases hb : s.inRootBlock = true
  · obtain ⟨m, rfl, hm⟩ := path_of_block h hb
    rw [hb, shown_root hm, shown_root hm]
    decide
  · rw [Bool.not_eq_true] at hb
    rw [hb]
    rfl

theorem pathFrom_blockStart {m : OpenNode} (hm : m.isRoot = true) (block : Bool) :
    pathFrom (shown block [m]) (blockEdge block true) = shown true [m] := by
  rw [shown_root hm, shown_root hm]
  cases block <;> decide

end

/-! ## One line -/

structure Bare (s : State) : Prop where
  dropping : s.dropping = none
  inFragment : s.inFragment = false

structure Passes (p : List OpenNode) (line : Text) (s : State) (r : Outcome) : Prop where
  fatal : r.fatal = none
  bare : Bare r.state
  emitted : r.emitted = blockEdge s.inRootBlock r.state.inRootBlock ++ r.sources
  path : pathFrom (shown s.inRootBlock p) r.emitted = shown r.state.inRootBlock (descend p line)
  messages : s.rootElided = false → r.messages = []

section
variable {o : Options} {p : List OpenNode} {t : Option Target} {s : State} {l : Line}
  {line : Text} {r : Outcome}

theorem Bare.openFragments (hs : Bare s) (h : Sound o s) : s.openFragments = [] := by
  apply h.stack.resolve_right
  intro hstack
  rw [← h.inFragment_iff_stack, hs.inFragment] at hstack
  cases hstack

/-- The block is ended in front of a node that opens in it. -/
theorem lines_deeperEnd (h : Mirrors o p t s) :
    s.deeperEnd.filterMap Event.line? = blockEdge s.inRootBlock s.deeper.inRootBlock := by
  rw [h.sound.deeperEnd_eq, lines_blockEnd, h.deeper_block]

theorem passes_opens (h : Mirrors o p t s) (hs : Bare s) {n : OpenNode}
    (hl : l.text = dropTerminator line) (hb : braceOf line = .opens n)
    (hn : isReservedName n.name = false) (hf : p.length = 1 → n.isFragment = false)
    (hr : State.Opening o s l n.label n.name r) : Passes p line s r := by
  have hoverlay : isOverlayName n.name = false := OpenNode.isOverlay_of_not_reserved hn
  have hpath : descend p line = p ++ [n] := by rw [descend, hb]
  cases hr with
  | inDropped hd => cases hs.dropping.symm.trans hd
  | fragment hd h1 hname => cases hname.symm.trans (hf (h.depth.symm.trans h1))
  | heading hd hname hp => cases hname.symm.trans hoverlay
  | notice hd hname hp hforce => cases hname.symm.trans hoverlay
  | stopOverlay hd hname hp hforce => cases hname.symm.trans hoverlay
  | dropNode hd hreserved hname hforce => cases hreserved.symm.trans hn
  | stopReserved hd hreserved hname hforce => cases hreserved.symm.trans hn
  | root hd h0 hname =>
    have hblock := noBlock_of_depth h (by omega)
    have hroot : n.isRoot = true := OpenNode.isRoot_iff.mpr hname
    obtain rfl := h.eq_nil_iff_depth.mpr h0
    refine ⟨rfl, ⟨hs.dropping, hs.inFragment⟩, ?_, ?_, fun _ => rfl⟩
    · rw [hblock]
      change [] = blockEdge false s.deeper.inRootBlock ++ []
      rw [h.deeper_block]
      rfl
    · change [] = shown s.deeper.inRootBlock (descend [] line)
      rw [hpath, h.deeper_block, List.nil_append, shown_root hroot]
      rfl
  | top hd hreserved h0 hname =>
    have hblock := noBlock_of_depth h (by omega)
    have hroot : n.isRoot = false := by simpa [OpenNode.isRoot] using hname
    obtain rfl := h.eq_nil_iff_depth.mpr h0
    refine ⟨rfl, ⟨hs.dropping, hs.inFragment⟩, ?_, ?_, fun _ => rfl⟩
    · rw [hblock]
      change [l.text] = blockEdge false s.deeper.inRootBlock ++ [l.text]
      rw [h.deeper_block]
      rfl
    · change descend [] l.text = shown s.deeper.inRootBlock (descend [] line)
      rw [hpath, h.deeper_block, hl, descend, braceOf_dropTerminator, hb, List.nil_append]
      simp [shown, hroot]
  | inner hd hreserved h0 hname =>
    have hp : p ≠ [] := mt h.eq_nil_iff_depth.mp h0
    have hopen (q : List OpenNode) (d : Nat) :
        pathFrom q [indentFix o.indentFix d l.text] = q ++ [n] := by
      change descend q _ = _
      rw [descend, hl, braceOf_fixed, hb]
    have hout : (Outcome.writing s.deeper (s.deeperEnd ++
        [.line .source (indentFix o.indentFix (s.depth + 1) l.text)])).emitted =
        blockEdge s.inRootBlock s.deeper.inRootBlock ++
          [indentFix o.indentFix (s.depth + 1) l.text] := by
      rw [Outcome.emitted, Outcome.events_writing, List.filterMap_append, lines_deeperEnd h]
      rfl
    refine ⟨rfl, ⟨hs.dropping, hs.inFragment⟩, ?_, ?_, fun _ => messages_deeper s _ _⟩
    · rw [hout, sources_deeper]
      rfl
    · rw [hout, Outcome.state_writing, h.deeper_block, pathFrom_append, pathFrom_blockEnd h,
        hpath, shown_concat hp]
      exact hopen _ _

theorem passes_closes (h : Mirrors o p t s) (hs : Bare s) (hl : l.text = dropTerminator line)
    (hb : braceOf line = .closes) (hr : State.Closing o s l r) : Passes p line s r := by
  have hpath : descend p line = p.dropLast := by rw [descend, hb]
  have hcloses (d : Nat) : braceOf (indentFix o.indentFix d l.text) = .closes := by
    rw [hl, braceOf_fixed, hb]
  cases hr with
  | dropped hd ht => cases hs.dropping.symm.trans hd
  | inDropped hd ht => cases hs.dropping.symm.trans hd
  | fragment hd hstack => cases (hs.openFragments h.sound).symm.trans hstack
  | root hd hstack h1 hroot =>
    obtain ⟨m, rfl⟩ := List.length_eq_one_iff.mp (h.depth.symm.trans h1)
    rw [h.rootElided] at hroot
    have hout : (s.blockEnd.filterMap Event.line?) = blockEdge s.inRootBlock false :=
      lines_blockEnd s
    refine ⟨rfl, ⟨hs.dropping, hs.inFragment⟩, ?_, ?_, fun _ => filterMap_blockEnd rfl s⟩
    · change s.blockEnd.filterMap Event.line? =
        blockEdge s.inRootBlock false ++ s.blockEnd.filterMap Event.source?
      rw [hout, filterMap_blockEnd rfl, List.append_nil]
    · change pathFrom _ (s.blockEnd.filterMap Event.line?) = _
      rw [hout, pathFrom_blockEnd h, hpath, shown_root hroot]
      rfl
  | stray hd hstack h0 =>
    obtain rfl := h.eq_nil_iff_depth.mpr h0
    refine ⟨rfl, hs, ?_, ?_, fun _ => rfl⟩
    · rw [Outcome.state_writing, blockEdge_self]
      rfl
    · change descend [] l.text = shown _ (descend [] line)
      rw [hpath, descend, hl, braceOf_dropTerminator, hb]
      rfl
  | inner hd hstack h0 hroot =>
    have hblock : s.inRootBlock = false := by
      by_contra hx
      obtain ⟨h1, he, -⟩ := h.sound.block (by simpa using hx)
      cases he.symm.trans (hroot h1)
    refine ⟨rfl, ⟨hs.dropping, hs.inFragment⟩, ?_, ?_, fun _ => rfl⟩
    · change _ = blockEdge s.inRootBlock s.inRootBlock ++ _
      rw [blockEdge_self]
      rfl
    · change descend (shown s.inRootBlock p) _ = shown s.inRootBlock (descend p line)
      rw [hblock, hpath, descend, hcloses, shown_dropLast]

theorem passes_stays (h : Mirrors o p t s) (hs : Bare s) (hl : l.text = dropTerminator line)
    (hb : BraceFree line) (hv : ∀ v, l.content ≠ .target v) (hr : State.Staying o s l r) :
    Passes p line s r := by
  have hpath : descend p line = p := descend_of_braceFree hb p
  have hfree (q : List OpenNode) (d : Nat) : descend q (indentFix o.indentFix d l.text) = q := by
    rw [descend, hl, braceOf_fixed, braceOf_of_braceFree hb]
  cases hr with
  | inDropped hd => cases hs.dropping.symm.trans hd
  | reference hd hc => exact absurd hc (hv _)
  | path hd hc => exact absurd hc (hv _)
  | rootProperty hd hc hp =>
    simp only [State.isRootProperty, Bool.and_eq_true, beq_iff_eq] at hp
    obtain ⟨m, rfl⟩ := List.length_eq_one_iff.mp (h.depth.symm.trans hp.1.1.2)
    have hm : m.isRoot = true := h.rootElided.symm.trans hp.1.2
    refine ⟨rfl, ⟨hs.dropping, hs.inFragment⟩, ?_, ?_, ?_⟩
    · rw [Outcome.emitted, Outcome.sources, Outcome.events_writing,
        filterMap_property (fun _ => rfl), filterMap_property (fun _ => rfl), lines_blockStart,
        State.blockStart]
      cases s.inRootBlock <;> rfl
    · rw [Outcome.emitted, Outcome.events_writing, filterMap_property (fun _ => rfl),
        lines_blockStart, pathFrom_append, pathFrom_blockStart hm, hpath]
      exact hfree _ _
    · intro hroot
      cases hp.1.2.symm.trans hroot
  | plain hd hc hp =>
    refine ⟨rfl, hs, ?_, ?_, fun _ => rfl⟩
    · rw [Outcome.state_writing, blockEdge_self]
      rfl
    · rw [hpath]
      exact hfree _ _

theorem passes_feed (h : Mirrors o p t s) (hs : Bare s) (hx : Site.OpensPlain ⟨p, line⟩) :
    Passes p line s (s.feed o line) := by
  have hc : Mirrors o p t (s.count line) := h.count line
  have hbare : Bare (s.count line) := ⟨hs.dropping, hs.inFragment⟩
  have hl : (s.lineOf line).text = dropTerminator line := rfl
  obtain ⟨r, hr, hrule⟩ := s.feed_cases o line
  have hpasses : Passes p line (s.count line) r := by
    rcases hrule with ⟨n, hb, hrule⟩ | ⟨hb, hrule⟩ | ⟨hb, hrule⟩
    · exact passes_opens hc hbare hl hb (hx n hb).1 (hx n hb).2 hrule
    · exact passes_closes hc hbare hl hb hrule
    · exact passes_stays hc hbare hl hb (fun v => s.content_ne_target hs.inFragment line v) hrule
  rw [hr]
  exact ⟨hpasses.fatal, hpasses.bare, hpasses.emitted, hpasses.path, hpasses.messages⟩

/-- A line without braces is passed on where no fragment is open. -/
theorem share_of_braceFree (h : Mirrors o p t s) (hs : Bare s) (hb : BraceFree line) :
    Site.share o t ⟨p, line⟩ = [Site.passed o ⟨p, line⟩] := by
  have htarget : Site.target? o ⟨p, line⟩ = none := by
    rw [h.target?_eq hb (s.linesRead + 1 : Nat)]
    split
    · next v hv => exact absurd hv (s.content_ne_target hs.inFragment line v)
    · rfl
  apply share_of_passed
  rw [withheld_of_braceFree hb, h.not_dropping.mp hs.dropping, htarget]
  rfl

/-- Where no first node is a root node every line is passed on. -/
theorem share_of_rootless (h : Mirrors o p t s) (hs : Bare s) (hx : Site.OpensPlain ⟨p, line⟩)
    (hroot : (nodesOf p line).head?.any OpenNode.isRoot = false) :
    Site.share o t ⟨p, line⟩ = [Site.passed o ⟨p, line⟩] := by
  have hdrop := h.not_dropping.mp hs.dropping
  cases hb : braceOf line with
  | opens n =>
    obtain ⟨hn, hf⟩ := hx n hb
    have hlegal : o.drops n = false :=
      Options.drops_of_legal (OpenNode.isIllegal_of_not_reserved hn)
    have hend : endsAtWrapper (p ++ [n]) = false := by
      rw [Bool.eq_false_iff, ne_eq, endsAtWrapper_concat]
      rintro (⟨rfl, hr⟩ | ⟨h1, hfrag⟩)
      · simp [nodesOf, hb, hr] at hroot
      · cases hfrag.symm.trans (hf h1)
    apply share_of_passed
    simp [withheld_of_opens hb, hdrop, hlegal, hend, OpenNode.isOverlay_of_not_reserved hn]
  | closes =>
    have he : s.rootElided = false := by
      rw [h.rootElided]
      simpa [nodesOf, hb] using hroot
    have hend := endsAtWrapper_of_inner h hs.dropping (by simp [hs.openFragments h.sound])
      fun _ => he
    apply share_of_passed
    rw [withheld_of_closes hb, hdrop, hend]
    rfl
  | neither => exact share_of_braceFree h hs (braceFree_of_neither hb)

/-- A property directly in a root node stands in a block. -/
theorem block_of_property {m : OpenNode} (h : Mirrors o [m] t s) (hs : Bare s)
    (hm : m.isRoot = true) (hb : BraceFree line)
    (ha : assignsProperty (dropTerminator line) = true) :
    (s.feed o line).state.inRootBlock = true := by
  have hroot : s.rootElided = true := h.rootElided.trans hm
  obtain ⟨r, hr, hrule⟩ := State.feed_stays (o := o) (s := s) hb
  rw [hr]
  cases hrule with
  | inDropped hd => cases hs.dropping.symm.trans hd
  | reference hd hc => exact absurd hc (s.content_ne_target hs.inFragment line _)
  | path hd hc => exact absurd hc (s.content_ne_target hs.inFragment line _)
  | rootProperty hd hc hp => rfl
  | plain hd hc hp =>
    have hprop : (s.lineOf line).isProperty = true := ha
    have hp' : s.isRootProperty (s.lineOf line) = true := by
      simp [State.isRootProperty, hs.inFragment, h.depth, hroot, hprop]
    cases hp'.symm.trans hp

end

/-! ## Runs -/

section
variable {o : Options} {lines pre : List Text} {line : Text}

theorem bare_run (o : Options) (h : Unwrapped lines) :
    (run o lines).fatal = none ∧ Bare (run o lines).state := by
  induction lines using List.reverseRecOn with
  | nil => exact ⟨rfl, rfl, rfl⟩
  | append_singleton lines line ih =>
    obtain ⟨hlines, hline⟩ := h.of_concat
    obtain ⟨hf, hs⟩ := ih hlines
    have hp := passes_feed (mirrors_run hf) hs hline
    rw [run_concat hf]
    exact ⟨hp.fatal, hp.bare⟩

theorem passes_run (o : Options) (h : Unwrapped (pre ++ [line])) :
    Passes (pathOf pre) line (run o pre).state (readNext o pre line) := by
  obtain ⟨hpre, hline⟩ := h.of_concat
  obtain ⟨hf, hs⟩ := bare_run o hpre
  exact passes_feed (mirrors_run hf) hs hline

/-- The nodes that are open in what was written are those that are shown. -/
theorem pathOf_emitted (o : Options) (h : Unwrapped lines) :
    pathOf (run o lines).emitted = shown (run o lines).state.inRootBlock (pathOf lines) := by
  induction lines using List.reverseRecOn with
  | nil => rfl
  | append_singleton lines line ih =>
    have hlines := h.of_concat.1
    have hp := (passes_run o h).path
    rw [run_concat (bare_run o hlines).1, Outcome.emitted_after, pathOf_append, pathOf_concat]
    rw [← ih hlines] at hp
    exact hp

end

/-! ## Sugar form -/

def SugarForm (lines : List Text) : Prop :=
  Unwrapped lines ∧ ∀ x ∈ sitesFrom [] lines, ∀ n, braceOf x.line = .opens n →
    x.path = [] → n.isRoot = false

instance (lines : List Text) : Decidable (SugarForm lines) :=
  inferInstanceAs (Decidable (Unwrapped lines ∧ ∀ x ∈ sitesFrom [] lines, ∀ n,
    braceOf x.line = .opens n → x.path = [] → n.isRoot = false))

def Site.reindented (x : Site) : Text :=
  let text := dropTerminator x.line
  if 1 < (nodesOf x.path x.line).length ∧ "\t\t".toList <+: text then text.drop 2 else text

theorem dropTabPair_eq (t : Text) :
    dropTabPair t = if "\t\t".toList <+: t then t.drop 2 else t := by
  unfold dropTabPair
  split
  · next u => simp
  · next h =>
    rw [if_neg]
    rintro ⟨u, rfl⟩
    exact h u rfl

theorem passed_eq (o : Options) (x : Site) :
    x.passed o = if o.indentFix then x.reindented else dropTerminator x.line := by
  rw [Site.passed, indentFix, Site.reindented, dropTabPair_eq]
  cases o.indentFix with
  | false => rfl
  | true =>
    by_cases hd : 1 < (nodesOf x.path x.line).length
    · simp [hd]
    · simp [hd]

section
variable {o : Options} {lines : List Text} {line : Text}

theorem SugarForm.of_concat (h : SugarForm (lines ++ [line])) :
    SugarForm lines ∧ ∀ n, braceOf line = .opens n → pathOf lines = [] → n.isRoot = false := by
  obtain ⟨hplain, hroot⟩ := h
  rw [sitesFrom_nil_concat] at hroot
  refine ⟨⟨hplain.of_concat.1, fun x hx => hroot x (List.mem_append_left _ hx)⟩, ?_⟩
  exact hroot ⟨pathOf lines, line⟩ (by simp)

theorem head_concat (p : List OpenNode) (n : OpenNode) :
    (p ++ [n]).head?.any OpenNode.isRoot =
      if p = [] then n.isRoot else p.head?.any OpenNode.isRoot := by
  cases p <;> simp

/-- The first node of a path is never a root node. -/
theorem SugarForm.rootless (h : SugarForm lines) :
    (pathOf lines).head?.any OpenNode.isRoot = false := by
  induction lines using List.reverseRecOn with
  | nil => rfl
  | append_singleton lines line ih =>
    obtain ⟨hlines, hline⟩ := h.of_concat
    have hp := ih hlines
    rw [pathOf_concat, descend]
    cases hb : braceOf line with
    | opens n =>
      simp only [head_concat]
      split
      · next hnil => exact hline n hb hnil
      · exact hp
    | closes =>
      obtain hnil | ⟨q, n, hq⟩ := (pathOf lines).eq_nil_or_concat
      · simp [hnil]
      · rw [hq, List.concat_eq_append, head_concat] at hp
        simp only [hq, List.concat_eq_append, List.dropLast_concat]
        split at hp
        · next hnil => simp [hnil]
        · exact hp
    | neither => exact hp

theorem SugarForm.rootless_nodesOf (h : SugarForm (lines ++ [line])) :
    (nodesOf (pathOf lines) line).head?.any OpenNode.isRoot = false := by
  obtain ⟨hlines, hline⟩ := h.of_concat
  cases hb : braceOf line with
  | opens n =>
    simp only [nodesOf, hb, head_concat]
    split
    · next hnil => exact hline n hb hnil
    · exact hlines.rootless
  | closes => simpa only [nodesOf, hb] using hlines.rootless
  | neither => simpa only [nodesOf, hb] using hlines.rootless

theorem SugarForm.rootElided (h : SugarForm lines) : (run o lines).state.rootElided = false := by
  rw [(mirrors_run (bare_run o h.1).1).rootElided]
  exact h.rootless

theorem SugarForm.noBlock (h : SugarForm lines) : (run o lines).state.inRootBlock = false := by
  by_contra hb
  have he := ((mirrors_run (bare_run o h.1).1).block (by simpa using hb)).2
  cases h.rootElided.symm.trans he

theorem emitted_run_sugar (o : Options) (h : SugarForm lines) :
    (run o lines).emitted = (sitesFrom [] lines).map (Site.passed o) ∧
      (run o lines).messages = [] := by
  induction lines using List.reverseRecOn with
  | nil => exact ⟨rfl, rfl⟩
  | append_singleton lines line ih =>
    have hlines := h.of_concat.1
    obtain ⟨hf, hs⟩ := bare_run o hlines.1
    obtain ⟨he, hm⟩ := ih hlines
    have hp := passes_run o h.1
    have hblock : (readNext o lines line).state.inRootBlock = false := by
      have hb := h.noBlock (o := o)
      rwa [run_concat hf] at hb
    have hsources : (readNext o lines line).sources = [Site.passed o ⟨pathOf lines, line⟩] := by
      have hshare := share_of_rootless (mirrors_run hf) hs h.1.of_concat.2 h.rootless_nodesOf
      rw [← hshare]
      exact sources_feed (mirrors_run hf) hp.fatal
    have hout : (readNext o lines line).emitted = [Site.passed o ⟨pathOf lines, line⟩] := by
      rw [hp.emitted, hlines.noBlock, hblock, hsources]
      rfl
    rw [run_concat hf, Outcome.emitted_after, Outcome.messages_after, sitesFrom_nil_concat,
      List.map_append, ← he]
    have hm : (run o lines).events.filterMap Event.message? = [] := hm
    rw [hm]
    exact ⟨congrArg (_ ++ ·) hout, hp.messages hlines.rootElided⟩

end

/-- Lines in sugar form are passed on one by one, and only their indentation is fixed. Nothing is
reported. -/
theorem sugar_reindented (o : Options) {lines : List Text} (h : SugarForm lines) :
    (convert o lines).fatal = none ∧
      (convert o lines).lines =
        (if o.indentFix then (sitesFrom [] lines).map Site.reindented
          else lines.map dropTerminator) ∧
      (convert o lines).messages = [] ∧ (convert o lines).status = .ok := by
  have hf := (bare_run o h.1).1
  obtain ⟨hout, hmess⟩ := emitted_run_sugar o h
  have hend : (run o lines).state.blockEnd = [] := by
    rw [State.blockEnd, if_neg (by simp [h.noBlock])]
  have hclean (v : Severity) : (run o lines).state.tally.reported v = 0 := by
    rw [reported_run, Outcome.reports, hmess]
    rfl
  have hlines : (convert o lines).lines = (sitesFrom [] lines).map (Site.passed o) := by
    rw [lines_convert, Outcome.ending, if_pos hf, hend, List.filterMap_nil, List.append_nil]
    exact hout
  refine ⟨(fatal_convert o lines).trans hf, ?_, ?_, ?_⟩
  · rw [hlines]
    by_cases hfix : o.indentFix = true
    · rw [if_pos hfix]
      apply List.map_congr_left
      intro x _
      rw [passed_eq, if_pos hfix]
    · have hmap : lines.map dropTerminator =
          (sitesFrom [] lines).map (dropTerminator ∘ Site.line) := by
        rw [← List.map_map, map_line_sitesFrom]
      rw [if_neg hfix, hmap]
      apply List.map_congr_left
      intro x _
      rw [passed_eq, if_neg hfix]
      rfl
  · rw [Conversion.messages, outcome_of_run hf, Outcome.messages_after, Outcome.messages,
      filterMap_finish (fun _ => rfl), hend, List.filterMap_nil, List.append_nil]
    exact hmess
  · have herrors : (run o lines).state.tally.errors = 0 := hclean .error
    have hwarnings : (run o lines).state.tally.warnings = 0 := hclean .warning
    rw [status_convert, fatal_convert, hf, tally_convert]
    simp [Tally.exitStatus, herrors, hwarnings]

/-- A property that looks like a target, a node below the first level and a close of nothing. -/
theorem sugar_reindented_of_reference :
    let lines := ["&i2c1 \x7b", "\t\ttarget = <&uart>;", "\tsensor@40 \x7b\n", "\t\treg = <0x40>;",
      "\t\x7d;", "\x7d;", "\x7d;"].map String.toList
    SugarForm lines ∧ (convert ⟨true, true, 2⟩ lines).lines =
      ["&i2c1 \x7b", "\t\ttarget = <&uart>;", "\tsensor@40 \x7b", "reg = <0x40>;", "\t\x7d;",
        "\x7d;", "\x7d;"].map String.toList := by
  intro lines
  have h : SugarForm lines := by decide
  obtain ⟨-, hlines, -, -⟩ := sugar_reindented ⟨true, true, 2⟩ h
  refine ⟨h, ?_⟩
  rw [hlines]
  decide

/-! ## Root nodes -/

def unrooted : List OpenNode → List OpenNode
  | m :: n :: rest => if m.isRoot then n :: rest else m :: n :: rest
  | p => p

/-- A block of root properties has the name of the root node around it. -/
theorem names_shown {block : Bool} {p : List OpenNode}
    (hroot : ∀ m, p = [m] → m.isRoot = true → block = true)
    (hdeep : 2 ≤ p.length → block = false) :
    (shown block p).map OpenNode.name = (unrooted p).map OpenNode.name := by
  match p with
  | [] => rfl
  | [m] =>
    by_cases hm : m.isRoot = true
    · rw [hroot m rfl hm, shown_root hm, if_pos rfl]
      change [rootName] = [m.name]
      rw [OpenNode.isRoot_iff.mp hm]
    · simp [shown, unrooted, hm]
  | m :: n :: rest =>
    rw [hdeep (by simp)]
    by_cases hm : m.isRoot = true
    · simp [shown, unrooted, hm]
    · simp [shown, unrooted, hm]

/-- A line without braces is passed on, and in front of it the nodes are open that are shown. -/
theorem emitted_braceFree (o : Options) {pre : List Text} {line : Text}
    (h : Unwrapped (pre ++ [line])) (hb : BraceFree line) :
    ∃ front, (run o (pre ++ [line])).emitted = front ++ [Site.passed o ⟨pathOf pre, line⟩] ∧
      pathOf front = shown (readNext o pre line).state.inRootBlock (pathOf pre) := by
  obtain ⟨hf, hs⟩ := bare_run o h.of_concat.1
  have hp := passes_run o h
  have hout : (readNext o pre line).emitted =
      blockEdge (run o pre).state.inRootBlock (readNext o pre line).state.inRootBlock ++
        [Site.passed o ⟨pathOf pre, line⟩] := by
    rw [hp.emitted, ← share_of_braceFree (mirrors_run hf) hs hb]
    exact congrArg _ (sources_feed (mirrors_run hf) hp.fatal)
  have hfree : BraceFree (Site.passed o ⟨pathOf pre, line⟩) :=
    braceFree_indentFix ((braceFree_dropTerminator line).mpr hb)
  refine ⟨(run o pre).emitted ++
    blockEdge (run o pre).state.inRootBlock (readNext o pre line).state.inRootBlock, ?_, ?_⟩
  · rw [run_concat hf, Outcome.emitted_after, List.append_assoc]
    exact congrArg _ hout
  · have hpath := hp.path
    rw [hout, pathFrom_append, descend_of_braceFree hb] at hpath
    rw [pathOf_append, pathOf_emitted o h.of_concat.1, ← hpath]
    exact (descend_of_braceFree hfree _).symm

/-- A property is passed on below nodes of the same names, but for a root node that has another node
in it. -/
theorem nesting_without_root (o : Options) {pre rest : List Text} {line : Text}
    (h : Unwrapped (pre ++ line :: rest)) (hb : BraceFree line)
    (ha : assignsProperty (dropTerminator line) = true) :
    (convert o (pre ++ line :: rest)).fatal = none ∧
      ∃ front back,
        (convert o (pre ++ line :: rest)).lines =
          front ++ Site.passed o ⟨pathOf pre, line⟩ :: back ∧
        (run o (pre ++ [line])).emitted = front ++ [Site.passed o ⟨pathOf pre, line⟩] ∧
        (pathOf front).map OpenNode.name = (unrooted (pathOf pre)).map OpenNode.name := by
  have hall := (bare_run o h).1
  rw [List.append_cons] at h hall ⊢
  have hline := h.of_append
  obtain ⟨hf, hs⟩ := bare_run o hline.of_concat.1
  have hm := mirrors_run hf
  obtain ⟨front, hfront, hpath⟩ := emitted_braceFree o hline hb
  have hlines := lines_append (bare_run o hline).1 rest
  rw [hfront, List.append_assoc front] at hlines
  refine ⟨(fatal_convert _ _).trans hall, front, _, hlines, hfront, ?_⟩
  rw [hpath]
  apply names_shown
  · intro m hnil hroot
    rw [hnil] at hm
    exact block_of_property hm hs hroot hb ha
  · intro hdeep
    have hnext := hm.feed line
    rw [descend_of_braceFree hb] at hnext
    have hdepth : (State.feed o (run o pre).state line).state.depth ≠ 1 := by
      rw [hnext.depth]
      omega
    exact noBlock_of_depth hnext hdepth

/-- A property in a root node, and one in a node in it. -/
theorem nesting_without_root_of_child :
    let pre := ["/ \x7b", "\tmodel = \"x\";", "\tnode \x7b"].map String.toList
    let line := "\t\tx = <1>;".toList
    let rest := ["\t\x7d;", "\x7d;"].map String.toList
    Unwrapped (pre ++ line :: rest) ∧ BraceFree line ∧ assignsProperty line = true ∧
      ∃ front back, (convert .standard (pre ++ line :: rest)).lines =
          front ++ "x = <1>;".toList :: back ∧
        (pathOf front).map OpenNode.name = ["node".toList] := by
  intro pre line rest
  have h : Unwrapped (pre ++ line :: rest) := by decide
  have hb : BraceFree line := by decide
  have ha : assignsProperty line = true := by decide
  obtain ⟨-, front, back, hlines, -, hnames⟩ := nesting_without_root .standard h hb ha
  exact ⟨h, hb, ha, front, back, hlines, hnames⟩

/-- The nodes around a property do not all keep their place: below a root node there can be nodes
that are written without it. -/
theorem root_child_without_root :
    ¬ ∀ (o : Options) (pre : List Text) (line : Text) (rest : List Text),
      Balanced (pre ++ line :: rest) →
      (∀ t ∈ pre ++ line :: rest, t.count '\x7b' + t.count '\x7d' ≤ 1) →
      (∀ x ∈ sitesFrom [] (pre ++ line :: rest), ∀ n, braceOf x.line = .opens n →
        isReservedName n.name = false ∧ n.isFragment = false ∧
          (x.path = [] → n.isRoot = true ∨ n.name.head? = some '&')) →
      BraceFree line → assignsProperty (dropTerminator line) = true →
      ∃ y ∈ sitesFrom [] (convert o (pre ++ line :: rest)).lines,
        y.line = Site.passed o ⟨pathOf pre, line⟩ ∧
          y.path.map OpenNode.name = (pathOf pre).map OpenNode.name := by
  intro h
  have hchild := h ⟨false, false, 0⟩ (["/ \x7b", "\tnode \x7b"].map String.toList)
    "\t\tx = <1>;".toList (["\t\x7d;", "\x7d;"].map String.toList)
    (by decide) (by decide) (by decide) (by decide) (by decide)
  revert hchild
  decide

end OverlaySugar
