import OverlaySugar.Proofs.Reachable
import OverlaySugar.Proofs.Run

/-!
# Where written lines come from

Which lines are passed on, and in what form, is said here by matching braces
alone. Every line that is passed on is written once and in order, and any
other line of the output has one of four given forms and its own reason.
-/

set_option autoImplicit false

namespace OverlaySugar
open Text

/-! ## Lines that are withheld -/

def endsAtWrapper : List OpenNode → Bool
  | [n] => n.isRoot
  | [_, n] => n.isFragment
  | _ => false

namespace Site

def inDropped (o : Options) (x : Site) : Bool := (nodesOf x.path x.line).any o.drops

def boundsWrapper (x : Site) : Bool :=
  braceOf x.line != .neither && endsAtWrapper (nodesOf x.path x.line)

def withheld (o : Options) (t : Option Target) (x : Site) : Bool :=
  x.inDropped o || (x.target? o).isSome || x.boundsWrapper || (x.opensOverlay o && t.isSome)

def passed (o : Options) (x : Site) : Text :=
  indentFix o.indentFix (nodesOf x.path x.line).length (dropTerminator x.line)

def share (o : Options) (t : Option Target) (x : Site) : List Text :=
  if x.withheld o t then [] else [x.passed o]

end Site

def keptAfter (o : Options) (pre : List Text) : List Text → List Text
  | [] => []
  | line :: rest =>
    Site.share o (waiting o pre) ⟨pathOf pre, line⟩ ++ keptAfter o (pre ++ [line]) rest

def kept (o : Options) (lines : List Text) : List Text := keptAfter o [] lines

theorem keptAfter_append (o : Options) (pre xs ys : List Text) :
    keptAfter o pre (xs ++ ys) = keptAfter o pre xs ++ keptAfter o (pre ++ xs) ys := by
  induction xs generalizing pre with
  | nil => simp [keptAfter]
  | cons x xs ih => simp [keptAfter, ih]

theorem kept_concat (o : Options) (lines : List Text) (line : Text) :
    kept o (lines ++ [line]) =
      kept o lines ++ Site.share o (waiting o lines) ⟨pathOf lines, line⟩ := by
  rw [kept, keptAfter_append]
  simp [kept, keptAfter]

/-! ## Nodes at a line -/

section
variable {o : Options} {p : List OpenNode} {t : Option Target} {line : Text}

theorem share_of_withheld {x : Site} (h : x.withheld o t = true) : x.share o t = [] := if_pos h

theorem share_of_passed {x : Site} (h : x.withheld o t = false) : x.share o t = [x.passed o] :=
  if_neg (by simp [h])

theorem withheld_of_opens {n : OpenNode} (h : braceOf line = .opens n) :
    Site.withheld o t ⟨p, line⟩ = ((p ++ [n]).any o.drops || endsAtWrapper (p ++ [n]) ||
      (n.isOverlay && !p.any o.drops && t.isSome)) := by
  have ht : Site.target? o ⟨p, line⟩ = none := Site.target?_of_brace (by simp [h])
  have hb : (Brace.opens n != .neither) = true := rfl
  simp [Site.withheld, Site.inDropped, Site.boundsWrapper, Site.opensOverlay, nodesOf, h, ht, hb]

theorem withheld_of_closes (h : braceOf line = .closes) :
    Site.withheld o t ⟨p, line⟩ = (p.any o.drops || endsAtWrapper p) := by
  have ht : Site.target? o ⟨p, line⟩ = none := Site.target?_of_brace (by simp [h])
  have hb : (Brace.closes != .neither) = true := rfl
  simp [Site.withheld, Site.inDropped, Site.boundsWrapper, Site.opensOverlay, nodesOf, h, ht, hb]

theorem withheld_of_braceFree (h : BraceFree line) :
    Site.withheld o t ⟨p, line⟩ = (p.any o.drops || (Site.target? o ⟨p, line⟩).isSome) := by
  simp [Site.withheld, Site.inDropped, Site.boundsWrapper, Site.opensOverlay, nodesOf,
    braceOf_of_braceFree h]

theorem passed_of_opens {n : OpenNode} (h : braceOf line = .opens n) :
    Site.passed o ⟨p, line⟩ = indentFix o.indentFix (p.length + 1) (dropTerminator line) := by
  simp [Site.passed, nodesOf, h]

theorem passed_of_not_opens (h : ∀ n, braceOf line ≠ .opens n) :
    Site.passed o ⟨p, line⟩ = indentFix o.indentFix p.length (dropTerminator line) := by
  unfold Site.passed nodesOf
  split
  · next n hb => exact absurd hb (h n)
  · rfl

end

theorem endsAtWrapper_concat (p : List OpenNode) (n : OpenNode) :
    endsAtWrapper (p ++ [n]) = true ↔
      p = [] ∧ n.isRoot = true ∨ p.length = 1 ∧ n.isFragment = true := by
  match p with
  | [] => simp [endsAtWrapper]
  | [_] => simp [endsAtWrapper]
  | _ :: _ :: _ => simp [endsAtWrapper]

/-! ## What a line passes on -/

section
variable {o : Options} {p : List OpenNode} {t : Option Target} {s : State} {l : Line}
  {line : Text} {r : Outcome}

theorem sources_deeper (s s' : State) (es : List Event) :
    (Outcome.writing s' (s.deeperEnd ++ es)).sources = es.filterMap Event.source? := by
  rw [Outcome.sources, Outcome.events_writing, List.filterMap_append,
    filterMap_deeperEnd rfl, List.nil_append]

theorem endsAtWrapper_of_reserved {n : OpenNode} (h : isReservedName n.name) :
    endsAtWrapper (p ++ [n]) = false := by
  rw [Bool.eq_false_iff, ne_eq, endsAtWrapper_concat, OpenNode.isRoot_of_reserved h,
    OpenNode.isFragment_of_reserved h]
  simp

/-- The line of an opened node is passed on as it would be at its depth. -/
theorem share_of_opened {n : OpenNode} (hb : braceOf line = .opens n)
    (hl : l.text = dropTerminator line) (h : s.depth = p.length)
    (hw : Site.withheld o t ⟨p, line⟩ = false) :
    Site.share o t ⟨p, line⟩ = [indentFix o.indentFix (s.depth + 1) l.text] := by
  rw [share_of_passed hw, passed_of_opens hb, hl, h]

theorem sources_opens (h : Mirrors o p t s) {n : OpenNode} (hl : l.text = dropTerminator line)
    (hb : braceOf line = .opens n) (hr : State.Opening o s l n.label n.name r)
    (hf : r.fatal = none) : r.sources = Site.share o t ⟨p, line⟩ := by
  have hw := withheld_of_opens (o := o) (p := p) (t := t) hb
  cases hr with
  | inDropped hd =>
    have hp := h.any_drops_of_dropping hd
    rw [share_of_withheld (by rw [hw]; simp [hp])]
    rfl
  | fragment hd h1 hn =>
    obtain ⟨m, rfl⟩ := List.length_eq_one_iff.mp (h.depth.symm.trans h1)
    have hn : n.isFragment = true := hn
    rw [share_of_withheld (by rw [hw]; simp [endsAtWrapper, hn])]
    exact filterMap_deeperEnd rfl s
  | heading hd hn hp =>
    have hn : n.isOverlay = true := hn
    have ht : t.isSome = true := by rw [← h.pending, hp]; rfl
    rw [share_of_withheld (by rw [hw]; simp [hn, h.not_dropping.mp hd, ht]), sources_deeper]
    rfl
  | notice hd hn hp hforce =>
    have ht : t.isSome = false := by rw [← h.pending, hp]; rfl
    have hdrop : o.drops n = false := Options.drops_of_legal (OpenNode.isIllegal_of_isOverlay hn)
    have hend := endsAtWrapper_of_reserved (p := p) (isReservedName_of_overlay hn)
    rw [share_of_opened hb hl h.depth (by rw [hw]; simp [hend, h.not_dropping.mp hd, hdrop, ht]),
      sources_deeper]
    rfl
  | stopOverlay hd hn hp hforce => cases hf
  | dropNode hd hreserved hn hforce =>
    have hdrop : o.drops n = true := by
      simp [Options.drops, OpenNode.isIllegal, hforce, hreserved, hn]
    rw [share_of_withheld (by rw [hw]; simp [hdrop]), sources_deeper]
    rfl
  | stopReserved hd hreserved hn hforce => cases hf
  | root hd h0 hn =>
    obtain rfl := h.eq_nil_iff_depth.mpr h0
    have hroot : n.isRoot = true := OpenNode.isRoot_iff.mpr hn
    rw [share_of_withheld (by rw [hw]; simp [endsAtWrapper, hroot])]
    rfl
  | top hd hreserved h0 hn =>
    obtain rfl := h.eq_nil_iff_depth.mpr h0
    have hroot : n.isRoot = false := by simpa [OpenNode.isRoot] using hn
    have hdrop : o.drops n = false :=
      Options.drops_of_legal (OpenNode.isIllegal_of_not_reserved hreserved)
    have hover := OpenNode.isOverlay_of_not_reserved hreserved
    rw [share_of_opened hb hl h.depth (by rw [hw]; simp [endsAtWrapper, hroot, hdrop, hover]), h0]
    simp [Outcome.sources, Event.source?, indentFix]
  | inner hd hreserved h0 hn =>
    have hdrop : o.drops n = false :=
      Options.drops_of_legal (OpenNode.isIllegal_of_not_reserved hreserved)
    have hover := OpenNode.isOverlay_of_not_reserved hreserved
    have hend : endsAtWrapper (p ++ [n]) = false := by
      rw [Bool.eq_false_iff, ne_eq, endsAtWrapper_concat]
      rintro (⟨rfl, -⟩ | ⟨h1, hfrag⟩)
      · exact h0 h.depth
      · rw [OpenNode.isFragment, hn (h.depth.trans h1)] at hfrag
        cases hfrag
    rw [share_of_opened hb hl h.depth
      (by rw [hw]; simp [hend, h.not_dropping.mp hd, hdrop, hover]), sources_deeper]
    rfl

/-- A close that is neither the fragment's nor the elided root's ends no wrapper. -/
theorem endsAtWrapper_of_inner (h : Mirrors o p t s) (hd : s.dropping = none)
    (hs : s.openFragments.head? ≠ some s.depth) (hr : s.depth = 1 → s.rootElided = false) :
    endsAtWrapper p = false := by
  match p with
  | [] => rfl
  | [m] =>
    have hroot := hr h.depth
    rw [h.rootElided] at hroot
    exact hroot
  | [m, n] =>
    -- A fragment here is on the stack with this depth, which `hs` excludes.
    by_contra hn
    have hn : n.isFragment = true := by simpa [endsAtWrapper] using hn
    have hm : o.drops m = false := by
      have := h.not_dropping.mp hd
      simp only [List.any_cons, Bool.or_eq_false_iff] at this
      exact this.1
    rw [h.openFragments, h.depth] at hs
    simp [fragmentOf, hm, hn] at hs
  | _ :: _ :: _ :: _ => rfl

theorem sources_closes (h : Mirrors o p t s) (hl : l.text = dropTerminator line)
    (hb : braceOf line = .closes) (hr : State.Closing o s l r) :
    r.sources = Site.share o t ⟨p, line⟩ := by
  have hw := withheld_of_closes (o := o) (p := p) (t := t) hb
  have hpass : Site.passed o ⟨p, line⟩ = indentFix o.indentFix s.depth l.text := by
    rw [passed_of_not_opens (by simp [hb]), h.depth, hl]
  cases hr with
  | dropped hd ht =>
    rw [share_of_withheld (by rw [hw]; simp [h.any_drops_of_dropping hd])]
    rfl
  | inDropped hd ht =>
    rw [share_of_withheld (by rw [hw]; simp [h.any_drops_of_dropping hd])]
    rfl
  | fragment hd hs =>
    obtain ⟨m, n, rfl, -, hn, -⟩ := h.at_fragment hs
    rw [share_of_withheld (by rw [hw]; simp [endsAtWrapper, hn])]
    exact filterMap_unusedTarget (fun _ => rfl) s
  | root hd hs h1 hroot =>
    obtain ⟨m, rfl⟩ := List.length_eq_one_iff.mp (h.depth.symm.trans h1)
    rw [h.rootElided] at hroot
    have hm : m.isRoot = true := hroot
    rw [share_of_withheld (by rw [hw]; simp [endsAtWrapper, hm])]
    exact filterMap_blockEnd rfl s
  | stray hd hs h0 =>
    have hend := endsAtWrapper_of_inner h hd hs (by omega)
    rw [share_of_passed (by rw [hw, h.not_dropping.mp hd, hend]; rfl), hpass, h0]
    simp [Outcome.sources, Event.source?, indentFix]
  | inner hd hs h0 hroot =>
    have hend := endsAtWrapper_of_inner h hd hs hroot
    rw [share_of_passed (by rw [hw, h.not_dropping.mp hd, hend]; rfl), hpass]
    rfl

theorem sources_stays (h : Mirrors o p t s) {k : Int} (hb : BraceFree line)
    (hr : State.Staying o s (classify s.allowsTarget k line) r) :
    r.sources = Site.share o t ⟨p, line⟩ := by
  have hw := withheld_of_braceFree (o := o) (p := p) (t := t) hb
  have htarget := h.target?_eq hb k
  have hpass : Site.passed o ⟨p, line⟩ = indentFix o.indentFix s.depth (dropTerminator line) := by
    rw [passed_of_not_opens (by simp [braceOf_of_braceFree hb]), h.depth]
  cases hr with
  | inDropped hd =>
    rw [share_of_withheld (by rw [hw]; simp [h.any_drops_of_dropping hd])]
    rfl
  | reference hd hc =>
    rw [hc] at htarget
    rw [share_of_withheld (by rw [hw, htarget]; simp)]
    rfl
  | path hd hc =>
    rw [hc] at htarget
    rw [share_of_withheld (by rw [hw, htarget]; simp)]
    rfl
  | rootProperty hd hc hp =>
    rw [hc] at htarget
    rw [share_of_passed (by rw [hw, htarget, h.not_dropping.mp hd]; rfl), hpass]
    rw [Outcome.sources, Outcome.events_writing, filterMap_property (fun _ => rfl),
      State.blockStart]
    split <;> rfl
  | plain hd hc hp =>
    rw [hc] at htarget
    rw [share_of_passed (by rw [hw, htarget, h.not_dropping.mp hd]; rfl), hpass]
    rfl

end

/-- A line that is not fatal passes on itself or nothing, as its place says. -/
theorem sources_feed {o : Options} {p : List OpenNode} {t : Option Target} {s : State}
    (h : Mirrors o p t s) {line : Text} (hf : (s.feed o line).fatal = none) :
    (s.feed o line).sources = Site.share o t ⟨p, line⟩ := by
  have hc : Mirrors o p t (s.count line) := h.count line
  have hl : (s.lineOf line).text = dropTerminator line := rfl
  obtain ⟨r, hr, hrule⟩ := s.feed_cases o line
  rw [hr, Outcome.fatal_after] at hf
  rw [hr, Outcome.sources_after]
  rcases hrule with ⟨n, hb, hrule⟩ | ⟨hb, hrule⟩ | ⟨hb, hrule⟩
  · exact sources_opens hc hl hb hrule hf
  · exact sources_closes hc hl hb hrule
  · exact sources_stays hc hb hrule

theorem sources_run {o : Options} {lines : List Text} (h : (run o lines).fatal = none) :
    (run o lines).sources = kept o lines := by
  refine run_induction (P := fun lines r => r.sources = kept o lines) rfl ?_ h
  intro lines line hx ih hf
  rw [Outcome.sources_after, kept_concat, sources_feed (mirrors_run hx) hf]
  exact congrArg (· ++ _) ih

/-! ## Lines that are added -/

inductive Site.Adds (o : Options) (t : Option Target) (x : Site) : Origin → Text → Prop
  | rootOpen {n : OpenNode} (hp : x.path = [n]) (hn : n.isRoot = true) (hb : BraceFree x.line)
      (ha : assignsProperty (dropTerminator x.line) = true) : Adds o t x .rootOpen rootBlockOpen
  | rootClose {n : OpenNode} (hp : x.path = [n]) (hn : n.isRoot = true)
      (hb : braceOf x.line ≠ .neither) : Adds o t x .rootClose rootBlockClose
  | heading {v : Target} (ho : x.opensOverlay o = true) (ht : t = some v)
      (hv : BraceFree v.value) :
      Adds o t x .heading (indentFix o.indentFix (x.path.length + 1)
        (leadingBlank (dropTerminator x.line) ++ v.value ++ " \x7b".toList))
  | notice (ho : x.opensOverlay o = true) (ht : t = none) (hf : o.force = true) (message : Text) :
      Adds o t x .notice (indentFix o.indentFix (x.path.length + 1)
        (leadingBlank (dropTerminator x.line) ++ "/* ERROR: ".toList ++ message ++
          " */".toList))

section
variable {o : Options} {p : List OpenNode} {t : Option Target} {s : State} {l : Line}
  {line text : Text} {r : Outcome} {origin : Origin}

theorem path_of_block (h : Mirrors o p t s) (hb : s.inRootBlock = true) :
    ∃ n, p = [n] ∧ n.isRoot = true := by
  obtain ⟨hl, hr⟩ := h.block hb
  obtain ⟨n, rfl⟩ := List.length_eq_one_iff.mp hl
  rw [h.rootElided] at hr
  exact ⟨n, rfl, hr⟩

theorem adds_blockEnd (h : Mirrors o p t s) (hb : braceOf line ≠ .neither)
    (he : .line origin text ∈ s.blockEnd) : Site.Adds o t ⟨p, line⟩ origin text := by
  rw [State.blockEnd] at he
  split at he
  · next hblock =>
    obtain ⟨n, rfl, hn⟩ := path_of_block h hblock
    obtain ⟨rfl, rfl⟩ := Event.line.inj (List.mem_singleton.mp he)
    exact .rootClose rfl hn hb
  · cases he

theorem adds_deeperEnd (h : Mirrors o p t s) (hb : braceOf line ≠ .neither)
    (he : .line origin text ∈ s.deeperEnd) : Site.Adds o t ⟨p, line⟩ origin text := by
  rw [State.deeperEnd] at he
  split at he
  · exact adds_blockEnd h hb he
  · cases he

theorem opensOverlay_of_opens {n : OpenNode} (h : Mirrors o p t s) (hd : s.dropping = none)
    (hb : braceOf line = .opens n) (hn : n.isOverlay = true) :
    Site.opensOverlay o ⟨p, line⟩ = true := by
  simp [Site.opensOverlay, hb, hn, h.not_dropping.mp hd]

theorem adds_opens (h : Mirrors o p t s) {n : OpenNode} (hl : l.text = dropTerminator line)
    (hv : ∀ v, t = some v → BraceFree v.value)
    (hb : braceOf line = .opens n) (hr : State.Opening o s l n.label n.name r)
    (hf : r.fatal = none) (ho : origin ≠ .source) (he : .line origin text ∈ r.events) :
    Site.Adds o t ⟨p, line⟩ origin text := by
  have hbrace : braceOf line ≠ .neither := by simp [hb]
  cases hr with
  | inDropped hd => cases he
  | fragment hd h1 hn => exact adds_deeperEnd h hbrace he
  | @heading v hd hn hp =>
    rcases List.mem_append.mp he with he | he
    · exact adds_deeperEnd h hbrace he
    · obtain ⟨rfl, rfl⟩ := Event.line.inj (List.mem_singleton.mp he)
      have ht : t = some v := h.pending.symm.trans hp
      rw [h.depth, State.targetLine, Line.indent, hl]
      exact .heading (opensOverlay_of_opens h hd hb hn) ht (hv v ht)
  | notice hd hn hp hforce =>
    rcases List.mem_append.mp he with he | he
    · exact adds_deeperEnd h hbrace he
    · have ht : t = none := h.pending.symm.trans hp
      simp only [List.mem_cons, reduceCtorEq, List.not_mem_nil, or_false, false_or,
        Event.line.injEq] at he
      rcases he with ⟨rfl, rfl⟩ | ⟨rfl, -⟩
      · rw [h.depth, State.errorComment, Line.indent, hl]
        exact .notice (opensOverlay_of_opens h hd hb hn) ht hforce _
      · exact absurd rfl ho
  | stopOverlay hd hn hp hforce => cases hf
  | dropNode hd hreserved hn hforce =>
    rcases List.mem_append.mp he with he | he
    · exact adds_deeperEnd h hbrace he
    · simp at he
  | stopReserved hd hreserved hn hforce => cases hf
  | root hd h0 hn => cases he
  | top hd hreserved h0 hn =>
    exact absurd (Event.line.inj (List.mem_singleton.mp he)).1 ho
  | inner hd hreserved h0 hn =>
    rcases List.mem_append.mp he with he | he
    · exact adds_deeperEnd h hbrace he
    · exact absurd (Event.line.inj (List.mem_singleton.mp he)).1 ho

theorem adds_closes (h : Mirrors o p t s) (hb : braceOf line = .closes)
    (hr : State.Closing o s l r) (ho : origin ≠ .source) (he : .line origin text ∈ r.events) :
    Site.Adds o t ⟨p, line⟩ origin text := by
  cases hr with
  | dropped hd ht => cases he
  | inDropped hd ht => cases he
  | fragment hd hs =>
    rw [State.closeFragment, State.unusedTarget] at he
    split at he <;> simp at he
  | root hd hs h1 hroot => exact adds_blockEnd h (by simp [hb]) he
  | stray hd hs h0 => exact absurd (Event.line.inj (List.mem_singleton.mp he)).1 ho
  | inner hd hs h0 hroot => exact absurd (Event.line.inj (List.mem_singleton.mp he)).1 ho

theorem adds_stays (h : Mirrors o p t s) (hl : l.text = dropTerminator line)
    (hb : BraceFree line) (hr : State.Staying o s l r) (ho : origin ≠ .source)
    (he : .line origin text ∈ r.events) : Site.Adds o t ⟨p, line⟩ origin text := by
  cases hr with
  | inDropped hd => cases he
  | reference hd hc => cases he
  | path hd hc => simp at he
  | rootProperty hd hc hp =>
    simp only [State.isRootProperty, Line.isProperty, Bool.and_eq_true, beq_iff_eq] at hp
    obtain ⟨m, rfl⟩ := List.length_eq_one_iff.mp (h.depth.symm.trans hp.1.1.2)
    have hm : m.isRoot = true := h.rootElided.symm.trans hp.1.2
    rcases List.mem_append.mp he with he | he
    · rcases List.mem_append.mp he with he | he
      · rw [State.blockStart] at he
        split at he
        · cases he
        · obtain ⟨rfl, rfl⟩ := Event.line.inj (List.mem_singleton.mp he)
          exact .rootOpen rfl hm hb (hl ▸ hp.2)
      · simp at he
    · exact absurd (Event.line.inj (List.mem_singleton.mp he)).1 ho
  | plain hd hc hp => exact absurd (Event.line.inj (List.mem_singleton.mp he)).1 ho

theorem adds_feed (h : Mirrors o p t s) (hv : ∀ v, t = some v → BraceFree v.value)
    (hf : (s.feed o line).fatal = none)
    (ho : origin ≠ .source) (he : .line origin text ∈ (s.feed o line).events) :
    Site.Adds o t ⟨p, line⟩ origin text := by
  have hc : Mirrors o p t (s.count line) := h.count line
  have hl : (s.lineOf line).text = dropTerminator line := rfl
  obtain ⟨r, hr, hrule⟩ := s.feed_cases o line
  rw [hr, Outcome.fatal_after] at hf
  rw [hr, Outcome.events_after] at he
  have he : .line origin text ∈ r.events := by simpa using he
  rcases hrule with ⟨n, hb, hrule⟩ | ⟨hb, hrule⟩ | ⟨hb, hrule⟩
  · exact adds_opens hc hl hv hb hrule hf ho he
  · exact adds_closes hc hb hrule ho he
  · exact adds_stays hc hl hb hrule ho he

end

/-! ## Whole conversions -/

theorem finish_line {s : State} {origin : Origin} {text : Text}
    (he : .line origin text ∈ s.finish.events) :
    origin = .rootClose ∧ text = rootBlockClose := by
  rw [State.finish, Outcome.events_writing, State.blockEnd] at he
  rcases List.mem_append.mp he with he | he
  · split at he
    · exact Event.line.inj (List.mem_singleton.mp he)
    · cases he
  · split at he <;> simp at he

theorem sources_finish (s : State) : s.finish.sources = [] :=
  (filterMap_finish (fun _ => rfl) s).trans (filterMap_blockEnd rfl s)

theorem added_run {o : Options} {lines : List Text} (h : (run o lines).fatal = none)
    {origin : Origin} (ho : origin ≠ .source) {text : Text}
    (he : .line origin text ∈ (run o lines).events) :
    ∃ pre line rest, lines = pre ++ line :: rest ∧
      Site.Adds o (waiting o pre) ⟨pathOf pre, line⟩ origin text := by
  revert he
  refine run_induction (P := fun lines r => .line origin text ∈ r.events →
    ∃ pre line rest, lines = pre ++ line :: rest ∧
      Site.Adds o (waiting o pre) ⟨pathOf pre, line⟩ origin text) (by simp) ?_ h
  intro lines line hx ih hf he
  rcases List.mem_append.mp he with he | he
  · obtain ⟨pre, line', rest, rfl, hadd⟩ := ih he
    exact ⟨pre, line', rest ++ [line], by simp, hadd⟩
  · exact ⟨lines, line, [], rfl, adds_feed (mirrors_run hx) (fun _ => braceFree_waiting) hf ho he⟩

theorem share_of_close {o : Options} {p : List OpenNode} {t : Option Target} {line : Text}
    (hb : braceOf line = .closes) (hd : p.any o.drops = false) :
    Site.share o t ⟨p, line⟩ = [] ↔ endsAtWrapper p = true := by
  have hw := withheld_of_closes (o := o) (p := p) (t := t) hb
  rw [hd, Bool.false_or] at hw
  rw [Site.share, hw]
  split
  · next hend => simp [hend]
  · next hend => simp [hend]

theorem pathOf_inside {pre body : List Text} {line : Text} {n : OpenNode}
    (hb : braceOf line = .opens n) (h : Balanced body) :
    pathOf (pre ++ line :: body) = pathOf pre ++ [n] := by
  rw [pathOf_append]
  change pathFrom (descend (pathOf pre) line) body = _
  rw [descend, hb]
  exact pathFrom_balanced h _

/-- What a line passes on in the middle of a conversion. -/
theorem sources_at {o : Options} {pre rest : List Text} {line : Text}
    (h : (run o (pre ++ line :: rest)).fatal = none) :
    ((run o pre).state.feed o line).sources =
      Site.share o (waiting o pre) ⟨pathOf pre, line⟩ := by
  have hpre : (run o (pre ++ [line])).fatal = none := by
    rw [List.append_cons] at h
    exact State.fatal_of_append h
  obtain ⟨hx, hf⟩ := run_fatal_of_concat hpre
  exact sources_feed (mirrors_run hx) hf

/-- No line is lost, duplicated or moved: the lines passed on are those not withheld, and any other
line has a given form and reason. Where no node is dropped a close is withheld just when the node
that it closes is a wrapper, and a close that closes nothing is passed on. -/
theorem line_provenance {o : Options} {lines : List Text} (h : (convert o lines).fatal = none) :
    (convert o lines).outcome.sources = kept o lines ∧
      (∀ origin text, .line origin text ∈ (convert o lines).outcome.events → origin ≠ .source →
        (∃ pre line rest, lines = pre ++ line :: rest ∧
          Site.Adds o (waiting o pre) ⟨pathOf pre, line⟩ origin text) ∨
        (origin = .rootClose ∧ text = rootBlockClose)) ∧
      (∀ pre opening body closing rest n, lines = pre ++ opening :: body ++ closing :: rest →
        braceOf opening = .opens n → Balanced body → braceOf closing = .closes →
        (pathOf pre ++ [n]).any o.drops = false →
        (((run o (pre ++ opening :: body)).state.feed o closing).sources = [] ↔
          pathOf pre = [] ∧ n.isRoot = true ∨ (pathOf pre).length = 1 ∧ n.isFragment = true)) ∧
      (∀ pre closing rest, lines = pre ++ closing :: rest → pathOf pre = [] →
        braceOf closing = .closes →
        ((run o pre).state.feed o closing).sources = [dropTerminator closing]) := by
  have hrun := run_of_convert h
  rw [outcome_of_run hrun]
  refine ⟨?_, ?_, ?_, ?_⟩
  · rw [Outcome.sources_after, sources_finish, List.append_nil]
    exact sources_run hrun
  · intro origin text he ho
    rcases List.mem_append.mp he with he | he
    · exact .inl (added_run hrun ho he)
    · exact .inr (finish_line he)
  · rintro pre opening body closing rest n rfl hopen hbody hclose hd
    rw [sources_at hrun, pathOf_inside hopen hbody, share_of_close hclose hd,
      endsAtWrapper_concat]
  · rintro pre closing rest rfl hnil hclose
    rw [sources_at hrun, hnil, share_of_passed (by rw [withheld_of_closes hclose]; rfl),
      passed_of_not_opens (by simp [hclose])]
    simp [indentFix]

/-- One fragment, whose close is withheld, and a close after the end of the root, which is not. -/
theorem line_provenance_of_fragment :
    let root := "/ \x7b".toList
    let opening := "\tfragment@0 \x7b".toList
    let body := ["\t\ttarget = <&uart>;", "\t\t__overlay__ \x7b", "\t\t\tx = <1>;",
      "\t\t\x7d;"].map String.toList
    let closing := "\t\x7d;".toList
    let last := "\x7d;".toList
    let lines := [root] ++ opening :: body ++ closing :: [last, last]
    (convert .standard lines).fatal = none ∧
      (convert .standard lines).outcome.sources = ["\tx = <1>;".toList, last, last] ∧
      ((run .standard ([root] ++ opening :: body)).state.feed .standard closing).sources = [] ∧
      ((run .standard ([root] ++ opening :: body ++ [closing, last])).state.feed
        .standard last).sources = [last] := by
  intro root opening body closing last lines
  have hf : (convert .standard lines).fatal = none := by decide
  obtain ⟨hkept, -, hclose, hstray⟩ := line_provenance hf
  have hsources : (convert .standard lines).outcome.sources = ["\tx = <1>;".toList, last, last] := by
    rw [hkept]
    decide
  have hwrapper := hclose [root] opening body closing [last, last] ⟨[], "fragment@0".toList⟩ rfl
    (by decide) (by decide) (by decide) (by decide)
  have hlast := hstray ([root] ++ opening :: body ++ [closing, last]) last [] rfl (by decide)
    (by decide)
  exact ⟨hf, hsources, hwrapper.mpr (.inr ⟨by decide, by decide⟩), hlast⟩

end OverlaySugar
