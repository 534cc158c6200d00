import OverlaySugar.Proofs.Document
import OverlaySugar.Proofs.Run

/-!
# Conversion of documents

A document in expanded form is converted to its sugar form. The proof follows
the document: each of its parts leads from a path and a target in wait to
others, and writes the same part in sugar form on the way.
-/

set_option autoImplicit false

namespace OverlaySugar
open Text

structure Clear (p : List OpenNode) (t : Option Target) (s : State) : Prop
    extends Mirrors .standard p t s where
  noBlock : s.inRootBlock = false
  noFinding : s.tally = .zero

def Converts (p : List OpenNode) (t : Option Target) (lines out : List Text)
    (q : List OpenNode) (u : Option Target) : Prop :=
  ∀ s, Clear p t s →
    (State.feedAll .standard s lines).fatal = none ∧
      (State.feedAll .standard s lines).emitted = out ∧
      (State.feedAll .standard s lines).messages = [] ∧
      Clear q u (State.feedAll .standard s lines).state

namespace Converts
variable {p q r : List OpenNode} {t u v : Option Target} {xs ys out out' : List Text}

theorem nil (p : List OpenNode) (t : Option Target) : Converts p t [] [] p t := by
  intro s hs
  exact ⟨rfl, rfl, rfl, hs⟩

theorem append (hx : Converts p t xs out q u) (hy : Converts q u ys out' r v) :
    Converts p t (xs ++ ys) (out ++ out') r v := by
  intro s hs
  obtain ⟨hf, he, hm, hc⟩ := hx s hs
  obtain ⟨hf', he', hm', hc'⟩ := hy _ hc
  have he : (State.feedAll .standard s xs).events.filterMap Event.line? = out := he
  have hm : (State.feedAll .standard s xs).events.filterMap Event.message? = [] := hm
  rw [State.feedAll_append_of_not_fatal hf, Outcome.emitted_after, Outcome.messages_after, he, he',
    hm, hm']
  exact ⟨hf', rfl, rfl, hc'⟩

theorem cons {line : Text} (hx : Converts p t [line] out q u) (hy : Converts q u ys out' r v) :
    Converts p t (line :: ys) (out ++ out') r v := hx.append hy

theorem line {line : Text} (hq : descend p line = q) (hu : Site.passOn .standard ⟨p, line⟩ t = u)
    (h : ∀ (s : State) (k : Int), Clear p t s → ∃ s' es,
      s.take .standard (classify s.allowsTarget k line) = .writing s' es ∧
        es.filterMap Event.line? = out ∧ es.filterMap Event.message? = [] ∧
        s'.inRootBlock = false ∧ s'.tally = .zero) : Converts p t [line] out q u := by
  intro s hs
  have hc : Clear p t (s.count line) := { hs with }
  obtain ⟨s', es, htake, hl, hm, hb, ht⟩ := h (s.count line) (s.linesRead + 1 : Nat) hc
  have hfeed : s.feed .standard line = (Outcome.writing s' es).after
      [.trace ((s.count line).traceText (s.lineOf line))] := by
    rw [← htake]
    rfl
  have hmirror := hs.toMirrors.feed line
  rw [hq, hu] at hmirror
  rw [State.feedAll_singleton]
  rw [hfeed] at hmirror ⊢
  exact ⟨rfl, hl, hm, { hmirror with noBlock := hb, noFinding := ht }⟩

end Converts

namespace Clear
variable {p : List OpenNode} {t : Option Target} {s : State}

theorem not_dropped (h : Clear p t s) : s.dropping = none := by
  rw [h.dropping, Option.map_eq_none_iff, List.findIdx?_eq_none_iff]
  intro n _
  rfl

theorem take_eq (h : Clear p t s) (l : Line) :
    s.take .standard l = s.handle .standard l := by
  rw [State.take, h.not_dropped]

theorem deeperEnd_eq (h : Clear p t s) : s.deeperEnd = [] := by
  rw [State.deeperEnd, State.blockEnd, h.noBlock]
  simp

theorem deeper_noBlock (h : Clear p t s) : s.deeper.inRootBlock = false := by
  simp [State.deeper, h.noBlock]

section
variable {l : Line} {label name : Text}

theorem take_plain (h : Clear p t s) (hc : l.content = .plain) (h1 : p.length ≠ 1) :
    s.take .standard l = .writing s [.line .source (indentFix true p.length l.text)] := by
  have hd : s.depth ≠ 1 := by
    rw [h.depth]
    exact h1
  have hp : s.isRootProperty l = false := by simp [State.isRootProperty, hd]
  rw [h.take_eq, State.handle, hc, ← h.depth]
  simp only [State.plain, hp]
  rfl

theorem take_target (h : Clear p t s) {v : Text} (hc : l.content = .target (.reference v)) :
    s.take .standard l = .writing { s with pending := some (.reference v) } [] := by
  rw [h.take_eq, State.handle, hc]
  rfl

/-- Deeper than a fragment every node without a reserved name is passed on. -/
theorem take_ordinary (h : Clear p t s) (hc : l.content = .nodeOpen label name)
    (h2 : 2 ≤ p.length) (hr : isReservedName name = false) :
    s.take .standard l =
      .writing s.deeper [.line .source (indentFix true (p.length + 1) l.text)] := by
  have hd : s.deeper.depth = p.length + 1 := congrArg (· + 1) h.depth
  have ho : ¬ isOverlayName name = true := by
    intro ho
    rw [isReservedName_of_overlay ho] at hr
    cases hr
  rw [h.take_eq, State.handle, hc]
  simp only [State.openNode, State.openAtDepth, h.deeperEnd_eq, Outcome.after_nil]
  rw [if_neg (by omega), if_neg ho, if_neg (by simp [hr]), if_neg (by omega), State.fixed, hd]
  rfl

theorem take_root (h : Clear [] t s) (hc : l.content = .nodeOpen label rootName) :
    s.take .standard l = .writing { s.deeper with rootElided := true } [] := by
  have hd : s.deeper.depth = 1 := congrArg (· + 1) h.depth
  rw [h.take_eq, State.handle, hc]
  simp only [State.openNode, State.openAtDepth, h.deeperEnd_eq, Outcome.after_nil]
  rw [if_neg (by omega), if_neg (by decide), if_neg (by decide), if_pos hd]
  rfl

theorem take_fragment {m : OpenNode} (h : Clear [m] t s) (hc : l.content = .nodeOpen label name)
    (hn : isFragmentName name = true) :
    s.take .standard l = .writing (s.deeper.openFragment label name) [] := by
  have hd : s.deeper.depth = 2 := congrArg (· + 1) h.depth
  rw [h.take_eq, State.handle, hc]
  simp only [State.openNode, State.openAtDepth, h.deeperEnd_eq, Outcome.after_nil]
  rw [if_pos ⟨hd, hn⟩]
  rfl

theorem take_overlay {v : Target} (h : Clear p (some v) s)
    (hc : l.content = .nodeOpen label overlayName) :
    s.take .standard l = .writing { s.deeper with pending := none }
      [.line .heading (indentFix true (p.length + 1) (State.targetLine l v))] := by
  have hf : ¬ (s.deeper.depth = 2 ∧ isFragmentName overlayName = true) := by
    rintro ⟨-, hf⟩
    exact absurd hf (by decide)
  have hp : s.deeper.pending = some v := h.pending
  have hd : s.deeper.depth = p.length + 1 := congrArg (· + 1) h.depth
  rw [h.take_eq, State.handle, hc]
  simp only [State.openNode, State.openAtDepth, h.deeperEnd_eq, Outcome.after_nil]
  rw [if_neg hf, if_pos (by decide), State.openOverlay, hp, ← hd]
  rfl

theorem take_close (h : Clear p t s) (hc : l.content = .nodeClose) (h3 : 3 ≤ p.length) :
    s.take .standard l = .writing { s with depth := s.depth - 1 }
      [.line .source (indentFix true p.length l.text)] := by
  have hd := h.depth
  have hother : s.closeNode .standard l = s.closeOther .standard l := by
    rw [State.closeNode, h.openFragments]
    split
    · next d below hs =>
      split at hs
      · rw [if_neg]
        have := (List.cons.inj hs).1
        omega
      · cases hs
    · rfl
  rw [h.take_eq, State.handle, hc]
  simp only [hother, State.closeOther]
  rw [if_neg (by omega), if_neg (by omega), State.fixed, hd]
  rfl

theorem take_fragmentClose {m n : OpenNode} (h : Clear [m, n] none s)
    (hn : n.isFragment = true) (hc : l.content = .nodeClose) :
    s.take .standard l = .writing (s.closeFragment []).state [] := by
  have hm : Options.standard.drops m = false := rfl
  have hs : s.openFragments = [s.depth] := by
    rw [h.openFragments, h.depth]
    simp [fragmentOf, hm, hn]
  have hp : s.unusedTarget = [] := by rw [State.unusedTarget, h.pending]
  rw [h.take_eq, State.handle, hc]
  simp only [State.closeNode, hs, if_true]
  rw [State.closeFragment, hp]
  rfl

theorem take_rootClose {m : OpenNode} (h : Clear [m] t s) (hm : m.isRoot = true)
    (hc : l.content = .nodeClose) :
    s.take .standard l =
      .writing { s with inRootBlock := false, rootElided := false, depth := s.depth - 1 } [] := by
  have hs : s.openFragments = [] := h.openFragments
  have hr : s.rootElided = true := h.rootElided.trans hm
  have hb : s.blockEnd = [] := by simp [State.blockEnd, h.noBlock]
  rw [h.take_eq, State.handle, hc]
  simp only [State.closeNode, hs, State.closeOther]
  rw [if_pos ⟨h.depth, hr⟩, hb]

end

end Clear

/-! ## Lines of a body -/

theorem indentFix_tabs {k : Nat} (hk : 2 ≤ k) (d : Nat) (t : Text) :
    indentFix true k (tabs (d + 2) ++ t) = tabs d ++ t := by
  have ht : tabs (d + 2) ++ t = '\t' :: '\t' :: (tabs d ++ t) := rfl
  have hk' : (true && decide (1 < k)) = true := by
    rw [Bool.true_and, decide_eq_true_eq]
    omega
  rw [indentFix, ht, if_pos hk']
  rfl

theorem indentFix_openLine {k : Nat} (hk : 2 ≤ k) (d : Nat) (spec : Text) :
    indentFix true k (openLine (d + 2) spec) = openLine d spec := by
  rw [openLine, List.append_assoc, indentFix_tabs hk, openLine, List.append_assoc]

theorem indentFix_closeLine {k : Nat} (hk : 2 ≤ k) (d : Nat) :
    indentFix true k (closeLine (d + 2)) = closeLine d := indentFix_tabs hk d _

section
variable {p : List OpenNode} {t : Option Target}

/-- Outside a root and not directly in a fragment, a line without braces is passed on. -/
theorem converts_plain (l : PlainLine) (d : Nat) (h1 : p.length ≠ 1) (h2 : p.length ≠ 2) :
    Converts p t [tabs d ++ l.text] [indentFix true p.length (tabs d ++ l.text)] p t := by
  have hb := braceFree_plain d l
  have hbrace := braceOf_of_braceFree hb
  have hpath : descend p (tabs d ++ l.text) = p := by rw [descend, hbrace]
  have htarget : Site.target? .standard ⟨p, tabs d ++ l.text⟩ = none := by
    rw [Site.target?, if_neg]
    intro h
    exact h2 h.2
  have hwait : Site.passOn .standard ⟨p, tabs d ++ l.text⟩ t = t := by
    rw [Site.passOn_of_neither hbrace, htarget, Option.none_or]
  apply Converts.line hpath hwait
  intro s k hs
  have hallow : s.allowsTarget = false := by
    rw [Bool.eq_false_iff]
    intro ha
    exact h2 (hs.allowsTarget.mp ha).2
  have hc : (classify s.allowsTarget k (tabs d ++ l.text)).content = .plain := by
    simp only [classify, dropTerminator_plain, hallow]
    exact contentOf_of_braceFree hb
  have htake := hs.take_plain hc h1
  rw [show (classify s.allowsTarget k (tabs d ++ l.text)).text = tabs d ++ l.text from
    dropTerminator_plain d l] at htake
  exact ⟨_, _, htake, rfl, rfl, hs.noBlock, hs.noFinding⟩

theorem converts_open (spec : NodeSpec) (d : Nat) (h2 : 2 ≤ p.length) :
    Converts p t [openLine d spec.text] [indentFix true (p.length + 1) (openLine d spec.text)]
      (p ++ [nodeNamed spec.text]) t := by
  have hover : (nodeNamed spec.text).isOverlay = false :=
    OpenNode.isOverlay_of_not_reserved spec.ordinary
  have hwait : Site.passOn .standard ⟨p, openLine d spec.text⟩ t = t := by
    rw [Site.passOn_of_opens (braceOf_openLine d spec.text)]
    rw [hover, Bool.false_and, Bool.false_or, if_neg]
    simp only [decide_eq_true_eq]
    omega
  apply Converts.line (descend_openLine p d spec.text) hwait
  intro s k hs
  have hc := content_openLine s.allowsTarget k d spec.text
  have htake := hs.take_ordinary hc h2 spec.ordinary
  rw [show (classify s.allowsTarget k (openLine d spec.text)).text = openLine d spec.text from
    dropTerminator_openLine d spec.text] at htake
  exact ⟨_, _, htake, rfl, rfl, hs.deeper_noBlock, hs.noFinding⟩

/-- The close of a node inside a fragment is passed on. -/
theorem converts_close (n : OpenNode) (d : Nat) (h2 : 2 ≤ p.length) :
    Converts (p ++ [n]) t [closeLine d] [indentFix true (p.length + 1) (closeLine d)] p t := by
  have hl : (p ++ [n]).length = p.length + 1 := by simp
  have hwait : Site.passOn .standard ⟨p ++ [n], closeLine d⟩ t = t := by
    rw [Site.passOn_of_closes (braceOf_closeLine d), if_neg (by omega)]
  have hpath : descend (p ++ [n]) (closeLine d) = p := by
    rw [descend_closeLine, List.dropLast_concat]
  apply Converts.line hpath hwait
  intro s k hs
  have hc := content_closeLine s.allowsTarget k d
  have htake := hs.take_close hc (by omega)
  rw [show (classify s.allowsTarget k (closeLine d)).text = closeLine d from
    dropTerminator_closeLine d, hl] at htake
  exact ⟨_, _, htake, rfl, rfl, hs.noBlock, hs.noFinding⟩

/-- A body leads back to where it stands, and loses two tabs on every line. -/
theorem converts_forest (f : Forest) (d : Nat) (hp : p.length = d + 2) (hd : 1 ≤ d) :
    Converts p t (f.lines (d + 2)) (f.lines d) p t := by
  induction f generalizing p d with
  | nil => exact Converts.nil p t
  | line l rest ih =>
    have hl := converts_plain (p := p) (t := t) l (d + 2) (by omega) (by omega)
    rw [indentFix_tabs (by omega)] at hl
    exact hl.cons (ih d hp hd)
  | node spec children rest ihc ihr =>
    have hopen := converts_open (p := p) (t := t) spec (d + 2) (by omega)
    rw [indentFix_openLine (by omega)] at hopen
    have hclose := converts_close (p := p) (t := t) (nodeNamed spec.text) (d + 2) (by omega)
    rw [indentFix_closeLine (by omega)] at hclose
    -- The children stand one node and one tab deeper.
    have hinner := ihc (p := p ++ [nodeNamed spec.text]) (d + 1) (by simp [hp]) (by omega)
    exact hopen.cons (hinner.append (hclose.cons (ihr d hp hd)))

end

/-! ## Wrappers -/

def rootNode : OpenNode := ⟨[], rootName⟩

def overlayNode : OpenNode := ⟨[], overlayName⟩

def Fragment.node (f : Fragment) : OpenNode := nodeNamed f.spec

theorem Fragment.node_isFragment (f : Fragment) : f.node.isFragment = true := by
  rw [OpenNode.isFragment, Fragment.node, nodeNamed, f.splitName_spec]
  exact f.isFragmentName_name

theorem Fragment.fragmentOf_node (f : Fragment) :
    fragmentOf .standard [rootNode, f.node] = some f.node := by
  have hm : Options.standard.drops rootNode = false := rfl
  simp [fragmentOf, hm, f.node_isFragment]

/-- A node of the first two levels hides what waits. -/
theorem passOn_openLine {p : List OpenNode} (hp : p.length ≤ 1) (t : Option Target) (d : Nat)
    (spec : Text) : Site.passOn .standard ⟨p, openLine d spec⟩ t = none := by
  rw [Site.passOn_of_opens (braceOf_openLine d spec), if_pos (by simp [hp])]

theorem passOn_closeLine {p : List OpenNode} (hp : p.length ≤ 2) (t : Option Target) (d : Nat) :
    Site.passOn .standard ⟨p, closeLine d⟩ t = none := by
  rw [Site.passOn_of_closes (braceOf_closeLine d), if_pos hp]

theorem converts_root : Converts [] none [openLine 0 rootName] [] [rootNode] none := by
  apply Converts.line (descend_openLine [] 0 rootName) (passOn_openLine (by decide) none 0 _)
  intro s k hs
  have hc : (classify s.allowsTarget k (openLine 0 rootName)).content = .nodeOpen [] rootName :=
    content_openLine s.allowsTarget k 0 rootName
  exact ⟨_, _, hs.take_root hc, rfl, rfl, hs.deeper_noBlock, hs.noFinding⟩

theorem converts_rootClose : Converts [rootNode] none [closeLine 0] [] [] none := by
  apply Converts.line (descend_closeLine [rootNode] 0) (passOn_closeLine (by decide) none 0)
  intro s k hs
  have hc := content_closeLine s.allowsTarget k 0
  exact ⟨_, _, hs.take_rootClose rfl hc, rfl, rfl, rfl, hs.noFinding⟩

section
variable (f : Fragment)

theorem converts_fragmentOpen :
    Converts [rootNode] none [openLine 1 f.spec] [] [rootNode, f.node] none := by
  apply Converts.line (descend_openLine [rootNode] 1 f.spec)
    (passOn_openLine (by decide) none 1 _)
  intro s k hs
  have hc := content_openLine s.allowsTarget k 1 f.spec
  exact ⟨_, _, hs.take_fragment hc f.node_isFragment, rfl, rfl, hs.deeper_noBlock, hs.noFinding⟩

theorem converts_fragmentClose :
    Converts [rootNode, f.node] none [closeLine 1] [] [rootNode] none := by
  apply Converts.line (descend_closeLine [rootNode, f.node] 1)
    (passOn_closeLine (by simp) none 1)
  intro s k hs
  have hc := content_closeLine s.allowsTarget k 1
  exact ⟨_, _, hs.take_fragmentClose f.node_isFragment hc, rfl, rfl, hs.noBlock, hs.noFinding⟩

/-- The target of a fragment is held back until its overlay node opens. -/
theorem converts_target (t : Option Target) :
    Converts [rootNode, f.node] t [targetText 2 f.target] [] [rootNode, f.node]
      (some (.reference f.target.text)) := by
  have hb := braceOf_of_braceFree (braceFree_targetText 2 f.target)
  have hfrag : (fragmentOf .standard [rootNode, f.node]).isSome := by
    rw [f.fragmentOf_node]
    rfl
  have hpath : descend [rootNode, f.node] (targetText 2 f.target) = [rootNode, f.node] := by
    rw [descend, hb]
  have hwait : Site.passOn .standard ⟨[rootNode, f.node], targetText 2 f.target⟩ t =
      some (.reference f.target.text) := by
    rw [Site.passOn_of_neither hb, Site.target?, if_pos ⟨hfrag, rfl⟩, content_targetText]
    rfl
  apply Converts.line hpath hwait
  intro s k hs
  have hallow : s.allowsTarget = true := hs.allowsTarget.mpr ⟨hfrag, rfl⟩
  have hc : (classify s.allowsTarget k (targetText 2 f.target)).content =
      .target (.reference f.target.text) := by
    rw [hallow]
    exact content_targetText k 2 f.target
  exact ⟨_, _, hs.take_target hc, rfl, rfl, hs.noBlock, hs.noFinding⟩

/-- The overlay node is written under the target. -/
theorem converts_overlay (v : Text) :
    Converts [rootNode, f.node] (some (.reference v)) [openLine 2 overlayName] [openLine 0 v]
      [rootNode, f.node, overlayNode] none := by
  have hbrace : braceOf (openLine 2 overlayName) = .opens overlayNode :=
    braceOf_openLine 2 overlayName
  have hwait : Site.passOn .standard ⟨[rootNode, f.node], openLine 2 overlayName⟩
      (some (.reference v)) = none := by
    rw [Site.passOn_of_opens hbrace]
    rfl
  apply Converts.line (descend_openLine [rootNode, f.node] 2 overlayName) hwait
  intro s k hs
  have hc : (classify s.allowsTarget k (openLine 2 overlayName)).content =
      .nodeOpen [] overlayName := content_openLine s.allowsTarget k 2 overlayName
  have hline : State.targetLine (classify s.allowsTarget k (openLine 2 overlayName))
      (.reference v) = openLine 2 v := rfl
  have htake := hs.take_overlay hc
  rw [hline, indentFix_openLine (by simp)] at htake
  exact ⟨_, _, htake, rfl, rfl, hs.deeper_noBlock, hs.noFinding⟩

theorem converts_fragment :
    Converts [rootNode] none f.expanded f.sugar [rootNode] none := by
  have hbody : Converts [rootNode, f.node, overlayNode] none (f.body.lines 3) (f.body.lines 1)
      [rootNode, f.node, overlayNode] none := converts_forest f.body 1 rfl (Nat.le_refl 1)
  have hclose : Converts [rootNode, f.node, overlayNode] none [closeLine 2] [closeLine 0]
      [rootNode, f.node] none := by
    have h := converts_close (p := [rootNode, f.node]) (t := none) overlayNode 2 (Nat.le_refl 2)
    rwa [indentFix_closeLine (by simp)] at h
  have hend := hbody.append (hclose.cons (converts_fragmentClose f))
  have hstart := (converts_target f none).cons (converts_overlay f f.target.text)
  rw [Fragment.sugar, Forest.lines_drop f.body 1]
  exact (converts_fragmentOpen f).cons (hstart.append hend)

end

/-! ## Documents -/

theorem converts_fragments (fs : List Fragment) :
    Converts [rootNode] none (fs.flatMap Fragment.expanded) (fs.flatMap Fragment.sugar)
      [rootNode] none := by
  induction fs with
  | nil => exact Converts.nil [rootNode] none
  | cons f fs ih =>
    rw [List.flatMap_cons, List.flatMap_cons]
    exact (converts_fragment f).append ih

theorem converts_header (ls : List PlainLine) :
    Converts [] none (ls.map PlainLine.text) (ls.map PlainLine.text) [] none := by
  induction ls with
  | nil => exact Converts.nil [] none
  | cons l ls ih =>
    have hl := converts_plain (p := []) (t := none) l 0 (by simp) (by simp)
    exact hl.cons ih

theorem converts_document (d : Document) : Converts [] none d.expanded d.sugar [] none := by
  have hroot := converts_root.cons ((converts_fragments d.fragments).append converts_rootClose)
  rw [List.append_nil] at hroot
  exact (converts_header d.header).append hroot

theorem clear_initial : Clear [] none .initial :=
  { Mirrors.initial .standard with
    noBlock := rfl
    noFinding := rfl }

/-- A document in expanded form is converted to its sugar form, and nothing is found wrong. -/
theorem convert_expanded (d : Document) :
    (convert .standard d.expanded).lines = d.sugar ∧
      (convert .standard d.expanded).messages = [] ∧
      (convert .standard d.expanded).fatal = none ∧
      (convert .standard d.expanded).status = .ok := by
  obtain ⟨hf, he, hm, hc⟩ : (run .standard d.expanded).fatal = none ∧
      (run .standard d.expanded).emitted = d.sugar ∧
      (run .standard d.expanded).messages = [] ∧
      Clear [] none (run .standard d.expanded).state := converts_document d .initial clear_initial
  have hend : (run .standard d.expanded).state.finish.events = [] := by
    rw [State.finish, Outcome.events_writing, State.blockEnd, hc.noBlock, hc.depth]
    rfl
  have hevents : (convert .standard d.expanded).outcome.events =
      (run .standard d.expanded).events := by
    rw [outcome_of_run hf, Outcome.events_after, hend, List.append_nil]
  refine ⟨?_, ?_, ?_, ?_⟩
  · rw [Conversion.lines, Outcome.emitted, hevents]
    exact he
  · rw [Conversion.messages, Outcome.messages, hevents]
    exact hm
  · rw [Conversion.fatal, outcome_of_run hf]
    rfl
  · have hzero : (run .standard d.expanded).state.finish.state.tally = .zero := hc.noFinding
    rw [convert_of_run hf, hzero]
    rfl

end OverlaySugar
