import OverlaySugar.Proofs.Balance
import OverlaySugar.Proofs.Strict

/-!
# Converting again

Converted lines are read again by the same machine, at depths of their own. It
finds no fragment and no overlay node in them, and the only root nodes are
those of root properties, which it takes apart and writes again in the same
place. Names that would be taken for others at their new depth are excluded.
-/

set_option autoImplicit false

namespace OverlaySugar
open Text

/-! ## Written lines -/

def Origin.boundsBlock : Origin → Bool
  | .rootOpen | .rootClose => true
  | _ => false

def Event.framed? : Event → Option (Bool × Text)
  | .line origin t => some (origin.boundsBlock, t)
  | _ => none

def Outcome.framed (r : Outcome) : List (Bool × Text) := r.events.filterMap Event.framed?

theorem Outcome.framed_after (es : List Event) (r : Outcome) :
    (r.after es).framed = es.filterMap Event.framed? ++ r.framed := by
  simp [framed]

theorem Outcome.map_framed (r : Outcome) : r.framed.map Prod.snd = r.emitted := by
  rw [framed, emitted, List.map_filterMap]
  congr 1
  funext e
  cases e <;> rfl

theorem dropTerminator_indentFix {t : Text} (h : dropTerminator t = t) (e : Bool) (d : Nat) :
    dropTerminator (indentFix e d t) = indentFix e d t := by
  rcases indentFix_eq_or e d t with hf | hf
  · rwa [hf]
  · rw [hf, dropTerminator_cons (by decide), dropTerminator_cons (by decide)] at h
    exact (List.cons.inj (List.cons.inj h).2).2

/-! ## Reading written lines -/

structure Place where
  depth : Nat
  inBlock : Bool
  deriving DecidableEq, Repr

structure InRoot (s : State) : Prop where
  depth : s.depth = 1
  rootElided : s.rootElided = true
  openFragments : s.openFragments = []
  inFragment : s.inFragment = false
  dropping : s.dropping = none

structure ReadsAt (k : Place) (s : State) : Prop where
  depth : s.depth = k.depth
  rootElided : s.rootElided = k.inBlock
  inRootBlock : s.inRootBlock = k.inBlock
  block : k.inBlock = true → k.depth = 1
  openFragments : s.openFragments = []
  inFragment : s.inFragment = false
  dropping : s.dropping = none

namespace ReadsAt
variable {k : Place} {d : Nat} {s : State}

theorem initial : ReadsAt ⟨0, false⟩ .initial := ⟨rfl, rfl, rfl, by simp, rfl, rfl, rfl⟩

theorem count (h : ReadsAt k s) (line : Text) : ReadsAt k (s.count line) := { h with }

theorem deeper (h : ReadsAt ⟨d, false⟩ s) : ReadsAt ⟨d + 1, false⟩ s.deeper := by
  have hblock : s.deeper.inRootBlock = false := by simp [State.deeper, h.inRootBlock]
  exact { h with depth := congrArg (· + 1) h.depth, inRootBlock := hblock, block := by simp }

theorem blockEnd (h : ReadsAt ⟨d, false⟩ s) : s.blockEnd = [] := by
  rw [State.blockEnd, if_neg (by simp [h.inRootBlock])]

theorem deeperEnd (h : ReadsAt ⟨d, false⟩ s) : s.deeperEnd = [] := by
  rw [State.deeperEnd, h.blockEnd, ite_self]

theorem inRoot (h : ReadsAt k s) (hk : k.inBlock = true) : InRoot s :=
  { h with depth := h.depth.trans (h.block hk), rootElided := h.rootElided.trans hk }

theorem isRootProperty (h : ReadsAt k s) (l : Line) :
    s.isRootProperty l = (k.inBlock && l.isProperty) := by
  rw [State.isRootProperty, h.inFragment, h.rootElided, h.depth]
  cases hb : k.inBlock with
  | false => simp
  | true => simp [h.block hb]

end ReadsAt

structure Repeats (out : List (Bool × Text)) (k : Place) (r : Outcome) : Prop where
  fatal : r.fatal = none
  framed : r.framed = out
  readsAt : ReadsAt k r.state

def Rereads (o : Options) (k : Place) (out : List (Bool × Text)) (k' : Place) : Prop :=
  ∀ s, ReadsAt k s → Repeats out k' (State.feedAll o s (out.map Prod.snd))

namespace Rereads
variable {o : Options} {k k' : Place} {d : Nat} {t : Text}

theorem nil (k : Place) : Rereads o k [] k := fun _ h => ⟨rfl, rfl, h⟩

theorem append {k'' : Place} {xs ys : List (Bool × Text)} (hx : Rereads o k xs k')
    (hy : Rereads o k' ys k'') : Rereads o k (xs ++ ys) k'' := by
  intro s h
  have hxs := hx s h
  have hys := hy _ hxs.readsAt
  rw [List.map_append, State.feedAll_append_of_not_fatal hxs.fatal]
  refine ⟨hys.fatal, ?_, hys.readsAt⟩
  rw [Outcome.framed_after, hys.framed]
  exact congrArg (· ++ ys) hxs.framed

theorem line {b : Bool} (h : ∀ s, ReadsAt k s → Repeats [(b, t)] k' (s.feed o t)) :
    Rereads o k [(b, t)] k' := by
  intro s hs
  rw [List.map_singleton, State.feedAll_singleton]
  exact h s hs

/-- A line that is passed on is written as it was read. -/
theorem passed {s : State} {x : String} (ht : dropTerminator t = t) (h : ReadsAt k s) :
    Repeats [(false, t)] k
      ((Outcome.writing s [.line .source (dropTerminator t)]).after [.trace x]) := by
  rw [ht]
  exact ⟨rfl, rfl, h⟩

theorem opens {n : OpenNode} (hfix : o.indentFix = false) (hb : braceOf t = .opens n)
    (ht : dropTerminator t = t) (hreserved : isReservedName n.name = false)
    (hroot : d = 0 → n.isRoot = false) (hfrag : d = 1 → n.isFragment = false) :
    Rereads o ⟨d, false⟩ [(false, t)] ⟨d + 1, false⟩ := by
  refine line fun s h => ?_
  have hc := h.count t
  have hoverlay : isOverlayName n.name = false := OpenNode.isOverlay_of_not_reserved hreserved
  obtain ⟨r, hr, hrule⟩ := State.feed_opens (o := o) (s := s) hb
  rw [hr]
  cases hrule with
  | inDropped hd => cases hc.dropping.symm.trans hd
  | fragment hd h1 hn => cases hn.symm.trans (hfrag (hc.depth.symm.trans h1))
  | heading hd hn hp => cases hn.symm.trans hoverlay
  | notice hd hn hp hforce => cases hn.symm.trans hoverlay
  | stopOverlay hd hn hp hforce => cases hn.symm.trans hoverlay
  | dropNode hd hname hn hforce => cases hname.symm.trans hreserved
  | stopReserved hd hname hn hforce => cases hname.symm.trans hreserved
  | root hd h0 hn =>
    have hname : n.isRoot = true := OpenNode.isRoot_iff.mpr hn
    cases hname.symm.trans (hroot (hc.depth.symm.trans h0))
  | top hd hr h0 hn => exact passed ht { hc.deeper with rootElided := rfl }
  | inner hd hr h0 hn =>
    rw [hc.deeperEnd, hfix]
    exact passed ht hc.deeper

theorem closes (hfix : o.indentFix = false) (hb : braceOf t = .closes)
    (ht : dropTerminator t = t) : Rereads o ⟨d, false⟩ [(false, t)] ⟨d - 1, false⟩ := by
  refine line fun s h => ?_
  have hc := h.count t
  have hafter : ReadsAt ⟨d - 1, false⟩ { s.count t with depth := (s.count t).depth - 1 } :=
    { hc with depth := congrArg (· - 1) hc.depth, block := by simp }
  obtain ⟨r, hr, hrule⟩ := State.feed_closes (o := o) (s := s) hb
  rw [hr]
  cases hrule with
  | dropped hd => cases hc.dropping.symm.trans hd
  | inDropped hd => cases hc.dropping.symm.trans hd
  | fragment hd hs => cases hc.openFragments.symm.trans hs
  | root hd hs h1 he => cases hc.rootElided.symm.trans he
  | stray hd hs h0 =>
    have hd : d = 0 := hc.depth.symm.trans h0
    subst hd
    exact passed ht hc
  | inner hd hs h0 he =>
    rw [hfix]
    exact passed ht hafter

/-- A property in the root is written behind the start of its block, unless that is open. -/
theorem property {s : State} (hfix : o.indentFix = false) (h : InRoot s) (hb : BraceFree t)
    (ht : dropTerminator t = t) (hprop : assignsProperty t = true) :
    Repeats (s.blockStart.filterMap Event.framed? ++ [(false, t)]) ⟨1, true⟩ (s.feed o t) := by
  have hl : (s.lineOf t).isProperty = true := (congrArg assignsProperty ht).trans hprop
  obtain ⟨r, hr, hrule⟩ := State.feed_stays (o := o) (s := s) hb
  rw [hr]
  cases hrule with
  | inDropped hd => cases h.dropping.symm.trans hd
  | reference hd hc => exact absurd hc (s.content_ne_target h.inFragment t _)
  | path hd hc => exact absurd hc (s.content_ne_target h.inFragment t _)
  | plain hd hc hp =>
    have hroot : s.isRootProperty (s.lineOf t) = true := by
      simp [State.isRootProperty, h.inFragment, h.depth, h.rootElided, hl]
    cases hroot.symm.trans hp
  | rootProperty hd hc hp =>
    rw [hfix]
    refine ⟨rfl, ?_, ?_⟩
    · conv_rhs => rw [← ht]
      exact filterMap_property (fun _ => rfl) s _ _
    · exact ⟨h.depth, h.rootElided, rfl, fun _ => rfl, h.openFragments, h.inFragment, h.dropping⟩

theorem braceFree (hfix : o.indentFix = false) (hb : BraceFree t) (ht : dropTerminator t = t) :
    Rereads o k [(false, t)] k := by
  refine line fun s h => ?_
  by_cases hp : k.inBlock = true ∧ assignsProperty t = true
  · have hstart : s.blockStart = [] := if_pos (h.inRootBlock.trans hp.1)
    have hk : k = ⟨1, true⟩ := by
      rw [← h.block hp.1, ← hp.1]
    have hout := property hfix (h.inRoot hp.1) hb ht hp.2
    rw [hstart] at hout
    rw [hk]
    exact hout
  · have hc := h.count t
    obtain ⟨r, hr, hrule⟩ := State.feed_stays (o := o) (s := s) hb
    rw [hr]
    cases hrule with
    | inDropped hd => cases hc.dropping.symm.trans hd
    | reference hd hl => exact absurd hl (s.content_ne_target h.inFragment t _)
    | path hd hl => exact absurd hl (s.content_ne_target h.inFragment t _)
    | rootProperty hd hl hroot =>
      rw [hc.isRootProperty, Bool.and_eq_true] at hroot
      refine absurd ⟨hroot.1, ?_⟩ hp
      rw [← ht]
      exact hroot.2
    | plain hd hl hp =>
      rw [hfix]
      exact passed ht hc

/-- The end of a block is read as the close of the root node, and written as the end again. -/
theorem blockEnd : Rereads o ⟨1, true⟩ [(true, rootBlockClose)] ⟨0, false⟩ := by
  refine line fun s h => ?_
  have hc := h.count rootBlockClose
  obtain ⟨r, hr, hrule⟩ := @State.feed_closes o s rootBlockClose (by decide)
  rw [hr]
  cases hrule with
  | dropped hd => cases hc.dropping.symm.trans hd
  | inDropped hd => cases hc.dropping.symm.trans hd
  | fragment hd hs => cases hc.openFragments.symm.trans hs
  | stray hd hs h0 => cases hc.depth.symm.trans h0
  | inner hd hs h0 he => cases hc.rootElided.symm.trans (he hc.depth)
  | root hd hs h1 he =>
    rw [State.blockEnd, if_pos hc.inRootBlock]
    have hdepth : s.depth - 1 = 0 := congrArg (· - 1) h.depth
    exact ⟨rfl, rfl, { hc with
      depth := hdepth, rootElided := rfl, inRootBlock := rfl, block := by simp }⟩

theorem feed_rootBlockOpen {s : State} (h : ReadsAt ⟨0, false⟩ s) :
    s.feed o rootBlockOpen = (Outcome.quiet { (s.count rootBlockOpen).deeper with
      rootElided := true }).after [.trace ((s.count rootBlockOpen).traceText
        (s.lineOf rootBlockOpen))] := by
  have hb : braceOf rootBlockOpen = .opens ⟨[], rootName⟩ := by decide
  have h1 : (s.count rootBlockOpen).deeper.depth = 1 := congrArg (· + 1) h.depth
  rw [State.feed_of_opens hb h.dropping, State.openNode, (h.count rootBlockOpen).deeperEnd,
    State.openAtDepth, h1]
  rfl

/-- The start of a block is read as the root node, and written again in front of a property. -/
theorem blockStart (hfix : o.indentFix = false) (hb : BraceFree t) (ht : dropTerminator t = t)
    (hprop : assignsProperty t = true) :
    Rereads o ⟨0, false⟩ [(true, rootBlockOpen), (false, t)] ⟨1, true⟩ := by
  intro s h
  have hc := h.count rootBlockOpen
  -- Between the two lines no block is open, though the root node was read.
  have hopen := feed_rootBlockOpen (o := o) h
  have hgoes : (s.feed o rootBlockOpen).fatal = none := by rw [hopen]; rfl
  have hroot : InRoot (s.feed o rootBlockOpen).state := by
    rw [hopen]
    exact { hc.deeper with rootElided := rfl }
  have hstart : (s.feed o rootBlockOpen).state.blockStart = [.line .rootOpen rootBlockOpen] := by
    rw [hopen]
    exact if_neg (by simp [hc.deeper.inRootBlock])
  have hout := property hfix hroot hb ht hprop
  rw [hstart] at hout
  rw [List.map_cons, State.feedAll_cons_of_not_fatal hgoes, List.map_singleton,
    State.feedAll_singleton]
  refine ⟨hout.fatal, ?_, hout.readsAt⟩
  rw [Outcome.framed_after, hout.framed, hopen]
  rfl

end Rereads

/-! ## Names that are kept -/

/-- The node that a line opens after the lines `pre` is not taken for another when the converted
line is read: an overlay node becomes a reference, and nodes that stand deeper than a root or a
fragment node are not named like one. -/
structure KeepsName (o : Options) (pre : List Text) (n : OpenNode) : Prop where
  reference : n.isOverlay = true → ∀ v, Available o pre v → v.value.head? = some '&'
  root : 1 ≤ (pathOf pre).length → n.isRoot = false
  fragment : 2 ≤ (pathOf pre).length → n.isFragment = false

def KeepsNames (o : Options) (lines : List Text) : Prop :=
  ∀ pre line rest n, lines = pre ++ line :: rest → braceOf line = .opens n → KeepsName o pre n

theorem KeepsNames.of_concat {o : Options} {lines : List Text} {line : Text}
    (h : KeepsNames o (lines ++ [line])) :
    KeepsNames o lines ∧ ∀ n, braceOf line = .opens n → KeepsName o lines n := by
  constructor
  · rintro pre line' rest n rfl hb
    exact h pre line' (rest ++ [line]) n (by simp) hb
  · exact fun n hb => h lines line [] n rfl hb

theorem keepsName_iff {o : Options} {pre : List Text} {n : OpenNode} :
    KeepsName o pre n ↔
      (n.isOverlay = true → ∀ v ∈ waiting o pre, v.value.head? = some '&') ∧
        (1 ≤ (pathOf pre).length → n.isRoot = false) ∧
        (2 ≤ (pathOf pre).length → n.isFragment = false) := by
  constructor
  · rintro ⟨href, hroot, hfrag⟩
    exact ⟨fun hn v hv => href hn v (waiting_eq_some_iff.mp hv), hroot, hfrag⟩
  · rintro ⟨href, hroot, hfrag⟩
    exact ⟨fun hn v hv => href hn v (waiting_eq_some_iff.mpr hv), hroot, hfrag⟩

instance (o : Options) (pre : List Text) (n : OpenNode) : Decidable (KeepsName o pre n) :=
  decidable_of_iff _ keepsName_iff.symm

theorem keepsNames_iff {o : Options} {lines : List Text} :
    KeepsNames o lines ↔ ∀ i (h : i < lines.length), ∀ n, braceOf lines[i] = .opens n →
      KeepsName o (lines.take i) n := by
  constructor
  · intro h i hi n hb
    refine h _ lines[i] (lines.drop (i + 1)) n ?_ hb
    rw [List.getElem_cons_drop, List.take_append_drop]
  · rintro h pre line rest n rfl hb
    simpa using h pre.length (by simp) n (by simpa using hb)

instance (o : Options) (lines : List Text) : Decidable (KeepsNames o lines) :=
  decidable_of_iff _ keepsNames_iff.symm

/-- What starts with `&` is a reference, and no label is read in front of it. -/
theorem splitName_of_reference {t : Text} (h : t.head? = some '&') :
    ∃ u, splitName t = ([], '&' :: u) := by
  obtain ⟨u, rfl⟩ : ∃ u, t = '&' :: u := by
    cases t with
    | nil => cases h
    | cons c u => exact ⟨u, by rw [Option.some.inj h]⟩
  have ht : trim ('&' :: u) = '&' :: trimEnd u := by
    rw [trim, trimEnd, dropEndWhile_cons (by decide), trimStart_of_head (by decide)]
    rfl
  exact ⟨trimEnd u, by simp [splitName, ht]⟩

/-- The line that opens an overlay body names a reference. -/
theorem braceOf_heading {b v : Text} (hb : ∀ c ∈ b, isBlank c = true)
    (hv : v.head? = some '&') :
    ∃ u, braceOf (b ++ v ++ " \x7b".toList) = .opens ⟨[], '&' :: u⟩ := by
  obtain ⟨u, hu⟩ := splitName_of_reference hv
  have hsplit : b ++ v ++ " \x7b".toList = (b ++ v ++ [' ']) ++ ['\x7b'] := by simp
  have hmem : '\x7b' ∈ (b ++ v ++ [' ']) ++ ['\x7b'] := by simp
  have htrim : trim (b ++ v ++ [' ']) = trim v := by
    rw [List.append_assoc, trim_append hb, trim, trimEnd_concat (by decide), trim]
  have hcontent : (classify false 0 (b ++ v ++ " \x7b".toList)).content =
      .nodeOpen [] ('&' :: u) := by
    simp only [classify]
    rw [hsplit, dropTerminator_concat (by decide), contentOf_of_open hmem, beforeLast_concat,
      splitName_of_trim htrim, hu]
  exact ⟨u, braceOf_of_open hcontent⟩

/-! ## Lines of the first conversion -/

structure WritesAt (k : Place) (s : State) : Prop where
  depth : (k.depth : Int) = s.outputDepth
  inBlock : k.inBlock = s.inRootBlock

def Retraces (o : Options) (k : Place) (b : Bool) (out : List (Bool × Text)) : Prop :=
  ∃ d, Rereads o k out ⟨d, b⟩

section
variable {o o' : Options} {p : List OpenNode} {t : Option Target} {s : State} {k : Place}

theorem place_of_block (h : Sound o s) (hk : WritesAt k s) (hb : s.inRootBlock = true) :
    k = ⟨1, true⟩ := by
  obtain ⟨d, b⟩ := k
  obtain ⟨hd, hx⟩ := hk
  obtain ⟨h1, hr, hf, hnone⟩ := h.block hb
  rw [outputDepth_of_not_dropping hnone, h1, hr, hf, hb] at hd
  simp only [Bool.toNat_true, Bool.toNat_false] at hd
  simp only [Place.mk.injEq]
  exact ⟨by omega, hx.trans hb⟩

theorem place_of_not_block (hk : WritesAt k s) (hb : s.inRootBlock = false) :
    k = ⟨k.depth, false⟩ := by
  rw [← hb, ← hk.inBlock]

theorem retraces_nil {b : Bool} (hb : k.inBlock = b) : Retraces o' k b [] := by
  rw [← hb]
  exact ⟨k.depth, Rereads.nil k⟩

theorem rereads_blockEnd (h : Sound o s) (hk : WritesAt k s) :
    Rereads o' k (s.blockEnd.filterMap Event.framed?) ⟨k.depth - s.inRootBlock.toNat, false⟩ := by
  rw [State.blockEnd]
  cases hb : s.inRootBlock with
  | true =>
    rw [place_of_block h hk hb]
    exact Rereads.blockEnd
  | false =>
    rw [place_of_not_block hk hb]
    exact Rereads.nil _

/-- A node that opens ends the block of root properties around it. -/
theorem retraces_deeperEnd (h : Mirrors o p t s) (hk : WritesAt k s) :
    Retraces o' k s.deeper.inRootBlock (s.deeperEnd.filterMap Event.framed?) := by
  rw [h.deeper_block, h.sound.deeperEnd_eq]
  exact ⟨_, rereads_blockEnd h.sound hk⟩

/-- A line that opens a node is read as it stands, after the end of the block around it. -/
theorem retraces_deeper (h : Mirrors o p t s) (hk : WritesAt k s) (hfix : o'.indentFix = false)
    {text : Text} {n : OpenNode} (hb : braceOf text = .opens n)
    (ht : dropTerminator text = text) (hreserved : isReservedName n.name = false)
    (hroot : k.depth - s.inRootBlock.toNat = 0 → n.isRoot = false)
    (hfrag : k.depth - s.inRootBlock.toNat = 1 → n.isFragment = false) :
    Retraces o' k s.deeper.inRootBlock
      (s.deeperEnd.filterMap Event.framed? ++ [(false, text)]) := by
  rw [h.deeper_block, h.sound.deeperEnd_eq]
  exact ⟨_, (rereads_blockEnd h.sound hk).append (Rereads.opens hfix hb ht hreserved hroot hfrag)⟩

theorem retraces_heading (h : Mirrors o p t s) (hk : WritesAt k s) (hfix : o'.indentFix = false)
    (l : Line) {v : Target} (hv : v.value.head? = some '&') (d : Nat) :
    Retraces o' k s.deeper.inRootBlock (s.deeperEnd.filterMap Event.framed? ++
      [(false, indentFix o.indentFix d (State.targetLine l v))]) := by
  have ht : dropTerminator (State.targetLine l v) = State.targetLine l v := by
    have hend : State.targetLine l v = (l.indent ++ v.value ++ [' ']) ++ ['\x7b'] := by
      simp [State.targetLine]
    rw [hend]
    exact dropTerminator_concat (by decide) _
  obtain ⟨u, hu⟩ : ∃ u, braceOf (State.targetLine l v) = .opens ⟨[], '&' :: u⟩ :=
    braceOf_heading (fun _ => isBlank_of_mem_leadingBlank) hv
  have hb := braceOf_fixed o.indentFix d (State.targetLine l v)
  rw [ht, hu] at hb
  exact retraces_deeper h hk hfix hb (dropTerminator_indentFix ht _ _) rfl (fun _ => rfl)
    fun _ => rfl

theorem retraces_opens {pre : List Text} (h : Mirrors o (pathOf pre) (waiting o pre) s)
    (hforce : o.force = false) (hfix : o'.indentFix = false) (hk : WritesAt k s) {l : Line}
    {line : Text} {n : OpenNode} {r : Outcome} (hl : l.text = dropTerminator line)
    (hb : braceOf line = .opens n) (hn : KeepsName o pre n)
    (hr : State.Opening o s l n.label n.name r) (hf : r.fatal = none) :
    Retraces o' k r.state.inRootBlock r.framed := by
  have hdrop : dropTerminator l.text = l.text := by rw [hl, dropTerminator_dropTerminator]
  have hopen : braceOf l.text = .opens n := by rw [hl, braceOf_dropTerminator, hb]
  have hopens (d : Nat) : braceOf (indentFix o.indentFix d l.text) = .opens n := by
    rw [hl, braceOf_fixed, hb]
  cases hr with
  | inDropped hd =>
    cases (h.not_dropping.mpr (not_dropped_of_strict hforce _)).symm.trans hd
  | fragment hd h1 hname => exact retraces_deeperEnd h hk
  | heading hd hname hp =>
    rw [Outcome.framed, Outcome.events_writing, List.filterMap_append]
    have hwaits : waiting o pre = some _ := h.pending.symm.trans hp
    have href := hn.reference hname _ (waiting_eq_some_iff.mp hwaits)
    exact retraces_heading h hk hfix l href _
  | notice hd hname hp hforced => cases hforce.symm.trans hforced
  | stopOverlay hd hname hp hstrict => cases hf
  | dropNode hd hreserved hname hforced => cases hforce.symm.trans hforced
  | stopReserved hd hreserved hname hstrict => cases hf
  | root hd h0 hname =>
    have hout : Retraces o' k s.deeper.inRootBlock _ := retraces_deeperEnd h hk
    rw [State.deeperEnd_of_depth_ne (by omega)] at hout
    exact hout
  | top hd hreserved h0 hname =>
    -- A fragment name is harmless at the top, where the line is read at depth zero again.
    have hzero : k.depth = 0 := by
      have hdepth := hk.depth
      have hflags := h.sound.flags
      rw [outputDepth_of_not_dropping hd] at hdepth
      omega
    have hout := retraces_deeper h hk hfix hopen hdrop hreserved
      (fun _ => by simpa [OpenNode.isRoot] using hname) (fun h1 => by omega)
    rw [State.deeperEnd_of_depth_ne (by omega)] at hout
    exact hout
  | inner hd hreserved h0 hname =>
    have hdepth := h.depth
    have hfragment : n.isFragment = false := by
      by_cases h1 : s.depth = 1
      · exact hname h1
      · exact hn.fragment (by omega)
    rw [Outcome.framed, Outcome.events_writing, List.filterMap_append]
    exact retraces_deeper h hk hfix (hopens _) (dropTerminator_indentFix hdrop _ _) hreserved
      (fun _ => hn.root (by omega)) fun _ => hfragment

/-- Outside a block a close is read as it stands. -/
theorem retraces_close (hk : WritesAt k s) (hfix : o'.indentFix = false) {text : Text}
    (hb : braceOf text = .closes) (ht : dropTerminator text = text) (hs : s.inRootBlock = false) :
    Retraces o' k s.inRootBlock [(false, text)] := by
  rw [place_of_not_block hk hs, hs]
  exact ⟨_, Rereads.closes hfix hb ht⟩

theorem retraces_closes (h : Mirrors o p t s) (hforce : o.force = false)
    (hfix : o'.indentFix = false) (hk : WritesAt k s) {l : Line} {line : Text} {r : Outcome}
    (hl : l.text = dropTerminator line) (hb : braceOf line = .closes)
    (hr : State.Closing o s l r) : Retraces o' k r.state.inRootBlock r.framed := by
  have hnone := h.not_dropping.mpr (not_dropped_of_strict hforce p)
  have hdrop : dropTerminator l.text = l.text := by rw [hl, dropTerminator_dropTerminator]
  have hclose : braceOf l.text = .closes := by rw [hl, braceOf_dropTerminator, hb]
  have hcloses (d : Nat) : braceOf (indentFix o.indentFix d l.text) = .closes := by
    rw [hl, braceOf_fixed, hb]
  cases hr with
  | dropped hd => cases hnone.symm.trans hd
  | inDropped hd => cases hnone.symm.trans hd
  | fragment hd hstack =>
    rw [Outcome.framed, State.closeFragment, filterMap_unusedTarget (fun _ => rfl)]
    exact retraces_nil hk.inBlock
  | root hd hstack h1 hroot => exact ⟨_, rereads_blockEnd h.sound hk⟩
  | stray hd hstack h0 =>
    have hblock : s.inRootBlock = false := by
      by_contra hx
      have := (h.sound.block (by simpa using hx)).1
      omega
    exact retraces_close hk hfix hclose hdrop hblock
  | inner hd hstack h0 hroot =>
    have hblock : s.inRootBlock = false := by
      by_contra hx
      obtain ⟨h1, he, -⟩ := h.sound.block (by simpa using hx)
      cases he.symm.trans (hroot h1)
    exact retraces_close hk hfix (hcloses _) (dropTerminator_indentFix hdrop _ _) hblock

theorem retraces_stays (h : Sound o s) (hdropping : s.dropping = none)
    (hfix : o'.indentFix = false) (hk : WritesAt k s) {l : Line} {line : Text} {r : Outcome}
    (hl : l.text = dropTerminator line) (hb : BraceFree line)
    (hr : State.Staying o s l r) : Retraces o' k r.state.inRootBlock r.framed := by
  have hdrop : dropTerminator l.text = l.text := by rw [hl, dropTerminator_dropTerminator]
  have hfree : BraceFree l.text := by rwa [hl, braceFree_dropTerminator]
  cases hr with
  | inDropped hd => cases hdropping.symm.trans hd
  | reference hd hc => exact retraces_nil hk.inBlock
  | path hd hc => exact retraces_nil hk.inBlock
  | rootProperty hd hc hp =>
    simp only [State.isRootProperty, Bool.and_eq_true, Bool.not_eq_true', beq_iff_eq] at hp
    obtain ⟨⟨⟨hin, h1⟩, he⟩, hprop⟩ := hp
    have hfixed : indentFix o.indentFix s.depth l.text = l.text := by simp [indentFix, h1]
    rw [hfixed, Outcome.framed, Outcome.events_writing, filterMap_property (fun _ => rfl),
      State.blockStart]
    cases hx : s.inRootBlock with
    | true =>
      rw [place_of_block h hk hx]
      exact ⟨1, Rereads.braceFree hfix hfree hdrop⟩
    | false =>
      have hdepth := hk.depth
      rw [outputDepth_of_not_dropping hd, h1, he, hx, hin] at hdepth
      have hzero : k = ⟨0, false⟩ := by
        rw [place_of_not_block hk hx, show k.depth = 0 by simpa using hdepth]
      rw [hzero]
      exact ⟨1, Rereads.blockStart hfix hfree hdrop hprop⟩
  | plain hd hc hp =>
    have hout : Rereads o' k [(false, indentFix o.indentFix s.depth l.text)] ⟨k.depth, k.inBlock⟩ :=
      Rereads.braceFree hfix (braceFree_indentFix hfree) (dropTerminator_indentFix hdrop _ _)
    rw [hk.inBlock] at hout
    exact ⟨_, hout⟩

/-- What one line of the first conversion writes is read as it stands. -/
theorem retraces_feed {pre : List Text} (h : Mirrors o (pathOf pre) (waiting o pre) s)
    (hforce : o.force = false) (hfix : o'.indentFix = false) (hk : WritesAt k s) {line : Text}
    (hnames : ∀ n, braceOf line = .opens n → KeepsName o pre n)
    (hf : (s.feed o line).fatal = none) :
    Retraces o' k (s.feed o line).state.inRootBlock (s.feed o line).framed := by
  have hc := h.count line
  have hat : WritesAt k (s.count line) := { hk with }
  have hnone := hc.not_dropping.mpr (not_dropped_of_strict hforce _)
  have hl : (s.lineOf line).text = dropTerminator line := rfl
  obtain ⟨r, hr, hrule⟩ := s.feed_cases o line
  rw [hr, Outcome.fatal_after] at hf
  rw [hr, Outcome.state_after, Outcome.framed_after]
  rcases hrule with ⟨n, hb, hrule⟩ | ⟨hb, hrule⟩ | ⟨hb, hrule⟩
  · exact retraces_opens hc hforce hfix hat hl hb (hnames n hb) hrule hf
  · exact retraces_closes hc hforce hfix hat hl hb hrule
  · exact retraces_stays hc.sound hnone hfix hat hl hb hrule

end

/-! ## Runs -/

section
variable {o o' : Options} {lines : List Text}

/-- A second run over the written lines is as deep as they lead. -/
theorem writesAt_run (h : (run o lines).fatal = none) {d : Nat} {b : Bool}
    (hb : b = (run o lines).state.inRootBlock)
    (hr : Rereads o' ⟨0, false⟩ (run o lines).framed ⟨d, b⟩) :
    WritesAt ⟨d, b⟩ (run o lines).state := by
  -- Both are the depth that the braces of the written lines count.
  obtain ⟨e, he, hlead, -⟩ := tracks_run h
  obtain ⟨hagain, -, hat⟩ := hr .initial ReadsAt.initial
  rw [Outcome.map_framed] at hagain hat
  have hdepth : d = levelFrom 0 (run o lines).emitted := hat.depth.symm.trans (depth_run hagain)
  constructor
  · rw [← he, ← hlead, ← hdepth]
  · exact hb

theorem retraces_run (hforce : o.force = false) (hfix : o'.indentFix = false)
    (hnames : KeepsNames o lines) (h : (run o lines).fatal = none) :
    Retraces o' ⟨0, false⟩ (run o lines).state.inRootBlock (run o lines).framed := by
  refine run_induction (P := fun lines r => KeepsNames o lines →
    Retraces o' ⟨0, false⟩ r.state.inRootBlock r.framed) (fun _ => retraces_nil rfl) ?_ h hnames
  intro lines line hx ih hf hnames
  obtain ⟨hlines, hline⟩ := hnames.of_concat
  obtain ⟨d, hd⟩ := ih hlines
  have hat := writesAt_run hx rfl hd
  obtain ⟨e, he⟩ := retraces_feed (mirrors_run hx) hforce hfix hat hline hf
  rw [Outcome.framed_after]
  exact ⟨e, hd.append he⟩

theorem framed_finish (s : State) : s.finish.framed = s.blockEnd.filterMap Event.framed? :=
  filterMap_finish (fun _ => rfl) s

/-- The end of the input ends the block, so at the end of what was written no block is open. -/
theorem retraces_convert (hforce : o.force = false) (hfix : o'.indentFix = false)
    (hnames : KeepsNames o lines) (h : (run o lines).fatal = none) :
    Retraces o' ⟨0, false⟩ false (convert o lines).outcome.framed := by
  obtain ⟨d, hd⟩ := retraces_run hforce hfix hnames h
  have hend : Rereads o' _ _ _ := rereads_blockEnd (mirrors_run h).sound (writesAt_run h rfl hd)
  rw [outcome_of_run h, Outcome.framed_after, framed_finish]
  exact ⟨_, hd.append hend⟩

end

/-- What a conversion without force writes is written again by a conversion of it that fixes no
indentation: the same lines, and the blocks of root properties in the same places. -/
theorem reconversion {o o' : Options} {lines : List Text} (hforce : o.force = false)
    (hfix : o'.indentFix = false) (hnames : KeepsNames o lines)
    (h : (convert o lines).fatal = none) :
    (convert o' (convert o lines).lines).fatal = none ∧
      (convert o' (convert o lines).lines).lines = (convert o lines).lines ∧
      (convert o' (convert o lines).lines).outcome.framed = (convert o lines).outcome.framed := by
  obtain ⟨d, hd⟩ := retraces_convert hforce hfix hnames (run_of_convert h)
  obtain ⟨hagain, hframed, hat⟩ := hd .initial ReadsAt.initial
  rw [Outcome.map_framed] at hagain hframed hat
  have hrun : (run o' (convert o lines).lines).fatal = none := hagain
  have hclosed : (run o' (convert o lines).lines).state.blockEnd = [] := hat.blockEnd
  have hout : (convert o' (convert o lines).lines).outcome.framed =
      (convert o lines).outcome.framed := by
    rw [outcome_of_run hrun, Outcome.framed_after, framed_finish, hclosed, List.filterMap_nil,
      List.append_nil]
    exact hframed
  refine ⟨by rw [fatal_convert, hrun], ?_, hout⟩
  rw [Conversion.lines, ← Outcome.map_framed, hout, Outcome.map_framed]
  rfl

/-- Two blocks of root properties with a fragment between them. -/
theorem reconversion_of_root_blocks :
    let lines := ["/ \x7b", "\tcompatible = \"x\";", "\tfragment@0 \x7b", "\t\ttarget = <&uart>;",
      "\t\t__overlay__ \x7b", "\t\t\tstatus = \"okay\";", "\t\t\x7d;", "\t\x7d;",
      "\tmodel = \"y\";", "\x7d;"].map String.toList
    let again : Options := ⟨false, false, 0⟩
    (convert again (convert .standard lines).lines).lines = (convert .standard lines).lines ∧
      (convert .standard lines).lines =
        ["/ \x7b", "\tcompatible = \"x\";", "\x7d;", "&uart \x7b", "\tstatus = \"okay\";", "\x7d;",
          "/ \x7b", "\tmodel = \"y\";", "\x7d;"].map String.toList := by
  intro lines again
  have hnames : KeepsNames .standard lines := by decide
  obtain ⟨-, hlines, -⟩ := @reconversion .standard again lines rfl rfl hnames (by decide)
  exact ⟨hlines, by decide⟩

end OverlaySugar
