import Mathlib.Data.List.Induction
import OverlaySugar.Proofs.Step

/-!
# The state mirrors the nesting

The converter keeps a depth, a stack of fragment depths and flags. All of them
can be read off the path of the lines read so far, whatever the options and
whether or not a line was fatal. What is not in the path is the target in
wait; it is read off the lines themselves, from the last one back.
-/

set_option autoImplicit false

namespace OverlaySugar
open Text

def Options.drops (o : Options) (n : OpenNode) : Bool := o.force && n.isIllegal

def OpenNode.title (n : OpenNode) : Text :=
  if n.label = [] then n.name else n.label ++ ": ".toList ++ n.name

def fragmentOf (o : Options) : List OpenNode → Option OpenNode
  | m :: n :: _ => if !o.drops m && n.isFragment then some n else none
  | _ => none

/-! ## Targets in wait -/

structure Site where
  path : List OpenNode
  line : Text
  deriving DecidableEq, Repr

namespace Site

def target? (o : Options) (x : Site) : Option Target :=
  if (fragmentOf o x.path).isSome ∧ x.path.length = 2 then
    match (classify true 0 x.line).content with
    | .target t => some t
    | _ => none
  else none

def opensOverlay (o : Options) (x : Site) : Bool :=
  match braceOf x.line with
  | .opens n => n.isOverlay && !x.path.any o.drops
  | _ => false

def bounds (x : Site) : Bool :=
  braceOf x.line != .neither && decide ((nodesOf x.path x.line).length ≤ 2)

def passOn (o : Options) (x : Site) (t : Option Target) : Option Target :=
  (x.target? o).or (if x.opensOverlay o || x.bounds then none else t)

end Site

def sitesFrom (p : List OpenNode) : List Text → List Site
  | [] => []
  | line :: rest => ⟨p, line⟩ :: sitesFrom (descend p line) rest

def waiting (o : Options) (lines : List Text) : Option Target :=
  (sitesFrom [] lines).foldl (fun t x => x.passOn o t) none

theorem sitesFrom_append (p : List OpenNode) (xs ys : List Text) :
    sitesFrom p (xs ++ ys) = sitesFrom p xs ++ sitesFrom (pathFrom p xs) ys := by
  induction xs generalizing p with
  | nil => rfl
  | cons x xs ih => exact congrArg (⟨p, x⟩ :: ·) (ih (descend p x))

@[simp] theorem waiting_nil (o : Options) : waiting o [] = none := rfl

theorem waiting_concat (o : Options) (lines : List Text) (line : Text) :
    waiting o (lines ++ [line]) = Site.passOn o ⟨pathOf lines, line⟩ (waiting o lines) := by
  rw [waiting, sitesFrom_append, List.foldl_append]
  rfl

namespace Site

theorem target?_of_brace {o : Options} {x : Site} (h : braceOf x.line ≠ .neither) :
    x.target? o = none := by
  unfold target?
  split
  · split
    · next t ht =>
      have hb : BraceFree x.line :=
        braceFree_of_content (f := true) (k := 0) (by simp [ht]) (by simp [ht])
      exact absurd (braceOf_of_braceFree hb) h
    · rfl
  · rfl

theorem target?_braceFree {o : Options} {x : Site} {v : Target} (h : x.target? o = some v) :
    BraceFree v.value := by
  unfold target? at h
  split at h
  · split at h
    · next hc =>
      cases h
      exact contentOf_target_braceFree hc
    · cases h
  · cases h

theorem passOn_of_opens {o : Options} {p : List OpenNode} {line : Text} {n : OpenNode}
    (h : braceOf line = .opens n) (t : Option Target) : passOn o ⟨p, line⟩ t =
      if (n.isOverlay && !p.any o.drops) || decide (p.length ≤ 1) then none else t := by
  rw [passOn, target?_of_brace (by simp [h])]
  simp [opensOverlay, bounds, nodesOf, h]

theorem passOn_of_closes {o : Options} {p : List OpenNode} {line : Text}
    (h : braceOf line = .closes) (t : Option Target) :
    passOn o ⟨p, line⟩ t = if p.length ≤ 2 then none else t := by
  rw [passOn, target?_of_brace (by simp [h])]
  simp [opensOverlay, bounds, nodesOf, h]

theorem passOn_of_neither {o : Options} {p : List OpenNode} {line : Text}
    (h : braceOf line = .neither) (t : Option Target) :
    passOn o ⟨p, line⟩ t = (target? o ⟨p, line⟩).or t := by
  simp [passOn, opensOverlay, bounds, h]

end Site

/-- The value of a target stands on a line without braces. -/
theorem braceFree_waiting {o : Options} {lines : List Text} {v : Target}
    (h : waiting o lines = some v) : BraceFree v.value := by
  induction lines using List.reverseRecOn with
  | nil => cases h
  | append_singleton lines line ih =>
    rw [waiting_concat, Site.passOn, Option.or_eq_some_iff] at h
    rcases h with h | ⟨-, h⟩
    · exact Site.target?_braceFree h
    · split at h
      · cases h
      · exact ih h

/-! ## Nodes -/

namespace OpenNode

theorem isIllegal_of_isRoot {n : OpenNode} (h : n.isRoot) : n.isIllegal = false := by
  rw [isIllegal, beq_iff_eq.mp h]
  rfl

theorem isRoot_iff {n : OpenNode} : n.isRoot = true ↔ n.name = rootName := beq_iff_eq

theorem isReservedName_of_isFragment {name : Text} (h : isFragmentName name) :
    isReservedName name = false := by
  unfold isFragmentName at h
  split at h
  · next t ht =>
    rw [(after?_eq_some_iff _ _ _).mp ht]
    rfl
  · cases h

theorem isFragment_of_reserved {n : OpenNode} (h : isReservedName n.name) :
    n.isFragment = false := by
  by_contra hf
  have hr : isReservedName n.name = false :=
    isReservedName_of_isFragment (Bool.not_eq_false _ ▸ hf)
  simp [hr] at h

theorem isRoot_of_reserved {n : OpenNode} (h : isReservedName n.name) : n.isRoot = false := by
  by_contra hf
  rw [show n.name = rootName by simpa [isRoot] using hf] at h
  cases h

theorem isIllegal_of_not_reserved {n : OpenNode} (h : isReservedName n.name = false) :
    n.isIllegal = false := by simp [isIllegal, h]

theorem isOverlay_of_not_reserved {n : OpenNode} (h : isReservedName n.name = false) :
    n.isOverlay = false := by
  by_contra ho
  have hr : isReservedName n.name := isReservedName_of_overlay (Bool.not_eq_false _ ▸ ho)
  simp [hr] at h

theorem isIllegal_of_isOverlay {n : OpenNode} (h : isOverlayName n.name) :
    n.isIllegal = false := by simp [isIllegal, h]

end OpenNode

theorem Options.drops_of_legal {o : Options} {n : OpenNode} (h : n.isIllegal = false) :
    o.drops n = false := by simp [drops, h]

theorem Options.reserved_of_drops {o : Options} {n : OpenNode} (h : o.drops n = true) :
    isReservedName n.name := by
  simp only [drops, OpenNode.isIllegal, Bool.and_eq_true] at h
  exact h.2.1

/-! ## Paths that grow and shrink -/

theorem fragmentOf_concat {o : Options} {p : List OpenNode} (n : OpenNode) (h : p.length ≠ 1) :
    fragmentOf o (p ++ [n]) = fragmentOf o p := by
  match p with
  | [] => rfl
  | [_] => exact absurd rfl h
  | _ :: _ :: _ => rfl

theorem fragmentOf_of_length_le {o : Options} {p : List OpenNode} (h : p.length ≤ 1) :
    fragmentOf o p = none := by
  match p with
  | [] => rfl
  | [_] => rfl
  | _ :: _ :: _ => simp at h

theorem fragmentOf_concat_of_not {o : Options} {p : List OpenNode} {n : OpenNode}
    (h : p.length = 1 → p.any o.drops ∨ n.isFragment = false) :
    fragmentOf o (p ++ [n]) = fragmentOf o p := by
  match p with
  | [] => rfl
  | [m] =>
    rcases h rfl with hm | hn
    · simp [fragmentOf, show o.drops m = true by simpa using hm]
    · simp [fragmentOf, hn]
  | _ :: _ :: _ => rfl

theorem two_le_of_fragmentOf {o : Options} {p : List OpenNode} (h : (fragmentOf o p).isSome) :
    2 ≤ p.length := by
  by_contra hp
  simp [fragmentOf_of_length_le (o := o) (p := p) (by omega)] at h

/-! ## The mirror -/

/-- What the state is after lines with the path `p` when the target `t` waits. -/
structure Mirrors (o : Options) (p : List OpenNode) (t : Option Target) (s : State) : Prop where
  depth : s.depth = p.length
  dropping : s.dropping = (p.findIdx? o.drops).map (· + 1)
  rootElided : s.rootElided = p.head?.any OpenNode.isRoot
  inFragment : s.inFragment = (fragmentOf o p).isSome
  openFragments : s.openFragments = if (fragmentOf o p).isSome then [2] else []
  fragmentName : s.fragmentName = ((fragmentOf o p).map OpenNode.title).getD []
  pending : s.pending = t
  awaited : t.isSome → (fragmentOf o p).isSome
  block : s.inRootBlock → p.length = 1 ∧ s.rootElided

namespace Mirrors
variable {o : Options} {p : List OpenNode} {t : Option Target} {s : State}

theorem initial (o : Options) : Mirrors o [] none .initial where
  depth := rfl
  dropping := rfl
  rootElided := rfl
  inFragment := rfl
  openFragments := rfl
  fragmentName := rfl
  pending := rfl
  awaited := by simp
  block := by simp [State.initial]

theorem not_dropping (h : Mirrors o p t s) : s.dropping = none ↔ p.any o.drops = false := by
  simp [h.dropping, List.findIdx?_eq_none_iff]

theorem block_of_dropping (h : Mirrors o p t s) (hd : s.dropping ≠ none) :
    s.inRootBlock = false := by
  by_contra hb
  obtain ⟨hl, hr⟩ := h.block (by simpa using hb)
  obtain ⟨m, rfl⟩ := List.length_eq_one_iff.mp hl
  rw [h.rootElided] at hr
  have hm : o.drops m = false :=
    Options.drops_of_legal (OpenNode.isIllegal_of_isRoot (by simpa using hr))
  exact hd (h.not_dropping.mpr (by simp [hm]))

theorem deeper_block (h : Mirrors o p t s) : s.deeper.inRootBlock = false := by
  by_contra hb
  simp only [State.deeper, Bool.not_eq_false, Bool.and_eq_true, bne_iff_ne] at hb
  exact hb.1 (h.depth.trans (h.block hb.2).1)

theorem grow (h : Mirrors o p t s) {n : OpenNode} {u : Option Target} {s' : State}
    (hn : p.length = 1 → p.any o.drops ∨ n.isFragment = false)
    (hd : s'.depth = s.depth + 1)
    (hdrop : s'.dropping = s.dropping.or (if o.drops n then some (s.depth + 1) else none))
    (hroot : s'.rootElided = if p = [] then n.isRoot else s.rootElided)
    (hf : s'.inFragment = s.inFragment) (hs : s'.openFragments = s.openFragments)
    (hm : s'.fragmentName = s.fragmentName) (hu : s'.pending = u) (ha : u.isSome → t.isSome)
    (hb : s'.inRootBlock = false) : Mirrors o (p ++ [n]) u s' where
  depth := by simp [hd, h.depth]
  dropping := by
    rw [hdrop, h.dropping, h.depth, List.findIdx?_append]
    cases p.findIdx? o.drops <;> cases hn : o.drops n <;> simp [hn]
  rootElided := by
    rw [hroot, h.rootElided]
    cases p <;> simp
  inFragment := by rw [hf, fragmentOf_concat_of_not hn, h.inFragment]
  openFragments := by rw [hs, fragmentOf_concat_of_not hn, h.openFragments]
  fragmentName := by rw [hm, fragmentOf_concat_of_not hn, h.fragmentName]
  pending := hu
  awaited := fun hu => by rw [fragmentOf_concat_of_not hn]; exact h.awaited (ha hu)
  block := by simp [hb]

theorem shrink {n : OpenNode} (h : Mirrors o (p ++ [n]) t s) {u : Option Target} {s' : State}
    (hn : fragmentOf o (p ++ [n]) = fragmentOf o p)
    (hd : s'.depth = s.depth - 1)
    (hdrop : s'.dropping = if s.dropping = some s.depth then none else s.dropping)
    (hroot : s'.rootElided = if p = [] then false else s.rootElided)
    (hf : s'.inFragment = s.inFragment) (hs : s'.openFragments = s.openFragments)
    (hm : s'.fragmentName = s.fragmentName) (hu : s'.pending = u) (ha : u.isSome → t.isSome)
    (hb : s'.inRootBlock = false) : Mirrors o p u s' where
  depth := by simp [hd, h.depth]
  dropping := by
    rw [hdrop, h.dropping, h.depth, List.findIdx?_append]
    cases hp : p.findIdx? o.drops with
    | none => cases hn : o.drops n <;> simp [hn]
    | some i =>
      have hi : i < p.length := (List.findIdx?_eq_some_iff_findIdx_eq.mp hp).1
      simp [show i ≠ p.length by omega]
  rootElided := by
    rw [hroot, h.rootElided]
    cases p <;> simp
  inFragment := by rw [hf, h.inFragment, hn]
  openFragments := by rw [hs, h.openFragments, hn]
  fragmentName := by rw [hm, h.fragmentName, hn]
  pending := hu
  awaited := fun hu => by rw [← hn]; exact h.awaited (ha hu)
  block := by simp [hb]

theorem count (h : Mirrors o p t s) (line : Text) : Mirrors o p t (s.count line) := { h with }

theorem eq_none_of_length_le (h : Mirrors o p t s) (hp : p.length ≤ 1) : t = none := by
  by_contra ht
  have := two_le_of_fragmentOf (h.awaited (Option.isSome_iff_ne_none.mpr ht))
  omega

theorem passOn_opens (h : Mirrors o p t s) {line : Text} {n : OpenNode}
    (hb : braceOf line = .opens n) (hn : n.isOverlay = false ∨ p.any o.drops) :
    Site.passOn o ⟨p, line⟩ t = t := by
  rw [Site.passOn_of_opens hb]
  have hv : (n.isOverlay && !p.any o.drops) = false := by rcases hn with hn | hn <;> simp [hn]
  by_cases hp : p.length ≤ 1
  · simp [h.eq_none_of_length_le hp]
  · simp [hv, hp]

theorem passOn_closes (h : Mirrors o p t s) {line : Text} (hb : braceOf line = .closes)
    (hp : p.length = 2 → (fragmentOf o p).isSome = false) :
    Site.passOn o ⟨p, line⟩ t = t := by
  rw [Site.passOn_of_closes hb]
  split
  · next hl =>
    by_contra ht
    have hf := h.awaited (Option.isSome_iff_ne_none.mpr (Ne.symm ht))
    have := two_le_of_fragmentOf hf
    have hl' : p.length ≤ 2 := hl
    simp [hp (by omega)] at hf
  · rfl

theorem allowsTarget (h : Mirrors o p t s) :
    s.allowsTarget = true ↔ (fragmentOf o p).isSome ∧ p.length = 2 := by
  rw [State.allowsTarget, h.inFragment, h.openFragments, h.depth]
  cases fragmentOf o p with
  | none => simp
  | some n => simp [eq_comm (a := 2)]

theorem any_drops_of_dropping (h : Mirrors o p t s) {top : Nat} (hd : s.dropping = some top) :
    p.any o.drops = true := by
  by_contra hn
  rw [h.not_dropping.mpr (by simpa using hn)] at hd
  cases hd

theorem eq_nil_iff_depth (h : Mirrors o p t s) : p = [] ↔ s.depth = 0 := by
  rw [h.depth, List.length_eq_zero_iff]

theorem rootElided_of_nil (h : Mirrors o p t s) (hp : p = []) : s.rootElided = false := by
  rw [h.rootElided, hp]
  rfl

/-! ## What a line does to the mirror -/

theorem rootElided_kept (h : Mirrors o p t s) {n : OpenNode} (hn : n.isRoot = false) :
    s.rootElided = if p = [] then n.isRoot else s.rootElided := by
  split
  · next hp => exact (h.rootElided_of_nil hp).trans hn.symm
  · rfl

/-- An overlay node takes the target, if there is one. -/
theorem opens_overlay (h : Mirrors o p t s) {line : Text} {n : OpenNode} {s' : State}
    (hb : braceOf line = .opens n) (hd : s.dropping = none) (hn : n.isOverlay = true)
    (hs : s' = { s.deeper with pending := none, tally := s'.tally }) :
    Mirrors o (p ++ [n]) (Site.passOn o ⟨p, line⟩ t) s' := by
  have hr := isReservedName_of_overlay hn
  have hdrop : o.drops n = false := Options.drops_of_legal (OpenNode.isIllegal_of_isOverlay hn)
  have hp : Site.passOn o ⟨p, line⟩ t = none := by
    simp [Site.passOn_of_opens hb, hn, h.not_dropping.mp hd]
  rw [hp, hs]
  refine h.grow (fun _ => .inr (OpenNode.isFragment_of_reserved hr)) rfl ?_
    (h.rootElided_kept (OpenNode.isRoot_of_reserved hr)) rfl rfl rfl rfl (by simp) h.deeper_block
  simp [State.deeper, hd, hdrop]

/-- A node that is neither a fragment of the second level nor an overlay node. -/
theorem opens_other (h : Mirrors o p t s) {line : Text} {n : OpenNode} {s' : State}
    (hb : braceOf line = .opens n) (hd : s.dropping = none) (hn : n.isOverlay = false)
    (hf : s.depth = 1 → n.isFragment = false)
    (hroot : s'.rootElided = if p = [] then n.isRoot else s.rootElided)
    (hs : s' = { s.deeper with
      rootElided := s'.rootElided
      dropping := if o.drops n then some (s.depth + 1) else none
      tally := s'.tally }) :
    Mirrors o (p ++ [n]) (Site.passOn o ⟨p, line⟩ t) s' := by
  rw [h.passOn_opens hb (.inl hn)]
  have hf' : p.length = 1 → p.any o.drops ∨ n.isFragment = false :=
    fun hp => .inr (hf (h.depth.trans hp))
  refine h.grow hf' (by rw [hs]; rfl) ?_ hroot (by rw [hs]; rfl) (by rw [hs]; rfl)
    (by rw [hs]; rfl) (by rw [hs]; exact h.pending) id (by rw [hs]; exact h.deeper_block)
  rw [hs]
  simp [hd]

theorem opens_fragment (h : Mirrors o p t s) {line : Text} {n : OpenNode}
    (hb : braceOf line = .opens n) (hd : s.dropping = none) (h1 : s.depth = 1)
    (hn : n.isFragment = true) :
    Mirrors o (p ++ [n]) (Site.passOn o ⟨p, line⟩ t) (s.deeper.openFragment n.label n.name) := by
  obtain ⟨m, rfl⟩ := List.length_eq_one_iff.mp (h.depth.symm.trans h1)
  have hm : o.drops m = false := by simpa using h.not_dropping.mp hd
  have hfrag : fragmentOf o ([m] ++ [n]) = some n := by simp [fragmentOf, hm, hn]
  have hdrop : o.drops n = false := Options.drops_of_legal
    (OpenNode.isIllegal_of_not_reserved (OpenNode.isReservedName_of_isFragment hn))
  have hp : Site.passOn o ⟨[m], line⟩ t = none := by simp [Site.passOn_of_opens hb]
  rw [hp]
  exact {
    depth := congrArg (· + 1) h1
    dropping := hd.trans (by simp [List.findIdx?_cons, hm, hdrop])
    rootElided := h.rootElided
    inFragment := by rw [hfrag]; rfl
    openFragments := by
      have hs : s.openFragments = [] := by simpa [fragmentOf] using h.openFragments
      rw [hfrag, State.openFragment, State.deeper, hs, h1]
      rfl
    fragmentName := by rw [hfrag]; rfl
    pending := rfl
    awaited := by simp
    block := by
      intro hblock
      have hb := h.deeper_block
      simp [State.openFragment, hb] at hblock }

theorem opens (h : Mirrors o p t s) {l : Line} {line : Text} {r : Outcome} {n : OpenNode}
    (hb : braceOf line = .opens n) (hs : State.Opening o s l n.label n.name r) :
    Mirrors o (p ++ [n]) (Site.passOn o ⟨p, line⟩ t) r.state := by
  cases hs with
  | inDropped hd =>
    have hp := h.any_drops_of_dropping hd
    have hne : p ≠ [] := by rintro rfl; simp at hp
    rw [h.passOn_opens hb (.inr hp)]
    exact h.grow (fun _ => .inl hp) rfl (by simp [hd]) (by simp [hne]) rfl rfl rfl h.pending id
      (h.block_of_dropping (by simp [hd]))
  | fragment hd h1 hn => exact h.opens_fragment hb hd h1 hn
  | heading hd hn hp => exact h.opens_overlay hb hd hn rfl
  | notice hd hn hp hf => exact h.opens_overlay hb hd hn rfl
  | stopOverlay hd hn hp hf =>
    refine h.opens_overlay hb hd hn ?_
    simp [State.stop, State.deeper, hp]
  | dropNode hd hr hn hf =>
    refine h.opens_other hb hd hn (fun _ => OpenNode.isFragment_of_reserved hr)
      (h.rootElided_kept (OpenNode.isRoot_of_reserved hr)) ?_
    simp [Options.drops, hf, OpenNode.isIllegal, hr, hn]
  | stopReserved hd hr hn hf =>
    refine h.opens_other hb hd hn (fun _ => OpenNode.isFragment_of_reserved hr)
      (h.rootElided_kept (OpenNode.isRoot_of_reserved hr)) ?_
    simp [Options.drops, hf, State.stop, State.deeper, hd]
  | root hd h0 hn =>
    have hroot : n.isRoot = true := OpenNode.isRoot_iff.mpr hn
    have hdrop : o.drops n = false := Options.drops_of_legal (OpenNode.isIllegal_of_isRoot hroot)
    refine h.opens_other hb hd ?_ (by omega) ?_ ?_
    · rw [OpenNode.isOverlay, hn]
      rfl
    · simp [h.eq_nil_iff_depth.mpr h0, hroot]
    · simp [hdrop, State.deeper, hd]
  | top hd hr h0 hn =>
    have hroot : n.isRoot = false := by simpa [OpenNode.isRoot] using hn
    have hdrop : o.drops n = false :=
      Options.drops_of_legal (OpenNode.isIllegal_of_not_reserved hr)
    refine h.opens_other hb hd (OpenNode.isOverlay_of_not_reserved hr) (by omega) ?_ ?_
    · simp [h.eq_nil_iff_depth.mpr h0, hroot]
    · simp [hdrop, State.deeper, hd]
  | inner hd hr h0 hn =>
    have hdrop : o.drops n = false :=
      Options.drops_of_legal (OpenNode.isIllegal_of_not_reserved hr)
    refine h.opens_other hb hd (OpenNode.isOverlay_of_not_reserved hr) hn ?_ ?_
    · simp [h.eq_nil_iff_depth, h0, State.deeper]
    · simp [hdrop, State.deeper, hd]

theorem passOn_shrink {n : OpenNode} (h : Mirrors o (p ++ [n]) t s) {line : Text}
    (hb : braceOf line = .closes) (hn : fragmentOf o (p ++ [n]) = fragmentOf o p) :
    Site.passOn o ⟨p ++ [n], line⟩ t = t := by
  refine h.passOn_closes hb fun hl => ?_
  have hp : p.length ≤ 1 := by simpa using hl.le
  rw [hn, fragmentOf_of_length_le hp]
  rfl

/-- The close of a node in a dropped one, or of the dropped one itself. -/
theorem closes_dropped (h : Mirrors o p t s) {line : Text} {s' : State} {top : Nat}
    (hb : braceOf line = .closes) (hd : s.dropping = some top)
    (hs : s' = { s with
      depth := s.depth - 1
      dropping := if s.dropping = some s.depth then none else s.dropping }) :
    Mirrors o p.dropLast (Site.passOn o ⟨p, line⟩ t) s' := by
  have hany := h.any_drops_of_dropping hd
  obtain rfl | ⟨q, n, rfl⟩ := p.eq_nil_or_concat
  · simp at hany
  simp only [List.concat_eq_append, List.any_append, List.any_cons, List.any_nil,
    Bool.or_false, Bool.or_eq_true] at *
  have hn : fragmentOf o (q ++ [n]) = fragmentOf o q := fragmentOf_concat_of_not fun _ =>
    hany.imp id fun hn => OpenNode.isFragment_of_reserved (Options.reserved_of_drops hn)
  have hroot : s.rootElided = if q = [] then false else s.rootElided := by
    split
    · next hq =>
      subst hq
      have hn : o.drops n = true := by simpa using hany
      simpa [OpenNode.isRoot_of_reserved (Options.reserved_of_drops hn)] using h.rootElided
    · rfl
  rw [h.passOn_shrink hb hn, List.dropLast_concat, hs]
  exact h.shrink hn rfl rfl hroot rfl rfl rfl h.pending id (h.block_of_dropping (by simp [hd]))

/-- The innermost fragment closes where it was opened, directly in the first node. -/
theorem at_fragment (h : Mirrors o p t s) {below : List Nat}
    (hs : s.openFragments = s.depth :: below) :
    ∃ m n, p = [m, n] ∧ o.drops m = false ∧ n.isFragment = true ∧ below = [] := by
  have hof := h.openFragments
  rw [hs] at hof
  split at hof
  case isFalse => cases hof
  next hfrag =>
  obtain ⟨h2, hbelow⟩ := List.cons.inj hof
  obtain ⟨m, n, rfl⟩ := List.length_eq_two.mp (h.depth.symm.trans h2)
  have hmn : (!o.drops m && n.isFragment) = true := by
    by_contra hmn
    simp only [fragmentOf, if_neg hmn] at hfrag
    cases hfrag
  simp only [Bool.and_eq_true, Bool.not_eq_true'] at hmn
  exact ⟨m, n, rfl, hmn.1, hmn.2, hbelow⟩

theorem closes_fragment (h : Mirrors o p t s) {line : Text} {below : List Nat}
    (hb : braceOf line = .closes) (hd : s.dropping = none)
    (hs : s.openFragments = s.depth :: below) :
    Mirrors o p.dropLast (Site.passOn o ⟨p, line⟩ t) (s.closeFragment below).state := by
  obtain ⟨m, n, rfl, hm, -, hbelow⟩ := h.at_fragment hs
  have hp : Site.passOn o ⟨[m, n], line⟩ t = none := by simp [Site.passOn_of_closes hb]
  rw [hp]
  exact {
    depth := by simp [State.closeFragment, h.depth]
    dropping := hd.trans (by simp [List.findIdx?_cons, hm])
    rootElided := h.rootElided
    inFragment := rfl
    openFragments := hbelow
    fragmentName := rfl
    pending := rfl
    awaited := by simp
    block := fun hblock => absurd (h.block hblock).1 (by simp) }

theorem closes_inner (h : Mirrors o p t s) {line : Text} (hb : braceOf line = .closes)
    (hd : s.dropping = none) (hs : s.openFragments.head? ≠ some s.depth) (h0 : s.depth ≠ 0)
    (hr : s.depth = 1 → s.rootElided = false) :
    Mirrors o p.dropLast (Site.passOn o ⟨p, line⟩ t) { s with depth := s.depth - 1 } := by
  obtain rfl | ⟨q, n, rfl⟩ := p.eq_nil_or_concat
  · exact absurd h.depth h0
  rw [List.concat_eq_append] at *
  have hq : s.depth = q.length + 1 := by simp [h.depth]
  -- Were `n` the fragment, its depth would be on top of the stack.
  have hn : fragmentOf o (q ++ [n]) = fragmentOf o q := by
    by_cases hl : q.length = 1
    · have hf : fragmentOf o (q ++ [n]) = none := by
        by_contra hf
        rw [h.openFragments, if_pos (Option.isSome_iff_ne_none.mpr hf), hq, hl] at hs
        exact hs rfl
      rw [hf, fragmentOf_of_length_le hl.le]
    · exact fragmentOf_concat n hl
  have hroot : s.rootElided = if q = [] then false else s.rootElided := by
    split
    · next hnil => exact hr (by simp [hq, hnil])
    · rfl
  have hblock : s.inRootBlock = false := by
    by_contra hblock
    obtain ⟨hl, he⟩ := h.block (by simpa using hblock)
    simp [hr (h.depth.trans hl)] at he
  rw [h.passOn_shrink hb hn, List.dropLast_concat]
  exact h.shrink hn rfl (by simp [hd]) hroot rfl rfl rfl h.pending id hblock

theorem closes (h : Mirrors o p t s) {l : Line} {line : Text} {r : Outcome}
    (hb : braceOf line = .closes) (hs : State.Closing o s l r) :
    Mirrors o p.dropLast (Site.passOn o ⟨p, line⟩ t) r.state := by
  cases hs with
  | dropped hd ht => exact h.closes_dropped hb hd (by simp [hd, ht])
  | inDropped hd ht => exact h.closes_dropped hb hd (by simp [hd, Ne.symm ht])
  | fragment hd hs => exact h.closes_fragment hb hd hs
  | root hd hs h1 hr =>
    obtain ⟨m, rfl⟩ := List.length_eq_one_iff.mp (h.depth.symm.trans h1)
    rw [h.passOn_closes hb (by simp)]
    exact h.shrink (p := []) rfl rfl (by simp [hd]) rfl rfl rfl rfl h.pending id rfl
  | stray hd hs h0 =>
    obtain rfl := h.eq_nil_iff_depth.mpr h0
    rw [h.passOn_closes hb (by simp)]
    exact h
  | inner hd hs h0 hr => exact h.closes_inner hb hd hs h0 hr

/-- The converter finds a target where the path says that one can stand. -/
theorem target?_eq (h : Mirrors o p t s) {line : Text} (hb : BraceFree line) (k : Int) :
    Site.target? o ⟨p, line⟩ =
      match (classify s.allowsTarget k line).content with
      | .target t => some t
      | _ => none := by
  by_cases ha : s.allowsTarget = true
  · rw [Site.target?, if_pos (h.allowsTarget.mp ha), ha]
    rfl
  · have hc : (classify s.allowsTarget k line).content = .plain := by
      rw [Bool.not_eq_true] at ha
      rw [ha]
      exact contentOf_of_braceFree ((braceFree_dropTerminator line).mpr hb)
    rw [Site.target?, if_neg (mt h.allowsTarget.mpr ha), hc]

theorem any_drops_of_fragment {p : List OpenNode} (hf : (fragmentOf o p).isSome)
    (hl : p.length = 2) : p.any o.drops = false := by
  obtain ⟨m, n, rfl⟩ := List.length_eq_two.mp hl
  by_cases hm : o.drops m = true
  · simp [fragmentOf, hm] at hf
  · by_cases hn : o.drops n = true
    · simp [fragmentOf, OpenNode.isFragment_of_reserved (Options.reserved_of_drops hn)] at hf
    · simp [hm, hn]

theorem stays_target (h : Mirrors o p t s) {line : Text} {k : Int} {v : Target} {s' : State}
    (hb : BraceFree line) (hc : (classify s.allowsTarget k line).content = .target v)
    (hs : s' = { s with pending := some v, tally := s'.tally }) :
    Mirrors o p ((Site.target? o ⟨p, line⟩).or t) s' := by
  have ha : s.allowsTarget = true := (contentOf_target hc).1
  rw [h.target?_eq hb k, hc, hs]
  exact { h with
    pending := rfl
    awaited := fun _ => (h.allowsTarget.mp ha).1 }

theorem stays (h : Mirrors o p t s) {line : Text} {k : Int} {r : Outcome}
    (hb : BraceFree line) (hs : State.Staying o s (classify s.allowsTarget k line) r) :
    Mirrors o p (Site.passOn o ⟨p, line⟩ t) r.state := by
  rw [Site.passOn_of_neither (braceOf_of_braceFree hb)]
  cases hs with
  | inDropped hd =>
    have hp : Site.target? o ⟨p, line⟩ = none := if_neg fun hf => by
      simpa [any_drops_of_fragment hf.1 hf.2] using h.any_drops_of_dropping hd
    rw [hp]
    exact h
  | reference hd hc => exact h.stays_target hb hc rfl
  | path hd hc => exact h.stays_target hb hc rfl
  | rootProperty hd hc hp =>
    simp only [State.isRootProperty, Bool.and_eq_true, beq_iff_eq] at hp
    rw [h.target?_eq hb k, hc]
    exact { h with block := fun _ => ⟨h.depth.symm.trans hp.1.1.2, hp.1.2⟩ }
  | plain hd hc hp =>
    rw [h.target?_eq hb k, hc]
    exact h

theorem feed (h : Mirrors o p t s) (line : Text) :
    Mirrors o (descend p line) (Site.passOn o ⟨p, line⟩ t) (s.feed o line).state := by
  have h' := h.count line
  obtain ⟨r, hr, ⟨n, hb, hs⟩ | ⟨hb, hs⟩ | ⟨hb, hs⟩⟩ := s.feed_cases o line
  · rw [hr, Outcome.state_after, descend, hb]
    exact h'.opens hb hs
  · rw [hr, Outcome.state_after, descend, hb]
    exact h'.closes hb hs
  · rw [hr, Outcome.state_after, descend_of_braceFree hb]
    exact h'.stays hb hs

theorem finish (h : Mirrors o p t s) : Mirrors o p t s.finish.state :=
  { h with block := by simp [State.finish] }

end Mirrors

end OverlaySugar
