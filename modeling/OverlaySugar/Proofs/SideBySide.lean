import Mathlib.Data.List.Forall2
import OverlaySugar.Proofs.Run

/-!
# Two runs side by side

The same lines are read from two states that agree but for the counts and for
the kind of the first node. Only a line directly in the first node can tell its
kind, and one that opens a node there does not. As long as no other line
stands there, or where the first nodes are of one kind, the two runs go the same
way: they write the same lines but for the indentation, count as much and are
stopped by the same line.
-/

set_option autoImplicit false

namespace OverlaySugar
open Text

/-! ## Counts -/

def rootWarnings (verbose : Int) (properties : Nat) : Nat :=
  if verbose = 0 then min properties 1 else properties

theorem rootWarnings_zero (v : Int) : rootWarnings v 0 = 0 := by
  unfold rootWarnings
  split <;> rfl

theorem one_le_rootWarnings (v : Int) {n : Nat} (h : n ≠ 0) : 1 ≤ rootWarnings v n := by
  unfold rootWarnings
  split <;> omega

theorem rootWarnings_succ (v : Int) (n : Nat) :
    rootWarnings v (n + 1) = rootWarnings v n + if v ≠ 0 ∨ n + 1 = 1 then 1 else 0 := by
  unfold rootWarnings
  by_cases hv : v = 0
  · by_cases hn : n = 0
    · simp [hv, hn]
    · simp only [hv, if_true, ne_eq, not_true_eq_false, false_or, Nat.add_eq_right, hn, if_false]
      omega
  · simp [hv]

theorem rootWarnings_add (v : Int) (m n : Nat) :
    rootWarnings v m + rootWarnings v n =
      rootWarnings v (m + n) + if v = 0 ∧ m ≠ 0 ∧ n ≠ 0 then 1 else 0 := by
  unfold rootWarnings
  by_cases hv : v = 0
  · by_cases hm : m = 0
    · simp [hv, hm]
    · by_cases hn : n = 0
      · simp [hv, hn]
      · simp only [hv, hm, hn, if_true, ne_eq, not_false_eq_true, and_self]
        omega
  · simp [hv]

structure Counts where
  errors : Nat
  paths : Nat
  properties : Nat
  deriving DecidableEq, Repr

instance : Add Counts :=
  ⟨fun c d => ⟨c.errors + d.errors, c.paths + d.paths, c.properties + d.properties⟩⟩

theorem Counts.add_comm (c d : Counts) : c + d = d + c := by
  change Counts.mk (_ + _) (_ + _) (_ + _) = Counts.mk (_ + _) (_ + _) (_ + _)
  rw [Nat.add_comm c.errors, Nat.add_comm c.paths, Nat.add_comm c.properties]

structure Grows (verbose : Int) (c : Counts) (t t' : Tally) : Prop where
  errors : t'.errors = t.errors + c.errors
  properties : t'.rootProperties = t.rootProperties + c.properties
  warnings : t'.warnings + rootWarnings verbose t.rootProperties =
    t.warnings + c.paths + rootWarnings verbose t'.rootProperties

section
variable {v : Int} {b c d : Counts} {t u w u' w' : Tally}

theorem Grows.refl (v : Int) (t : Tally) : Grows v ⟨0, 0, 0⟩ t t := ⟨rfl, rfl, rfl⟩

theorem Grows.trans (h : Grows v c t u) (h' : Grows v d u w) : Grows v (c + d) t w := by
  obtain ⟨he, hp, hw⟩ := h
  obtain ⟨he', hp', hw'⟩ := h'
  constructor
  · change w.errors = t.errors + (c.errors + d.errors)
    omega
  · change w.rootProperties = t.rootProperties + (c.properties + d.properties)
    omega
  · change _ = t.warnings + (c.paths + d.paths) + _
    omega

theorem Grows.unique (h : Grows v c t u) (h' : Grows v c t w) : w = u := by
  obtain ⟨he, hp, hw⟩ := h
  obtain ⟨he', hp', hw'⟩ := h'
  have hproperties : w.rootProperties = u.rootProperties := by omega
  rw [hproperties] at hw'
  have herrors : w.errors = u.errors := by omega
  have hwarnings : w.warnings = u.warnings := by omega
  obtain ⟨e, n, p⟩ := u
  obtain ⟨e', n', p'⟩ := w
  obtain rfl : e' = e := herrors
  obtain rfl : n' = n := hwarnings
  obtain rfl : p' = p := hproperties
  rfl

/-- What is counted in two steps is the same in either order. -/
theorem Grows.swap (hb : Grows v b t u) (hc : Grows v c u w) (hc' : Grows v c t u')
    (hb' : Grows v b u' w') : w' = w := by
  have h := hc'.trans hb'
  rw [Counts.add_comm] at h
  exact (hb.trans hc).unique h

theorem Grows.from_zero (h : Grows v c .zero t) :
    t.errors = c.errors ∧ t.rootProperties = c.properties ∧
      t.warnings = c.paths + rootWarnings v t.rootProperties := by
  obtain ⟨he, hp, hw⟩ := h
  change t.errors = 0 + c.errors at he
  change t.rootProperties = 0 + c.properties at hp
  change t.warnings + rootWarnings v 0 = 0 + c.paths + rootWarnings v t.rootProperties at hw
  rw [rootWarnings_zero] at hw
  refine ⟨by omega, by omega, by omega⟩

end

theorem grows_error (v : Int) (t : Tally) :
    Grows v ⟨1, 0, 0⟩ t { t with errors := t.errors + 1 } := ⟨rfl, rfl, rfl⟩

theorem grows_path (v : Int) (t : Tally) :
    Grows v ⟨0, 1, 0⟩ t { t with warnings := t.warnings + 1 } := ⟨rfl, rfl, rfl⟩

theorem grows_rootProperty (v : Int) (t : Tally) (property : String) (line : Int) :
    Grows v ⟨0, 0, 1⟩ t (t.rootProperty v property line).1 := by
  simp only [Tally.rootProperty]
  by_cases hw : v ≠ 0 ∨ t.rootProperties + 1 = 1
  · rw [if_pos hw]
    refine ⟨rfl, rfl, ?_⟩
    change t.warnings + 1 + _ = t.warnings + 0 + rootWarnings v (t.rootProperties + 1)
    rw [rootWarnings_succ, if_pos hw]
    omega
  · rw [if_neg hw]
    refine ⟨rfl, rfl, ?_⟩
    change t.warnings + _ = t.warnings + 0 + rootWarnings v (t.rootProperties + 1)
    rw [rootWarnings_succ, if_neg hw]
    rfl

/-! ## States and outcomes -/

def Line.moved (k : Int) (l : Line) : Line := { l with number := l.number + k }

def Fatal.moved (k : Int) (f : Fatal) : Fatal := { f with line := f.line + k }

inductive Alike (k : Int) (s : State) : State → Prop
  | intro {root : Bool} {lines bytes : Nat} {tally : Tally} (hk : (lines : Int) = s.linesRead + k) :
      Alike k s
        { s with rootElided := root, linesRead := lines, bytesRead := bytes, tally := tally }

def Refits (o o' : Options) (t t' : Text) : Prop :=
  ∃ d u, t = indentFix o.indentFix d u ∧ t' = indentFix o'.indentFix d u

theorem refits_fixed (o o' : Options) (d : Nat) (u : Text) :
    Refits o o' (indentFix o.indentFix d u) (indentFix o'.indentFix d u) := ⟨d, u, rfl, rfl⟩

/-- A text that is not indented is the same with any options. -/
theorem refits_self (o o' : Options) (u : Text) : Refits o o' u u := by
  refine ⟨0, u, ?_, ?_⟩
  · simp [indentFix]
  · simp [indentFix]

theorem forall₂_refits_self (o o' : Options) (ts : List Text) :
    List.Forall₂ (Refits o o') ts ts :=
  List.forall₂_same.mpr fun t _ => refits_self o o' t

theorem eq_of_refits {o : Options} {ts ts' : List Text} (h : List.Forall₂ (Refits o o) ts ts') :
    ts' = ts := by
  induction h with
  | nil => rfl
  | cons h _ ih =>
    obtain ⟨d, u, rfl, rfl⟩ := h
    rw [ih]

structure Parallel (o o' : Options) (k : Int) (s s' : State) (r r' : Outcome) : Prop where
  alike : Alike k r.state r'.state
  root : s'.rootElided = s.rootElided → r'.state.rootElided = r.state.rootElided
  emitted : List.Forall₂ (Refits o o') r.emitted r'.emitted
  fatal : r'.fatal = r.fatal.map (Fatal.moved k)
  grows : ∃ c, Grows o.verbose c s.tally r.state.tally ∧ Grows o'.verbose c s'.tally r'.state.tally

section
variable {o o' : Options} {k : Int} {s s' : State} {l : Line} {r r' : Outcome}

namespace Alike

theorem depth (h : Alike k s s') : s'.depth = s.depth := by cases h; rfl

theorem dropping (h : Alike k s s') : s'.dropping = s.dropping := by cases h; rfl

theorem openFragments (h : Alike k s s') : s'.openFragments = s.openFragments := by cases h; rfl

theorem pending (h : Alike k s s') : s'.pending = s.pending := by cases h; rfl

theorem missing (h : Alike k s s') : s'.missing = s.missing := by cases h; rfl

theorem blockEnd (h : Alike k s s') : s'.blockEnd = s.blockEnd := by cases h; rfl

theorem blockStart (h : Alike k s s') : s'.blockStart = s.blockStart := by cases h; rfl

theorem deeperEnd (h : Alike k s s') : s'.deeperEnd = s.deeperEnd := by cases h; rfl

theorem deeper (h : Alike k s s') : Alike k s.deeper s'.deeper := by
  obtain ⟨hk⟩ := h
  exact ⟨hk⟩

theorem count (h : Alike k s s') (line : Text) : Alike k (s.count line) (s'.count line) := by
  obtain @⟨root, lines, bytes, tally, hk⟩ := h
  constructor
  change ((lines + 1 : Nat) : Int) = (s.linesRead + 1 : Nat) + k
  omega

theorem lineOf (h : Alike k s s') (line : Text) : s'.lineOf line = (s.lineOf line).moved k := by
  obtain @⟨root, lines, bytes, tally, hk⟩ := h
  have hnumber : ((lines + 1 : Nat) : Int) = (s.linesRead + 1 : Nat) + k := by omega
  exact congrArg (Line.mk (dropTerminator line) (contentOf s.allowsTarget (dropTerminator line)))
    hnumber

end Alike

namespace Parallel

theorem writing {u u' : State} {es es' : List Event} (h : Alike k u u')
    (hroot : s'.rootElided = s.rootElided → u'.rootElided = u.rootElided)
    (hes : List.Forall₂ (Refits o o') (es.filterMap Event.line?) (es'.filterMap Event.line?))
    (ht : u.tally = s.tally) (ht' : u'.tally = s'.tally) :
    Parallel o o' k s s' (.writing u es) (.writing u' es') where
  alike := h
  root := hroot
  emitted := hes
  fatal := rfl
  grows := by
    refine ⟨⟨0, 0, 0⟩, ?_, ?_⟩
    · rw [Outcome.state_writing, ht]
      exact .refl _ _
    · rw [Outcome.state_writing, ht']
      exact .refl _ _

/-- Of the states in front only the first nodes and the tallies matter. -/
theorem congr {u u' : State} (h : Parallel o o' k u u' r r') (hroot : u.rootElided = s.rootElided)
    (hroot' : u'.rootElided = s'.rootElided) (ht : u.tally = s.tally) (ht' : u'.tally = s'.tally) :
    Parallel o o' k s s' r r' where
  alike := h.alike
  root := by
    rw [← hroot, ← hroot']
    exact h.root
  emitted := h.emitted
  fatal := h.fatal
  grows := by
    rw [← ht, ← ht']
    exact h.grows

theorem after {es es' : List Event} (h : Parallel o o' k s s' r r')
    (hes : List.Forall₂ (Refits o o') (es.filterMap Event.line?) (es'.filterMap Event.line?)) :
    Parallel o o' k s s' (r.after es) (r'.after es') where
  alike := h.alike
  root := h.root
  emitted := by
    rw [Outcome.emitted_after, Outcome.emitted_after]
    exact List.rel_append hes h.emitted
  fatal := h.fatal
  grows := h.grows

theorem andThen {q q' : Outcome} (h : Parallel o o' k s s' r r')
    (h' : Parallel o o' k r.state r'.state q q') :
    Parallel o o' k s s' (q.after r.events) (q'.after r'.events) where
  alike := h'.alike
  root := h'.root ∘ h.root
  emitted := by
    rw [Outcome.emitted_after, Outcome.emitted_after]
    exact List.rel_append h.emitted h'.emitted
  fatal := h'.fatal
  grows := by
    obtain ⟨c, hc, hc'⟩ := h.grows
    obtain ⟨d, hd, hd'⟩ := h'.grows
    exact ⟨_, hc.trans hd, hc'.trans hd'⟩

end Parallel

/-! ## Lines that open a node -/

theorem parallel_stop (h : Alike k s s') (status : ExitStatus) (f : Finding) (n : Int) :
    Parallel o o' k s s' (s.stop status f n) (s'.stop status f (n + k)) := by
  obtain ⟨hk⟩ := h
  exact ⟨⟨hk⟩, id, .nil, rfl, ⟨1, 0, 0⟩, grows_error _ _, grows_error _ _⟩

theorem parallel_openOverlay (hforce : o'.force = o.force) (h : Alike k s s') :
    Parallel o o' k s s' (s.openOverlay o l) (s'.openOverlay o' (l.moved k)) := by
  have hm := h.missing
  cases hp : s.pending with
  | some t =>
    have hp' : s'.pending = some t := h.pending.trans hp
    simp only [State.openOverlay, hp, hp']
    obtain ⟨hk⟩ := h
    exact .writing ⟨hk⟩ id (.cons (refits_fixed o o' _ _) .nil) rfl rfl
  | none =>
    have hp' : s'.pending = none := h.pending.trans hp
    simp only [State.openOverlay, hp, hp', hforce, hm]
    by_cases hf : o.force = true
    · rw [if_pos hf, if_pos hf]
      obtain ⟨hk⟩ := h
      exact ⟨⟨hk⟩, id, .cons (refits_fixed o o' _ _) (.cons (refits_fixed o o' _ _) .nil), rfl,
        ⟨1, 0, 0⟩, grows_error _ _, grows_error _ _⟩
    · rw [if_neg hf, if_neg hf]
      exact parallel_stop h _ _ _

theorem parallel_openReserved (hforce : o'.force = o.force) (h : Alike k s s') (name : Text) :
    Parallel o o' k s s' (s.openReserved o l name) (s'.openReserved o' (l.moved k) name) := by
  simp only [State.openReserved, hforce]
  by_cases hf : o.force = true
  · rw [if_pos hf, if_pos hf]
    obtain ⟨hk⟩ := h
    exact ⟨⟨hk⟩, id, .nil, rfl, ⟨1, 0, 0⟩, grows_error _ _, grows_error _ _⟩
  · rw [if_neg hf, if_neg hf]
    exact parallel_stop h _ _ _

theorem parallel_openTop (h : Alike k s s') (name : Text) :
    Parallel o o' k s s' (s.openTop l name) (s'.openTop (l.moved k) name) := by
  obtain ⟨hk⟩ := h
  rw [State.openTop, State.openTop]
  by_cases hn : name = rootName
  · rw [if_pos hn, if_pos hn]
    exact .writing ⟨hk⟩ (fun _ => rfl) .nil rfl rfl
  · rw [if_neg hn, if_neg hn]
    exact .writing ⟨hk⟩ (fun _ => rfl) (forall₂_refits_self o o' _) rfl rfl

theorem parallel_openAtDepth (hforce : o'.force = o.force) (h : Alike k s s') (label name : Text) :
    Parallel o o' k s s' (s.openAtDepth o l label name)
      (s'.openAtDepth o' (l.moved k) label name) := by
  rw [State.openAtDepth, State.openAtDepth, h.depth]
  by_cases hf : s.depth = 2 ∧ isFragmentName name
  · rw [if_pos hf, if_pos hf]
    obtain ⟨hk⟩ := h
    exact .writing ⟨hk⟩ id .nil rfl rfl
  rw [if_neg hf, if_neg hf]
  by_cases hn : isOverlayName name
  · rw [if_pos hn, if_pos hn]
    exact parallel_openOverlay hforce h
  rw [if_neg hn, if_neg hn]
  by_cases hr : isReservedName name
  · rw [if_pos hr, if_pos hr]
    exact parallel_openReserved hforce h name
  rw [if_neg hr, if_neg hr]
  by_cases h1 : s.depth = 1
  · rw [if_pos h1, if_pos h1]
    exact parallel_openTop h name
  · rw [if_neg h1, if_neg h1]
    obtain ⟨hk⟩ := h
    exact .writing ⟨hk⟩ id (.cons (refits_fixed o o' _ _) .nil) rfl rfl

theorem parallel_openNode (hforce : o'.force = o.force) (h : Alike k s s') (label name : Text) :
    Parallel o o' k s s' (s.openNode o l label name) (s'.openNode o' (l.moved k) label name) := by
  have hp := parallel_openAtDepth (l := l) hforce h.deeper label name
  have hdeeper : Parallel o o' k s s' _ _ := hp.congr rfl rfl rfl rfl
  rw [State.openNode, State.openNode, h.deeperEnd]
  exact hdeeper.after (forall₂_refits_self o o' _)

/-! ## Lines that close a node -/

theorem parallel_closeFragment (h : Alike k s s') (below : List Nat) :
    Parallel o o' k s s' (s.closeFragment below) (s'.closeFragment below) := by
  obtain ⟨hk⟩ := h
  exact ⟨⟨hk⟩, id, forall₂_refits_self o o' _, rfl, ⟨0, 0, 0⟩, .refl _ _, .refl _ _⟩

theorem parallel_closeOther (h : Alike k s s')
    (hroot : s.depth = 1 → s'.rootElided = s.rootElided) :
    Parallel o o' k s s' (s.closeOther o l) (s'.closeOther o' (l.moved k)) := by
  have hcond : (s'.depth = 1 ∧ s'.rootElided) ↔ (s.depth = 1 ∧ s.rootElided) := by
    rw [h.depth]
    exact and_congr_right fun h1 => by rw [hroot h1]
  simp only [State.closeOther, hcond]
  rw [h.depth]
  by_cases hr : s.depth = 1 ∧ s.rootElided
  · rw [if_pos hr, if_pos hr, h.blockEnd]
    obtain ⟨hk⟩ := h
    exact .writing ⟨hk⟩ (fun _ => rfl) (forall₂_refits_self o o' _) rfl rfl
  rw [if_neg hr, if_neg hr]
  by_cases h0 : s.depth = 0
  · rw [if_pos h0, if_pos h0]
    exact .writing h id (forall₂_refits_self o o' _) rfl rfl
  · rw [if_neg h0, if_neg h0]
    obtain ⟨hk⟩ := h
    exact .writing ⟨hk⟩ id (.cons (refits_fixed o o' _ _) .nil) rfl rfl

theorem parallel_closeNode (h : Alike k s s')
    (hroot : s.depth = 1 → s'.rootElided = s.rootElided) :
    Parallel o o' k s s' (s.closeNode o l) (s'.closeNode o' (l.moved k)) := by
  rw [State.closeNode, State.closeNode, h.openFragments, h.depth]
  cases s.openFragments with
  | nil => exact parallel_closeOther h hroot
  | cons d below =>
    by_cases hd : d = s.depth
    · simp only [if_pos hd]
      exact parallel_closeFragment h below
    · simp only [if_neg hd]
      exact parallel_closeOther h hroot

/-! ## Other lines -/

theorem parallel_setTarget (h : Alike k s s') (t : Target) :
    Parallel o o' k s s' (s.setTarget l t) (s'.setTarget (l.moved k) t) := by
  obtain ⟨hk⟩ := h
  cases t with
  | reference v => exact .writing ⟨hk⟩ id .nil rfl rfl
  | path v =>
    exact ⟨⟨hk⟩, id, .nil, rfl, ⟨0, 1, 0⟩, grows_path _ _, grows_path _ _⟩

theorem isRootProperty_alike (h : Alike k s s')
    (hroot : s.depth = 1 → s'.rootElided = s.rootElided) :
    s'.isRootProperty (l.moved k) = s.isRootProperty l := by
  obtain @⟨root, lines, bytes, tally, hk⟩ := h
  by_cases h1 : s.depth = 1
  · have he : root = s.rootElided := hroot h1
    subst he
    rfl
  · have h1' : (s.depth == 1) = false := beq_eq_false_iff_ne.mpr h1
    simp [State.isRootProperty, h1']

theorem parallel_plain (h : Alike k s s')
    (hroot : s.depth = 1 → s'.rootElided = s.rootElided) :
    Parallel o o' k s s' (s.plain o l) (s'.plain o' (l.moved k)) := by
  rw [State.plain, State.plain, isRootProperty_alike h hroot]
  by_cases hp : s.isRootProperty l = true
  · rw [if_pos hp, if_pos hp]
    have hstart := h.blockStart
    obtain ⟨hk⟩ := h
    refine ⟨⟨hk⟩, id, ?_, rfl, ⟨0, 0, 1⟩, grows_rootProperty _ _ _ _, grows_rootProperty _ _ _ _⟩
    rw [Outcome.emitted, Outcome.emitted, Outcome.events_writing, Outcome.events_writing,
      filterMap_property (fun _ => rfl), filterMap_property (fun _ => rfl), hstart]
    exact List.rel_append (forall₂_refits_self o o' _) (.cons (refits_fixed o o' _ _) .nil)
  · rw [if_neg hp, if_neg hp]
    obtain ⟨hk⟩ := h
    exact .writing ⟨hk⟩ id (.cons (refits_fixed o o' _ _) .nil) rfl rfl

/-! ## Every line -/

theorem parallel_drop (h : Alike k s s') (top : Nat) (c : Content) :
    Parallel o o' k s s' (.quiet (s.drop top c)) (.quiet (s'.drop top c)) := by
  obtain ⟨hk⟩ := h
  cases c with
  | nodeOpen label name => exact .writing ⟨hk⟩ id .nil rfl rfl
  | nodeClose => exact .writing ⟨hk⟩ id .nil rfl rfl
  | target t => exact .writing ⟨hk⟩ id .nil rfl rfl
  | plain => exact .writing ⟨hk⟩ id .nil rfl rfl

theorem parallel_take (hforce : o'.force = o.force) (h : Alike k s s')
    (hroot : s.depth = 1 → l.content.shape ≠ .nodeOpen → s'.rootElided = s.rootElided) :
    Parallel o o' k s s' (s.take o l) (s'.take o' (l.moved k)) := by
  rw [State.take, State.take, h.dropping]
  cases s.dropping with
  | some top => exact parallel_drop h top l.content
  | none =>
    have hcontent : (l.moved k).content = l.content := rfl
    simp only [State.handle, hcontent]
    cases hc : l.content with
    | nodeOpen label name => exact parallel_openNode hforce h label name
    | nodeClose => exact parallel_closeNode h fun h1 => hroot h1 (by simp [hc, Content.shape])
    | target t => exact parallel_setTarget h t
    | plain => exact parallel_plain h fun h1 => hroot h1 (by simp [hc, Content.shape])

theorem Alike.feed {line : Text} (hforce : o'.force = o.force) (h : Alike k s s')
    (hroot : s.depth = 1 → (∃ n, braceOf line = .opens n) ∨ s'.rootElided = s.rootElided) :
    Parallel o o' k s s' (s.feed o line) (s'.feed o' line) := by
  have hp : Parallel o o' k (s.count line) (s'.count line)
      ((s.count line).take o (s.lineOf line))
      ((s'.count line).take o' ((s.lineOf line).moved k)) := by
    apply parallel_take hforce (h.count line)
    intro h1 hopen
    apply (hroot h1).resolve_left
    rintro ⟨n, hb⟩
    have hc : (s.lineOf line).content = .nodeOpen n.label n.name := content_of_opens hb _ _
    exact hopen (by rw [hc]; rfl)
  rw [← h.lineOf] at hp
  have hline : Parallel o o' k s s' _ _ := hp.congr rfl rfl rfl rfl
  exact hline.after .nil

end

/-! ## Runs -/

def OffRoot : Nat → List Text → Prop
  | _, [] => True
  | d, line :: rest => (d = 1 → ∃ n, braceOf line = .opens n) ∧ OffRoot (levelStep d line) rest

theorem offRoot_append {d : Nat} {xs ys : List Text} (hx : OffRoot d xs)
    (hy : OffRoot (levelFrom d xs) ys) : OffRoot d (xs ++ ys) := by
  induction xs generalizing d with
  | nil => exact hy
  | cons line rest ih => exact ⟨hx.1, ih hx.2 hy⟩

theorem depth_feed (o : Options) (s : State) (line : Text) :
    (s.feed o line).state.depth = levelStep s.depth line := by
  obtain ⟨r, hr, ⟨n, hb, hrule⟩ | ⟨hb, hrule⟩ | ⟨hb, hrule⟩⟩ := s.feed_cases o line
  · rw [hr, Outcome.state_after, levelStep, hb]
    cases hrule <;> rfl
  · rw [hr, Outcome.state_after, levelStep, hb]
    cases hrule with
    | stray hd hs h0 =>
      change s.depth = s.depth - 1
      have h0 : s.depth = 0 := h0
      omega
    | _ => rfl
  · rw [hr, Outcome.state_after, levelStep, braceOf_of_braceFree hb]
    cases hrule <;> rfl

section
variable {o o' : Options} {k : Int} {s s' : State}

theorem Alike.feedAll (hforce : o'.force = o.force) (h : Alike k s s') (lines : List Text)
    (hroot : s'.rootElided = s.rootElided ∨ OffRoot s.depth lines) :
    Parallel o o' k s s' (State.feedAll o s lines) (State.feedAll o' s' lines) := by
  induction lines generalizing s s' with
  | nil => exact .writing h id .nil rfl rfl
  | cons line rest ih =>
    have hline : Parallel o o' k s s' (s.feed o line) (s'.feed o' line) :=
      h.feed hforce fun h1 => hroot.symm.imp (fun hoff => hoff.1 h1) id
    cases hf : (s.feed o line).fatal with
    | some f =>
      have hf' := hline.fatal
      rw [hf] at hf'
      rw [State.feedAll_cons_of_fatal hf, State.feedAll_cons_of_fatal hf']
      exact hline
    | none =>
      have hf' := hline.fatal
      rw [hf] at hf'
      rw [State.feedAll_cons_of_not_fatal hf, State.feedAll_cons_of_not_fatal hf']
      apply hline.andThen
      apply ih hline.alike
      -- First nodes of one kind stay so, and lines off the first node go on to be off it.
      rw [depth_feed]
      exact hroot.imp hline.root fun hoff => hoff.2

theorem Parallel.ending {r r' : Outcome} (h : Parallel o o' k s s' r r') :
    r'.ending = r.ending := by
  rw [Outcome.ending, Outcome.ending, h.alike.blockEnd, h.fatal]
  cases r.fatal <;> rfl

/-- Behind lines that leave like states two conversions end alike. -/
theorem convert_alike {xs xs' : List Text} (hforce : o'.force = o.force)
    (hx : (run o xs).fatal = none) (hx' : (run o' xs').fatal = none)
    (h : Alike k (run o xs).state (run o' xs').state)
    (hroot : (run o' xs').state.rootElided = (run o xs).state.rootElided) (ys : List Text) :
    ∃ rest rest', List.Forall₂ (Refits o o') rest rest' ∧
      (convert o (xs ++ ys)).lines = (run o xs).emitted ++ rest ∧
      (convert o' (xs' ++ ys)).lines = (run o' xs').emitted ++ rest' ∧
      (convert o' (xs' ++ ys)).fatal = (convert o (xs ++ ys)).fatal.map (Fatal.moved k) ∧
      ∃ c, Grows o.verbose c (run o xs).state.tally (convert o (xs ++ ys)).tally ∧
        Grows o'.verbose c (run o' xs').state.tally (convert o' (xs' ++ ys)).tally := by
  have hp := h.feedAll hforce ys (.inl hroot)
  refine ⟨_, _, ?_, lines_append hx ys, lines_append hx' ys, ?_, ?_⟩
  · rw [hp.ending]
    exact List.rel_append hp.emitted (forall₂_refits_self o o' _)
  · rw [fatal_convert, fatal_convert, run_append hx, run_append hx']
    exact hp.fatal
  · rw [tally_convert, tally_convert, run_append hx, run_append hx']
    exact hp.grows

end

end OverlaySugar
