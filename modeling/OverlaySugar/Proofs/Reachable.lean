import OverlaySugar.Proofs.Mirror

/-!
# Reachable states

The converter can be driven line by line, with ends of input in between, and
on after a fatal error. The invariant below holds after every such sequence of
calls. It is read off the mirror, whose parts are inductive one by one.
-/

set_option autoImplicit false

namespace OverlaySugar

inductive Call
  | feed (line : Text)
  | finish
  deriving DecidableEq, Repr

def Call.line? : Call → Option Text
  | .feed line => some line
  | .finish => none

namespace State

def call (o : Options) (s : State) : Call → Outcome
  | .feed line => s.feed o line
  | .finish => s.finish

def after (o : Options) (calls : List Call) : State :=
  calls.foldl (fun s c => (s.call o c).state) .initial

theorem after_concat (o : Options) (calls : List Call) (c : Call) :
    after o (calls ++ [c]) = ((after o calls).call o c).state := by
  simp [after]

end State

def fed (calls : List Call) : List Text := calls.filterMap Call.line?

theorem mirrors_after (o : Options) (calls : List Call) :
    Mirrors o (pathOf (fed calls)) (waiting o (fed calls)) (State.after o calls) := by
  induction calls using List.reverseRecOn with
  | nil => exact Mirrors.initial o
  | append_singleton calls c ih =>
    rw [State.after_concat, fed, List.filterMap_append]
    cases c with
    | feed line =>
      rw [show [Call.feed line].filterMap Call.line? = [line] from rfl, pathOf_concat,
        waiting_concat]
      exact ih.feed line
    | finish =>
      rw [show [Call.finish].filterMap Call.line? = [] from rfl, List.append_nil]
      exact ih.finish

structure Sound (o : Options) (s : State) : Prop where
  stack : s.openFragments = [] ∨ s.openFragments = [2]
  inFragment_iff_stack : s.inFragment = true ↔ s.openFragments = [2]
  inFragment_iff_name : s.inFragment = true ↔ s.fragmentName ≠ []
  fragment_depth : s.inFragment = true → 2 ≤ s.depth
  pending : s.pending ≠ none → s.inFragment = true
  rootElided : s.rootElided = true → 1 ≤ s.depth
  block : s.inRootBlock = true →
    s.depth = 1 ∧ s.rootElided = true ∧ s.inFragment = false ∧ s.dropping = none
  dropping : ∀ top, s.dropping = some top →
    o.force = true ∧ 1 ≤ top ∧ top ≤ s.depth ∧ (s.inFragment = true → 3 ≤ top)

/-- A block of root properties stands directly in the root, so any node in it ends the block. -/
theorem Sound.deeperEnd_eq {o : Options} {s : State} (h : Sound o s) :
    s.deeperEnd = s.blockEnd := by
  rw [State.deeperEnd]
  split
  · rfl
  · next h1 =>
    rw [State.blockEnd, if_neg fun hb => h1 (h.block hb).1]

theorem title_ne_nil {n : OpenNode} (h : n.isFragment = true) : n.title ≠ [] := by
  unfold OpenNode.title
  split
  · rintro hn
    rw [OpenNode.isFragment, hn] at h
    cases h
  · simp

theorem isFragment_of_fragmentOf {o : Options} {p : List OpenNode} {n : OpenNode}
    (h : fragmentOf o p = some n) : n.isFragment = true := by
  unfold fragmentOf at h
  split at h
  · split at h
    · next hf =>
      obtain rfl := Option.some.inj h
      simp only [Bool.and_eq_true] at hf
      exact hf.2
    · cases h
  · cases h

/-- A fragment and the node around it are not dropped, so a dropped node lies deeper. -/
theorem two_le_findIdx {o : Options} {p : List OpenNode} {i : Nat}
    (hf : (fragmentOf o p).isSome) (hi : p.findIdx? o.drops = some i) : 2 ≤ i := by
  match p with
  | [] => cases hf
  | [_] => cases hf
  | m :: n :: rest =>
    have hm : o.drops m = false := by
      by_contra hm
      simp [fragmentOf, Bool.not_eq_false _ ▸ hm] at hf
    have hn : o.drops n = false := by
      by_contra hn
      have hr := Options.reserved_of_drops (Bool.not_eq_false _ ▸ hn)
      simp [fragmentOf, OpenNode.isFragment_of_reserved hr] at hf
    simp only [List.findIdx?_cons, hm, hn, Bool.false_eq_true, if_false, Option.map_map,
      Option.map_eq_some_iff] at hi
    -- Neither of the first two nodes is dropped, so the search goes on behind them.
    obtain ⟨j, -, rfl⟩ := hi
    exact Nat.le_add_left 2 j

theorem Mirrors.sound {o : Options} {p : List OpenNode} {t : Option Target} {s : State}
    (h : Mirrors o p t s) : Sound o s := by
  have hin : s.inFragment = true ↔ (fragmentOf o p).isSome := by rw [h.inFragment]
  constructor
  case stack =>
    rw [h.openFragments]
    split
    · exact .inr rfl
    · exact .inl rfl
  case inFragment_iff_stack =>
    rw [hin, h.openFragments]
    cases fragmentOf o p <;> simp
  case inFragment_iff_name =>
    rw [hin, h.fragmentName]
    cases hf : fragmentOf o p with
    | none => simp
    | some n => simpa using title_ne_nil (isFragment_of_fragmentOf hf)
  case fragment_depth =>
    intro hf
    rw [h.depth]
    exact two_le_of_fragmentOf (hin.mp hf)
  case pending =>
    intro hp
    rw [h.pending] at hp
    exact hin.mpr (h.awaited (Option.isSome_iff_ne_none.mpr hp))
  case rootElided =>
    intro hr
    by_contra hd
    have h0 : s.depth = 0 := by omega
    rw [h.rootElided_of_nil (h.eq_nil_iff_depth.mpr h0)] at hr
    cases hr
  case block =>
    intro hb
    obtain ⟨hl, hr⟩ := h.block hb
    refine ⟨h.depth.trans hl, hr, ?_, ?_⟩
    · rw [h.inFragment, fragmentOf_of_length_le hl.le]
      rfl
    · by_contra hd
      rw [h.block_of_dropping hd] at hb
      cases hb
  case dropping =>
    intro top hd
    rw [h.dropping, Option.map_eq_some_iff] at hd
    obtain ⟨i, hi, rfl⟩ := hd
    obtain ⟨hlt, hdrop, -⟩ := List.findIdx?_eq_some_iff_getElem.mp hi
    have hforce : o.force = true := by
      simp only [Options.drops, Bool.and_eq_true] at hdrop
      exact hdrop.1
    refine ⟨hforce, by omega, by rw [h.depth]; omega, fun hf => ?_⟩
    have := two_le_findIdx (hin.mp hf) hi
    omega

/-- Where no node or an inner one is open there is no block of root properties. -/
theorem noBlock_of_depth {o : Options} {p : List OpenNode} {t : Option Target} {s : State}
    (h : Mirrors o p t s) (hd : s.depth ≠ 1) : s.inRootBlock = false := by
  by_contra hb
  exact hd (h.sound.block (by simpa using hb)).1

/-- Nothing but the counts is left of a text once no node is open. -/
theorem Mirrors.eq_initial {o : Options} {t : Option Target} {s : State}
    (h : Mirrors o [] t s) : s =
      { State.initial with linesRead := s.linesRead, bytesRead := s.bytesRead, tally := s.tally } := by
  have ht : s.pending = none := h.pending.trans (h.eq_none_of_length_le (Nat.zero_le 1))
  have hb : s.inRootBlock = false := by
    by_contra hb
    exact absurd (h.block (Bool.not_eq_false _ ▸ hb)).1 (by simp)
  obtain ⟨d, f, p, i, n, b, e, x, _, _, _⟩ := s
  obtain ⟨rfl, rfl, rfl, rfl, rfl, rfl, -, -, -⟩ := h
  simp only at ht hb
  rw [ht, hb]
  rfl

/-- The invariant of the converter, after any calls in any order. The depth counts the braces of
the lines that were fed, and at depth zero the state is the initial one but for its counts. -/
theorem reachable_state (o : Options) (calls : List Call) :
    let s := State.after o calls
    s.depth = levelFrom 0 (fed calls) ∧ Sound o s ∧
      (s.depth = 0 → s = { State.initial with
        linesRead := s.linesRead, bytesRead := s.bytesRead, tally := s.tally }) := by
  intro s
  have h : Mirrors o (pathOf (fed calls)) (waiting o (fed calls)) s := mirrors_after o calls
  refine ⟨h.depth.trans (pathFrom_length [] (fed calls)), h.sound, fun h0 => ?_⟩
  rw [h.eq_nil_iff_depth.mpr h0] at h
  exact h.eq_initial

end OverlaySugar
