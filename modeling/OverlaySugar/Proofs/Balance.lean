import OverlaySugar.Proofs.Reachable
import OverlaySugar.Proofs.Run

/-!
# Depth of the output

The emitted lines have braces of their own, and classified again they reach a
depth that follows from the state: elided nodes are missing from it, a block of
root properties adds one, and below a dropped node it stands still. Values and
names that are written into added lines bring no braces with them.
-/

set_option autoImplicit false

namespace OverlaySugar
open Text

/-! ## Braces of emitted lines -/

theorem mem_indentFix {c : Char} (hc : c ≠ '\t') (e : Bool) (d : Nat) (t : Text) :
    c ∈ indentFix e d t ↔ c ∈ t := by
  rcases indentFix_eq_or e d t with h | h
  · rw [h]
  · conv_rhs => rw [h]
    simp [hc]

theorem braceFree_indentFix {e : Bool} {d : Nat} {t : Text} (h : BraceFree t) :
    BraceFree (indentFix e d t) :=
  ⟨mt (mem_indentFix (by decide) e d t).mp h.1, mt (mem_indentFix (by decide) e d t).mp h.2⟩

theorem open_mem_of_opens {line : Text} {n : OpenNode} (h : braceOf line = .opens n) :
    '\x7b' ∈ line := by
  by_contra ho
  by_cases hc : '\x7d' ∈ line
  · rw [braceOf_of_mem_close ho hc] at h
    cases h
  · rw [braceOf_of_braceFree ⟨ho, hc⟩] at h
    cases h

theorem open_notMem_of_closes {line : Text} (h : braceOf line = .closes) : '\x7b' ∉ line := by
  intro ho
  have hs := levelStep_of_open ho 0
  rw [levelStep, h] at hs
  cases hs

/-- Neither its terminator nor its tabs decide what a line is. -/
theorem braceOf_fixed (e : Bool) (d : Nat) (line : Text) :
    braceOf (indentFix e d (dropTerminator line)) = braceOf line := by
  rw [← braceOf_dropTerminator line]
  rcases indentFix_eq_or e d (dropTerminator line) with h | h
  · rw [h]
  · conv_rhs => rw [h, braceOf_tab, braceOf_tab]

theorem braceFree_leadingBlank (t : Text) : BraceFree (leadingBlank t) :=
  braceFree_of_forall (by decide) (by decide) fun _ => isBlank_of_mem_leadingBlank

theorem toList_missingTarget (n : Text) :
    (Finding.missingTarget n).text.toList = "no 'target' property in node ".toList ++ n := by
  have h : (Finding.missingTarget n).text =
      "no 'target' property in node " ++ String.ofList n := rfl
  rw [h, String.toList_append, @String.toList_ofList n]

/-- A comment quotes the name of a fragment, which brings no braces. -/
theorem braceFree_errorComment (l : Line) {s : State} (h : BraceFree s.fragmentName) :
    BraceFree (State.errorComment l s.missing.text) := by
  have hn : BraceFree (if s.fragmentName = [] then rootName else s.fragmentName) := by
    split
    · decide
    · exact h
  have hstart : BraceFree "/* ERROR: ".toList := by decide
  have hfound : BraceFree "no 'target' property in node ".toList := by decide
  have hend : BraceFree " */".toList := by decide
  rw [State.errorComment, State.missing, toList_missingTarget]
  exact (((braceFree_leadingBlank l.text).append hstart).append (hfound.append hn)).append hend

/-! ## Texts that lead from one depth to another -/

def Leads (lines : List Text) (d e k : Nat) : Prop :=
  levelFrom d lines = e ∧ strayCloses d lines = k

namespace Leads
variable {d e : Nat} {t : Text}

theorem nil (d : Nat) : Leads [] d d 0 := ⟨rfl, rfl⟩

theorem append {xs ys : List Text} {f j k : Nat} (hx : Leads xs d e j) (hy : Leads ys e f k) :
    Leads (xs ++ ys) d f (j + k) := by
  constructor
  · rw [levelFrom_append, hx.1, hy.1]
  · rw [strayCloses_append, hx.1, hx.2, hy.2]

theorem opens (h : '\x7b' ∈ t) (d : Nat) : Leads [t] d (d + 1) 0 := by
  have hb : braceOf t ≠ .closes := by
    intro hb
    exact open_notMem_of_closes hb h
  constructor
  · exact levelStep_of_open h d
  · simp [strayCloses, hb]

theorem closes (h : braceOf t = .closes) (d : Nat) : Leads [t] (d + 1) d 0 := by
  constructor
  · simp [levelStep, h]
  · simp [strayCloses]

theorem stray (h : braceOf t = .closes) : Leads [t] 0 0 1 := by
  constructor
  · simp [levelStep, h]
  · simp [strayCloses, h]

theorem neither (h : BraceFree t) (d : Nat) : Leads [t] d d 0 := by
  have hb := braceOf_of_braceFree h
  constructor
  · simp [levelStep, hb]
  · simp [strayCloses, hb]

end Leads

/-! ## The depth that the output has -/

def State.outputDepth (s : State) : Int :=
  match s.dropping with
  | none => s.depth - s.rootElided.toNat + s.inRootBlock.toNat - s.inFragment.toNat
  | some top => (top - 1 : Int) - s.rootElided.toNat - s.inFragment.toNat

theorem outputDepth_of_not_dropping {s : State} (h : s.dropping = none) :
    s.outputDepth = s.depth - s.rootElided.toNat + s.inRootBlock.toNat - s.inFragment.toNat := by
  rw [State.outputDepth, h]

theorem outputDepth_of_dropping {s : State} {top : Nat} (h : s.dropping = some top) :
    s.outputDepth = (top - 1 : Int) - s.rootElided.toNat - s.inFragment.toNat := by
  rw [State.outputDepth, h]

def Tracks (d : Nat) (s : State) (lines : List Text) (k : Nat) : Prop :=
  ∃ e : Nat, (e : Int) = s.outputDepth ∧ Leads lines d e k

theorem Sound.flags {o : Options} {s : State} (h : Sound o s) :
    s.rootElided.toNat ≤ s.depth ∧ 2 * s.inFragment.toNat ≤ s.depth ∧ s.rootElided.toNat ≤ 1 ∧
      (s.inRootBlock.toNat = 0 ∨ s.inRootBlock.toNat = 1 ∧ s.depth = 1 ∧
        s.rootElided.toNat = 1 ∧ s.inFragment.toNat = 0) := by
  have hroot : s.rootElided.toNat ≤ s.depth := by
    cases hr : s.rootElided with
    | false => exact Nat.zero_le _
    | true => exact h.rootElided hr
  have hfrag : 2 * s.inFragment.toNat ≤ s.depth := by
    cases hf : s.inFragment with
    | false => exact Nat.zero_le _
    | true => exact h.fragment_depth hf
  have hone : s.rootElided.toNat ≤ 1 := Bool.toNat_le _
  by_cases hb : s.inRootBlock = true
  · obtain ⟨hd, hr, hf, -⟩ := h.block hb
    exact ⟨hroot, hfrag, hone, .inr ⟨by rw [hb]; rfl, hd, by rw [hr]; rfl, by rw [hf]; rfl⟩⟩
  · have hzero : s.inRootBlock.toNat = 0 := by simpa using hb
    exact ⟨hroot, hfrag, hone, .inl hzero⟩

section
variable {o : Options} {p : List OpenNode} {t : Option Target} {s : State} {d : Nat}

theorem leads_blockEnd (h : s.inRootBlock.toNat ≤ d) :
    Leads (s.blockEnd.filterMap Event.line?) d (d - s.inRootBlock.toNat) 0 := by
  rw [State.blockEnd]
  cases hb : s.inRootBlock with
  | false => exact Leads.nil d
  | true =>
    obtain ⟨e, rfl⟩ : ∃ e, d = e + 1 := ⟨d - 1, by rw [hb] at h; simp at h; omega⟩
    exact Leads.closes (by decide) e

theorem leads_deeperEnd (h : Sound o s) (hd : s.inRootBlock.toNat ≤ d) :
    Leads (s.deeperEnd.filterMap Event.line?) d (d - s.inRootBlock.toNat) 0 := by
  rw [h.deeperEnd_eq]
  exact leads_blockEnd hd

theorem leads_blockStart (d : Nat) :
    Leads (s.blockStart.filterMap Event.line?) d (d + (1 - s.inRootBlock.toNat)) 0 := by
  rw [State.blockStart]
  cases s.inRootBlock with
  | false => exact Leads.opens (by decide) d
  | true => exact Leads.nil d

/-- One node deeper, and past the block that ends there. -/
theorem outputDepth_deeper (h : Mirrors o p t s) (hd : s.dropping = none) :
    s.deeper.outputDepth = s.outputDepth - s.inRootBlock.toNat + 1 := by
  have hb : s.deeper.inRootBlock.toNat = 0 := by rw [h.deeper_block]; rfl
  have hx : s.deeper.dropping = none := hd
  rw [outputDepth_of_not_dropping hx, hb, outputDepth_of_not_dropping hd]
  simp only [State.deeper]
  omega

theorem outputDepth_top (h : Mirrors o p t s) (hd : s.dropping = none) (h0 : s.depth = 0)
    (b : Bool) : { s.deeper with rootElided := b }.outputDepth = s.outputDepth + 1 - b.toNat := by
  have hflags := h.sound.flags
  have hin := outputDepth_deeper h hd
  have hout : s.deeper.rootElided.toNat = 0 := by
    simp only [State.deeper]
    omega
  rw [outputDepth_of_not_dropping (s := s.deeper) hd] at hin
  rw [outputDepth_of_not_dropping (by exact hd)]
  simp only
  omega

theorem block_le_outputDepth (h : Sound o s) (hd : s.dropping = none)
    (hs : (d : Int) = s.outputDepth) : s.inRootBlock.toNat ≤ d := by
  rw [outputDepth_of_not_dropping hd] at hs
  have := h.flags
  omega

theorem tracks_deeper (h : Mirrors o p t s) (hd : s.dropping = none)
    (hs : (d : Int) = s.outputDepth) {text : Text} (ht : '\x7b' ∈ text) :
    Tracks d s.deeper (s.deeperEnd.filterMap Event.line? ++ [text]) 0 := by
  have hb := block_le_outputDepth h.sound hd hs
  have hdepth : ((d - s.inRootBlock.toNat + 1 : Nat) : Int) = s.deeper.outputDepth := by
    rw [outputDepth_deeper h hd]
    omega
  exact ⟨_, hdepth, (leads_deeperEnd h.sound hb).append (Leads.opens ht _)⟩

/-- A fragment adds one to the depth and is missing from the output. -/
theorem outputDepth_openFragment (h : Mirrors o p t s) (hd : s.dropping = none)
    (h1 : s.depth = 1) (label name : Text) :
    (s.deeper.openFragment label name).outputDepth = s.outputDepth - s.inRootBlock.toNat := by
  have hout : s.inFragment.toNat = 0 := by
    have := h.sound.flags
    omega
  have hin : (s.deeper.openFragment label name).outputDepth = s.deeper.outputDepth - 1 := by
    rw [outputDepth_of_not_dropping (s := s.deeper) hd, outputDepth_of_not_dropping (by exact hd)]
    simp [State.openFragment, State.deeper, hout]
  rw [hin, outputDepth_deeper h hd]
  omega

theorem tracks_opens (h : Mirrors o p t s) (hs : (d : Int) = s.outputDepth) {l : Line}
    {line : Text} {n : OpenNode} {r : Outcome} (hn : BraceFree s.fragmentName)
    (hl : l.text = dropTerminator line) (hb : braceOf line = .opens n)
    (hr : State.Opening o s l n.label n.name r) (hf : r.fatal = none) :
    Tracks d r.state r.emitted 0 := by
  have ho : '\x7b' ∈ l.text := by
    rw [hl, open_mem_dropTerminator]
    exact open_mem_of_opens hb
  have hfix : '\x7b' ∈ indentFix o.indentFix (s.depth + 1) l.text :=
    (mem_indentFix (by decide) _ _ _).mpr ho
  cases hr with
  | inDropped hd =>
    have hdepth : (d : Int) = { s with depth := s.depth + 1 }.outputDepth := by
      rw [hs, outputDepth_of_dropping hd, outputDepth_of_dropping (by exact hd)]
    exact ⟨d, hdepth, Leads.nil d⟩
  | fragment hd h1 hname =>
    have hle := block_le_outputDepth h.sound hd hs
    have hdepth : ((d - s.inRootBlock.toNat : Nat) : Int) =
        (s.deeper.openFragment n.label n.name).outputDepth := by
      rw [outputDepth_openFragment h hd h1]
      omega
    exact ⟨_, hdepth, leads_deeperEnd h.sound hle⟩
  | heading hd hname hp =>
    rw [Outcome.emitted, Outcome.events_writing, List.filterMap_append]
    apply tracks_deeper h hd hs
    rw [mem_indentFix (by decide)]
    simp [State.targetLine]
  | notice hd hname hp hforce =>
    have hc := braceFree_indentFix (e := o.indentFix) (d := s.depth + 1)
      (braceFree_errorComment l hn)
    have hle := block_le_outputDepth h.sound hd hs
    have hdepth : ((d - s.inRootBlock.toNat + 1 : Nat) : Int) = s.deeper.outputDepth := by
      rw [outputDepth_deeper h hd]
      omega
    rw [Outcome.emitted, Outcome.events_writing, List.filterMap_append]
    exact ⟨_, hdepth,
      (leads_deeperEnd h.sound hle).append ((Leads.neither hc _).append (Leads.opens hfix _))⟩
  | stopOverlay hd hname hp hforce => cases hf
  | dropNode hd hreserved hname hforce =>
    have hle := block_le_outputDepth h.sound hd hs
    rw [outputDepth_of_not_dropping hd] at hs
    rw [Outcome.emitted, Outcome.events_writing, List.filterMap_append]
    use d - s.inRootBlock.toNat
    constructor
    · rw [Outcome.state_writing, outputDepth_of_dropping rfl]
      have := h.sound.flags
      simp only [State.deeper]
      omega
    · exact (leads_deeperEnd h.sound hle).append (Leads.nil _)
  | stopReserved hd hreserved hname hforce => cases hf
  | root hd h0 hname =>
    have hdepth : (d : Int) = { s.deeper with rootElided := true }.outputDepth := by
      rw [outputDepth_top h hd h0, Bool.toNat_true]
      omega
    exact ⟨d, hdepth, Leads.nil d⟩
  | top hd hreserved h0 hname =>
    have hdepth : ((d + 1 : Nat) : Int) = { s.deeper with rootElided := false }.outputDepth := by
      rw [outputDepth_top h hd h0, Bool.toNat_false]
      omega
    exact ⟨d + 1, hdepth, Leads.opens ho d⟩
  | inner hd hreserved h0 hname =>
    rw [Outcome.emitted, Outcome.events_writing, List.filterMap_append]
    exact tracks_deeper h hd hs hfix

/-- The close of a node that is neither a fragment nor the elided root is written, and where it is
read the output is at least one deep. -/
theorem tracks_closes_inner (h : Mirrors o p t s) (hs : (d : Int) = s.outputDepth) {text : Text}
    (ht : braceOf text = .closes) (hd : s.dropping = none)
    (hstack : s.openFragments.head? ≠ some s.depth) (h0 : s.depth ≠ 0)
    (hr : s.depth = 1 → s.rootElided = false) :
    Tracks d { s with depth := s.depth - 1 } [text] 0 := by
  have hflags := h.sound.flags
  -- Where the output would be at depth zero the close is the fragment's or the root's.
  have hfrag : s.inFragment.toNat = 0 ∨ s.depth ≠ 2 := by
    by_cases hf : s.inFragment = true
    · right
      intro h2
      rw [h.sound.inFragment_iff_stack.mp hf, h2] at hstack
      exact hstack rfl
    · left
      simpa using hf
  have hroot : s.rootElided.toNat = 0 ∨ s.depth ≠ 1 := by
    by_cases h1 : s.depth = 1
    · left
      rw [hr h1]
      rfl
    · exact .inr h1
  rw [outputDepth_of_not_dropping hd] at hs
  obtain ⟨e, rfl⟩ : ∃ e, d = e + 1 := ⟨d - 1, by omega⟩
  have hdepth : (e : Int) = { s with depth := s.depth - 1 }.outputDepth := by
    rw [outputDepth_of_not_dropping (by exact hd)]
    simp only
    omega
  exact ⟨e, hdepth, Leads.closes ht e⟩

/-- The fragment is left, and the output stays as deep as it is. -/
theorem outputDepth_closeFragment (h : Mirrors o p t s) (hd : s.dropping = none)
    {below : List Nat} (hstack : s.openFragments = s.depth :: below) :
    (s.closeFragment below).state.outputDepth = s.outputDepth := by
  have hflags := h.sound.flags
  have hf : s.inFragment = true := by
    obtain ⟨m, n, rfl, hm, hn, -⟩ := h.at_fragment hstack
    rw [h.inFragment]
    simp [fragmentOf, hm, hn]
  rw [outputDepth_of_not_dropping hd, State.closeFragment,
    outputDepth_of_not_dropping (by exact hd)]
  simp only [hf, Bool.toNat_true, Bool.toNat_false] at hflags ⊢
  omega

theorem tracks_closes (h : Mirrors o p t s) (hs : (d : Int) = s.outputDepth) {l : Line}
    {line : Text} {r : Outcome} (hl : l.text = dropTerminator line) (hb : braceOf line = .closes)
    (hr : State.Closing o s l r) :
    Tracks d r.state r.emitted (if s.depth = 0 then 1 else 0) := by
  have hflags := h.sound.flags
  cases hr with
  | dropped hd ht =>
    obtain ⟨-, h1, h2, -⟩ := h.sound.dropping _ hd
    have hblock : s.inRootBlock.toNat = 0 := by
      rw [h.block_of_dropping (by simp [hd])]
      rfl
    have hdepth : (d : Int) = { s with depth := s.depth - 1, dropping := none }.outputDepth := by
      rw [hs, outputDepth_of_dropping hd, outputDepth_of_not_dropping rfl]
      simp only
      omega
    rw [if_neg (by omega)]
    exact ⟨d, hdepth, Leads.nil d⟩
  | inDropped hd ht =>
    obtain ⟨-, h1, h2, -⟩ := h.sound.dropping _ hd
    have hdepth : (d : Int) = { s with depth := s.depth - 1 }.outputDepth := by
      rw [hs, outputDepth_of_dropping hd, outputDepth_of_dropping (by exact hd)]
    rw [if_neg (by omega)]
    exact ⟨d, hdepth, Leads.nil d⟩
  | fragment hd hstack =>
    have h0 : s.depth ≠ 0 := by
      obtain ⟨m, n, rfl, -⟩ := h.at_fragment hstack
      simp [h.depth]
    rw [if_neg h0, Outcome.emitted, State.closeFragment, filterMap_unusedTarget (fun _ => rfl)]
    exact ⟨d, hs.trans (outputDepth_closeFragment h hd hstack).symm, Leads.nil d⟩
  | root hd hstack h1 hroot =>
    rw [outputDepth_of_not_dropping hd, hroot, Bool.toNat_true] at hs
    have hle : s.inRootBlock.toNat ≤ d := by omega
    have hdepth : ((d - s.inRootBlock.toNat : Nat) : Int) = { s with
        inRootBlock := false, rootElided := false, depth := s.depth - 1 }.outputDepth := by
      rw [outputDepth_of_not_dropping (by exact hd)]
      simp only [Bool.toNat_false]
      omega
    rw [if_neg (by omega)]
    exact ⟨_, hdepth, leads_blockEnd hle⟩
  | stray hd hstack h0 =>
    have hzero : d = 0 := by
      rw [outputDepth_of_not_dropping hd] at hs
      omega
    have ht : braceOf l.text = .closes := by
      rw [hl]
      exact (braceOf_fixed false 0 line).trans hb
    rw [if_pos h0]
    rw [hzero] at hs ⊢
    exact ⟨0, hs, Leads.stray ht⟩
  | inner hd hstack h0 hroot =>
    have ht : braceOf (indentFix o.indentFix s.depth l.text) = .closes := by
      rw [hl]
      exact (braceOf_fixed _ _ line).trans hb
    rw [if_neg h0]
    exact tracks_closes_inner h hs ht hd hstack h0 hroot

theorem tracks_stays (hs : (d : Int) = s.outputDepth) {l : Line} {r : Outcome}
    (hb : BraceFree l.text) (hr : State.Staying o s l r) : Tracks d r.state r.emitted 0 := by
  cases hr with
  | inDropped hd => exact ⟨d, hs, Leads.nil d⟩
  | reference hd hc => exact ⟨d, hs, Leads.nil d⟩
  | path hd hc => exact ⟨d, hs, Leads.nil d⟩
  | rootProperty hd hc hp =>
    have hle := Bool.toNat_le s.inRootBlock
    rw [outputDepth_of_not_dropping hd] at hs
    rw [Outcome.emitted, Outcome.events_writing, filterMap_property (fun _ => rfl)]
    use d + (1 - s.inRootBlock.toNat)
    constructor
    · rw [Outcome.state_writing, outputDepth_of_not_dropping (by exact hd)]
      simp only [Bool.toNat_true]
      omega
    · exact (leads_blockStart d).append (Leads.neither (braceFree_indentFix hb) _)
  | plain hd hc hp => exact ⟨d, hs, Leads.neither (braceFree_indentFix hb) d⟩

end

/-! ## Runs -/

theorem braceFree_label {line : Text} {n : OpenNode} (h : braceOf line = .opens n) :
    BraceFree n.label := by
  have hc : (classify false 0 line).content = _ :=
    contentOf_of_open ((open_mem_dropTerminator line).mpr (open_mem_of_opens h))
  rw [braceOf_of_open hc] at h
  cases h
  exact splitName_label_braceFree _

theorem braceFree_labels (lines : List Text) : ∀ n ∈ pathOf lines, BraceFree n.label := by
  induction lines using List.reverseRecOn with
  | nil => simp
  | append_singleton lines line ih =>
    rw [pathOf_concat, descend]
    intro n hn
    split at hn
    · next m hb =>
      rcases List.mem_append.mp hn with hn | hn
      · exact ih n hn
      · rw [List.mem_singleton.mp hn]
        exact braceFree_label hb
    · exact ih n (List.dropLast_subset _ hn)
    · exact ih n hn

theorem mem_of_fragmentOf {o : Options} {p : List OpenNode} {n : OpenNode}
    (h : fragmentOf o p = some n) : n ∈ p := by
  unfold fragmentOf at h
  split at h
  · split at h
    · cases h
      simp
    · cases h
  · cases h

theorem braceFree_fragmentName {o : Options} {p : List OpenNode} {t : Option Target} {s : State}
    (h : Mirrors o p t s) (hp : ∀ n ∈ p, BraceFree n.label) : BraceFree s.fragmentName := by
  rw [h.fragmentName]
  cases hf : fragmentOf o p with
  | none => simp [BraceFree]
  | some n =>
    have hname : BraceFree n.name := isFragmentName_braceFree (isFragment_of_fragmentOf hf)
    rw [Option.map_some, Option.getD_some, OpenNode.title]
    split
    · exact hname
    · exact ((hp n (mem_of_fragmentOf hf)).append (by decide)).append hname

/-- What one line does to the depth of the output, and whether it closes nothing. -/
theorem tracks_feed {o : Options} {p : List OpenNode} {t : Option Target} {s : State} {d : Nat}
    (h : Mirrors o p t s) (hp : ∀ n ∈ p, BraceFree n.label) (hs : (d : Int) = s.outputDepth)
    {line : Text} (hf : (s.feed o line).fatal = none) :
    Tracks d (s.feed o line).state (s.feed o line).emitted (strayCloses s.depth [line]) := by
  have hc : Mirrors o p t (s.count line) := h.count line
  have hl : (s.lineOf line).text = dropTerminator line := rfl
  obtain ⟨r, hr, hrule⟩ := s.feed_cases o line
  rw [hr, Outcome.fatal_after] at hf
  rw [hr, Outcome.state_after, Outcome.emitted_after]
  rcases hrule with ⟨n, hb, hrule⟩ | ⟨hb, hrule⟩ | ⟨hb, hrule⟩
  · have hk : strayCloses s.depth [line] = 0 := by simp [strayCloses, hb]
    rw [hk]
    exact tracks_opens hc hs (braceFree_fragmentName hc hp) hl hb hrule hf
  · have hk : strayCloses s.depth [line] = if s.depth = 0 then 1 else 0 := by
      simp [strayCloses, hb]
    rw [hk]
    exact tracks_closes hc hs hl hb hrule
  · have hk : strayCloses s.depth [line] = 0 := by
      simp [strayCloses, braceOf_of_braceFree hb]
    rw [hk]
    exact tracks_stays (s := s.count line) hs ((braceFree_dropTerminator line).mpr hb) hrule

theorem tracks_run {o : Options} {lines : List Text} (h : (run o lines).fatal = none) :
    Tracks 0 (run o lines).state (run o lines).emitted (strayCloses 0 lines) := by
  have hstart : Tracks 0 .initial [] (strayCloses 0 []) := ⟨0, rfl, Leads.nil 0⟩
  refine run_induction (P := fun lines r => Tracks 0 r.state r.emitted (strayCloses 0 lines))
    hstart ?_ h
  rintro lines line hx ⟨d, hd, hlead⟩ hf
  have hm := mirrors_run hx
  obtain ⟨e, he, hnext⟩ := tracks_feed hm (braceFree_labels lines) hd hf
  rw [Outcome.emitted_after, strayCloses_append, ← depth_run hx]
  exact ⟨e, he, hlead.append hnext⟩

theorem outputDepth_of_depth_zero {o : Options} {p : List OpenNode} {t : Option Target}
    {s : State} (h : Mirrors o p t s) (h0 : s.depth = 0) : s.outputDepth = 0 := by
  rw [h.eq_nil_iff_depth.mpr h0] at h
  rw [h.eq_initial]
  rfl

/-- The end of the input closes the block of root properties, and nothing else. -/
theorem leads_convert {o : Options} {lines : List Text} (h : (run o lines).fatal = none) {d : Nat}
    (hd : (d : Int) = (run o lines).state.outputDepth)
    (hlead : Leads (run o lines).emitted 0 d (strayCloses 0 lines)) :
    Leads (convert o lines).lines 0 (d - (run o lines).state.inRootBlock.toNat)
      (strayCloses 0 lines) := by
  have hm := mirrors_run h
  have hblock : (run o lines).state.inRootBlock.toNat ≤ d := by
    cases hx : (run o lines).state.dropping with
    | none => exact block_le_outputDepth hm.sound hx hd
    | some top =>
      rw [hm.block_of_dropping (by simp [hx])]
      exact Nat.zero_le d
  rw [Conversion.lines, outcome_of_run h, Outcome.emitted_after, emitted_finish]
  exact hlead.append (leads_blockEnd hblock)

/-- What is written has the depth that the state tells, at every point of a run that is not
stopped. At the end it is balanced if the input is, and it has the unmatched closes of the input
and no other. -/
theorem output_balance {o : Options} {lines : List Text} (h : (run o lines).fatal = none) :
    (levelFrom 0 (run o lines).emitted : Int) = (run o lines).state.outputDepth ∧
      strayCloses 0 (run o lines).emitted = strayCloses 0 lines ∧
      (levelFrom 0 lines = 0 → levelFrom 0 (convert o lines).lines = 0) ∧
      strayCloses 0 (convert o lines).lines = strayCloses 0 lines := by
  obtain ⟨d, hd, hlead⟩ := tracks_run h
  have hend := leads_convert h hd hlead
  have hlevel : (levelFrom 0 (run o lines).emitted : Int) = (run o lines).state.outputDepth := by
    rw [hlead.1, hd]
  have hbalanced : levelFrom 0 lines = 0 → levelFrom 0 (convert o lines).lines = 0 := by
    intro h0
    have hzero := outputDepth_of_depth_zero (mirrors_run h) ((depth_run h).trans h0)
    rw [hend.1]
    omega
  exact ⟨hlevel, hlead.2, hbalanced, hend.2⟩

/-- A forced run with a root property, a dropped node and an unmatched close. -/
theorem output_balance_of_forced_run :
    let o : Options := ⟨true, true, 0⟩
    let lines := ["/ \x7b", "\tcompatible = \"x\";", "\tfragment@0 \x7b", "\t\t_bad \x7b",
      "\t\t\x7d;", "\t\x7d;", "\x7d;", "\x7d;"].map String.toList
    (run o lines).fatal = none ∧ levelFrom 0 lines = 0 ∧
      levelFrom 0 (convert o lines).lines = 0 ∧ strayCloses 0 (convert o lines).lines = 1 := by
  intro o lines
  have hf : (run o lines).fatal = none := by decide
  have h0 : levelFrom 0 lines = 0 := by decide
  obtain ⟨-, -, hlevel, hstray⟩ := output_balance hf
  have hone : strayCloses 0 (convert o lines).lines = 1 := by
    rw [hstray]
    decide
  exact ⟨hf, h0, hlevel h0, hone⟩

end OverlaySugar
