import OverlaySugar.Proofs.Grammar
import OverlaySugar.Proofs.Nesting

/-!
# Overlays as documents

A document is a header and fragments, each with a target and a body of lines
and nodes. It is written out in two ways, with all wrappers and without them.
Spaces are those of the usual layout, with one tab for each node around a line.
-/

set_option autoImplicit false

namespace OverlaySugar
open Text

/-! ## Parts -/

structure PlainLine where
  text : Text
  braceFree : BraceFree text
  unterminated : text.any isTerminator = false

structure NodeSpec where
  text : Text
  braceFree : BraceFree text
  ordinary : isReservedName (splitName text).2 = false

inductive Forest
  | nil
  | line (l : PlainLine) (rest : Forest)
  | node (spec : NodeSpec) (children rest : Forest)

structure Identifier where
  text : Text
  start : text.head?.any isWordStart = true
  word : text.all isWordChar = true

structure Numeral where
  digits : Text
  nonempty : digits ≠ []
  decimal : digits.all isDecimalDigit = true

structure Reference where
  text : Text
  start : text.head? = some '&'
  closed : '>' ∉ text
  braceFree : BraceFree text
  trimmed : trim text = text

structure Fragment where
  label : Option Identifier
  number : Numeral
  target : Reference
  body : Forest

structure Document where
  header : List PlainLine
  fragments : List Fragment

/-! ## Layout -/

def tabs (d : Nat) : Text := List.replicate d '\t'

def openLine (d : Nat) (spec : Text) : Text := tabs d ++ spec ++ " \x7b".toList

def closeLine (d : Nat) : Text := tabs d ++ "\x7d;".toList

def targetText (d : Nat) (t : Reference) : Text :=
  tabs d ++ "target = <".toList ++ t.text ++ ">;".toList

def Forest.lines (d : Nat) : Forest → List Text
  | .nil => []
  | .line l rest => (tabs d ++ l.text) :: rest.lines d
  | .node spec children rest =>
    openLine d spec.text :: (children.lines (d + 1) ++ closeLine d :: rest.lines d)

namespace Fragment

def name (f : Fragment) : Text := fragmentStem ++ f.number.digits

def spec (f : Fragment) : Text :=
  match f.label with
  | some l => l.text ++ ": ".toList ++ f.name
  | none => f.name

def expanded (f : Fragment) : List Text :=
  openLine 1 f.spec :: targetText 2 f.target :: openLine 2 overlayName ::
    (f.body.lines 3 ++ [closeLine 2, closeLine 1])

def sugar (f : Fragment) : List Text :=
  openLine 0 f.target.text :: ((f.body.lines 3).map (List.drop 2) ++ [closeLine 0])

end Fragment

namespace Document

def expanded (d : Document) : List Text :=
  d.header.map PlainLine.text ++
    openLine 0 rootName :: (d.fragments.flatMap Fragment.expanded ++ [closeLine 0])

def sugar (d : Document) : List Text :=
  d.header.map PlainLine.text ++ d.fragments.flatMap Fragment.sugar

end Document

example :
    let body : Forest := .node ⟨"led: led@1".toList, by decide, by decide⟩
      (.line ⟨"reg = <1>;".toList, by decide, by decide⟩ .nil) .nil
    let f : Fragment := ⟨none, ⟨['0'], by decide, by decide⟩,
      ⟨"&uart".toList, by decide, by decide, by decide, by decide⟩, body⟩
    (Document.mk [] [f]).expanded =
      ["/ \x7b", "\tfragment@0 \x7b", "\t\ttarget = <&uart>;", "\t\t__overlay__ \x7b",
        "\t\t\tled: led@1 \x7b", "\t\t\t\treg = <1>;", "\t\t\t\x7d;", "\t\t\x7d;", "\t\x7d;",
        "\x7d;"].map String.toList ∧
    (Document.mk [] [f]).sugar =
      ["&uart \x7b", "\tled: led@1 \x7b", "\t\treg = <1>;", "\t\x7d;", "\x7d;"].map
        String.toList := by
  decide

theorem Forest.lines_drop (f : Forest) (d : Nat) :
    (f.lines (d + 2)).map (List.drop 2) = f.lines d := by
  induction f generalizing d with
  | nil => rfl
  | line l rest ih =>
    rw [lines, List.map_cons, ih]
    rfl
  | node spec children rest ihc ihr =>
    rw [lines, List.map_cons, List.map_append, List.map_cons, ihr]
    rw [show d + 2 + 1 = (d + 1) + 2 from rfl, ihc]
    rfl

/-! ## Blanks -/

theorem isBlank_of_mem_tabs {d : Nat} {c : Char} (h : c ∈ tabs d) : isBlank c = true := by
  rw [List.eq_of_mem_replicate h]
  decide

theorem isBlank_of_decimalDigit {c : Char} (h : isDecimalDigit c = true) : isBlank c = false := by
  by_contra hb
  have hb : isBlank c = true := by simpa using hb
  obtain ⟨p, hp, hlo, hhi⟩ := (Ranges.holds_iff blankRanges c).mp hb
  simp only [isDecimalDigit, digitValue?, Option.isSome_map, List.find?_isSome, Bool.and_eq_true,
    decide_eq_true_eq] at h
  obtain ⟨z, hz, hzlo, hzhi⟩ := h
  -- No decade of digits meets a range of blanks.
  have hapart : ∀ z ∈ digitZeros, ∀ p ∈ blankRanges, z + 10 ≤ p.1 ∨ p.2 < z := by decide
  have := hapart z hz p hp
  omega

/-! ## Ends of lines -/

theorem dropTerminator_openLine (d : Nat) (spec : Text) :
    dropTerminator (openLine d spec) = openLine d spec := by
  have h : openLine d spec = tabs d ++ spec ++ [' '] ++ ['\x7b'] := by simp [openLine]
  rw [h]
  exact dropTerminator_concat (by decide) _

theorem dropTerminator_closeLine (d : Nat) : dropTerminator (closeLine d) = closeLine d := by
  have h : closeLine d = tabs d ++ ['\x7d'] ++ [';'] := by simp [closeLine]
  rw [h]
  exact dropTerminator_concat (by decide) _

theorem dropTerminator_targetText (d : Nat) (t : Reference) :
    dropTerminator (targetText d t) = targetText d t := by
  have h : targetText d t = tabs d ++ "target = <".toList ++ t.text ++ ['>'] ++ [';'] := by
    simp [targetText]
  rw [h]
  exact dropTerminator_concat (by decide) _

theorem dropTerminator_plain (d : Nat) (l : PlainLine) :
    dropTerminator (tabs d ++ l.text) = tabs d ++ l.text := by
  apply dropTerminator_of_any
  rw [List.any_append, l.unterminated, Bool.or_false, tabs, List.any_replicate]
  split <;> rfl

/-! ## Braces of lines -/

theorem braceFree_tabs (d : Nat) : BraceFree (tabs d) :=
  braceFree_of_forall (by decide) (by decide) fun _ => isBlank_of_mem_tabs

theorem braceFree_plain (d : Nat) (l : PlainLine) : BraceFree (tabs d ++ l.text) :=
  (braceFree_tabs d).append l.braceFree

/-- A node is named by its spec, wherever it stands. -/
theorem content_openLine (f : Bool) (k : Int) (d : Nat) (spec : Text) :
    (classify f k (openLine d spec)).content =
      .nodeOpen (splitName spec).1 (splitName spec).2 := by
  have h : openLine d spec = tabs d ++ spec ++ [' '] ++ ['\x7b'] := by simp [openLine]
  have hmem : '\x7b' ∈ openLine d spec := by simp [h]
  have hb : beforeLast '\x7b' (openLine d spec) = tabs d ++ spec ++ [' '] := by
    rw [h]
    exact beforeLast_concat _ _
  have ht : trim (tabs d ++ spec ++ [' ']) = trim spec := by
    rw [List.append_assoc, trim_append (fun _ => isBlank_of_mem_tabs), trim,
      trimEnd_concat (by decide), trim]
  simp only [classify, dropTerminator_openLine]
  rw [contentOf_of_open hmem, hb, splitName_of_trim ht]

theorem content_closeLine (f : Bool) (k : Int) (d : Nat) :
    (classify f k (closeLine d)).content = .nodeClose := by
  simp only [classify, dropTerminator_closeLine]
  apply contentOf_of_close
  · have ht := (braceFree_tabs d).1
    simp [closeLine, ht]
  · simp [closeLine]

def nodeNamed (spec : Text) : OpenNode := ⟨(splitName spec).1, (splitName spec).2⟩

theorem braceOf_openLine (d : Nat) (spec : Text) :
    braceOf (openLine d spec) = .opens (nodeNamed spec) :=
  braceOf_of_open (content_openLine false 0 d spec)

theorem braceOf_closeLine (d : Nat) : braceOf (closeLine d) = .closes :=
  braceOf_of_close (content_closeLine false 0 d)

theorem descend_openLine (p : List OpenNode) (d : Nat) (spec : Text) :
    descend p (openLine d spec) = p ++ [nodeNamed spec] := by
  rw [descend, braceOf_openLine]

theorem descend_closeLine (p : List OpenNode) (d : Nat) :
    descend p (closeLine d) = p.dropLast := by
  rw [descend, braceOf_closeLine]

/-! ## Names of fragments -/

namespace Fragment
variable (f : Fragment)

theorem isDecimalDigit_of_mem {c : Char} (h : c ∈ f.number.digits) : isDecimalDigit c = true :=
  List.all_eq_true.mp f.number.decimal c h

/-- The name ends in a digit, so there is nothing to trim. -/
theorem last_name : ∀ c ∈ f.name.getLast?, isBlank c = false := by
  intro c hc
  rw [name, List.getLast?_append_of_ne_nil _ f.number.nonempty] at hc
  exact isBlank_of_decimalDigit (f.isDecimalDigit_of_mem (List.mem_of_getLast? hc))

theorem isFragmentName_name : isFragmentName f.name = true :=
  (isFragmentName_iff f.last_name).mpr
    ⟨f.number.digits, f.number.nonempty, fun _ => f.isDecimalDigit_of_mem, rfl⟩

theorem name_ne_nil : f.name ≠ [] := List.append_ne_nil_of_right_ne_nil _ f.number.nonempty

theorem notMem_name {c : Char} (hstem : c ∉ fragmentStem) (hdigit : isDecimalDigit c = false) :
    c ∉ f.name := by
  intro h
  rcases List.mem_append.mp h with h | h
  · exact hstem h
  · rw [f.isDecimalDigit_of_mem h] at hdigit
    cases hdigit

theorem trims_name : Trims f.name f.name := by
  refine .self (fun c hc => ?_) f.last_name
  obtain rfl : 'f' = c := Option.some.inj hc
  decide

/-- Without a colon there is no label. -/
theorem splitName_name : splitName f.name = ([], f.name) := by
  refine splitName_eq_iff.mpr ⟨f.name, f.trims_name, .bare fun _ _ label rest h => ?_⟩
  obtain ⟨-, -, a, b, -, -, h⟩ := h
  refine f.notMem_name (c := ':') (by decide) (by decide) ?_
  rw [h]
  simp

theorem splitName_labelled (l : Identifier) :
    splitName (l.text ++ ": ".toList ++ f.name) = (l.text, f.name) := by
  obtain ⟨c, hhead, hc⟩ := (Option.any_eq_true _ _).mp l.start
  obtain ⟨w, hw⟩ := List.head?_eq_some_iff.mp hhead
  have hword := List.all_eq_true.mp l.word
  have hspec : (l.text ++ ": ".toList ++ f.name).head? = some c := by
    rw [hw]
    rfl
  have hmark (m : Char) (hm : isWordStart m = false) :
      (l.text ++ ": ".toList ++ f.name).head? ≠ some m := by
    intro h
    rw [← Option.some.inj (hspec.symm.trans h), hc] at hm
    cases hm
  have htrims : Trims (l.text ++ ": ".toList ++ f.name) (l.text ++ ": ".toList ++ f.name) := by
    refine .self (fun d hd => ?_) fun d hd => ?_
    · rw [Option.mem_def, hspec, Option.some.injEq] at hd
      rw [← hd]
      exact isBlank_of_wordChar (isWordChar_of_wordStart hc)
    · rw [List.getLast?_append_of_ne_nil _ f.name_ne_nil] at hd
      exact f.last_name d hd
  have hlabel : Labelled l.text f.name (l.text ++ ": ".toList ++ f.name) := by
    refine ⟨⟨c, w, hw, hc, fun d hd => hword d ?_⟩, f.notMem_name (by decide) (by decide), [],
      [' '], .nil, .space, by simp⟩
    rw [hw]
    exact List.mem_cons_of_mem c hd
  exact splitName_eq_iff.mpr ⟨_, htrims,
    .labelled (hmark '&' (by decide)) (hmark '/' (by decide)) hlabel f.trims_name⟩

theorem splitName_spec : (splitName f.spec).2 = f.name := by
  rw [spec]
  split
  · rw [splitName_labelled]
  · rw [splitName_name]

end Fragment

/-! ## Targets -/

theorem braceFree_targetText (d : Nat) (t : Reference) : BraceFree (targetText d t) :=
  (((braceFree_tabs d).append (by decide)).append t.braceFree).append (by decide)

theorem content_targetText (k : Int) (d : Nat) (t : Reference) :
    (classify true k (targetText d t)).content = .target (.reference t.text) := by
  rw [classify, dropTerminator_targetText]
  have hform : ReferenceLine t.text (targetText d t) :=
    ⟨tabs d, [' '], [' '], [], [], fun _ => isBlank_of_mem_tabs, .space, .space, .nil, t.closed,
      by simp [targetText]⟩
  exact contentOf_eq_iff.mpr
    (.reference (braceFree_targetText d t) rfl hform (trim_eq_iff.mp t.trimmed))

end OverlaySugar
