import OverlaySugar.Converter
import OverlaySugar.Proofs.Classification

/-!
# Nesting by braces alone

What a text says about nesting without any reading of it: a line with `{`
opens a node and any other line with `}` closes the node that was opened last.
The path of a line is the list of the nodes that are open around it. Nothing
here knows the converter, and a close where no node is open is harmless.
-/

set_option autoImplicit false

namespace OverlaySugar
open Text

structure OpenNode where
  label : Text
  name : Text
  deriving DecidableEq, Repr

namespace OpenNode

def isFragment (n : OpenNode) : Bool := isFragmentName n.name

def isRoot (n : OpenNode) : Bool := n.name == rootName

def isOverlay (n : OpenNode) : Bool := isOverlayName n.name

def isIllegal (n : OpenNode) : Bool := isReservedName n.name && !isOverlayName n.name

end OpenNode

inductive Brace
  | opens (node : OpenNode)
  | closes
  | neither
  deriving DecidableEq, Repr

instance (P : OpenNode → Prop) [DecidablePred P] (b : Brace) :
    Decidable (∀ n, b = .opens n → P n) :=
  match b with
  | .opens n => decidable_of_iff (P n) (by simp)
  | .closes => .isTrue (by simp)
  | .neither => .isTrue (by simp)

def braceOf (line : Text) : Brace :=
  match (classify false 0 line).content with
  | .nodeOpen label name => .opens ⟨label, name⟩
  | .nodeClose => .closes
  | _ => .neither

/-! ## Depths -/

def levelStep (d : Nat) (line : Text) : Nat :=
  match braceOf line with
  | .opens _ => d + 1
  | .closes => d - 1
  | .neither => d

def levelFrom (d : Nat) (lines : List Text) : Nat := lines.foldl levelStep d

def strayCloses : Nat → List Text → Nat
  | _, [] => 0
  | d, line :: rest =>
    (if braceOf line = .closes ∧ d = 0 then 1 else 0) + strayCloses (levelStep d line) rest

@[simp] theorem levelFrom_nil (d : Nat) : levelFrom d [] = d := rfl

@[simp] theorem levelFrom_cons (d : Nat) (line : Text) (rest : List Text) :
    levelFrom d (line :: rest) = levelFrom (levelStep d line) rest := rfl

theorem levelFrom_append (d : Nat) (xs ys : List Text) :
    levelFrom d (xs ++ ys) = levelFrom (levelFrom d xs) ys := List.foldl_append

theorem strayCloses_append (d : Nat) (xs ys : List Text) :
    strayCloses d (xs ++ ys) = strayCloses d xs + strayCloses (levelFrom d xs) ys := by
  induction xs generalizing d with
  | nil => simp [strayCloses]
  | cons x xs ih => simp [strayCloses, ih, Nat.add_assoc]

/-! ## Paths -/

def descend (p : List OpenNode) (line : Text) : List OpenNode :=
  match braceOf line with
  | .opens n => p ++ [n]
  | .closes => p.dropLast
  | .neither => p

def pathFrom (p : List OpenNode) (lines : List Text) : List OpenNode := lines.foldl descend p

def pathOf (lines : List Text) : List OpenNode := pathFrom [] lines

@[simp] theorem pathOf_nil : pathOf [] = [] := rfl

theorem pathFrom_append (p : List OpenNode) (xs ys : List Text) :
    pathFrom p (xs ++ ys) = pathFrom (pathFrom p xs) ys := List.foldl_append

theorem pathOf_append (xs ys : List Text) : pathOf (xs ++ ys) = pathFrom (pathOf xs) ys :=
  pathFrom_append [] xs ys

@[simp] theorem pathOf_concat (xs : List Text) (line : Text) :
    pathOf (xs ++ [line]) = descend (pathOf xs) line := pathOf_append xs [line]

theorem descend_length (p : List OpenNode) (line : Text) :
    (descend p line).length = levelStep p.length line := by
  unfold descend levelStep
  split <;> simp

/-- The path is as long as the depth counts. -/
theorem pathFrom_length (p : List OpenNode) (lines : List Text) :
    (pathFrom p lines).length = levelFrom p.length lines := by
  induction lines generalizing p with
  | nil => rfl
  | cons line rest ih =>
    rw [levelFrom_cons, ← descend_length]
    exact ih (descend p line)

def nodesOf (p : List OpenNode) (line : Text) : List OpenNode :=
  match braceOf line with
  | .opens n => p ++ [n]
  | _ => p

/-! ## Matching braces -/

def walk : Nat → List Text → Option Nat
  | k, [] => some k
  | k, line :: rest =>
    match braceOf line, k with
    | .opens _, k => walk (k + 1) rest
    | .closes, 0 => none
    | .closes, k + 1 => walk k rest
    | .neither, k => walk k rest

theorem walk_append (k : Nat) (xs ys : List Text) :
    walk k (xs ++ ys) = (walk k xs).bind (walk · ys) := by
  induction xs generalizing k with
  | nil => rfl
  | cons x xs ih => cases hb : braceOf x <;> cases k <;> simp [walk, hb, ih]

def Balanced (lines : List Text) : Prop := walk 0 lines = some 0

instance (lines : List Text) : Decidable (Balanced lines) :=
  inferInstanceAs (Decidable (_ = _))

/-- Nodes that the lines do not close stay where they are in the path. -/
theorem pathFrom_of_walk {lines : List Text} {p q : List OpenNode} {k : Nat}
    (h : walk q.length lines = some k) :
    ∃ r : List OpenNode, r.length = k ∧ pathFrom (p ++ q) lines = p ++ r := by
  induction lines generalizing q with
  | nil => exact ⟨q, Option.some.inj h, rfl⟩
  | cons line rest ih =>
    change ∃ r : List OpenNode, r.length = k ∧ pathFrom (descend (p ++ q) line) rest = p ++ r
    cases hb : braceOf line with
    | opens n =>
      have hw : walk (q ++ [n]).length rest = some k := by simpa [walk, hb] using h
      simpa [descend, hb] using ih hw
    | closes =>
      -- A close that reached `p` would find no open among the lines, and the walk would fail.
      obtain rfl | ⟨s, n, rfl⟩ := q.eq_nil_or_concat
      · simp [walk, hb] at h
      · have hw : walk s.length rest = some k := by simpa [walk, hb] using h
        simpa [descend, hb, ← List.append_assoc] using ih hw
    | neither =>
      have hw : walk q.length rest = some k := by simpa [walk, hb] using h
      simpa [descend, hb] using ih hw

theorem pathFrom_balanced {lines : List Text} (h : Balanced lines) (p : List OpenNode) :
    pathFrom p lines = p := by
  obtain ⟨r, hr, hp⟩ := pathFrom_of_walk (p := p) (q := []) h
  simpa [List.length_eq_zero_iff.mp hr] using hp

/-! ## Lines in context -/

theorem braceOf_of_open {f : Bool} {k : Int} {line label name : Text}
    (h : (classify f k line).content = .nodeOpen label name) :
    braceOf line = .opens ⟨label, name⟩ := by
  simp only [braceOf, classify, (contentOf_nodeOpen h false).2]

theorem content_of_opens {line : Text} {n : OpenNode} (hb : braceOf line = .opens n) (f : Bool)
    (k : Int) : (classify f k line).content = .nodeOpen n.label n.name := by
  cases hc : (classify false 0 line).content with
  | nodeOpen label name =>
    rw [braceOf_of_open hc] at hb
    cases hb
    exact (contentOf_nodeOpen hc f).2
  | nodeClose => simp [braceOf, hc] at hb
  | target t => simp [braceOf, hc] at hb
  | plain => simp [braceOf, hc] at hb

theorem braceOf_of_close {f : Bool} {k : Int} {line : Text}
    (h : (classify f k line).content = .nodeClose) : braceOf line = .closes := by
  obtain ⟨ho, hc⟩ := contentOf_nodeClose h
  simp only [braceOf, classify, contentOf_of_close ho hc]

theorem content_of_closes {line : Text} (hb : braceOf line = .closes) (f : Bool) (k : Int) :
    (classify f k line).content = .nodeClose := by
  cases hc : (classify false 0 line).content with
  | nodeClose =>
    obtain ⟨ho, hc⟩ := contentOf_nodeClose hc
    exact contentOf_of_close ho hc
  | nodeOpen label name => simp [braceOf, hc] at hb
  | target t => simp [braceOf, hc] at hb
  | plain => simp [braceOf, hc] at hb

theorem braceOf_of_braceFree {t : Text} (h : BraceFree t) : braceOf t = .neither := by
  have hb := (braceFree_dropTerminator t).mpr h
  simp only [braceOf, classify, contentOf_of_braceFree hb]

theorem descend_of_braceFree {line : Text} (h : BraceFree line) (p : List OpenNode) :
    descend p line = p := by
  rw [descend, braceOf_of_braceFree h]

theorem braceOf_dropTerminator (line : Text) : braceOf (dropTerminator line) = braceOf line := by
  simp only [braceOf, classify, dropTerminator_dropTerminator]

theorem braceOf_tab (line : Text) : braceOf ('\t' :: line) = braceOf line := by
  simp only [braceOf, classify, dropTerminator_cons (show isTerminator '\t' = false by decide),
    contentOf_tab]

theorem braceFree_of_content {f : Bool} {k : Int} {line : Text}
    (ho : ∀ label name, (classify f k line).content ≠ .nodeOpen label name)
    (hc : (classify f k line).content ≠ .nodeClose) : BraceFree line := by
  rw [← braceFree_dropTerminator]
  exact contentOf_braceless ho hc

theorem braceFree_of_neither {line : Text} (h : braceOf line = .neither) : BraceFree line := by
  apply @braceFree_of_content false 0
  · intro label name hc
    rw [braceOf_of_open hc] at h
    cases h
  · intro hc
    rw [braceOf_of_close hc] at h
    cases h

theorem levelStep_of_open {t : Text} (h : '\x7b' ∈ t) (d : Nat) : levelStep d t = d + 1 := by
  have hc : (classify false 0 t).content = _ :=
    contentOf_of_open ((open_mem_dropTerminator t).mpr h)
  rw [levelStep, braceOf_of_open hc]

theorem braceOf_of_mem_close {t : Text} (h : '\x7b' ∉ t) (h' : '\x7d' ∈ t) :
    braceOf t = .closes :=
  braceOf_of_close (f := false) (k := 0) (contentOf_of_close
    (mt (open_mem_dropTerminator t).mp h) ((close_mem_dropTerminator t).mpr h'))

end OverlaySugar
