import OverlaySugar.Config.Store
import OverlaySugar.Text.Quoted

/-!
# Interpolation of values

In a value `%%` stands for a percent sign and `%(name)s` for the value of
another key of the section or the defaults. References are followed ten deep.
A percent sign of no other kind is refused, when a value is read and when it
is set.
-/

set_option autoImplicit false

namespace OverlaySugar
open Text

def reference? (t : Text) : Option (Text × Text) :=
  let key := t.takeWhile (· != ')')
  match t.drop key.length with
  | ')' :: 's' :: rest => if key = [] then none else some (key, rest)
  | _ => none

theorem reference?_length {t key rest : Text} (h : reference? t = some (key, rest)) :
    rest.length < t.length := by
  simp only [reference?] at h
  split at h
  · rename_i r hr
    split at h
    · cases h
    · cases h
      have := congrArg List.length hr
      simp only [List.length_drop, List.length_cons] at this
      omega
  · cases h

inductive Piece
  | literal (c : Char)
  | reference (key : Text)
  | unclosed (rest : Text)
  | stray (rest : Text)
  deriving DecidableEq, Repr

def piecesOf : Text → List Piece
  | [] => []
  | '%' :: '%' :: t => .literal '%' :: piecesOf t
  | '%' :: '(' :: t =>
    match _h : reference? t with
    | some (key, rest) => .reference (lower key) :: piecesOf rest
    | none => [.unclosed ('%' :: '(' :: t)]
  | c :: t => if c = '%' then [.stray (c :: t)] else .literal c :: piecesOf t
termination_by t => t.length
decreasing_by
  · simp only [List.length_cons]; omega
  · have := reference?_length _h; simp only [List.length_cons]; omega
  · simp

inductive InterpolationFault
  | missing (key raw : Text)
  | unclosed (rest : Text)
  | stray (rest : Text)
  | tooDeep (raw : Text)
  deriving DecidableEq, Repr

def maxReferenceDepth : Nat := 10

namespace InterpolationFault

def message (name key : Text) : InterpolationFault → String
  | .missing reference raw =>
    s!"Bad value substitution: option {quote key} in section {quote name} contains an " ++
      s!"interpolation key {quote reference} which is not a valid option name. Raw value: {quote raw}"
  | .unclosed rest => s!"bad interpolation variable reference {quote rest}"
  | .stray rest => s!"'%' must be followed by '%' or '(', found: {quote rest}"
  | .tooDeep raw =>
    s!"Recursion limit exceeded in value substitution: option {quote key} in section " ++
      s!"{quote name} contains an interpolation key which cannot be substituted in " ++
      s!"{maxReferenceDepth} steps. Raw value: {quote raw}"

end InterpolationFault

def expand (lookup : Text → Option Text) (raw : Text) : Nat → Text → Except InterpolationFault Text
  | 0, _ => .error (.tooDeep raw)
  | depth + 1, value => do
    let parts ← (piecesOf value).mapM fun
      | .literal c => .ok [c]
      | .reference key =>
        match lookup key with
        | none => .error (.missing key raw)
        | some v => if '%' ∈ v then expand lookup raw depth v else .ok v
      | .unclosed rest => .error (.unclosed rest)
      | .stray rest => .error (.stray rest)
    return parts.flatten

namespace Config

def value? (c : Config) (name key : Text) : Except InterpolationFault (Option Text) :=
  match c.raw? name key with
  | none => .ok none
  | some raw => (expand (c.raw? name) raw maxReferenceDepth raw).map some

end Config

/-! ## Values that may be set -/

def removeEscapes : Text → Text
  | [] => []
  | '%' :: '%' :: t => removeEscapes t
  | c :: t => c :: removeEscapes t

def removeReferences : Text → Text
  | [] => []
  | '%' :: '(' :: t =>
    match _h : reference? t with
    | some (_, rest) => removeReferences rest
    | none => '%' :: removeReferences ('(' :: t)
  | c :: t => c :: removeReferences t
termination_by t => t.length
decreasing_by
  · have := reference?_length _h; simp only [List.length_cons]; omega
  · simp
  · simp

def strayPercent? (value : Text) : Option Nat :=
  let rest := removeReferences (removeEscapes value)
  if '%' ∈ rest then some (rest.takeWhile (· != '%')).length else none

end OverlaySugar
