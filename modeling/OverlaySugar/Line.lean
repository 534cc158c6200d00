import OverlaySugar.Text.Numeral
import OverlaySugar.Text.Quoted

/-!
# Lines of overlay source

A line is known by its braces: one with `{` opens a node, else one with `}`
closes a node. Without braces it may set the target of a fragment, where the
context allows it. Values are not interpreted.
-/

set_option autoImplicit false

namespace OverlaySugar
open Text

inductive Target
  | reference (value : Text)
  | path (value : Text)
  deriving DecidableEq, Repr

def Target.value : Target → Text
  | .reference v => v
  | .path v => v

inductive Content
  | nodeOpen (label name : Text)
  | nodeClose
  | target (target : Target)
  | plain
  deriving DecidableEq, Repr

inductive Shape
  | nodeOpen | nodeClose | target | targetPath | plain
  deriving DecidableEq, Repr

def Shape.name : Shape → String
  | .nodeOpen => "NODE_OPEN"
  | .nodeClose => "NODE_CLOSE"
  | .target => "TARGET"
  | .targetPath => "TARGET_PATH"
  | .plain => "PLAIN"

def Shape.code : Shape → Nat
  | .nodeOpen => 1
  | .nodeClose => 2
  | .target => 3
  | .targetPath => 4
  | .plain => 5

def Shape.all : List Shape := [.nodeOpen, .nodeClose, .target, .targetPath, .plain]

def Content.shape : Content → Shape
  | .nodeOpen _ _ => .nodeOpen
  | .nodeClose => .nodeClose
  | .target (.reference _) => .target
  | .target (.path _) => .targetPath
  | .plain => .plain

structure Line where
  text : Text
  content : Content
  number : Int
  deriving DecidableEq, Repr

namespace Line

def shape (l : Line) : Shape := l.content.shape

def indent (l : Line) : Text := leadingBlank l.text

def label (l : Line) : Text :=
  match l.content with
  | .nodeOpen label _ => label
  | _ => []

def name (l : Line) : Text :=
  match l.content with
  | .nodeOpen _ name => name
  | _ => []

def value (l : Line) : Text :=
  match l.content with
  | .target t => t.value
  | _ => []

end Line

/-! ## Names -/

def isWordStart (c : Char) : Bool := c.isAlpha || c == '_'

def isWordChar (c : Char) : Bool := c.isAlphanum || c == '_'

def labelled? (spec : Text) : Option (Text × Text) := do
  guard (spec.head?.any isWordStart)
  let name ← after? [':'] (trimStart (spec.dropWhile isWordChar))
  let name := trimStart name
  guard ('\n' ∉ name)
  return (spec.takeWhile isWordChar, trim name)

def splitName (spec : Text) : Text × Text :=
  let spec := trim spec
  if spec.head? = some '&' ∨ spec.head? = some '/' then ([], spec)
  else (labelled? spec).getD ([], spec)

def fragmentStem : Text := "fragment@".toList

def isFragmentName (name : Text) : Bool :=
  match after? fragmentStem name with
  | some t => t.head?.any isDecimalDigit && t.dropWhile isDecimalDigit ∈ [[], ['\n']]
  | none => false

def overlayName : Text := "__overlay__".toList

def isOverlayName (name : Text) : Bool := name == overlayName

def isReservedName (name : Text) : Bool := name.head? == some '_'

namespace Line

def isFragment (l : Line) : Bool := l.shape == .nodeOpen && isFragmentName l.name

def isOverlay (l : Line) : Bool := l.shape == .nodeOpen && isOverlayName l.name

def isReserved (l : Line) : Bool := l.shape == .nodeOpen && isReservedName l.name

end Line

/-! ## Properties -/

def targetReference? (t : Text) : Option Text := do
  let t ← after? "target".toList (trimStart t)
  let t ← after? ['='] (trimStart t)
  let t ← after? ['<'] (trimStart t)
  let rest ← after? ['>'] (t.dropWhile (· != '>'))
  let _ ← after? [';'] (trimStart rest)
  return trim (t.takeWhile (· != '>'))

def targetPath? (t : Text) : Option Text := do
  let t ← after? "target-path".toList (trimStart t)
  let t ← after? ['='] (trimStart t)
  let t ← after? ['"'] (trimStart t)
  let _ ← after? ['"'] (t.dropWhile (· != '"'))
  return t.takeWhile (· != '"')

def isPropertyChar (c : Char) : Bool := c.isAlphanum || c ∈ [',', '.', '_', '+', '#', '?', '-']

def assignsProperty (t : Text) : Bool :=
  let t := trimStart t
  t.head?.any isPropertyChar && (trimStart (t.dropWhile isPropertyChar)).head? == some '='

def Line.isProperty (l : Line) : Bool := assignsProperty l.text

/-! ## Classification -/

def isTerminator (c : Char) : Bool := c == '\r' || c == '\n'

def dropTerminator (t : Text) : Text := dropEndWhile isTerminator t

def contentOf (inFragment : Bool) (t : Text) : Content :=
  if '\x7b' ∈ t then
    let (label, name) := splitName (beforeLast '\x7b' t)
    .nodeOpen label name
  else if '\x7d' ∈ t then .nodeClose
  else if inFragment then
    match targetReference? t, targetPath? t with
    | some v, _ => .target (.reference v)
    | none, some v => .target (.path v)
    | none, none => .plain
  else .plain

def classify (inFragment : Bool) (number : Int) (line : Text) : Line :=
  let text := dropTerminator line
  ⟨text, contentOf inFragment text, number⟩

def Line.describe (l : Line) : String :=
  s!"ClassifiedLine({l.shape.name}, {quote l.text})"

theorem contentOf_nodeOpen_iff (inFragment : Bool) (t : Text) :
    (contentOf inFragment t).shape = .nodeOpen ↔ '\x7b' ∈ t := by
  unfold contentOf
  by_cases h : '\x7b' ∈ t
  · simp [h, Content.shape]
  · simp only [h, if_false, iff_false]
    repeat' split
    all_goals simp [Content.shape]

theorem contentOf_nodeClose_iff (inFragment : Bool) (t : Text) :
    (contentOf inFragment t).shape = .nodeClose ↔ '\x7b' ∉ t ∧ '\x7d' ∈ t := by
  unfold contentOf
  by_cases h : '\x7b' ∈ t
  · simp [h, Content.shape]
  · by_cases h' : '\x7d' ∈ t
    · simp [h, h', Content.shape]
    · simp only [h, h', if_false, and_false, iff_false]
      repeat' split
      all_goals simp [Content.shape]

end OverlaySugar
