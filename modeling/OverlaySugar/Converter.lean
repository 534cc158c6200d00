import OverlaySugar.Diagnostics
import OverlaySugar.Line

/-!
# The overlay converter

A machine that reads an overlay line by line and writes it in sugar form.
The root node and each `fragment@N` node leave no line; the `__overlay__`
node of a fragment is written under the fragment's target. Properties that
stand directly in the root are written inside a root node of their own. No
tree is built: the state is a node depth and what is open around it.
-/

set_option autoImplicit false

namespace OverlaySugar
open Text

/-! ## Options -/

def truthName (b : Bool) : String := if b then "True" else "False"

structure Options where
  force : Bool
  indentFix : Bool
  verbose : Int
  deriving DecidableEq, Repr

namespace Options

def standard : Options := ⟨false, true, 0⟩

def describe (o : Options) : String :=
  s!"ConvertOptions(force={truthName o.force}, indent_fix={truthName o.indentFix}, verbose={o.verbose})"

end Options

/-! ## Indentation

A fragment node and its overlay node stand one tab each in front of what they hold. Without them
that pair of tabs is removed, once, and spaces or a lone tab stay. -/

def dropTabPair : Text → Text
  | '\t' :: '\t' :: t => t
  | t => t

def indentFix (enabled : Bool) (depth : Nat) (t : Text) : Text :=
  if enabled && depth > 1 then dropTabPair t else t

theorem dropTabPair_eq_or (t : Text) : dropTabPair t = t ∨ t = '\t' :: '\t' :: dropTabPair t := by
  unfold dropTabPair
  split <;> simp

theorem indentFix_eq_or (enabled : Bool) (depth : Nat) (t : Text) :
    indentFix enabled depth t = t ∨ t = '\t' :: '\t' :: indentFix enabled depth t := by
  unfold indentFix
  split
  · exact dropTabPair_eq_or t
  · exact .inl rfl

@[simp] theorem indentFix_disabled (depth : Nat) (t : Text) : indentFix false depth t = t := rfl

/-! ## States and events -/

inductive Origin
  | source
  | rootOpen
  | rootClose
  | heading
  | notice
  deriving DecidableEq, Repr

inductive Event
  | line (origin : Origin) (text : Text)
  | message (m : Message)
  | trace (text : String)
  deriving DecidableEq, Repr

namespace Event

def line? : Event → Option Text
  | .line _ t => some t
  | _ => none

def source? : Event → Option Text
  | .line .source t => some t
  | _ => none

def message? : Event → Option Message
  | .message m => some m
  | _ => none

end Event

/-- The state between two lines. `openFragments` holds the depths of open fragment nodes, the
innermost first, and `dropping` the depth of a node that is being dropped. -/
structure State where
  depth : Nat
  openFragments : List Nat
  pending : Option Target
  inFragment : Bool
  fragmentName : Text
  inRootBlock : Bool
  rootElided : Bool
  dropping : Option Nat
  linesRead : Nat
  bytesRead : Nat
  tally : Tally
  deriving DecidableEq, Repr

def State.initial : State := ⟨0, [], none, false, [], false, false, none, 0, 0, .zero⟩

structure Outcome where
  state : State
  events : List Event
  fatal : Option Fatal
  deriving DecidableEq, Repr

namespace Outcome

def quiet (s : State) : Outcome := ⟨s, [], none⟩

def writing (s : State) (es : List Event) : Outcome := ⟨s, es, none⟩

def after (es : List Event) (r : Outcome) : Outcome := { r with events := es ++ r.events }

def emitted (r : Outcome) : List Text := r.events.filterMap Event.line?

def sources (r : Outcome) : List Text := r.events.filterMap Event.source?

def messages (r : Outcome) : List Message := r.events.filterMap Event.message?

@[simp] theorem state_after (es : List Event) (r : Outcome) : (r.after es).state = r.state := rfl

@[simp] theorem fatal_after (es : List Event) (r : Outcome) : (r.after es).fatal = r.fatal := rfl

@[simp] theorem events_after (es : List Event) (r : Outcome) :
    (r.after es).events = es ++ r.events := rfl

@[simp] theorem after_nil (r : Outcome) : r.after [] = r := rfl

theorem after_after (es fs : List Event) (r : Outcome) :
    (r.after fs).after es = r.after (es ++ fs) := by
  simp [after]

theorem emitted_after (es : List Event) (r : Outcome) :
    (r.after es).emitted = es.filterMap Event.line? ++ r.emitted := by
  simp [emitted]

theorem sources_after (es : List Event) (r : Outcome) :
    (r.after es).sources = es.filterMap Event.source? ++ r.sources := by
  simp [sources]

theorem messages_after (es : List Event) (r : Outcome) :
    (r.after es).messages = es.filterMap Event.message? ++ r.messages := by
  simp [messages]

@[simp] theorem emitted_quiet (s : State) : (quiet s).emitted = [] := rfl

end Outcome

def rootBlockOpen : Text := "/ \x7b".toList

def rootBlockClose : Text := "\x7d;".toList

def rootName : Text := "/".toList

/-! ## What is found wrong -/

inductive Finding
  | illegalNode (name : Text)
  | missingTarget (node : Text)
  | unsupportedPath (path node : Text)
  deriving DecidableEq, Repr

namespace Finding

def text : Finding → String
  | .illegalNode name => s!"illegal node name '{String.ofList name}'"
  | .missingTarget node => s!"no 'target' property in node {String.ofList node}"
  | .unsupportedPath path node =>
    s!"target-path not supported (\"{String.ofList path}\" in {String.ofList node})"

end Finding

namespace State

def fixed (o : Options) (s : State) (t : Text) : Text := indentFix o.indentFix s.depth t

def stop (s : State) (status : ExitStatus) (f : Finding) (line : Int) : Outcome :=
  let (tally, m, e) := s.tally.fatal status f.text line
  ⟨{ s with tally }, [.message m], some e⟩

/-! ## One line -/

def blockEnd (s : State) : List Event :=
  if s.inRootBlock then [.line .rootClose rootBlockClose] else []

def blockStart (s : State) : List Event :=
  if s.inRootBlock then [] else [.line .rootOpen rootBlockOpen]

def drop (s : State) (top : Nat) : Content → State
  | .nodeOpen _ _ => { s with depth := s.depth + 1 }
  | .nodeClose =>
    { s with
      depth := s.depth - 1
      dropping := if s.depth = top then none else some top }
  | _ => s

def openFragment (s : State) (label name : Text) : State :=
  { s with
    inFragment := true
    fragmentName := if label = [] then name else label ++ ": ".toList ++ name
    pending := none
    openFragments := s.depth :: s.openFragments }

def missing (s : State) : Finding :=
  .missingTarget (if s.fragmentName = [] then rootName else s.fragmentName)

def targetLine (l : Line) (t : Target) : Text := l.indent ++ t.value ++ " \x7b".toList

def errorComment (l : Line) (message : String) : Text :=
  l.indent ++ "/* ERROR: ".toList ++ message.toList ++ " */".toList

def openOverlay (o : Options) (s : State) (l : Line) : Outcome :=
  match s.pending with
  | some t => .writing { s with pending := none } [.line .heading (s.fixed o (targetLine l t))]
  | none =>
    if o.force then
      let (tally, m) := s.tally.error s.missing.text l.number
      .writing { s with tally }
        [.message m, .line .notice (s.fixed o (errorComment l s.missing.text)),
          .line .source (s.fixed o l.text)]
    else s.stop .missingTarget s.missing l.number

def openReserved (o : Options) (s : State) (l : Line) (name : Text) : Outcome :=
  let f := Finding.illegalNode name
  if o.force then
    let (tally, m) := s.tally.error (f.text ++ ", dropping node") l.number
    .writing { s with tally, dropping := some s.depth } [.message m]
  else s.stop .illegalNode f l.number

def openTop (s : State) (l : Line) (name : Text) : Outcome :=
  if name = rootName then .quiet { s with rootElided := true }
  else .writing { s with rootElided := false } [.line .source l.text]

def openAtDepth (o : Options) (s : State) (l : Line) (label name : Text) : Outcome :=
  if s.depth = 2 ∧ isFragmentName name then .quiet (s.openFragment label name)
  else if isOverlayName name then s.openOverlay o l
  else if isReservedName name then s.openReserved o l name
  else if s.depth = 1 then s.openTop l name
  else .writing s [.line .source (s.fixed o l.text)]

def deeper (s : State) : State :=
  { s with depth := s.depth + 1, inRootBlock := s.depth != 1 && s.inRootBlock }

def deeperEnd (s : State) : List Event := if s.depth = 1 then s.blockEnd else []

def openNode (o : Options) (s : State) (l : Line) (label name : Text) : Outcome :=
  (s.deeper.openAtDepth o l label name).after s.deeperEnd

def unusedTarget (s : State) : List Event :=
  match s.pending with
  | some t => [.trace
      s!"{String.ofList s.fragmentName}: unused target '{String.ofList t.value}' discarded"]
  | none => []

def closeFragment (s : State) (below : List Nat) : Outcome :=
  ⟨{ s with
      depth := s.depth - 1
      openFragments := below
      inFragment := false
      pending := none
      fragmentName := [] }, s.unusedTarget, none⟩

def closeOther (o : Options) (s : State) (l : Line) : Outcome :=
  if s.depth = 1 ∧ s.rootElided then
    .writing { s with inRootBlock := false, rootElided := false, depth := s.depth - 1 } s.blockEnd
  else if s.depth = 0 then .writing s [.line .source l.text]
  else .writing { s with depth := s.depth - 1 } [.line .source (s.fixed o l.text)]

def closeNode (o : Options) (s : State) (l : Line) : Outcome :=
  match s.openFragments with
  | d :: below => if d = s.depth then s.closeFragment below else s.closeOther o l
  | [] => s.closeOther o l

def setTarget (s : State) (l : Line) (t : Target) : Outcome :=
  let s := { s with pending := some t }
  match t with
  | .reference _ => .quiet s
  | .path v =>
    let (tally, m) := s.tally.warning (Finding.unsupportedPath v s.fragmentName).text l.number
    .writing { s with tally } [.message m]

def isRootProperty (s : State) (l : Line) : Bool :=
  !s.inFragment && s.depth == 1 && s.rootElided && l.isProperty

def plain (o : Options) (s : State) (l : Line) : Outcome :=
  if s.isRootProperty l then
    let (tally, m) := s.tally.rootProperty o.verbose (String.ofList (trim l.text)) l.number
    .writing { s with inRootBlock := true, tally }
      (s.blockStart ++ (m.map Event.message).toList ++ [.line .source (s.fixed o l.text)])
  else .writing s [.line .source (s.fixed o l.text)]

def handle (o : Options) (s : State) (l : Line) : Outcome :=
  match l.content with
  | .nodeOpen label name => s.openNode o l label name
  | .nodeClose => s.closeNode o l
  | .target t => s.setTarget l t
  | .plain => s.plain o l

def take (o : Options) (s : State) (l : Line) : Outcome :=
  match s.dropping with
  | some top => .quiet (s.drop top l.content)
  | none => s.handle o l

def allowsTarget (s : State) : Bool := s.inFragment && s.openFragments.head? == some s.depth

def count (s : State) (line : Text) : State :=
  { s with
    linesRead := s.linesRead + 1
    bytesRead := s.bytesRead + utf8Length line }

def traceText (s : State) (l : Line) : String :=
  s!"line {l.number}: depth: {s.depth} shape: {l.shape.name} " ++
    s!"name: '{String.ofList l.name}' fragment: {truthName s.inFragment}"

def feed (o : Options) (s : State) (line : Text) : Outcome :=
  let s := s.count line
  let l := classify s.allowsTarget s.linesRead line
  (s.take o l).after [.trace (s.traceText l)]

def finish (s : State) : Outcome :=
  .writing { s with inRootBlock := false }
    (s.blockEnd ++ if s.depth = 0 then [] else [.trace s!"input ended at depth {s.depth}"])

def feedAll (o : Options) : State → List Text → Outcome
  | s, [] => .quiet s
  | s, line :: rest =>
    let r := s.feed o line
    match r.fatal with
    | some _ => r
    | none => (feedAll o r.state rest).after r.events

@[simp] theorem feedAll_nil (o : Options) (s : State) : feedAll o s [] = .quiet s := rfl

theorem feedAll_cons_of_fatal {o : Options} {s : State} {line : Text} {f : Fatal}
    (h : (s.feed o line).fatal = some f) (rest : List Text) :
    feedAll o s (line :: rest) = s.feed o line := by
  simp [feedAll, h]

theorem feedAll_cons_of_not_fatal {o : Options} {s : State} {line : Text}
    (h : (s.feed o line).fatal = none) (rest : List Text) :
    feedAll o s (line :: rest) = (feedAll o (s.feed o line).state rest).after (s.feed o line).events := by
  simp [feedAll, h]

theorem feedAll_append_of_fatal {o : Options} {s : State} {xs : List Text} {f : Fatal}
    (h : (feedAll o s xs).fatal = some f) (ys : List Text) :
    feedAll o s (xs ++ ys) = feedAll o s xs := by
  induction xs generalizing s with
  | nil => simp [Outcome.quiet] at h
  | cons x xs ih =>
    cases hx : (s.feed o x).fatal with
    | some g => rw [List.cons_append, feedAll_cons_of_fatal hx, feedAll_cons_of_fatal hx]
    | none =>
      rw [feedAll_cons_of_not_fatal hx, Outcome.fatal_after] at h
      rw [List.cons_append, feedAll_cons_of_not_fatal hx, feedAll_cons_of_not_fatal hx, ih h]

/-- Two runs in a row are one, unless the first is stopped. -/
theorem feedAll_append_of_not_fatal {o : Options} {s : State} {xs : List Text}
    (h : (feedAll o s xs).fatal = none) (ys : List Text) :
    feedAll o s (xs ++ ys) =
      (feedAll o (feedAll o s xs).state ys).after (feedAll o s xs).events := by
  induction xs generalizing s with
  | nil => rfl
  | cons x xs ih =>
    cases hx : (s.feed o x).fatal with
    | some g => rw [feedAll_cons_of_fatal hx, hx] at h; cases h
    | none =>
      rw [feedAll_cons_of_not_fatal hx, Outcome.fatal_after] at h
      rw [List.cons_append, feedAll_cons_of_not_fatal hx, feedAll_cons_of_not_fatal hx, ih h]
      simp [Outcome.after_after]

end State
end OverlaySugar
