import OverlaySugar.Proofs.Nesting

/-!
# The rules of one line

What a line can do is said here once, rule by rule: when a rule applies, the
state that it leaves, and what it writes. There are rules for a line that opens
a node, for one that closes a node and for any other. Every line follows one of
them, and what a run keeps is derived from them.
-/

set_option autoImplicit false

namespace OverlaySugar
open Text

namespace Outcome

@[simp] theorem state_quiet (s : State) : (quiet s).state = s := rfl

@[simp] theorem events_quiet (s : State) : (quiet s).events = [] := rfl

@[simp] theorem fatal_quiet (s : State) : (quiet s).fatal = none := rfl

@[simp] theorem state_writing (s : State) (es : List Event) : (writing s es).state = s := rfl

@[simp] theorem events_writing (s : State) (es : List Event) : (writing s es).events = es := rfl

@[simp] theorem fatal_writing (s : State) (es : List Event) : (writing s es).fatal = none := rfl

@[simp] theorem after_quiet (s : State) (es : List Event) : (quiet s).after es = writing s es := by
  simp [quiet, writing, after]

@[simp] theorem after_writing (s : State) (es fs : List Event) :
    (writing s fs).after es = writing s (es ++ fs) := rfl

end Outcome

/-- A message writes no line, whichever lines are asked for. -/
theorem filterMap_messages {α : Type} {f : Event → Option α} (hf : ∀ m, f (.message m) = none)
    (m : Option Message) : (m.map Event.message).toList.filterMap f = [] := by
  cases m with
  | none => rfl
  | some m => simp [hf]

/-- A root property is one line behind the start of its block. -/
theorem filterMap_property {α : Type} {f : Event → Option α} (hf : ∀ m, f (.message m) = none)
    (s : State) (m : Option Message) (e : Event) :
    (s.blockStart ++ (m.map Event.message).toList ++ [e]).filterMap f =
      s.blockStart.filterMap f ++ [e].filterMap f := by
  rw [List.filterMap_append, List.filterMap_append, filterMap_messages hf, List.append_nil]

theorem filterMap_unusedTarget {α : Type} {f : Event → Option α} (hf : ∀ t, f (.trace t) = none)
    (s : State) : s.unusedTarget.filterMap f = [] := by
  rw [State.unusedTarget]
  split
  · simp [hf]
  · rfl

/-- The end of a block of root properties is one line and no message. -/
theorem filterMap_blockEnd {α : Type} {f : Event → Option α}
    (hf : f (.line .rootClose rootBlockClose) = none) (s : State) :
    s.blockEnd.filterMap f = [] := by
  rw [State.blockEnd]
  split
  · simp [hf]
  · rfl

theorem filterMap_deeperEnd {α : Type} {f : Event → Option α}
    (hf : f (.line .rootClose rootBlockClose) = none) (s : State) :
    s.deeperEnd.filterMap f = [] := by
  rw [State.deeperEnd]
  split
  · exact filterMap_blockEnd hf s
  · rfl

/-- The end of the input ends the block and is traced, no more. -/
theorem filterMap_finish {α : Type} {f : Event → Option α} (hf : ∀ t, f (.trace t) = none)
    (s : State) : s.finish.events.filterMap f = s.blockEnd.filterMap f := by
  rw [State.finish, Outcome.events_writing, List.filterMap_append]
  split <;> simp [hf]

theorem isReservedName_of_overlay {name : Text} (h : isOverlayName name) : isReservedName name := by
  rw [beq_iff_eq.mp h]
  rfl

namespace State

inductive Opening (o : Options) (s : State) (l : Line) (label name : Text) : Outcome → Prop
  | inDropped {top : Nat} (hd : s.dropping = some top) :
      Opening o s l label name (.quiet { s with depth := s.depth + 1 })
  | fragment (hd : s.dropping = none) (h1 : s.depth = 1) (hn : isFragmentName name) :
      Opening o s l label name (.writing (s.deeper.openFragment label name) s.deeperEnd)
  | heading {t : Target} (hd : s.dropping = none) (hn : isOverlayName name)
      (hp : s.pending = some t) :
      Opening o s l label name (.writing { s.deeper with pending := none }
        (s.deeperEnd ++
          [.line .heading (indentFix o.indentFix (s.depth + 1) (targetLine l t))]))
  | notice (hd : s.dropping = none) (hn : isOverlayName name) (hp : s.pending = none)
      (hf : o.force = true) :
      Opening o s l label name (.writing
        { s.deeper with
          pending := none
          tally := (s.tally.error s.missing.text l.number).1 }
        (s.deeperEnd ++ [.message (s.tally.error s.missing.text l.number).2,
          .line .notice (indentFix o.indentFix (s.depth + 1) (errorComment l s.missing.text)),
          .line .source (indentFix o.indentFix (s.depth + 1) l.text)]))
  | stopOverlay (hd : s.dropping = none) (hn : isOverlayName name) (hp : s.pending = none)
      (hf : o.force = false) :
      Opening o s l label name
        ((s.deeper.stop .missingTarget s.missing l.number).after s.deeperEnd)
  | dropNode (hd : s.dropping = none) (hr : isReservedName name)
      (hn : isOverlayName name = false) (hf : o.force = true) :
      Opening o s l label name (.writing { s.deeper with
          tally := (s.tally.error ((Finding.illegalNode name).text ++ ", dropping node") l.number).1
          dropping := some (s.depth + 1) }
        (s.deeperEnd ++ [.message
          (s.tally.error ((Finding.illegalNode name).text ++ ", dropping node") l.number).2]))
  | stopReserved (hd : s.dropping = none) (hr : isReservedName name)
      (hn : isOverlayName name = false) (hf : o.force = false) :
      Opening o s l label name
        ((s.deeper.stop .illegalNode (.illegalNode name) l.number).after s.deeperEnd)
  | root (hd : s.dropping = none) (h0 : s.depth = 0) (hn : name = rootName) :
      Opening o s l label name (.quiet { s.deeper with rootElided := true })
  | top (hd : s.dropping = none) (hr : isReservedName name = false) (h0 : s.depth = 0)
      (hn : name ≠ rootName) :
      Opening o s l label name
        (.writing { s.deeper with rootElided := false } [.line .source l.text])
  | inner (hd : s.dropping = none) (hr : isReservedName name = false) (h0 : s.depth ≠ 0)
      (hn : s.depth = 1 → isFragmentName name = false) :
      Opening o s l label name (.writing s.deeper
        (s.deeperEnd ++ [.line .source (indentFix o.indentFix (s.depth + 1) l.text)]))

inductive Closing (o : Options) (s : State) (l : Line) : Outcome → Prop
  | dropped {top : Nat} (hd : s.dropping = some top) (ht : s.depth = top) :
      Closing o s l (.quiet { s with depth := s.depth - 1, dropping := none })
  | inDropped {top : Nat} (hd : s.dropping = some top) (ht : s.depth ≠ top) :
      Closing o s l (.quiet { s with depth := s.depth - 1 })
  | fragment {below : List Nat} (hd : s.dropping = none) (hs : s.openFragments = s.depth :: below) :
      Closing o s l (s.closeFragment below)
  | root (hd : s.dropping = none) (hs : s.openFragments.head? ≠ some s.depth) (h1 : s.depth = 1)
      (hr : s.rootElided = true) :
      Closing o s l (.writing
        { s with inRootBlock := false, rootElided := false, depth := s.depth - 1 } s.blockEnd)
  | stray (hd : s.dropping = none) (hs : s.openFragments.head? ≠ some s.depth) (h0 : s.depth = 0) :
      Closing o s l (.writing s [.line .source l.text])
  | inner (hd : s.dropping = none) (hs : s.openFragments.head? ≠ some s.depth) (h0 : s.depth ≠ 0)
      (hr : s.depth = 1 → s.rootElided = false) :
      Closing o s l (.writing { s with depth := s.depth - 1 }
        [.line .source (indentFix o.indentFix s.depth l.text)])

inductive Staying (o : Options) (s : State) (l : Line) : Outcome → Prop
  | inDropped {top : Nat} (hd : s.dropping = some top) : Staying o s l (.quiet s)
  | reference {v : Text} (hd : s.dropping = none) (hc : l.content = .target (.reference v)) :
      Staying o s l (.quiet { s with pending := some (.reference v) })
  | path {v : Text} (hd : s.dropping = none) (hc : l.content = .target (.path v)) :
      Staying o s l (.writing
        { s with
          pending := some (.path v)
          tally := (s.tally.warning (Finding.unsupportedPath v s.fragmentName).text l.number).1 }
        [.message (s.tally.warning (Finding.unsupportedPath v s.fragmentName).text l.number).2])
  | rootProperty (hd : s.dropping = none) (hc : l.content = .plain)
      (hp : s.isRootProperty l = true) :
      Staying o s l (.writing
        { s with
          inRootBlock := true
          tally := (s.tally.rootProperty o.verbose (String.ofList (trim l.text)) l.number).1 }
        (s.blockStart ++
          ((s.tally.rootProperty o.verbose (String.ofList (trim l.text)) l.number).2.map
            Event.message).toList ++
          [.line .source (indentFix o.indentFix s.depth l.text)]))
  | plain (hd : s.dropping = none) (hc : l.content = .plain) (hp : s.isRootProperty l = false) :
      Staying o s l (.writing s [.line .source (indentFix o.indentFix s.depth l.text)])

section
variable {o : Options} {s : State} {l : Line} {label name : Text}

/-! ## Lines that open a node -/

theorem opening_overlay (hd : s.dropping = none) (hn : isOverlayName name) :
    Opening o s l label name ((s.deeper.openOverlay o l).after s.deeperEnd) := by
  cases hp : s.pending with
  | some t =>
    rw [openOverlay, show s.deeper.pending = some t from hp]
    exact .heading hd hn hp
  | none =>
    rw [openOverlay, show s.deeper.pending = none from hp]
    by_cases hf : o.force = true
    · rw [if_pos hf]
      exact .notice hd hn hp hf
    · rw [if_neg hf]
      exact .stopOverlay hd hn hp (by simpa using hf)

theorem opening_reserved (hd : s.dropping = none) (hr : isReservedName name)
    (hn : isOverlayName name = false) :
    Opening o s l label name ((s.deeper.openReserved o l name).after s.deeperEnd) := by
  rw [openReserved]
  by_cases hf : o.force = true
  · rw [if_pos hf]
    exact .dropNode hd hr hn hf
  · rw [if_neg hf]
    exact .stopReserved hd hr hn (by simpa using hf)

theorem deeperEnd_of_depth_ne (h : s.depth ≠ 1) : s.deeperEnd = [] := if_neg h

theorem opening_openNode (hd : s.dropping = none) :
    Opening o s l label name (s.openNode o l label name) := by
  rw [openNode, openAtDepth]
  by_cases hf : s.depth = 1 ∧ isFragmentName name
  · rw [if_pos (show s.deeper.depth = 2 ∧ _ from ⟨congrArg (· + 1) hf.1, hf.2⟩),
      Outcome.after_quiet]
    exact .fragment hd hf.1 hf.2
  have hf' : ¬ (s.deeper.depth = 2 ∧ isFragmentName name) :=
    fun h => hf ⟨Nat.succ.inj h.1, h.2⟩
  rw [if_neg hf']
  by_cases hn : isOverlayName name
  · rw [if_pos hn]
    exact opening_overlay hd hn
  rw [if_neg hn]
  by_cases hr : isReservedName name
  · rw [if_pos hr]
    exact opening_reserved hd hr (by simpa using hn)
  rw [if_neg hr]
  by_cases h0 : s.depth = 0
  · rw [if_pos (show s.deeper.depth = 1 from congrArg (· + 1) h0), openTop,
      deeperEnd_of_depth_ne (by omega)]
    by_cases hroot : name = rootName
    · rw [if_pos hroot]
      exact .root hd h0 hroot
    · rw [if_neg hroot]
      exact .top hd (by simpa using hr) h0 hroot
  · rw [if_neg (show s.deeper.depth ≠ 1 from fun h => h0 (Nat.succ.inj h))]
    exact .inner hd (by simpa using hr) h0 fun h1 => by simpa [h1] using hf

theorem opening_take (hc : l.content = .nodeOpen label name) :
    Opening o s l label name (s.take o l) := by
  cases hd : s.dropping with
  | some top =>
    rw [State.take, hd, hc]
    exact .inDropped hd
  | none =>
    rw [State.take, hd]
    simp only [handle, hc]
    exact opening_openNode hd

/-! ## Lines that close a node -/

theorem closing_closeOther (hd : s.dropping = none)
    (hs : s.openFragments.head? ≠ some s.depth) : Closing o s l (s.closeOther o l) := by
  rw [closeOther]
  by_cases hr : s.depth = 1 ∧ s.rootElided
  · rw [if_pos hr]
    exact .root hd hs hr.1 hr.2
  rw [if_neg hr]
  by_cases h0 : s.depth = 0
  · rw [if_pos h0]
    exact .stray hd hs h0
  · rw [if_neg h0]
    exact .inner hd hs h0 fun h1 => by simpa [h1] using hr

theorem closing_closeNode (hd : s.dropping = none) : Closing o s l (s.closeNode o l) := by
  rw [closeNode]
  cases hs : s.openFragments with
  | nil => exact closing_closeOther hd (by simp [hs])
  | cons d below =>
    by_cases h : d = s.depth
    · subst h
      simpa using Closing.fragment (o := o) hd hs
    · simpa [h] using closing_closeOther (o := o) hd (by simp [hs, h])

theorem closing_take (hc : l.content = .nodeClose) : Closing o s l (s.take o l) := by
  cases hd : s.dropping with
  | some top =>
    rw [State.take, hd, hc]
    by_cases ht : s.depth = top
    · simpa [drop, ht] using Closing.dropped (o := o) hd ht
    · simpa [drop, ht, ← hd] using Closing.inDropped (o := o) hd ht
  | none =>
    rw [State.take, hd]
    simp only [handle, hc]
    exact closing_closeNode hd

/-! ## Other lines -/

theorem staying_plain (hd : s.dropping = none) (hc : l.content = .plain) :
    Staying o s l (s.plain o l) := by
  rw [State.plain]
  by_cases hp : s.isRootProperty l
  · rw [if_pos hp]
    exact .rootProperty hd hc hp
  · rw [if_neg hp]
    exact .plain hd hc (by simpa using hp)

theorem staying_take (ho : ∀ label name, l.content ≠ .nodeOpen label name)
    (hc : l.content ≠ .nodeClose) : Staying o s l (s.take o l) := by
  cases hd : s.dropping with
  | some top =>
    rw [State.take, hd]
    cases hl : l.content with
    | nodeOpen label name => exact absurd hl (ho label name)
    | nodeClose => exact absurd hl hc
    | target t => exact .inDropped hd
    | plain => exact .inDropped hd
  | none =>
    rw [State.take, hd]
    simp only [handle]
    cases hl : l.content with
    | nodeOpen label name => exact absurd hl (ho label name)
    | nodeClose => exact absurd hl hc
    | target t =>
      cases t with
      | reference v => exact .reference hd hl
      | path v => exact .path hd hl
    | plain => exact staying_plain hd hl

end

/-! ## Every line -/

def lineOf (s : State) (line : Text) : Line :=
  classify s.allowsTarget (s.linesRead + 1 : Nat) line

/-- Where no fragment is open, no target is read. -/
theorem content_ne_target {s : State} (h : s.inFragment = false) (line : Text) (v : Target) :
    (s.lineOf line).content ≠ .target v := by
  intro hc
  have hallows : s.allowsTarget = true := (contentOf_target hc).1
  simp [allowsTarget, h] at hallows

/-- Every line follows a rule, and its braces say of which kind. -/
theorem feed_cases (o : Options) (s : State) (line : Text) :
    ∃ r, s.feed o line = r.after [.trace ((s.count line).traceText (s.lineOf line))] ∧
      ((∃ n, braceOf line = .opens n ∧ Opening o (s.count line) (s.lineOf line) n.label n.name r) ∨
        (braceOf line = .closes ∧ Closing o (s.count line) (s.lineOf line) r) ∨
        (BraceFree line ∧ Staying o (s.count line) (s.lineOf line) r)) := by
  refine ⟨(s.count line).take o (s.lineOf line), rfl, ?_⟩
  by_cases ho : ∃ label name, (s.lineOf line).content = .nodeOpen label name
  · obtain ⟨label, name, ho⟩ := ho
    exact .inl ⟨⟨label, name⟩, braceOf_of_open ho, opening_take ho⟩
  · by_cases hc : (s.lineOf line).content = .nodeClose
    · exact .inr (.inl ⟨braceOf_of_close hc, closing_take hc⟩)
    · have ho' : ∀ label name, (s.lineOf line).content ≠ .nodeOpen label name :=
        fun label name h => ho ⟨label, name, h⟩
      exact .inr (.inr ⟨braceFree_of_content ho' hc, staying_take ho' hc⟩)

section
variable {o : Options} {s : State} {line : Text}

theorem feed_opens {n : OpenNode} (hb : braceOf line = .opens n) :
    ∃ r, s.feed o line = r.after [.trace ((s.count line).traceText (s.lineOf line))] ∧
      Opening o (s.count line) (s.lineOf line) n.label n.name r :=
  ⟨_, rfl, opening_take (content_of_opens hb _ _)⟩

theorem feed_closes (hb : braceOf line = .closes) :
    ∃ r, s.feed o line = r.after [.trace ((s.count line).traceText (s.lineOf line))] ∧
      Closing o (s.count line) (s.lineOf line) r := by
  obtain ⟨r, hr, ⟨n, ho, -⟩ | ⟨-, hrule⟩ | ⟨hf, -⟩⟩ := s.feed_cases o line
  · rw [hb] at ho
    cases ho
  · exact ⟨r, hr, hrule⟩
  · rw [braceOf_of_braceFree hf] at hb
    cases hb

theorem feed_stays (hb : BraceFree line) :
    ∃ r, s.feed o line = r.after [.trace ((s.count line).traceText (s.lineOf line))] ∧
      Staying o (s.count line) (s.lineOf line) r := by
  obtain ⟨r, hr, ⟨n, ho, -⟩ | ⟨hc, -⟩ | ⟨-, hrule⟩⟩ := s.feed_cases o line
  · rw [braceOf_of_braceFree hb] at ho
    cases ho
  · rw [braceOf_of_braceFree hb] at hc
    cases hc
  · exact ⟨r, hr, hrule⟩

end

/-- A node that opens outside dropped ones is opened by the rules of its name. -/
theorem feed_of_opens {o : Options} {s : State} {line : Text} {n : OpenNode}
    (hb : braceOf line = .opens n) (hd : s.dropping = none) :
    s.feed o line = ((s.count line).openNode o (s.lineOf line) n.label n.name).after
      [.trace ((s.count line).traceText (s.lineOf line))] := by
  have hc : (s.lineOf line).content = .nodeOpen n.label n.name := content_of_opens hb _ _
  have htake : (s.count line).take o (s.lineOf line) =
      (s.count line).openNode o (s.lineOf line) n.label n.name := by
    rw [take, show (s.count line).dropping = none from hd]
    simp only [handle, hc]
  rw [← htake]
  rfl

end State
end OverlaySugar
