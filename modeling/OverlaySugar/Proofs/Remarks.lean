import OverlaySugar.Proofs.Force
import OverlaySugar.Proofs.SideBySide

/-!
# What there is to report

A line gives one remark at most, and the lines in front of it tell which. The
messages of a conversion are those of its remarks, in order, and its counts are
the numbers of lines that give a remark of each kind.
-/

set_option autoImplicit false

namespace OverlaySugar
open Text

/-! ## Lines with something to report -/

namespace Site

def isRootProperty (x : Site) : Bool :=
  match x.path with
  | [n] => n.isRoot && decide (BraceFree x.line) && assignsProperty (dropTerminator x.line)
  | _ => false

def setsPath (o : Options) (x : Site) : Bool :=
  match x.target? o with
  | some (.path _) => true
  | _ => false

def opensIllegal (o : Options) (x : Site) : Bool :=
  match braceOf x.line with
  | .opens n => n.isIllegal && !x.path.any o.drops
  | _ => false

end Site

structure Position where
  front : List Text
  line : Text
  deriving DecidableEq, Repr

def positionsFrom (front : List Text) : List Text → List Position
  | [] => []
  | line :: rest => ⟨front, line⟩ :: positionsFrom (front ++ [line]) rest

def positions (lines : List Text) : List Position := positionsFrom [] lines

inductive Remark
  | finding (f : Finding)
  | rootProperty (property : Text)
  deriving DecidableEq, Repr

namespace Remark

def severity : Remark → Severity
  | .finding (.unsupportedPath _ _) | .rootProperty _ => .warning
  | .finding _ => .error

def text (force : Bool) : Remark → String
  | .finding (.illegalNode name) =>
    (Finding.illegalNode name).text ++ if force then ", dropping node" else ""
  | .finding f => f.text
  | .rootProperty property => s!"property '{String.ofList property}' found in root node"

def message? (o : Options) (seen k : Nat) (r : Remark) : Option Message :=
  match r with
  | .rootProperty _ =>
    if o.verbose ≠ 0 ∨ seen = 0 then some ⟨r.severity, s!"line {k}: {r.text o.force}"⟩ else none
  | .finding _ => some ⟨r.severity, s!"line {k}: {r.text o.force}"⟩

def counts : Remark → Counts
  | .finding (.unsupportedPath _ _) => ⟨0, 1, 0⟩
  | .finding _ => ⟨1, 0, 0⟩
  | .rootProperty _ => ⟨0, 0, 1⟩

end Remark

namespace Position

def number (x : Position) : Nat := x.front.length + 1

def site (x : Position) : Site := ⟨pathOf x.front, x.line⟩

def opensUntargeted (o : Options) (x : Position) : Bool :=
  x.site.opensOverlay o && (waiting o x.front).isNone

def remark? (o : Options) (x : Position) : Option Remark :=
  if (pathOf x.front).any o.drops then none else
  match braceOf x.line with
  | .opens n =>
    if n.isIllegal then some (.finding (.illegalNode n.name))
    else if n.isOverlay && (waiting o x.front).isNone then
      some (.finding (.missingTarget (reportedNode o (pathOf x.front))))
    else none
  | .closes => none
  | .neither =>
    match x.site.target? o with
    | some (.path v) => some (.finding (.unsupportedPath v (reportedNode o (pathOf x.front))))
    | some (.reference _) => none
    | none =>
      if x.site.isRootProperty then some (.rootProperty (trim (dropTerminator x.line))) else none

def seen (x : Position) : Nat := (positions x.front).countP (·.site.isRootProperty)

def message? (o : Options) (x : Position) : Option Message :=
  (x.remark? o).bind (Remark.message? o x.seen x.number)

def counts (o : Options) (x : Position) : Counts :=
  (x.remark? o).elim ⟨0, 0, 0⟩ Remark.counts

end Position

theorem positionsFrom_append (front xs ys : List Text) :
    positionsFrom front (xs ++ ys) = positionsFrom front xs ++ positionsFrom (front ++ xs) ys := by
  induction xs generalizing front with
  | nil => simp [positionsFrom]
  | cons x xs ih => simp [positionsFrom, ih]

theorem positions_concat (lines : List Text) (line : Text) :
    positions (lines ++ [line]) = positions lines ++ [⟨lines, line⟩] :=
  positionsFrom_append [] lines [line]

/-! ## One line -/

structure Reports (o : Options) (x : Position) (s : State) (r : Outcome) : Prop where
  messages : r.messages =
    ((x.remark? o).bind (Remark.message? o s.tally.rootProperties x.number)).toList
  grows : Grows o.verbose (x.counts o) s.tally r.state.tally

section
variable {o : Options} {x : Position} {s : State} {l : Line} {r : Outcome} {n : OpenNode}

theorem reports_silent (hx : x.remark? o = none) (hm : r.messages = [])
    (ht : r.state.tally = s.tally) : Reports o x s r := by
  constructor
  · rw [hx, hm]
    rfl
  · rw [Position.counts, hx, ht]
    exact .refl _ _

theorem reports_error {f : Finding} (hx : x.remark? o = some (.finding f))
    (hc : (Remark.finding f).counts = ⟨1, 0, 0⟩) (hs : (Remark.finding f).severity = .error)
    (hm : r.messages = [⟨.error, located ((Remark.finding f).text o.force) x.number⟩])
    (ht : r.state.tally = { s.tally with errors := s.tally.errors + 1 }) : Reports o x s r := by
  constructor
  · have hnumber := located_succ ((Remark.finding f).text o.force) x.front.length
    rw [hx, hm, Option.bind_some, Remark.message?, hs]
    exact congrArg (fun text => [Message.mk .error text]) hnumber
  · rw [Position.counts, hx, Option.elim_some, hc, ht]
    exact grows_error _ _

theorem remark?_of_dropped (h : (pathOf x.front).any o.drops = true) : x.remark? o = none :=
  if_pos h

theorem remark?_of_opens (hb : braceOf x.line = .opens n)
    (hd : (pathOf x.front).any o.drops = false) : x.remark? o =
      if n.isIllegal then some (.finding (.illegalNode n.name))
      else if n.isOverlay && (waiting o x.front).isNone then
        some (.finding (.missingTarget (reportedNode o (pathOf x.front))))
      else none := by
  rw [Position.remark?, if_neg (by simp [hd]), hb]

theorem remark?_of_plainName (hb : braceOf x.line = .opens n)
    (hn : isReservedName n.name = false) : x.remark? o = none := by
  cases hd : (pathOf x.front).any o.drops with
  | true => exact remark?_of_dropped hd
  | false =>
    rw [remark?_of_opens hb hd, OpenNode.isIllegal_of_not_reserved hn,
      OpenNode.isOverlay_of_not_reserved hn]
    rfl

theorem remark?_of_overlay (hb : braceOf x.line = .opens n) (hn : n.isOverlay = true)
    (hd : (pathOf x.front).any o.drops = false) : x.remark? o =
      if (waiting o x.front).isNone then
        some (.finding (.missingTarget (reportedNode o (pathOf x.front))))
      else none := by
  rw [remark?_of_opens hb hd, OpenNode.isIllegal_of_isOverlay hn, hn, Bool.true_and]
  rfl

theorem reports_missing (h : Mirrors o (pathOf x.front) (waiting o x.front) s)
    (hk : l.number = x.number) (hb : braceOf x.line = .opens n) (hd : s.dropping = none)
    (hn : n.isOverlay = true) (hp : s.pending = none)
    (hm : r.messages = [(s.tally.error s.missing.text l.number).2])
    (ht : r.state.tally = (s.tally.error s.missing.text l.number).1) : Reports o x s r := by
  have hwaiting : waiting o x.front = none := h.pending.symm.trans hp
  have hremark := remark?_of_overlay hb hn (h.not_dropping.mp hd)
  rw [hwaiting] at hremark
  rw [missing_eq h, hk] at hm
  exact reports_error hremark rfl rfl hm ht

theorem reports_illegal (h : Mirrors o (pathOf x.front) (waiting o x.front) s)
    (hk : l.number = x.number) (hb : braceOf x.line = .opens n) (hd : s.dropping = none)
    (hr : isReservedName n.name) (hn : isOverlayName n.name = false) {text : String}
    (htext : text = (Remark.finding (.illegalNode n.name)).text o.force)
    (hm : r.messages = [(s.tally.error text l.number).2])
    (ht : r.state.tally = (s.tally.error text l.number).1) : Reports o x s r := by
  have hillegal : n.isIllegal = true := by simp [OpenNode.isIllegal, hr, hn]
  have hremark := remark?_of_opens hb (h.not_dropping.mp hd)
  rw [if_pos hillegal] at hremark
  rw [htext, hk] at hm
  exact reports_error hremark rfl rfl hm ht

theorem reports_opens (h : Mirrors o (pathOf x.front) (waiting o x.front) s)
    (hk : l.number = x.number) (hb : braceOf x.line = .opens n)
    (hr : State.Opening o s l n.label n.name r) : Reports o x s r := by
  cases hr with
  | inDropped hd =>
    exact reports_silent (remark?_of_dropped (h.any_drops_of_dropping hd)) rfl rfl
  | fragment hd h1 hn =>
    have hname := OpenNode.isReservedName_of_isFragment hn
    exact reports_silent (remark?_of_plainName hb hname) (filterMap_deeperEnd rfl s) rfl
  | heading hd hn hp =>
    have hwaiting : waiting o x.front = some _ := h.pending.symm.trans hp
    have hremark := remark?_of_overlay hb hn (h.not_dropping.mp hd)
    rw [hwaiting] at hremark
    exact reports_silent hremark (messages_deeper s _ _) rfl
  | notice hd hn hp hf => exact reports_missing h hk hb hd hn hp (messages_deeper s _ _) rfl
  | stopOverlay hd hn hp hf => exact reports_missing h hk hb hd hn hp (messages_stop s _ _ _) rfl
  | dropNode hd hname hn hf =>
    have htext : (Finding.illegalNode n.name).text ++ ", dropping node" =
        (Remark.finding (.illegalNode n.name)).text o.force := by rw [hf]; rfl
    exact reports_illegal h hk hb hd hname hn htext (messages_deeper s _ _) rfl
  | stopReserved hd hname hn hf =>
    have htext : (Finding.illegalNode n.name).text =
        (Remark.finding (.illegalNode n.name)).text o.force := by
      rw [hf]
      exact String.append_empty.symm
    exact reports_illegal h hk hb hd hname hn htext (messages_stop s _ _ _) rfl
  | root hd h0 hn =>
    have hname : isReservedName n.name = false := by rw [hn]; rfl
    exact reports_silent (remark?_of_plainName hb hname) rfl rfl
  | top hd hname h0 hn => exact reports_silent (remark?_of_plainName hb hname) rfl rfl
  | inner hd hname h0 hn =>
    exact reports_silent (remark?_of_plainName hb hname) (messages_deeper s _ _) rfl

theorem reports_closes (hb : braceOf x.line = .closes) (hr : State.Closing o s l r) :
    Reports o x s r := by
  have hx : x.remark? o = none := by simp [Position.remark?, hb]
  cases hr with
  | dropped hd ht => exact reports_silent hx rfl rfl
  | inDropped hd ht => exact reports_silent hx rfl rfl
  | fragment hd hs => exact reports_silent hx (filterMap_unusedTarget (fun _ => rfl) s) rfl
  | root hd hs h1 hr => exact reports_silent hx (filterMap_blockEnd rfl s) rfl
  | stray hd hs h0 => exact reports_silent hx rfl rfl
  | inner hd hs h0 hr => exact reports_silent hx rfl rfl

/-- The converter finds a root property where the path says that one stands. -/
theorem Mirrors.isRootProperty_eq {p : List OpenNode} {t : Option Target} {line : Text}
    (h : Mirrors o p t s) (hl : l.text = dropTerminator line) (hb : BraceFree line) :
    s.isRootProperty l = Site.isRootProperty ⟨p, line⟩ := by
  rw [State.isRootProperty, h.depth, h.rootElided, h.inFragment, Line.isProperty, hl]
  obtain _ | ⟨m, _ | ⟨n, p⟩⟩ := p
  · simp [Site.isRootProperty]
  · simp [Site.isRootProperty, fragmentOf, hb]
  · simp [Site.isRootProperty]

theorem remark?_of_braceFree (hb : BraceFree x.line)
    (hd : (pathOf x.front).any o.drops = false) : x.remark? o =
      match x.site.target? o with
      | some (.path v) => some (.finding (.unsupportedPath v (reportedNode o (pathOf x.front))))
      | some (.reference _) => none
      | none =>
        if x.site.isRootProperty then some (.rootProperty (trim (dropTerminator x.line)))
        else none := by
  rw [Position.remark?, if_neg (by simp [hd]), braceOf_of_braceFree hb]

theorem fragmentName_of_target (h : Mirrors o (pathOf x.front) (waiting o x.front) s) {v : Target}
    (hv : x.site.target? o = some v) : s.fragmentName = reportedNode o (pathOf x.front) := by
  obtain ⟨n, hn⟩ := Option.isSome_iff_exists.mp (Site.of_target? hv).1
  have hn : fragmentOf o (pathOf x.front) = some n := hn
  rw [h.fragmentName, reportedNode, hn]
  rfl

theorem reports_path (h : Mirrors o (pathOf x.front) (waiting o x.front) s) {v : Text}
    (hb : BraceFree x.line) (hd : s.dropping = none) (hv : x.site.target? o = some (.path v))
    (hm : r.messages = [(s.tally.warning (Finding.unsupportedPath v s.fragmentName).text
      (x.number : Nat)).2])
    (ht : r.state.tally = { s.tally with warnings := s.tally.warnings + 1 }) :
    Reports o x s r := by
  have hremark := remark?_of_braceFree hb (h.not_dropping.mp hd)
  rw [hv] at hremark
  constructor
  · rw [hremark, hm, fragmentName_of_target h hv]
    exact congrArg (fun text => [Message.mk .warning text]) (located_succ _ x.front.length)
  · rw [Position.counts, hremark, ht]
    exact grows_path _ _

theorem reports_rootProperty (h : Mirrors o (pathOf x.front) (waiting o x.front) s)
    (hb : BraceFree x.line) (hd : s.dropping = none) (hv : x.site.target? o = none)
    (hx : x.site.isRootProperty = true) {property : String}
    (hproperty : property = String.ofList (trim (dropTerminator x.line)))
    (hm : r.messages = (s.tally.rootProperty o.verbose property (x.number : Nat)).2.toList)
    (ht : r.state.tally = (s.tally.rootProperty o.verbose property (x.number : Nat)).1) :
    Reports o x s r := by
  have hremark := remark?_of_braceFree hb (h.not_dropping.mp hd)
  rw [hv] at hremark
  simp only [hx, if_true] at hremark
  constructor
  · rw [hremark, hm, hproperty, Option.bind_some, Tally.rootProperty, Remark.message?]
    simp only [Nat.add_eq_right]
    by_cases hw : o.verbose ≠ 0 ∨ s.tally.rootProperties = 0
    · rw [if_pos hw, if_pos hw]
      exact congrArg (fun text => [Message.mk .warning text]) (located_succ _ x.front.length)
    · rw [if_neg hw, if_neg hw]
  · rw [Position.counts, hremark, ht]
    exact grows_rootProperty _ _ _ _

theorem reports_stays (h : Mirrors o (pathOf x.front) (waiting o x.front) s)
    (hb : BraceFree x.line)
    (hr : State.Staying o s (classify s.allowsTarget (x.number : Nat) x.line) r) :
    Reports o x s r := by
  have htarget : x.site.target? o = _ := h.target?_eq hb (x.number : Nat)
  have hroot : s.isRootProperty (classify s.allowsTarget (x.number : Nat) x.line) =
      x.site.isRootProperty := h.isRootProperty_eq rfl hb
  cases hr with
  | inDropped hd =>
    exact reports_silent (remark?_of_dropped (h.any_drops_of_dropping hd)) rfl rfl
  | reference hd hc =>
    rw [hc] at htarget
    have hremark := remark?_of_braceFree hb (h.not_dropping.mp hd)
    rw [htarget] at hremark
    exact reports_silent hremark rfl rfl
  | path hd hc =>
    rw [hc] at htarget
    exact reports_path h hb hd htarget rfl rfl
  | rootProperty hd hc hp =>
    rw [hc] at htarget
    exact reports_rootProperty h hb hd htarget (hroot.symm.trans hp) rfl
      (messages_property s _ _ _ _) rfl
  | plain hd hc hp =>
    rw [hc] at htarget
    have hremark := remark?_of_braceFree hb (h.not_dropping.mp hd)
    rw [htarget, ← hroot, hp] at hremark
    exact reports_silent hremark rfl rfl

/-- Lines are numbered by the lines that were read. -/
theorem lineOf_position (hlen : s.linesRead = x.front.length) :
    s.lineOf x.line = classify s.allowsTarget (x.number : Nat) x.line :=
  congrArg (fun k : Nat => classify s.allowsTarget (k + 1 : Nat) x.line) hlen

theorem reports_feed (h : Mirrors o (pathOf x.front) (waiting o x.front) s)
    (hlen : s.linesRead = x.front.length) : Reports o x s (s.feed o x.line) := by
  have hc := h.count x.line
  have hline := lineOf_position hlen
  have hk : (s.lineOf x.line).number = x.number := by rw [hline]; rfl
  obtain ⟨r, hr, hrule⟩ := s.feed_cases o x.line
  have hreports : Reports o x (s.count x.line) r := by
    rcases hrule with ⟨n, hb, hrule⟩ | ⟨hb, hrule⟩ | ⟨hb, hrule⟩
    · exact reports_opens hc hk hb hrule
    · exact reports_closes hb hrule
    · rw [hline] at hrule
      exact reports_stays hc hb hrule
  rw [hr]
  exact ⟨hreports.messages, hreports.grows⟩

end

/-! ## Kinds of remarks -/

section
variable {o : Options} {x : Position}

theorem isRootProperty_of_brace (h : braceOf x.line ≠ .neither) :
    x.site.isRootProperty = false := by
  have hb : ¬ BraceFree x.line := mt braceOf_of_braceFree h
  unfold Site.isRootProperty
  split
  · simp [Position.site, hb]
  · rfl

theorem setsPath_of_brace (h : braceOf x.line ≠ .neither) : x.site.setsPath o = false := by
  have ht : x.site.target? o = none := Site.target?_of_brace h
  rw [Site.setsPath, ht]

/-- A dropped node has no root properties, for it is no root. -/
theorem isRootProperty_of_dropped (h : (pathOf x.front).any o.drops = true) :
    x.site.isRootProperty = false := by
  unfold Site.isRootProperty
  split
  · next n hp =>
    have hp : pathOf x.front = [n] := hp
    rw [hp] at h
    have hn : o.drops n = true := by simpa using h
    simp [OpenNode.isRoot_of_reserved (Options.reserved_of_drops hn)]
  · rfl

theorem target?_of_dropped (h : (pathOf x.front).any o.drops = true) :
    x.site.target? o = none := by
  by_contra ht
  obtain ⟨v, hv⟩ := Option.ne_none_iff_exists'.mp ht
  obtain ⟨hf, hl, -⟩ := Site.of_target? hv
  have hnone : (pathOf x.front).any o.drops = false := Mirrors.any_drops_of_fragment hf hl
  rw [hnone] at h
  cases h

theorem isRootProperty_of_target {v : Target} (h : x.site.target? o = some v) :
    x.site.isRootProperty = false := by
  have hl : x.site.path.length = 2 := (Site.of_target? h).2.1
  unfold Site.isRootProperty
  split
  · next n hp =>
    rw [hp] at hl
    cases hl
  · rfl

/-- A line counts for each kind of remark just when it stands where the remark is due. -/
theorem counts_eq (o : Options) (x : Position) : x.counts o =
    ⟨(x.site.opensIllegal o).toNat + (x.opensUntargeted o).toNat, (x.site.setsPath o).toNat,
      x.site.isRootProperty.toNat⟩ := by
  cases hd : (pathOf x.front).any o.drops with
  | true =>
    have hillegal : x.site.opensIllegal o = false := by
      unfold Site.opensIllegal
      split <;> simp [Position.site, hd]
    have hoverlay : x.site.opensOverlay o = false := by
      unfold Site.opensOverlay
      split <;> simp [Position.site, hd]
    rw [Position.counts, remark?_of_dropped hd, hillegal, Position.opensUntargeted, hoverlay,
      Site.setsPath, target?_of_dropped hd, isRootProperty_of_dropped hd]
    rfl
  | false =>
    cases hb : braceOf x.line with
    | opens n =>
      have hbrace : braceOf x.line ≠ .neither := by simp [hb]
      have hillegal : x.site.opensIllegal o = n.isIllegal := by
        simp [Site.opensIllegal, Position.site, hb, hd]
      have hoverlay : x.site.opensOverlay o = n.isOverlay := by
        simp [Site.opensOverlay, Position.site, hb, hd]
      rw [Position.counts, remark?_of_opens hb hd, setsPath_of_brace hbrace,
        isRootProperty_of_brace hbrace, Position.opensUntargeted, hillegal, hoverlay]
      cases hn : n.isIllegal with
      | true =>
        have hno : n.isOverlay = false := by
          simp only [OpenNode.isIllegal, Bool.and_eq_true, Bool.not_eq_true'] at hn
          exact hn.2
        rw [hno]
        rfl
      | false => cases n.isOverlay && (waiting o x.front).isNone <;> rfl
    | closes =>
      have hbrace : braceOf x.line ≠ .neither := by simp [hb]
      have hremark : x.remark? o = none := by simp [Position.remark?, hb]
      rw [Position.counts, hremark, setsPath_of_brace hbrace, isRootProperty_of_brace hbrace]
      simp [Site.opensIllegal, Position.opensUntargeted, Site.opensOverlay, Position.site, hb]
    | neither =>
      have hillegal : x.site.opensIllegal o = false := by
        simp [Site.opensIllegal, Position.site, hb]
      have hoverlay : x.site.opensOverlay o = false := by
        simp [Site.opensOverlay, Position.site, hb]
      rw [Position.counts, remark?_of_braceFree (braceFree_of_neither hb) hd, hillegal,
        Position.opensUntargeted, hoverlay, Site.setsPath]
      cases ht : x.site.target? o with
      | some v =>
        rw [isRootProperty_of_target ht]
        cases v <;> rfl
      | none => cases x.site.isRootProperty <;> rfl

end

/-! ## Runs -/

def counted (o : Options) (lines : List Text) : Counts where
  errors := (positions lines).countP (·.site.opensIllegal o) +
    (positions lines).countP (·.opensUntargeted o)
  paths := (positions lines).countP (·.site.setsPath o)
  properties := (positions lines).countP (·.site.isRootProperty)

theorem countP_concat {α : Type} (f : α → Bool) (xs : List α) (x : α) :
    (xs ++ [x]).countP f = xs.countP f + (f x).toNat := by
  rw [List.countP_append, List.countP_singleton]
  cases f x <;> rfl

theorem counted_concat (o : Options) (lines : List Text) (line : Text) :
    counted o (lines ++ [line]) = counted o lines + Position.counts o ⟨lines, line⟩ := by
  rw [counted, positions_concat, counts_eq]
  simp only [countP_concat]
  change Counts.mk _ _ _ = Counts.mk _ _ _
  simp only [counted, Counts.mk.injEq, and_true]
  omega

structure Reported (o : Options) (lines : List Text) (r : Outcome) : Prop where
  grows : Grows o.verbose (counted o lines) .zero r.state.tally
  messages : r.messages = (positions lines).filterMap (Position.message? o)

section
variable {o : Options} {lines : List Text}

theorem Reported.next (hr : Reported o lines (run o lines)) (h : (run o lines).fatal = none)
    (line : Text) : Reported o (lines ++ [line])
      ((readNext o lines line).after (run o lines).events) := by
  have hline : Reports o ⟨lines, line⟩ (run o lines).state (readNext o lines line) :=
    reports_feed (mirrors_run h) (linesRead_run h)
  have hseen : (run o lines).state.tally.rootProperties = Position.seen ⟨lines, line⟩ :=
    hr.grows.from_zero.2.1
  constructor
  · rw [counted_concat]
    exact hr.grows.trans hline.grows
  · have hm := hline.messages
    rw [hseen] at hm
    rw [Outcome.messages_after, positions_concat, List.filterMap_append, ← hr.messages, hm]
    have hone (y : Position) : [y].filterMap (Position.message? o) = (y.message? o).toList := by
      cases hy : y.message? o <;> simp [hy]
    rw [hone]
    rfl

/-- A run that is stopped is that of the lines in front of the one that stops it and of that line,
which opens a node and has the number of the error. -/
theorem exists_stop_line {f : Fatal} (hf : (run o lines).fatal = some f) :
    ∃ pre line rest n, lines = pre ++ line :: rest ∧ f.line = (pre.length + 1 : Nat) ∧
      braceOf line = .opens n ∧ (run o pre).fatal = none ∧
      run o lines = (readNext o pre line).after (run o pre).events ∧
      (o.force = false → (run o lines).state.tally.errors = 1) := by
  have hne : (run o lines).fatal ≠ none := by simp [hf]
  obtain ⟨pre, line, rest, rfl, hpre, hstop⟩ := exists_stop hne
  have hm := mirrors_run hpre
  obtain ⟨status, finding, ho⟩ := offends_of_fatal hm hstop
  obtain ⟨n, hb⟩ : ∃ n, braceOf line = .opens n := by cases ho <;> exact ⟨_, ‹_›⟩
  have hforce : o.force = false := by
    by_contra hforce
    exact hstop (fatal_of_forced (by simpa using hforce) _ line)
  have hstops : Stops (run o pre).state (readNext o pre line) status finding :=
    stops_of_offends hforce hm ho
  have hr := run_stop hpre hstops.fatal rest
  rw [hr, Outcome.fatal_after, hstops.fatal, linesRead_run hpre] at hf
  refine ⟨pre, line, rest, n, rfl, ?_, hb, hpre, hr, fun _ => ?_⟩
  · rw [← Option.some.inj hf]
  · rw [hr]
    exact errors_of_stops hforce hpre hstops

end

/-! ## Conversions -/

def linesBefore (lines : List Text) : Option Fatal → List Text
  | some f => lines.take (f.line.toNat - 1)
  | none => lines

def linesThrough (lines : List Text) : Option Fatal → List Text
  | some f => lines.take f.line.toNat
  | none => lines

theorem linesThrough_prefix (lines : List Text) (f : Option Fatal) :
    linesThrough lines f <+: lines := by
  cases f with
  | none => exact List.prefix_rfl
  | some f => exact List.take_prefix _ _

/-- What holds at the start and is kept by every line that is read, fatal or not, holds of the lines
that are read and the run over all lines. -/
theorem through_induction {o : Options} {P : List Text → Outcome → Prop}
    (start : P [] (.quiet .initial))
    (step : ∀ lines line, (run o lines).fatal = none → P lines (run o lines) →
      P (lines ++ [line]) ((readNext o lines line).after (run o lines).events))
    (lines : List Text) : P (linesThrough lines (run o lines).fatal) (run o lines) := by
  have hrun {lines : List Text} (h : (run o lines).fatal = none) : P lines (run o lines) :=
    run_induction start (fun lines line hx ih _ => step lines line hx ih) h
  cases hf : (run o lines).fatal with
  | none => exact hrun hf
  | some f =>
    obtain ⟨pre, line, rest, n, rfl, hline, -, hpre, hr, -⟩ := exists_stop_line hf
    have htake : linesThrough (pre ++ line :: rest) (some f) = pre ++ [line] := by
      simp [linesThrough, hline, List.take_append]
    rw [htake, hr]
    exact step pre line hpre (hrun hpre)

section
variable (o : Options) (lines : List Text)

theorem reported_through :
    Reported o (linesThrough lines (run o lines).fatal) (run o lines) :=
  through_induction ⟨.refl _ _, rfl⟩ (fun _ line h hr => hr.next h line) lines

theorem messages_convert : (convert o lines).messages = (run o lines).messages := by
  cases hr : (run o lines).fatal with
  | none =>
    rw [Conversion.messages, outcome_of_run hr, Outcome.messages_after, messages_finish,
      List.append_nil]
    rfl
  | some f =>
    rw [convert_of_stop hr]
    rfl

theorem messages_through : (convert o lines).messages =
    (positions (linesThrough lines (convert o lines).fatal)).filterMap (Position.message? o) := by
  rw [messages_convert, fatal_convert, (reported_through o lines).messages]

/-- A line that stops a conversion opens a node, so neither kind of warning is due to it. -/
theorem counted_before :
    let before := counted o (linesBefore lines (run o lines).fatal)
    let through := counted o (linesThrough lines (run o lines).fatal)
    through.paths = before.paths ∧ through.properties = before.properties := by
  cases hf : (run o lines).fatal with
  | none => exact ⟨rfl, rfl⟩
  | some f =>
    obtain ⟨pre, line, rest, n, rfl, hline, hb, -⟩ := exists_stop_line hf
    have hbefore : linesBefore (pre ++ line :: rest) (some f) = pre := by
      simp [linesBefore, hline]
    have hthrough : linesThrough (pre ++ line :: rest) (some f) = pre ++ [line] := by
      simp [linesThrough, hline, List.take_append]
    have hbrace : braceOf (Position.mk pre line).line ≠ .neither := by simp [hb]
    rw [hbefore, hthrough]
    simp only [counted, positions_concat, countP_concat, setsPath_of_brace hbrace,
      isRootProperty_of_brace hbrace]
    exact ⟨rfl, rfl⟩

theorem warnings_convert :
    let c := convert o lines
    let before := counted o (linesBefore lines c.fatal)
    c.tally.rootProperties = before.properties ∧
      c.tally.warnings = before.paths + rootWarnings o.verbose c.tally.rootProperties := by
  obtain ⟨hpaths, hproperties⟩ := counted_before o lines
  obtain ⟨-, hp, hw⟩ := (reported_through o lines).grows.from_zero
  simp only [fatal_convert, tally_convert]
  rw [← hpaths, ← hproperties]
  exact ⟨hp, hw⟩

theorem errors_convert : (convert o lines).tally.errors =
    if o.force then (counted o lines).errors
    else if (convert o lines).fatal.isSome then 1 else 0 := by
  have hcount := (reported_through o lines).grows.from_zero.1
  rw [tally_convert, fatal_convert]
  cases hforce : o.force with
  | true =>
    rw [run_of_forced hforce] at hcount
    exact hcount
  | false =>
    cases hf : (run o lines).fatal with
    | none => exact errors_run_strict hforce hf
    | some f =>
      obtain ⟨-, -, -, -, -, -, -, -, -, hone⟩ := exists_stop_line hf
      exact hone hforce

end

/-! ## Messages and their lines -/

def Position.Gives (o : Options) (x : Position) (m : Message) : Prop :=
  ∃ r, x.remark? o = some r ∧ m = ⟨r.severity, s!"line {x.number}: {r.text o.force}"⟩

theorem Position.gives_of_message? {o : Options} {x : Position} {m : Message}
    (h : x.message? o = some m) : x.Gives o m := by
  obtain ⟨r, hr, hm⟩ := Option.bind_eq_some_iff.mp h
  refine ⟨r, hr, ?_⟩
  cases r with
  | finding f => exact (Option.some.inj hm).symm
  | rootProperty property =>
    simp only [Remark.message?] at hm
    split at hm
    · exact (Option.some.inj hm).symm
    · cases hm

theorem mem_positions {lines : List Text} {x : Position} (h : x ∈ positions lines) :
    ∃ rest, lines = x.front ++ x.line :: rest := by
  induction lines using List.reverseRecOn with
  | nil => cases h
  | append_singleton lines line ih =>
    rw [positions_concat] at h
    rcases List.mem_append.mp h with h | h
    · obtain ⟨rest, rfl⟩ := ih h
      exact ⟨rest ++ [line], by simp⟩
    · rw [List.mem_singleton.mp h]
      exact ⟨[], rfl⟩

theorem number_le_length {lines : List Text} {x : Position} (h : x ∈ positions lines) :
    x.number ≤ lines.length := by
  obtain ⟨rest, rfl⟩ := mem_positions h
  rw [Position.number, List.length_append, List.length_cons]
  omega

theorem pairwise_positions (lines : List Text) :
    (positions lines).Pairwise (·.number < ·.number) := by
  induction lines using List.reverseRecOn with
  | nil => exact .nil
  | append_singleton lines line ih =>
    rw [positions_concat, List.pairwise_append]
    refine ⟨ih, List.pairwise_singleton _ _, fun x hx y hy => ?_⟩
    rw [List.mem_singleton.mp hy]
    exact Nat.lt_succ_of_le (number_le_length hx)

theorem forall₂_filterMap {α β : Type} (f : α → Option β) (xs : List α) :
    List.Forall₂ (fun x y => x ∈ xs ∧ f x = some y) (xs.filter fun x => (f x).isSome)
      (xs.filterMap f) := by
  induction xs with
  | nil => exact .nil
  | cons x xs ih =>
    have ih := ih.imp fun y z hy => And.imp_left (List.mem_cons_of_mem x) hy
    cases hx : f x with
    | none => simpa [hx] using ih
    | some y => simpa [hx] using ih

theorem reported_convert (o : Options) (lines : List Text) (v : Severity) :
    (convert o lines).tally.reported v =
      (convert o lines).messages.countP (·.severity == v) := by
  rw [tally_convert, messages_convert]
  exact reported_run o lines v

/-- The messages stand in the order of the lines that give them, one for a line at most. -/
theorem exists_given (o : Options) (lines : List Text) :
    ∃ xs : List Position, xs.Pairwise (·.number < ·.number) ∧
      List.Forall₂ (fun x m => (∃ rest, lines = x.front ++ x.line :: rest) ∧ x.Gives o m) xs
        (convert o lines).messages := by
  obtain ⟨rest, hrest⟩ := linesThrough_prefix lines (convert o lines).fatal
  rw [messages_through]
  refine ⟨_, (pairwise_positions _).filter _, (forall₂_filterMap _ _).imp ?_⟩
  rintro x m ⟨hx, hm⟩
  obtain ⟨behind, hbehind⟩ := mem_positions hx
  refine ⟨⟨behind ++ rest, ?_⟩, Position.gives_of_message? hm⟩
  conv_lhs => rw [← hrest, hbehind, List.append_assoc, List.cons_append]

/-- The counts of a conversion are those of its messages and of its lines: a root property, an
unsupported path, an illegal node and an overlay node without a target count where they stand, and
nothing else does. Each message tells the number and the remark of one line, in the order of the
lines, and the exit status is that of a fatal line or follows from the counts. -/
theorem diagnostic_counts (o : Options) (lines : List Text) :
    let c := convert o lines
    let before := positions (linesBefore lines c.fatal)
    c.tally.errors = c.messages.countP (·.severity == .error) ∧
      c.tally.warnings = c.messages.countP (·.severity == .warning) ∧
      c.tally.rootProperties = before.countP (·.site.isRootProperty) ∧
      c.tally.warnings = before.countP (·.site.setsPath o) +
        (if o.verbose ≠ 0 then c.tally.rootProperties else min 1 c.tally.rootProperties) ∧
      c.tally.errors =
        (if o.force then (positions lines).countP (·.site.opensIllegal o) +
            (positions lines).countP (·.opensUntargeted o)
          else if c.fatal.isSome then 1 else 0) ∧
      (∃ xs : List Position, xs.Pairwise (·.number < ·.number) ∧
        List.Forall₂ (fun x m => (∃ rest, lines = x.front ++ x.line :: rest) ∧ x.Gives o m) xs
          c.messages) ∧
      c.status = match c.fatal with
        | some f => f.status
        | none => if 0 < c.tally.errors then .forcedErrors
          else if 0 < c.tally.warnings then .warnings else .ok := by
  intro c before
  obtain ⟨hproperties, hwarnings⟩ := warnings_convert o lines
  refine ⟨reported_convert o lines .error, reported_convert o lines .warning, hproperties, ?_,
    errors_convert o lines, exists_given o lines, ?_⟩
  · rw [hwarnings, rootWarnings, ite_not, Nat.min_comm]
    rfl
  · rw [status_convert]
    simp only [Tally.exitStatus, Nat.pos_iff_ne_zero]
    rfl

end OverlaySugar
