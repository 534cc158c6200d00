import Mathlib.Data.List.Infix
import OverlaySugar.Proofs.Reachable
import OverlaySugar.Proofs.Run

/-!
# Targets of overlay nodes

Which target an overlay node is written under is said here by the lines in
front of it: the last one that sets a target directly in the fragment node
that is still open, unless an overlay node behind it took the target. The
target in wait is this one, and lines at other places have no part in it.
-/

set_option autoImplicit false

namespace OverlaySugar
open Text

/-! ## The last target of a fragment -/

def KeepsOpen (p : List OpenNode) (lines : List Text) : Prop :=
  ∀ part, part <+: lines → 2 ≤ (pathFrom p part).length

instance (p : List OpenNode) (lines : List Text) : Decidable (KeepsOpen p lines) :=
  decidable_of_iff (∀ part ∈ lines.inits, 2 ≤ (pathFrom p part).length) (by simp [KeepsOpen])

def InOpenFragment (o : Options) (p : List OpenNode) (behind : List Text) : Prop :=
  (fragmentOf o p).isSome ∧ p.length = 2 ∧ KeepsOpen p behind

/-- Of the lines, `line` is the last that sets a target directly in the fragment node that is open
after them, and the target is `v`. -/
structure LastTarget (o : Options) (lines pre : List Text) (line : Text) (behind : List Text)
    (v : Target) : Prop where
  split : lines = pre ++ line :: behind
  sets : Site.target? o ⟨pathOf pre, line⟩ = some v
  stillOpen : KeepsOpen (pathOf pre) behind
  last : ∀ x ∈ sitesFrom (pathOf pre) behind, x.target? o = none

def Untaken (o : Options) (p : List OpenNode) (lines : List Text) : Prop :=
  ∀ x ∈ sitesFrom p lines, x.opensOverlay o = false

def Available (o : Options) (lines : List Text) (v : Target) : Prop :=
  ∃ pre line behind, LastTarget o lines pre line behind v ∧ Untaken o (pathOf pre) behind

theorem pathFrom_concat (p : List OpenNode) (lines : List Text) (line : Text) :
    pathFrom p (lines ++ [line]) = descend (pathFrom p lines) line := by
  simp [pathFrom]

theorem sitesFrom_concat (p : List OpenNode) (lines : List Text) (line : Text) :
    sitesFrom p (lines ++ [line]) = sitesFrom p lines ++ [⟨pathFrom p lines, line⟩] :=
  sitesFrom_append p lines [line]

theorem keepsOpen_cons (p : List OpenNode) (line : Text) (rest : List Text) :
    KeepsOpen p (line :: rest) ↔ 2 ≤ p.length ∧ KeepsOpen (descend p line) rest := by
  constructor
  · intro h
    refine ⟨h [] List.nil_prefix, fun part hpart => ?_⟩
    exact h (line :: part) (List.cons_prefix_cons.mpr ⟨rfl, hpart⟩)
  · rintro ⟨hp, h⟩ part hpart
    rcases List.prefix_cons_iff.mp hpart with rfl | ⟨part, rfl, hrest⟩
    · exact hp
    · exact h part hrest

theorem keepsOpen_concat (p : List OpenNode) (lines : List Text) (line : Text) :
    KeepsOpen p (lines ++ [line]) ↔
      KeepsOpen p lines ∧ 2 ≤ (descend (pathFrom p lines) line).length := by
  constructor
  · intro h
    refine ⟨fun part hpart => h part (hpart.trans (List.prefix_append _ _)), ?_⟩
    rw [← pathFrom_concat]
    exact h _ List.prefix_rfl
  · rintro ⟨h, hline⟩ part hpart
    rcases List.prefix_concat_iff.mp hpart with rfl | hpart
    · rwa [pathFrom_concat]
    · exact h part hpart

namespace Site

/-- A target is set directly in a fragment node, on a line without braces. -/
theorem of_target? {o : Options} {x : Site} {v : Target} (h : x.target? o = some v) :
    (fragmentOf o x.path).isSome ∧ x.path.length = 2 ∧ braceOf x.line = .neither := by
  have hb : braceOf x.line = .neither := by
    by_contra hb
    rw [target?_of_brace hb] at h
    cases h
  unfold target? at h
  split at h
  · next hx => exact ⟨hx.1, hx.2, hb⟩
  · cases h

/-- A line that bounds no node of the first two levels leaves the second node open. -/
theorem two_le_descend {x : Site} (hp : 2 ≤ x.path.length) :
    2 ≤ (descend x.path x.line).length ↔ x.bounds = false := by
  unfold bounds descend nodesOf
  cases braceOf x.line with
  | opens n => simp; omega
  | closes => simp; omega
  | neither => simpa using hp

end Site

section
variable {o : Options} {lines pre behind : List Text} {line : Text} {v : Target}

theorem LastTarget.path (h : LastTarget o lines pre line behind v) :
    pathOf lines = pathFrom (pathOf pre) behind := by
  have hline : descend (pathOf pre) line = pathOf pre := by
    rw [descend, (Site.of_target? h.sets).2.2]
  rw [h.split, pathOf_append]
  change pathFrom (descend (pathOf pre) line) behind = _
  rw [hline]

theorem LastTarget.here (h : Site.target? o ⟨pathOf lines, line⟩ = some v) :
    LastTarget o (lines ++ [line]) lines line [] v where
  split := rfl
  sets := h
  stillOpen := by
    intro part hpart
    rw [List.prefix_nil.mp hpart]
    exact (Site.of_target? h).2.1.ge
  last := by simp [sitesFrom]

/-- The last target stays the last as long as no other is set and its fragment is not closed. -/
theorem LastTarget.concat_iff {x : Text} :
    LastTarget o (lines ++ [x]) pre line (behind ++ [x]) v ↔
      LastTarget o lines pre line behind v ∧ Site.target? o ⟨pathOf lines, x⟩ = none ∧
        Site.bounds ⟨pathOf lines, x⟩ = false := by
  have hsplit : lines ++ [x] = pre ++ line :: (behind ++ [x]) ↔ lines = pre ++ line :: behind := by
    rw [← List.cons_append, ← List.append_assoc, List.append_left_inj]
  constructor
  · rintro ⟨hs, hset, hopen, hlast⟩
    rw [keepsOpen_concat] at hopen
    rw [sitesFrom_concat] at hlast
    have h : LastTarget o lines pre line behind v :=
      ⟨hsplit.mp hs, hset, hopen.1, fun y hy => hlast y (List.mem_append_left _ hy)⟩
    have hp : 2 ≤ (pathOf lines).length := by
      rw [h.path]
      exact hopen.1 behind List.prefix_rfl
    rw [← h.path] at hopen hlast
    exact ⟨h, hlast _ (by simp), (Site.two_le_descend hp).mp hopen.2⟩
  · rintro ⟨h, hnone, hbounds⟩
    have hp : 2 ≤ (pathOf lines).length := by
      rw [h.path]
      exact h.stillOpen behind List.prefix_rfl
    refine ⟨hsplit.mpr h.split, h.sets, ?_, ?_⟩
    · rw [keepsOpen_concat, ← h.path]
      exact ⟨h.stillOpen, (Site.two_le_descend (x := ⟨pathOf lines, x⟩) hp).mpr hbounds⟩
    · rw [sitesFrom_concat, ← h.path]
      intro y hy
      rcases List.mem_append.mp hy with hy | hy
      · exact h.last y hy
      · rw [List.mem_singleton.mp hy]
        exact hnone

theorem untaken_concat (p : List OpenNode) (x : Text) :
    Untaken o p (lines ++ [x]) ↔
      Untaken o p lines ∧ Site.opensOverlay o ⟨pathFrom p lines, x⟩ = false := by
  simp only [Untaken, sitesFrom_concat, List.mem_append, List.mem_singleton, or_imp,
    forall_and, forall_eq]

/-- One more line sets the target anew, or leaves it as it is. -/
theorem available_concat :
    Available o (lines ++ [line]) v ↔
      Site.target? o ⟨pathOf lines, line⟩ = some v ∨
        Site.target? o ⟨pathOf lines, line⟩ = none ∧
          (Site.opensOverlay o ⟨pathOf lines, line⟩ || Site.bounds ⟨pathOf lines, line⟩) = false ∧
          Available o lines v := by
  constructor
  · rintro ⟨pre, l, behind, hlast, huntaken⟩
    obtain rfl | ⟨behind, x, rfl⟩ := behind.eq_nil_or_concat
    · obtain ⟨rfl, hl⟩ := List.append_inj' hlast.split rfl
      cases hl
      exact .inl hlast.sets
    · rw [List.concat_eq_append] at hlast huntaken
      have hsplit : lines ++ [line] = (pre ++ l :: behind) ++ [x] := by
        rw [hlast.split, List.append_assoc, List.cons_append]
      cases (List.append_inj' hsplit rfl).2
      obtain ⟨hlast, hnone, hbounds⟩ := LastTarget.concat_iff.mp hlast
      obtain ⟨huntaken, hoverlay⟩ := (untaken_concat _ _).mp huntaken
      rw [← hlast.path] at hoverlay
      exact .inr ⟨hnone, by simp [hoverlay, hbounds], pre, l, behind, hlast, huntaken⟩
  · rintro (hset | ⟨hnone, hkeep, pre, l, behind, hlast, huntaken⟩)
    · exact ⟨lines, line, [], LastTarget.here hset, by simp [Untaken, sitesFrom]⟩
    · obtain ⟨hoverlay, hbounds⟩ := Bool.or_eq_false_iff.mp hkeep
      rw [hlast.path] at hoverlay
      exact ⟨pre, l, behind ++ [line], LastTarget.concat_iff.mpr ⟨hlast, hnone, hbounds⟩,
        (untaken_concat _ _).mpr ⟨huntaken, hoverlay⟩⟩

end

/-- The target in wait is the one that the lines leave. -/
theorem waiting_eq_some_iff {o : Options} {lines : List Text} {v : Target} :
    waiting o lines = some v ↔ Available o lines v := by
  induction lines using List.reverseRecOn with
  | nil =>
    constructor
    · intro h
      cases h
    · rintro ⟨pre, line, behind, hlast, -⟩
      have := hlast.split
      simp at this
  | append_singleton lines line ih =>
    rw [waiting_concat, Site.passOn, available_concat, Option.or_eq_some_iff, ← ih]
    refine or_congr_right (and_congr_right fun _ => ?_)
    cases Site.opensOverlay o ⟨pathOf lines, line⟩ || Site.bounds ⟨pathOf lines, line⟩ <;> simp

/-! ## Lines that set no target for the open fragment -/

section
variable {o : Options} {pre behind : List Text} {x x' : Text}

/-- Once its fragment is closed, the target that was in wait makes no difference. -/
theorem waiting_forgotten {p : List OpenNode} (hp : 2 ≤ p.length) (h : ¬ KeepsOpen p behind)
    (t u : Option Target) :
    (sitesFrom p behind).foldl (fun t x => x.passOn o t) t =
      (sitesFrom p behind).foldl (fun t x => x.passOn o t) u := by
  induction behind generalizing p t u with
  | nil =>
    refine absurd (fun part hpart => ?_) h
    rw [List.prefix_nil.mp hpart]
    exact hp
  | cons line rest ih =>
    rw [sitesFrom, List.foldl_cons, List.foldl_cons]
    by_cases hd : 2 ≤ (descend p line).length
    · exact ih hd (fun hrest => h ((keepsOpen_cons p line rest).mpr ⟨hp, hrest⟩)) _ _
    · -- The line closes the fragment, and nothing is in wait behind it.
      have hbounds : Site.bounds ⟨p, line⟩ = true := by
        by_contra hb
        exact hd ((Site.two_le_descend (x := ⟨p, line⟩) hp).mpr (by simpa using hb))
      simp [Site.passOn, hbounds]

/-- A line without braces that does not stand directly in the open fragment may be replaced by any
other without changing the target in wait. -/
theorem waiting_replace (hx : BraceFree x) (hx' : BraceFree x')
    (h : ¬ InOpenFragment o (pathOf pre) behind) :
    waiting o (pre ++ x :: behind) = waiting o (pre ++ x' :: behind) := by
  have hsplit : ∀ y, BraceFree y → waiting o (pre ++ y :: behind) =
      (sitesFrom (pathOf pre) behind).foldl (fun t x => x.passOn o t)
        ((Site.target? o ⟨pathOf pre, y⟩).or (waiting o pre)) := by
    intro y hy
    have hb := braceOf_of_braceFree hy
    have hd : descend (pathOf pre) y = pathOf pre := by rw [descend, hb]
    rw [waiting, sitesFrom_append, List.foldl_append, ← Site.passOn_of_neither hb]
    change (sitesFrom (pathOf pre) (y :: behind)).foldl _ (waiting o pre) = _
    rw [sitesFrom, List.foldl_cons, hd]
  rw [hsplit x hx, hsplit x' hx']
  by_cases hin : (fragmentOf o (pathOf pre)).isSome ∧ (pathOf pre).length = 2
  · have hopen : ¬ KeepsOpen (pathOf pre) behind := fun hk => h ⟨hin.1, hin.2, hk⟩
    exact waiting_forgotten hin.2.ge hopen _ _
  · rw [Site.target?, Site.target?, if_neg hin, if_neg hin]

theorem pathOf_replace (hx : BraceFree x) (hx' : BraceFree x') :
    pathOf (pre ++ x :: behind) = pathOf (pre ++ x' :: behind) := by
  rw [pathOf_append, pathOf_append]
  change pathFrom (descend (pathOf pre) x) behind = pathFrom (descend (pathOf pre) x') behind
  rw [descend_of_braceFree hx, descend_of_braceFree hx']

end

/-! ## What becomes of an overlay node -/

def Event.heading? : Event → Option Text
  | .line .heading t => some t
  | _ => none

def Outcome.headings (r : Outcome) : List Text := r.events.filterMap Event.heading?

theorem Outcome.headings_after (es : List Event) (r : Outcome) :
    (r.after es).headings = es.filterMap Event.heading? ++ r.headings := by
  simp [headings]

def reportedNode (o : Options) (p : List OpenNode) : Text :=
  ((fragmentOf o p).map OpenNode.title).getD rootName

/-- A line number is known, so a message tells it. -/
theorem located_succ (text : String) (k : Nat) :
    located text (k + 1 : Nat) = s!"line {k + 1}: {text}" := by
  rw [located, if_neg (by omega)]
  rfl

section
variable {o : Options} {p : List OpenNode} {t : Option Target} {s : State} {line : Text}
  {n : OpenNode}

theorem missing_eq (h : Mirrors o p t s) : s.missing = .missingTarget (reportedNode o p) := by
  rw [State.missing, h.fragmentName, reportedNode]
  cases hf : fragmentOf o p with
  | none => rfl
  | some n =>
    have hn : n.title ≠ [] := title_ne_nil (isFragment_of_fragmentOf hf)
    simp [hn]

theorem missing_deeper (h : Mirrors o p t s) (line : Text) :
    (s.count line).deeper.missing = .missingTarget (reportedNode o p) :=
  show s.missing = _ from missing_eq h

theorem openNode_of_overlay {l : Line} {label name : Text} (hn : isOverlayName name = true) :
    s.openNode o l label name = (s.deeper.openOverlay o l).after s.deeperEnd := by
  have hf : isFragmentName name = false :=
    OpenNode.isFragment_of_reserved (n := ⟨label, name⟩) (isReservedName_of_overlay hn)
  rw [State.openNode, State.openAtDepth, if_neg (by simp [hf]), if_pos hn]

theorem feed_overlay (hd : s.dropping = none) (hb : braceOf line = .opens n)
    (hn : n.isOverlay = true) :
    s.feed o line = ((s.count line).deeper.openOverlay o (s.lineOf line)).after
      (.trace ((s.count line).traceText (s.lineOf line)) :: s.deeperEnd) := by
  rw [State.feed_of_opens hb hd, openNode_of_overlay hn, Outcome.after_after,
    List.singleton_append]
  rfl

/-- A target in wait is taken, and the body is written under it. -/
theorem feed_targeted {v : Target} (h : Mirrors o p (some v) s) (hb : braceOf line = .opens n)
    (hn : n.isOverlay = true) (hd : p.any o.drops = false) :
    let heading := indentFix o.indentFix (p.length + 1)
      (leadingBlank (dropTerminator line) ++ v.value ++ " \x7b".toList)
    (s.feed o line).emitted = [heading] ∧ (s.feed o line).headings = [heading] ∧
      (s.feed o line).messages = [] ∧ (s.feed o line).fatal = none ∧
      (s.feed o line).state.pending = none := by
  have hp : (s.count line).deeper.pending = some v := h.pending
  have hdepth : s.depth ≠ 1 := by
    have := two_le_of_fragmentOf (h.awaited rfl)
    rw [h.depth]
    omega
  rw [feed_overlay (h.not_dropping.mpr hd) hb hn, State.openOverlay, hp,
    State.deeperEnd_of_depth_ne hdepth, ← h.depth]
  exact ⟨rfl, rfl, rfl, rfl, rfl⟩

/-- Without a target in wait the node is reported. -/
theorem feed_untargeted (h : Mirrors o p none s) (hb : braceOf line = .opens n)
    (hn : n.isOverlay = true) (hd : p.any o.drops = false) :
    (s.feed o line).headings = [] ∧
      (s.feed o line).messages = [⟨.error, located
        (Finding.missingTarget (reportedNode o p)).text (s.linesRead + 1 : Nat)⟩] ∧
      (s.feed o line).fatal = if o.force then none else
        some ⟨.missingTarget, (Finding.missingTarget (reportedNode o p)).text,
          (s.linesRead + 1 : Nat)⟩ := by
  have hp : (s.count line).deeper.pending = none := h.pending
  have hmess : s.deeperEnd.filterMap Event.message? = [] := filterMap_deeperEnd rfl s
  have hhead : s.deeperEnd.filterMap Event.heading? = [] := filterMap_deeperEnd rfl s
  rw [feed_overlay (h.not_dropping.mpr hd) hb hn, Outcome.headings_after, Outcome.messages_after,
    Outcome.fatal_after, List.filterMap_cons_none rfl, List.filterMap_cons_none rfl, hmess, hhead,
    List.nil_append, List.nil_append, State.openOverlay, hp, missing_deeper h]
  cases hf : o.force with
  | true => exact ⟨rfl, rfl, rfl⟩
  | false => exact ⟨rfl, rfl, rfl⟩

end

/-- An overlay node outside dropped ones is written under the last target that is set directly in
the fragment node around it, unless another overlay node took that target. Without a target the
node is reported. Target lines at other places make no difference. -/
theorem overlay_resolution {o : Options} {lines : List Text} {line : Text} {n : OpenNode}
    (h : (run o lines).fatal = none) (hb : braceOf line = .opens n) (hn : n.isOverlay = true)
    (hd : (pathOf lines).any o.drops = false) :
    (∀ pre set behind v, LastTarget o lines pre set behind v → Untaken o (pathOf pre) behind →
      (readNext o lines line).emitted = [indentFix o.indentFix ((pathOf lines).length + 1)
          (leadingBlank (dropTerminator line) ++ v.value ++ " \x7b".toList)] ∧
        (readNext o lines line).state.pending = none ∧
        (readNext o lines line).messages = [] ∧ (readNext o lines line).fatal = none) ∧
    ((∀ v, ¬ Available o lines v) →
      let report := s!"no 'target' property in node {String.ofList (reportedNode o (pathOf lines))}"
      (readNext o lines line).headings = [] ∧
        (readNext o lines line).messages = [⟨.error, s!"line {lines.length + 1}: {report}"⟩] ∧
        (readNext o lines line).fatal =
          if o.force then none else some ⟨.missingTarget, report, (lines.length + 1 : Nat)⟩) ∧
    (∀ pre x x' behind, lines = pre ++ x :: behind → BraceFree x → BraceFree x' →
      ¬ InOpenFragment o (pathOf pre) behind → (run o (pre ++ x' :: behind)).fatal = none →
      (readNext o (pre ++ x' :: behind) line).headings = (readNext o lines line).headings ∧
        (readNext o (pre ++ x' :: behind) line).messages = (readNext o lines line).messages ∧
        (readNext o (pre ++ x' :: behind) line).fatal = (readNext o lines line).fatal) := by
  have hm := mirrors_run h
  refine ⟨?_, ?_, ?_⟩
  · intro pre set behind v hlast huntaken
    rw [waiting_eq_some_iff.mpr ⟨pre, set, behind, hlast, huntaken⟩] at hm
    obtain ⟨he, -, hmess, hf, hp⟩ := feed_targeted hm hb hn hd
    exact ⟨he, hp, hmess, hf⟩
  · intro hnone report
    have ht : waiting o lines = none := by
      rw [Option.eq_none_iff_forall_ne_some]
      exact fun v hv => hnone v (waiting_eq_some_iff.mp hv)
    rw [ht] at hm
    have hreport : (Finding.missingTarget (reportedNode o (pathOf lines))).text = report := rfl
    have hlen : (run o lines).state.linesRead = lines.length := linesRead_run h
    obtain ⟨hhead, hmess, hf⟩ := feed_untargeted hm hb hn hd
    rw [hlen, hreport, located_succ] at hmess
    rw [hlen, hreport] at hf
    exact ⟨hhead, hmess, hf⟩
  · rintro pre x x' behind rfl hx hx' hout h'
    have hm' := mirrors_run h'
    rw [pathOf_replace hx' hx, waiting_replace hx' hx hout] at hm'
    have hlen : (run o (pre ++ x' :: behind)).state.linesRead =
        (run o (pre ++ x :: behind)).state.linesRead := by
      rw [linesRead_run h', linesRead_run h]
      simp
    cases ht : waiting o (pre ++ x :: behind) with
    | some v =>
      rw [ht] at hm hm'
      obtain ⟨-, hhead, hmess, hf, -⟩ := feed_targeted hm hb hn hd
      obtain ⟨-, hhead', hmess', hf', -⟩ := feed_targeted hm' hb hn hd
      exact ⟨hhead'.trans hhead.symm, hmess'.trans hmess.symm, hf'.trans hf.symm⟩
    | none =>
      rw [ht] at hm hm'
      obtain ⟨hhead, hmess, hf⟩ := feed_untargeted hm hb hn hd
      obtain ⟨hhead', hmess', hf'⟩ := feed_untargeted hm' hb hn hd
      rw [hlen] at hmess' hf'
      exact ⟨hhead'.trans hhead.symm, hmess'.trans hmess.symm, hf'.trans hf.symm⟩

/-- The second fragment sets a path and then a reference, and a node in it assigns `target` too. -/
theorem overlay_resolution_of_second_fragment :
    let front := ["/ \x7b", "\tfragment@0 \x7b", "\t\ttarget = <&gpio>;", "\t\x7d;",
      "\tled: fragment@1 \x7b", "\t\ttarget-path = \"/soc\";"].map String.toList
    let set := "\t\ttarget = <&uart>;".toList
    let behind := ["\t\tnode \x7b", "\t\t\ttarget = <&spi>;", "\t\t\x7d;"].map String.toList
    let line := "\t\t__overlay__ \x7b".toList
    (readNext .standard (front ++ set :: behind) line).emitted = ["&uart \x7b".toList] := by
  intro front set behind line
  have hlast : LastTarget .standard (front ++ set :: behind) front set behind
      (.reference "&uart".toList) := ⟨rfl, by decide, by decide, by decide⟩
  have huntaken : Untaken .standard (pathOf front) behind := by
    unfold Untaken
    decide
  obtain ⟨hresolved, -⟩ := @overlay_resolution .standard (front ++ set :: behind) line
    ⟨[], overlayName⟩ (by decide) (by decide) (by decide) (by decide)
  exact (hresolved front set behind _ hlast huntaken).1

end OverlaySugar
