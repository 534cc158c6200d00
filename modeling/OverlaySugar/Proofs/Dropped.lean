import OverlaySugar.Proofs.Force

/-!
# Dropped nodes

With force, a node with a name for generated nodes is dropped from the line
that opens it to the close that matches. In between only the depth is followed,
whatever stands there, so nothing but counts is left of the node behind it. A
node that is never closed drops all that follows.
-/

set_option autoImplicit false

namespace OverlaySugar
open Text

def State.countAll (s : State) (lines : List Text) : State :=
  { s with
    linesRead := s.linesRead + lines.length
    bytesRead := s.bytesRead + utf8Length lines.flatten }

structure RunsTo (o : Options) (s : State) (lines : List Text) (s' : State) (out : List Text)
    (ms : List Message) : Prop where
  fatal : (s.feedAll o lines).fatal = none
  state : (s.feedAll o lines).state = s'
  emitted : (s.feedAll o lines).emitted = out
  messages : (s.feedAll o lines).messages = ms

def ClosesWithin (lines : List Text) : Prop :=
  ∃ body closing rest, lines = body ++ closing :: rest ∧ Balanced body ∧
    braceOf closing = .closes

theorem exists_close_of_walk {k : Nat} {lines : List Text} (h : walk k lines = none) :
    ∃ body closing rest, lines = body ++ closing :: rest ∧ walk k body = some 0 ∧
      braceOf closing = .closes := by
  induction lines generalizing k with
  | nil => cases h
  | cons line lines ih =>
    rw [← List.singleton_append, walk_append, Option.bind_eq_none_iff] at h
    cases hline : walk k [line] with
    | none =>
      -- Only a close where no node is open ends a walk.
      cases hb : braceOf line <;> cases k <;> simp [walk, hb] at hline
      exact ⟨[], line, lines, rfl, rfl, hb⟩
    | some i =>
      obtain ⟨body, closing, rest, rfl, hbody, hclose⟩ := ih (h i hline)
      refine ⟨[line] ++ body, closing, rest, rfl, ?_, hclose⟩
      rw [walk_append, hline]
      exact hbody

theorem closesWithin_iff (lines : List Text) : ClosesWithin lines ↔ walk 0 lines = none := by
  refine ⟨?_, exists_close_of_walk⟩
  rintro ⟨body, closing, rest, rfl, hbody, hclose⟩
  rw [walk_append, show walk 0 body = some 0 from hbody]
  simp [walk, hclose]

instance (lines : List Text) : Decidable (ClosesWithin lines) :=
  decidable_of_iff _ (closesWithin_iff lines).symm

section
variable {o : Options} {s s' s'' : State} {xs ys lines : List Text} {line : Text}
  {out out' : List Text} {ms ms' : List Message} {n : OpenNode} {top j k : Nat}

/-! ## Counted lines -/

theorem utf8Length_append (t u : Text) : utf8Length (t ++ u) = utf8Length t + utf8Length u := by
  induction t with
  | nil => rw [List.nil_append, utf8Length, Nat.zero_add]
  | cons c t ih => rw [List.cons_append, utf8Length, utf8Length, ih, Nat.add_assoc]

theorem State.countAll_nil (s : State) : s.countAll [] = s := rfl

theorem State.countAll_cons (s : State) (line : Text) (rest : List Text) :
    (s.count line).countAll rest = s.countAll (line :: rest) := by
  simp only [countAll, count, List.length_cons, List.flatten_cons, utf8Length_append]
  congr 1 <;> omega

theorem State.countAll_append (s : State) (xs ys : List Text) :
    (s.countAll xs).countAll ys = s.countAll (xs ++ ys) := by
  simp only [countAll, List.length_append, List.flatten_append, utf8Length_append, Nat.add_assoc]

/-! ## Runs in a row -/

theorem RunsTo.nil (o : Options) (s : State) : RunsTo o s [] s [] [] := ⟨rfl, rfl, rfl, rfl⟩

theorem RunsTo.append (hx : RunsTo o s xs s' out ms) (hy : RunsTo o s' ys s'' out' ms') :
    RunsTo o s (xs ++ ys) s'' (out ++ out') (ms ++ ms') := by
  have hrun := State.feedAll_append_of_not_fatal hx.fatal ys
  rw [hx.state] at hrun
  constructor
  · rw [hrun, Outcome.fatal_after, hy.fatal]
  · rw [hrun, Outcome.state_after, hy.state]
  · rw [hrun, Outcome.emitted_after, hy.emitted]
    exact congrArg (· ++ out') hx.emitted
  · rw [hrun, Outcome.messages_after, hy.messages]
    exact congrArg (· ++ ms') hx.messages

theorem RunsTo.single {es : List Event} (h : s.feed o line = .writing s' es)
    (hout : es.filterMap Event.line? = out) (hms : es.filterMap Event.message? = ms) :
    RunsTo o s [line] s' out ms := by
  rw [← State.feedAll_singleton] at h
  constructor
  · rw [h]; rfl
  · rw [h]; rfl
  · rw [h]; exact hout
  · rw [h]; exact hms

/-! ## Inside a dropped node -/

theorem feed_of_dropping (hd : s.dropping = some top) :
    s.feed o line = .writing ((s.count line).drop top (s.lineOf line).content)
      [.trace ((s.count line).traceText (s.lineOf line))] := by
  have htake : (s.count line).take o (s.lineOf line) =
      .quiet ((s.count line).drop top (s.lineOf line).content) := by
    rw [State.take, show (s.count line).dropping = some top from hd]
  rw [State.feed]
  exact congrArg (Outcome.after _) htake

theorem drop_of_braceFree (hb : BraceFree line) : s'.drop top (s.lineOf line).content = s' := by
  have hn := braceOf_of_braceFree hb
  cases hc : (s.lineOf line).content with
  | nodeOpen label name => cases hn.symm.trans (braceOf_of_open hc)
  | nodeClose => cases hn.symm.trans (braceOf_of_close hc)
  | target t => rfl
  | plain => rfl

/-- A line that does not close the dropped node is counted and moves the depth, no more. -/
theorem runsTo_inside (hd : s.dropping = some top) (hs : s.depth = top + k)
    (h : walk k [line] = some j) :
    RunsTo o s [line] (State.countAll { s with depth := top + j } [line]) [] [] := by
  have hstate : (s.count line).drop top (s.lineOf line).content =
      State.countAll { s with depth := top + j } [line] := by
    rw [← State.countAll_cons, State.countAll_nil]
    cases hb : braceOf line with
    | opens n =>
      obtain rfl : k + 1 = j := by simpa [walk, hb] using h
      rw [State.lineOf, content_of_opens hb]
      simp [State.drop, State.count, hs, Nat.add_assoc]
    | closes =>
      cases k with
      | zero => simp [walk, hb] at h
      | succ k =>
        obtain rfl : k = j := by simpa [walk, hb] using h
        rw [State.lineOf, content_of_closes hb]
        simp [State.drop, State.count, hs, hd]
    | neither =>
      obtain rfl : k = j := by simpa [walk, hb] using h
      rw [drop_of_braceFree (braceFree_of_neither hb)]
      simp [State.count, hs]
  rw [← hstate]
  exact .single (feed_of_dropping hd) rfl rfl

/-- So are any lines among which no close matches the dropped node. -/
theorem runsTo_within (hd : s.dropping = some top) (hs : s.depth = top + k)
    (h : walk k lines = some j) :
    RunsTo o s lines (State.countAll { s with depth := top + j } lines) [] [] := by
  induction lines generalizing s k with
  | nil =>
    obtain rfl : k = j := by simpa [walk] using h
    rw [← hs]
    exact .nil o s
  | cons line rest ih =>
    rw [← List.singleton_append, walk_append] at h
    obtain ⟨i, hline, hrest⟩ := Option.bind_eq_some_iff.mp h
    rw [← List.singleton_append, ← State.countAll_append]
    exact (runsTo_inside hd hs hline).append (ih hd rfl hrest)

theorem runsTo_close (hd : s.dropping = some s.depth) (hb : braceOf line = .closes) :
    RunsTo o s [line] (State.countAll { s with depth := s.depth - 1, dropping := none } [line])
      [] [] := by
  have hstate : (s.count line).drop s.depth (s.lineOf line).content =
      State.countAll { s with depth := s.depth - 1, dropping := none } [line] := by
    rw [← State.countAll_cons, State.countAll_nil, State.lineOf, content_of_closes hb]
    exact congrArg (fun d => { s.count line with depth := s.depth - 1, dropping := d })
      (if_pos rfl)
  rw [← hstate]
  exact .single (feed_of_dropping hd) rfl rfl

/-! ## A whole dropped node -/

def State.dropNode (s : State) : State :=
  { s with
    depth := s.depth + 1
    inRootBlock := false
    dropping := some (s.depth + 1)
    tally := { s.tally with errors := s.tally.errors + 1 } }

def dropMessage (name : Text) (line : Nat) : Message :=
  ⟨.error, located ((Finding.illegalNode name).text ++ ", dropping node") line⟩

theorem runsTo_illegal {p : List OpenNode} {t : Option Target} (h : Mirrors o p t s)
    (hforce : o.force = true) (hd : s.dropping = none) (hb : braceOf line = .opens n)
    (hn : n.isIllegal = true) :
    RunsTo o s [line] (s.dropNode.countAll [line])
      (if s.inRootBlock then [rootBlockClose] else []) [dropMessage n.name (s.linesRead + 1)] := by
  have hline : s.feed o line = .writing (s.dropNode.count line)
      (.trace ((s.count line).traceText (s.lineOf line)) ::
        (s.deeperEnd ++ [.message (dropMessage n.name (s.linesRead + 1))])) := by
    rw [feed_illegal hd hb hn, State.openReserved, if_pos hforce]
    exact congrArg (fun b => Outcome.writing { s.dropNode.count line with inRootBlock := b } _)
      h.deeper_block
  have hmessages : s.deeperEnd.filterMap Event.message? = [] := filterMap_deeperEnd rfl s
  rw [← State.countAll_cons, State.countAll_nil, ← emitted_deeperEnd h]
  refine .single hline ?_ ?_
  · rw [List.filterMap_cons_none rfl, List.filterMap_append]
    exact List.append_nil _
  · rw [List.filterMap_cons_none rfl, List.filterMap_append, hmessages]
    rfl

end

/-- A dropped node is not seen by the rest of a conversion. Whatever stands in it, all that it
leaves is one error, and the end of a block of root properties that was open in front of it. Without
a close it goes on to the end of the input, and nothing more is written or reported. -/
theorem dropped_node_unseen {o : Options} (hforce : o.force = true) {calls : List Call}
    (hd : (State.after o calls).dropping = none) {opening : Text} {n : OpenNode}
    (hopen : braceOf opening = .opens n) (hn : n.isIllegal = true) :
    let s := State.after o calls
    let out := if s.inRootBlock then [rootBlockClose] else []
    let ms := [dropMessage n.name (s.linesRead + 1)]
    (∀ body closing, Balanced body → braceOf closing = .closes →
      RunsTo o s (opening :: body ++ [closing])
        (State.countAll { s with
          inRootBlock := false
          tally := { s.tally with errors := s.tally.errors + 1 } } (opening :: body ++ [closing]))
        out ms) ∧
    (∀ rest, ¬ ClosesWithin rest → ∃ s', RunsTo o s (opening :: rest) s' out ms ∧
      s'.dropping = some (s.depth + 1) ∧ s'.finish.emitted = [] ∧ s'.finish.messages = []) := by
  intro s out ms
  have hfirst : RunsTo o s [opening] (s.dropNode.countAll [opening]) out ms :=
    runsTo_illegal (mirrors_after o calls) hforce hd hopen hn
  constructor
  · intro body closing hbody hclose
    have hinside := hfirst.append (runsTo_within (k := 0) rfl rfl hbody)
    have hall := hinside.append (runsTo_close rfl hclose)
    rw [List.append_nil, List.append_nil, List.append_nil, List.append_nil] at hall
    have hleft : ({ s with
        inRootBlock := false
        tally := { s.tally with errors := s.tally.errors + 1 } } : State) =
        { s.dropNode with depth := s.depth, dropping := none } :=
      congrArg (fun d => { s.dropNode with depth := s.depth, dropping := d }) hd
    rw [hleft, ← List.singleton_append, ← State.countAll_append, ← State.countAll_append]
    exact hall
  · intro rest hrest
    rw [closesWithin_iff, ← Ne, Option.ne_none_iff_exists'] at hrest
    obtain ⟨k, hk⟩ := hrest
    have hall := hfirst.append (runsTo_within (k := 0) rfl rfl hk)
    rw [List.append_nil, List.append_nil] at hall
    refine ⟨_, hall, rfl, ?_, messages_finish _⟩
    rw [emitted_finish]
    rfl

/-- A node in the root, behind a property: with a close it leaves the depth as it was, and without
one it takes the rest. -/
theorem dropped_node_unseen_in_root_block :
    let o : Options := ⟨true, true, 0⟩
    let calls := ["/ \x7b", "\tmodel = \"a\";"].map (Call.feed ∘ String.toList)
    let s := State.after o calls
    let opening := "\t__symbols__ \x7b".toList
    let body := ["\t\tfragment@0 \x7b", "\t\t\ttarget = <&uart>;", "\t\t\t__overlay__ \x7b",
      "\t\t\t\x7d;", "\t\t\x7d;", "\t\tx = <1>;"].map String.toList
    let closing := "\t\x7d;".toList
    s.dropping = none ∧ s.inRootBlock = true ∧
      braceOf opening = .opens ⟨[], "__symbols__".toList⟩ ∧ Balanced body ∧
      (s.feedAll o (opening :: body ++ [closing])).emitted = [rootBlockClose] ∧
      (s.feedAll o (opening :: body ++ [closing])).messages =
        [⟨.error, "line 3: illegal node name '__symbols__', dropping node"⟩] ∧
      (s.feedAll o (opening :: body ++ [closing])).state.depth = 1 ∧
      (s.feedAll o (opening :: body ++ [closing])).state.linesRead = 10 ∧
      (s.feedAll o (opening :: body)).emitted = [rootBlockClose] := by
  intro o calls s opening body closing
  have hd : s.dropping = none := by decide
  have hopen : braceOf opening = .opens ⟨[], "__symbols__".toList⟩ := by decide
  have hbody : Balanced body := by decide
  obtain ⟨hclosed, hunclosed⟩ := dropped_node_unseen (o := o) rfl hd hopen (by decide)
  have hrun := hclosed body closing hbody (by decide)
  obtain ⟨s', hrest, -⟩ := hunclosed body (by decide)
  refine ⟨hd, by decide, hopen, hbody, hrun.emitted.trans (by decide),
    hrun.messages.trans (by decide), ?_, ?_, hrest.emitted.trans (by decide)⟩
  · rw [hrun.state]
    decide
  · rw [hrun.state]
    decide

end OverlaySugar
