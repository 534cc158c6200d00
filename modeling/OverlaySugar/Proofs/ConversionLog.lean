import OverlaySugar.Proofs.LogCalls
import OverlaySugar.Proofs.Summary

/-!
# The log of a conversion

A line is traced when it is read, and what there is to report about it comes
behind its trace. So the records of a run can be told from its lines alone.
The level of the log decides which of them are written: messages always are,
traces from the verbosity two on, and the summary, the last record of all, from
one on. What is converted goes to the output stream and to no log.
-/

set_option autoImplicit false

namespace OverlaySugar
open Text

/-! ## Registered modules -/

namespace Log
open Registry

def writtenBy (earlier : List Use) : List Use → List String
  | [] => []
  | u :: rest => ((after earlier).use u).2 ++ writtenBy (earlier ++ [u]) rest

def Record.call (r : Record) (enabled : Bool) : Use :=
  .call r.level r.logger r.message none enabled

variable {uses : List Use} {r : Record} {n : String}

theorem registered_diagnostic (uses : List Use) : Registered uses diagnosticLogger :=
  ⟨by decide, .inl (by decide)⟩

theorem registered_converter (uses : List Use) : Registered uses converterLogger :=
  ⟨by decide, .inl (by decide)⟩

theorem any_handled_of_registered (h : Registered uses n) :
    ((after uses).lineage n).any (·.handled) = true :=
  (any_handled_iff uses n).mpr ⟨n, .refl, h⟩

theorem write_registered (h : Registered uses r.logger) :
    (after uses).write r = if r.level.passes (threshold uses) then [r.named] else [] := by
  rw [write_after, any_handled_of_registered h]
  rfl

theorem writeAll_registered {records : List Record}
    (h : ∀ r ∈ records, Registered uses r.logger) : (after uses).writeAll records =
      (records.filter (·.level.passes (threshold uses))).map Record.named := by
  induction records with
  | nil => rfl
  | cons r rest ih =>
    have hrest := ih fun r' hr' => h r' (List.mem_cons_of_mem _ hr')
    rw [writeAll] at hrest ⊢
    rw [List.flatMap_cons, write_registered (h r List.mem_cons_self), hrest]
    cases hr : r.level.passes (threshold uses) <;> simp [hr]

theorem loggerFor_registered (h : Registered uses n) : (after uses).loggerFor n none = n := by
  obtain ⟨l, hl⟩ := Option.isSome_iff_exists.mp ((tuned_after uses).registered h)
  have hfind : (after uses).find? n = some (.logger l) := find?_of_logger? hl
  simp [loggerFor, hfind, h.1]

theorem written_by_registered (h : Registered uses r.logger) (enabled : Bool) :
    ((after uses).use (r.call enabled)).2 =
      if enabled && r.level.passes (threshold uses) then [r.named] else [] := by
  have hwritten := written_by_call uses r.level r.logger r.message none enabled
  simp only [loggerFor_registered h] at hwritten
  have hcall : Registered (uses ++ [r.call enabled]) r.logger := registered_concat_iff.mpr (.inl h)
  have hnamed := any_handled_of_registered hcall
  simp only [Record.call] at hnamed ⊢
  rw [hwritten, hnamed]
  rfl

/-- What registered modules call for is written as far as it is enabled and passes. -/
theorem writtenBy_calls {calls : List (Record × Bool)}
    (h : ∀ p ∈ calls, Registered uses p.1.logger) :
    writtenBy uses (calls.map fun p => p.1.call p.2) =
      (calls.filter fun p => p.2 && p.1.level.passes (threshold uses)).map (·.1.named) := by
  induction calls generalizing uses with
  | nil => rfl
  | cons p rest ih =>
    have hthreshold : threshold (uses ++ [p.1.call p.2]) = threshold uses :=
      threshold_call uses _ _ _ _ _
    have hrest := @ih (uses ++ [p.1.call p.2]) fun q hq =>
      registered_concat_iff.mpr (.inl (h q (List.mem_cons_of_mem _ hq)))
    rw [hthreshold] at hrest
    rw [List.map_cons, writtenBy, hrest, written_by_registered (h p List.mem_cons_self)]
    cases hp : p.2 && p.1.level.passes (threshold uses) <;> simp [hp]

end Log

/-! ## What a line logs -/

namespace Event

def trace? : Event → Option String
  | .trace t => some t
  | _ => none

end Event

namespace Position

def trace (o : Options) (x : Position) : Log.Record :=
  let inFragment := (fragmentOf o (pathOf x.front)).isSome
  let l := classify (inFragment && (pathOf x.front).length == 2) x.number x.line
  ⟨Log.converterLogger, .debug,
    s!"line {x.number}: depth: {levelFrom 0 x.front} shape: {l.shape.name} " ++
      s!"name: '{String.ofList l.name}' fragment: {truthName inFragment}"⟩

def discarded? (o : Options) (x : Position) : Option Log.Record :=
  if braceOf x.line = .closes ∧ (pathOf x.front).length = 2 then
    (waiting o x.front).map fun t =>
      let node := String.ofList (reportedNode o (pathOf x.front))
      ⟨Log.converterLogger, .debug, s!"{node}: unused target '{String.ofList t.value}' discarded"⟩
  else none

def notes (o : Options) (x : Position) : List Log.Record :=
  ((x.message? o).map Message.record).toList ++ (x.discarded? o).toList

def records (o : Options) (x : Position) : List Log.Record := x.trace o :: x.notes o

end Position

theorem records_after (es : List Event) (r : Outcome) :
    (r.after es).records = es.filterMap Event.record? ++ r.records :=
  List.filterMap_append

/-- Where nothing is traced the records are those of the messages. -/
theorem filterMap_record? {es : List Event} (h : es.filterMap Event.trace? = []) :
    es.filterMap Event.record? = (es.filterMap Event.message?).map Message.record := by
  induction es with
  | nil => rfl
  | cons e es ih =>
    cases e with
    | line origin t => exact ih h
    | message m => exact congrArg (m.record :: ·) (ih h)
    | trace t => cases h

section
variable {o : Options} {x : Position} {s : State} {l : Line} {r : Outcome} {label name : Text}

theorem untraced_deeper (s : State) {es : List Event} (h : es.filterMap Event.trace? = []) :
    (s.deeperEnd ++ es).filterMap Event.trace? = [] := by
  rw [List.filterMap_append, filterMap_deeperEnd rfl, h]
  rfl

theorem untraced_opens (h : State.Opening o s l label name r) :
    r.events.filterMap Event.trace? = [] := by
  cases h with
  | inDropped hd => rfl
  | fragment hd h1 hn => exact filterMap_deeperEnd rfl s
  | heading hd hn hp => exact untraced_deeper s rfl
  | notice hd hn hp hf => exact untraced_deeper s rfl
  | stopOverlay hd hn hp hf => exact untraced_deeper s rfl
  | dropNode hd hr hn hf => exact untraced_deeper s rfl
  | stopReserved hd hr hn hf => exact untraced_deeper s rfl
  | root hd h0 hn => rfl
  | top hd hr h0 hn => rfl
  | inner hd hr h0 hn => exact untraced_deeper s rfl

theorem untraced_stays (h : State.Staying o s l r) : r.events.filterMap Event.trace? = [] := by
  cases h with
  | inDropped hd => rfl
  | reference hd hc => rfl
  | path hd hc => rfl
  | rootProperty hd hc hp =>
    rw [Outcome.events_writing, filterMap_property (fun _ => rfl), State.blockStart]
    split <;> rfl
  | plain hd hc hp => rfl

theorem discarded?_of_brace (h : braceOf x.line ≠ .closes) : x.discarded? o = none :=
  if_neg fun hx => h hx.1

/-- A fragment that closes is the second node of the path, and its state tells its name. -/
theorem records_unusedTarget (h : Mirrors o (pathOf x.front) (waiting o x.front) s)
    (hb : braceOf x.line = .closes) {below : List Nat} (hs : s.openFragments = s.depth :: below) :
    s.unusedTarget.filterMap Event.record? = (x.discarded? o).toList := by
  obtain ⟨m, n, hp, hm, hn, -⟩ := h.at_fragment hs
  have hfragment : fragmentOf o (pathOf x.front) = some n := by simp [hp, fragmentOf, hm, hn]
  have hname : s.fragmentName = reportedNode o (pathOf x.front) := by
    rw [h.fragmentName, reportedNode, hfragment]
    rfl
  have hlength : (pathOf x.front).length = 2 := by simp [hp]
  rw [State.unusedTarget, h.pending, hname, Position.discarded?, if_pos ⟨hb, hlength⟩]
  cases waiting o x.front <;> rfl

/-- A target waits only in a fragment that is not dropped, so where the second node closes around
one the rule of fragments applies. -/
theorem discarded?_of_not_fragment (h : Mirrors o (pathOf x.front) (waiting o x.front) s)
    (hs : s.dropping ≠ none ∨ s.openFragments.head? ≠ some s.depth) : x.discarded? o = none := by
  unfold Position.discarded?
  split
  · next hx =>
    rw [Option.map_eq_none_iff]
    by_contra hwaiting
    have hfragment := h.awaited (Option.isSome_iff_ne_none.mpr hwaiting)
    rcases hs with hd | hs
    · exact hd (h.not_dropping.mpr (Mirrors.any_drops_of_fragment hfragment hx.2))
    · rw [h.openFragments, if_pos hfragment, h.depth, hx.2] at hs
      exact hs rfl
  · rfl

theorem records_closes (h : Mirrors o (pathOf x.front) (waiting o x.front) s)
    (hb : braceOf x.line = .closes) (hr : State.Closing o s l r) :
    r.records = (x.discarded? o).toList := by
  cases hr with
  | dropped hd ht =>
    rw [discarded?_of_not_fragment h (.inl (by simp [hd]))]
    rfl
  | inDropped hd ht =>
    rw [discarded?_of_not_fragment h (.inl (by simp [hd]))]
    rfl
  | fragment hd hs => exact records_unusedTarget h hb hs
  | root hd hs h1 hr =>
    rw [discarded?_of_not_fragment h (.inr hs)]
    exact filterMap_blockEnd rfl s
  | stray hd hs h0 =>
    rw [discarded?_of_not_fragment h (.inr hs)]
    rfl
  | inner hd hs h0 hr =>
    rw [discarded?_of_not_fragment h (.inr hs)]
    rfl

theorem trace_eq (h : Mirrors o (pathOf x.front) (waiting o x.front) s)
    (hlen : s.linesRead = x.front.length) :
    Event.record? (.trace ((s.count x.line).traceText (s.lineOf x.line))) = some (x.trace o) := by
  have hallows : s.allowsTarget =
      ((fragmentOf o (pathOf x.front)).isSome && (pathOf x.front).length == 2) := by
    rw [Bool.eq_iff_iff, h.allowsTarget]
    simp
  have hdepth : s.depth = levelFrom 0 x.front := h.depth.trans (pathFrom_length [] x.front)
  rw [lineOf_position hlen, hallows]
  simp only [Event.record?, State.traceText, Position.trace, State.count, hdepth, h.inFragment]
  rfl

theorem records_of_untraced (ht : r.events.filterMap Event.trace? = [])
    (hm : r.messages = (x.message? o).toList) (hb : braceOf x.line ≠ .closes) :
    r.records = x.notes o := by
  have hrecords : r.records = r.messages.map Message.record := filterMap_record? ht
  rw [hrecords, hm, Position.notes, discarded?_of_brace hb]
  cases x.message? o <;> rfl

theorem records_feed (h : Mirrors o (pathOf x.front) (waiting o x.front) s)
    (hlen : s.linesRead = x.front.length) (hseen : s.tally.rootProperties = x.seen) :
    (s.feed o x.line).records = x.records o := by
  have hm : (s.feed o x.line).messages = (x.message? o).toList := by
    rw [(reports_feed h hlen).messages, hseen]
    rfl
  obtain ⟨r, hr, hrule⟩ := s.feed_cases o x.line
  rw [hr] at hm ⊢
  have hnotes : r.records = x.notes o := by
    rcases hrule with ⟨n, hb, hrule⟩ | ⟨hb, hrule⟩ | ⟨hb, hrule⟩
    · exact records_of_untraced (untraced_opens hrule) hm (by simp [hb])
    · -- A line that closes a node gives no remark.
      have hnone : x.message? o = none := by simp [Position.message?, Position.remark?, hb]
      rw [Position.notes, hnone]
      exact records_closes (h.count x.line) hb hrule
    · exact records_of_untraced (untraced_stays hrule) hm (by simp [braceOf_of_braceFree hb])
  rw [records_after, hnotes, List.filterMap_cons_some (trace_eq h hlen)]
  rfl

end

/-! ## What a conversion logs -/

def endTrace (lines : List Text) : Option Fatal → List Log.Record
  | some _ => []
  | none =>
    if levelFrom 0 lines = 0 then []
    else [⟨Log.converterLogger, .debug, s!"input ended at depth {levelFrom 0 lines}"⟩]

section
variable (o : Options) (lines : List Text)

theorem records_through : (run o lines).records =
    (positions (linesThrough lines (run o lines).fatal)).flatMap (Position.records o) := by
  refine through_induction (P := fun lines r => r.records =
    (positions lines).flatMap (Position.records o)) rfl (fun lines line h ih => ?_) lines
  have hseen : (run o lines).state.tally.rootProperties = Position.seen ⟨lines, line⟩ := by
    have hgrows := (reported_through o lines).grows
    rw [h] at hgrows
    exact hgrows.from_zero.2.1
  have hline : (readNext o lines line).records = Position.records o ⟨lines, line⟩ :=
    @records_feed o ⟨lines, line⟩ _ (mirrors_run h) (linesRead_run h) hseen
  rw [records_after, positions_concat, List.flatMap_append, hline]
  change (run o lines).records ++ _ = _
  rw [ih]
  simp

theorem records_finish (s : State) : s.finish.records =
    if s.depth = 0 then []
    else [⟨Log.converterLogger, .debug, s!"input ended at depth {s.depth}"⟩] := by
  rw [Outcome.records, State.finish, Outcome.events_writing, List.filterMap_append,
    filterMap_blockEnd rfl]
  split <;> rfl

theorem records_convert :
    let fed := linesThrough lines (convert o lines).fatal
    (convert o lines).outcome.records =
      (positions fed).flatMap (Position.records o) ++ endTrace fed (convert o lines).fatal := by
  intro fed
  have hrun := records_through o lines
  rw [← fatal_convert] at hrun
  change (run o lines).records = (positions fed).flatMap _ at hrun
  rw [← hrun]
  cases hf : (convert o lines).fatal with
  | none =>
    have hnone := run_of_convert hf
    have hfed : fed = lines := by simp [fed, hf, linesThrough]
    rw [outcome_of_run hnone, records_after, records_finish, depth_run hnone, hfed]
    rfl
  | some f =>
    rw [fatal_convert] at hf
    rw [convert_of_stop hf]
    exact (List.append_nil _).symm

end

/-! ## What passes -/

def Conversion.reported (c : Conversion) (w : Wording) (v : Int) : List Log.Record :=
  (c.logged w).records.filter (·.level.passes (.ofVerbosity v))

theorem message_passes (m : Message) (v : Int) :
    m.record.level.passes (.ofVerbosity v) = true := by
  cases hs : m.severity <;> simp only [Message.record, hs, Severity.level]
  · exact Log.Level.warning_passes_ofVerbosity v
  · exact Log.Level.error_passes _

/-- Messages pass by one property of records, traces by none. -/
theorem filter_records {p : Log.Record → Bool} (hm : ∀ m : Message, p m.record = true)
    (ht : ∀ t, p ⟨Log.converterLogger, .debug, t⟩ = false) (r : Outcome) :
    r.records.filter p = r.messages.map Message.record := by
  rw [Outcome.records, Outcome.messages]
  induction r.events with
  | nil => rfl
  | cons e es ih =>
    cases e with
    | line origin t => exact ih
    | message m =>
      change (m.record :: es.filterMap Event.record?).filter p = m.record :: _
      rw [List.filter_cons_of_pos (hm m), ih]
    | trace t =>
      change (⟨Log.converterLogger, .debug, t⟩ :: es.filterMap Event.record?).filter p = _
      rw [List.filter_cons_of_neg (by simp [ht]), ih]
      rfl

section
variable {c : Conversion} {w : Wording}

theorem filter_logged {p : Log.Record → Bool}
    (h : ∀ text, p ⟨Log.converterLogger, .info, text⟩ = false) :
    (c.logged w).records.filter p = c.outcome.records.filter p := by
  cases hs : c.summary w with
  | ok text =>
    rw [logged_of_summary hs, List.filter_append]
    by_cases hv : c.verbose = 0 <;> simp [hv, h text]
  | error f => rw [logged_of_fault hs]

end

theorem filter_diagnostic (c : Conversion) (w : Wording) (v : Int) :
    (c.reported w v).filter (·.logger == Log.diagnosticLogger) =
      c.messages.map Message.record := by
  let p : Log.Record → Bool := fun r =>
    r.logger == Log.diagnosticLogger && r.level.passes (.ofVerbosity v)
  have hlogged : (c.logged w).records.filter p = c.outcome.records.filter p :=
    filter_logged fun _ => rfl
  have houtcome : c.outcome.records.filter p = c.messages.map Message.record :=
    filter_records (fun m => by simp only [p, message_passes m v]; rfl) (fun _ => rfl) c.outcome
  rw [Conversion.reported, List.filter_filter]
  exact hlogged.trans houtcome

theorem level_of_mem_records {r : Outcome} {record : Log.Record} (h : record ∈ r.records) :
    record.level ≠ .info := by
  obtain ⟨e, -, he⟩ := List.mem_filterMap.mp h
  cases e with
  | line origin t => cases he
  | message m =>
    rw [← Option.some.inj he]
    cases hs : m.severity <;> simp [Message.record, hs, Severity.level]
  | trace t => simp [← Option.some.inj he]

theorem level_of_reported {c : Conversion} {w : Wording} {v : Int} (hv : v < 2) {r : Log.Record}
    (hr : r ∈ c.reported w v) : r.level ≠ .debug := by
  intro hdebug
  have hpasses := (List.mem_filter.mp hr).2
  rw [hdebug, Log.Level.debug_passes_iff] at hpasses
  omega

section
variable (o : Options) (lines : List Text) (v : Int)

theorem filter_outcome_records : let c := convert o lines
    let fed := linesThrough lines c.fatal
    c.outcome.records.filter (·.level.passes (.ofVerbosity v)) =
      if 2 ≤ v then (positions fed).flatMap (Position.records o) ++ endTrace fed c.fatal
      else c.messages.map Message.record := by
  intro c fed
  split
  · next hv =>
    have hall := Log.Level.passes_of_debug (Log.Level.debug_passes_iff.mpr hv)
    rw [List.filter_eq_self.mpr fun r _ => hall r.level, records_convert]
  · next hv =>
    have hdebug : Log.Level.passes .debug (.ofVerbosity v) = false := by
      rw [← Bool.not_eq_true, Log.Level.debug_passes_iff]
      exact hv
    exact filter_records (fun m => message_passes m v) (fun _ => hdebug) c.outcome

end

section
variable {c : Conversion} {w : Wording}

theorem reported_of_summary {text : String} (h : c.summary w = .ok text) (v : Int) :
    c.reported w v = c.outcome.records.filter (·.level.passes (.ofVerbosity v)) ++
      if c.verbose ≠ 0 ∧ 1 ≤ v then [⟨Log.converterLogger, .info, text⟩] else [] := by
  rw [Conversion.reported, logged_of_summary h, List.filter_append]
  by_cases hv : 1 ≤ v
  · by_cases hzero : c.verbose = 0 <;> simp [hzero, hv, Log.Level.info_passes_iff]
  · by_cases hzero : c.verbose = 0 <;> simp [hzero, hv, Log.Level.info_passes_iff]

theorem reported_of_fault {f : WordingFault} (h : c.summary w = .error f) (v : Int) :
    c.reported w v = c.outcome.records.filter (·.level.passes (.ofVerbosity v)) := by
  rw [Conversion.reported, logged_of_fault h]

end

/-! ## What is written -/

theorem registered_of_mem_records {r : Outcome} {record : Log.Record} (h : record ∈ r.records)
    (uses : List Log.Use) : Log.Registered uses record.logger := by
  obtain ⟨e, -, he⟩ := List.mem_filterMap.mp h
  cases e with
  | line origin t => cases he
  | message m =>
    rw [← Option.some.inj he]
    exact Log.registered_diagnostic uses
  | trace t =>
    rw [← Option.some.inj he]
    exact Log.registered_converter uses

namespace Conversion

def requests (c : Conversion) (w : Wording) : List (Log.Record × Bool) :=
  c.outcome.records.map (·, true) ++
    match c.summary w with
    | .ok text => [(⟨Log.converterLogger, .info, text⟩, c.verbose != 0)]
    | .error _ => []

def calls (c : Conversion) (w : Wording) : List Log.Use :=
  (c.requests w).map fun p => p.1.call p.2

variable {c : Conversion} {w : Wording}

theorem records_requests (c : Conversion) (w : Wording) :
    ((c.requests w).filter (·.2)).map (·.1) = (c.logged w).records := by
  have hrecords :
      ((c.outcome.records.map (·, true)).filter (·.2)).map (·.1) = c.outcome.records := by
    rw [List.filter_map, List.map_map]
    simp [Function.comp_def]
  rw [requests, List.filter_append, List.map_append, hrecords]
  cases hs : c.summary w with
  | ok text =>
    rw [logged_of_summary hs]
    by_cases hv : c.verbose = 0 <;> simp [hv]
  | error f =>
    rw [logged_of_fault hs]
    exact List.append_nil _

theorem registered_of_mem_requests {p : Log.Record × Bool} (h : p ∈ c.requests w)
    (uses : List Log.Use) : Log.Registered uses p.1.logger := by
  rcases List.mem_append.mp h with h | h
  · obtain ⟨r, hr, rfl⟩ := List.mem_map.mp h
    exact registered_of_mem_records hr uses
  · cases hs : c.summary w with
    | ok text =>
      rw [hs] at h
      rw [List.mem_singleton.mp h]
      exact Log.registered_converter uses
    | error f =>
      rw [hs] at h
      cases h

theorem registered_of_mem {r : Log.Record} (h : r ∈ (c.logged w).records)
    (uses : List Log.Use) : Log.Registered uses r.logger := by
  rw [← records_requests] at h
  obtain ⟨p, hp, rfl⟩ := List.mem_map.mp h
  exact registered_of_mem_requests (List.mem_of_mem_filter hp) uses

end Conversion

section
variable (c : Conversion) (w : Wording) (uses : List Log.Use) (v : Int)

/-- Whatever was done with the log before, what passes is written once and by name. -/
theorem writeAll_records :
    (Log.after (uses ++ [.verbosity v])).writeAll (c.logged w).records =
      (c.reported w v).map Log.Record.named := by
  rw [Log.writeAll_registered fun r hr => Conversion.registered_of_mem hr _,
    Log.threshold_verbosity]
  rfl

/-- The calls of the modules have the same records written. -/
theorem writtenBy_modules :
    Log.writtenBy (uses ++ [.verbosity v]) (c.calls w) =
      (c.reported w v).map Log.Record.named := by
  rw [Conversion.calls, Log.writtenBy_calls fun p hp => Conversion.registered_of_mem_requests hp _,
    Log.threshold_verbosity, Conversion.reported, ← c.records_requests, List.filter_map,
    List.filter_filter, List.map_map]
  simp only [Bool.and_comm]
  rfl

end

/-! ## The output stream -/

theorem render_eq_joined (lines : List Text) : render lines = joined lines := by
  rw [joined]
  induction lines with
  | nil => rfl
  | cons line rest ih =>
    cases rest with
    | nil => simp [render]
    | cons next rest =>
      rw [if_neg (List.cons_ne_nil _ _)] at ih ⊢
      rw [List.intercalate_cons_cons, List.append_assoc, List.append_assoc, ← ih]
      simp [render]

theorem foldl_take (e : Emitter) (es : List Event) : es.foldl Emitter.take e =
    ⟨e.lines ++ es.filterMap Event.line?, e.stream ++ render (es.filterMap Event.line?)⟩ := by
  induction es generalizing e with
  | nil => simp [render]
  | cons event es ih =>
    rw [List.foldl_cons, ih]
    cases event with
    | line origin t => simp [Emitter.take, Emitter.emit, Event.line?, render]
    | message m => rfl
    | trace t => rfl

theorem emitter_eq (r : Outcome) : r.emitter = ⟨r.emitted, render r.emitted⟩ :=
  foldl_take .empty r.events

/-- The log of a conversion, whatever was done with the log before, is told by its lines. All
modules have their records written at the verbosity that was set last, once and by name, also when
they are looked up by their calls. There is one record for each message, in order, whatever the
verbosity. From two on the lines that were read, a fatal one included, follow each other, each
with its trace in front of what there is to say about it, and below there is no trace. The figures
of the summary are those of these lines. It is the last record and the only one of its level, and
it is there just when the conversion has a verbosity and the log is set to one or more. It has words
where these are as documented; a fault of theirs is that of the conversion, and no record. The
output stream has received the lines that were emitted, which is the text of the conversion, whether
or not a line was fatal. -/
theorem log_mirrors_conversion (w : Wording) (o : Options) (lines : List Text)
    (earlier : List Log.Use) (v : Int) :
    let c := convert o lines
    let uses := earlier ++ [.verbosity v]
    let fed := linesThrough lines c.fatal
    let body := if 2 ≤ v then (positions fed).flatMap (Position.records o) ++ endTrace fed c.fatal
      else c.messages.map Message.record
    (Log.after uses).writeAll (c.logged w).records = (c.reported w v).map Log.Record.named ∧
      Log.writtenBy uses (c.calls w) = (c.reported w v).map Log.Record.named ∧
      (c.reported w v).filter (·.logger == Log.diagnosticLogger) = c.messages.map Message.record ∧
      fed.length = c.outcome.state.linesRead ∧
      (v < 2 → ∀ r ∈ c.reported w v, r.level ≠ .debug) ∧
      (∀ r ∈ body, r.level ≠ .info) ∧
      c.summary w = c.tally.summary w fed.length (byteCount fed) ∧
      (∀ text, c.summary w = .ok text → (c.logged w).result = .ok c ∧
        c.reported w v = body ++ if o.verbose ≠ 0 ∧ 1 ≤ v then
          [⟨Log.converterLogger, .info, text⟩] else []) ∧
      (∀ f, c.summary w = .error f → (c.logged w).result = .error f ∧ c.reported w v = body) ∧
      (w.Documented (largestFigure lines) → ∃ size, w.formatSize (byteCount fed) = .ok size ∧
        c.summary w = .ok (c.tally.words fed.length size)) ∧
      c.outcome.emitter = ⟨c.lines, c.text⟩ ∧ c.text = joined c.lines := by
  intro c uses fed body
  have hbody : c.outcome.records.filter (·.level.passes (.ofVerbosity v)) = body :=
    filter_outcome_records o lines v
  have hverbose : c.verbose = o.verbose := verbose_convert o lines
  refine ⟨writeAll_records c w earlier v, writtenBy_modules c w earlier v, filter_diagnostic c w v,
    (countsRead_convert o lines).linesRead.symm, fun hv r hr => level_of_reported hv hr,
    fun r hr => ?_, summary_convert o lines w, fun text h => ?_, fun f h => ?_,
    exists_summary o lines, emitter_eq c.outcome, render_eq_joined c.lines⟩
  · rw [← hbody] at hr
    exact level_of_mem_records (List.mem_of_mem_filter hr)
  · rw [logged_of_summary h, reported_of_summary h, hbody, hverbose]
    exact ⟨rfl, rfl⟩
  · rw [logged_of_fault h, reported_of_fault h, hbody]
    exact ⟨rfl, rfl⟩

/-- A fragment that loses its target and a node that stops the conversion, traced in full. -/
theorem log_mirrors_conversion_of_stopped :
    let lines := ["/ \x7b", "\tfragment@0 \x7b", "\t\ttarget-path = \"/a\";", "\t\x7d;",
      "\t__x__ \x7b", "\x7d;"].map String.toList
    let c := convert ⟨false, true, 1⟩ lines
    (c.logged Quantity.wording).result = .ok c ∧
      (Log.after [.register "m", .verbosity 2]).writeAll (c.logged Quantity.wording).records =
      ["[dtsugar.convert][DEBUG]: line 1: depth: 0 shape: NODE_OPEN name: '/' fragment: False\n",
        "[dtsugar.convert][DEBUG]: line 2: depth: 1 shape: NODE_OPEN name: 'fragment@0' " ++
          "fragment: False\n",
        "[dtsugar.convert][DEBUG]: line 3: depth: 2 shape: TARGET_PATH name: '' " ++
          "fragment: True\n",
        "[dtsugar.diag][WARNING]: line 3: target-path not supported (\"/a\" in fragment@0)\n",
        "[dtsugar.convert][DEBUG]: line 4: depth: 2 shape: NODE_CLOSE name: '' " ++
          "fragment: True\n",
        "[dtsugar.convert][DEBUG]: fragment@0: unused target '/a' discarded\n",
        "[dtsugar.convert][DEBUG]: line 5: depth: 1 shape: NODE_OPEN name: '__x__' " ++
          "fragment: False\n",
        "[dtsugar.diag][ERROR]: line 5: illegal node name '__x__'\n",
        "[dtsugar.convert][INFO]: converted 5 lines (48 bytes): 1 error, 1 warning, " ++
          "0 root properties\n"] := by
  intro lines c
  obtain ⟨hlog, -, -, -, -, -, -, hsummary, -, hwords, -⟩ :=
    log_mirrors_conversion Quantity.wording ⟨false, true, 1⟩ lines [.register "m"] 2
  have hlimit : largestFigure lines < Quantity.binary64Limit := by decide +kernel
  obtain ⟨size, -, htext⟩ := hwords (documented_wording hlimit)
  refine ⟨(hsummary _ htext).1, hlog.trans ?_⟩
  decide +kernel

end OverlaySugar
