import OverlaySugar.Proofs.LoggerHistory

/-!
# What log calls write

In whatever order the log is used, all loggers report from the level of the
last verbosity, and a call that reaches it writes one record, by the name of
its logger if that logger or one above it is registered.
-/

set_option autoImplicit false

namespace OverlaySugar.Log
open Registry

namespace Use

def verbosity? : Use → Option Int
  | .verbosity v => some v
  | _ => none

end Use

def threshold (uses : List Use) : Level :=
  .ofVerbosity ((uses.filterMap Use.verbosity?).getLast?.getD 0)

def Registered (uses : List Use) (name : String) : Prop :=
  isRootName name = false ∧ (name ∈ [diagnosticLogger, converterLogger] ∨ .register name ∈ uses)

instance (uses : List Use) (name : String) : Decidable (Registered uses name) :=
  inferInstanceAs (Decidable (_ ∧ _))

variable {r r' : Registry} {uses : List Use} {u : Use} {x n m : String}

/-! ## Levels and handlers -/

theorem rootLevel_put (r : Registry) (x : String) (e : Entry) : (r.put x e).rootLevel = r.rootLevel :=
  rfl

theorem rootLevel_update (r : Registry) (x : String) (f : Logger → Logger) :
    (r.update x f).rootLevel = r.rootLevel := by
  unfold update
  split <;> rfl

theorem rootLevel_adopt (x : String) (below : List String) (r : Registry) :
    (adopt x below r).rootLevel = r.rootLevel := by
  induction below generalizing r with
  | nil => rfl
  | cons child rest ih =>
    unfold adopt
    split
    · exact ih r
    · split
      · exact ih r
      · rw [ih, setParent, rootLevel_update]

theorem rootLevel_attach (x : String) (above : List String) (r : Registry) :
    (attach x above r).rootLevel = r.rootLevel := by
  induction above generalizing r with
  | nil => exact rootLevel_update r x _
  | cons b rest ih =>
    unfold attach
    split
    · exact rootLevel_update r x _
    · rw [ih, rootLevel_put]
    · rw [ih, rootLevel_put]

theorem rootLevel_ensure (r : Registry) (x : String) : (r.ensure x).rootLevel = r.rootLevel := by
  rcases ensure_cases r x with h | h
  · rw [h]
  · rw [ensure_of_fresh h, rootLevel_attach, rootLevel_adopt, rootLevel_put]

theorem threshold_concat (uses : List Use) (u : Use) :
    threshold (uses ++ [u]) = (u.verbosity?.map Level.ofVerbosity).getD (threshold uses) := by
  rw [threshold, List.filterMap_append]
  cases u <;> simp [Use.verbosity?, threshold]

theorem threshold_verbosity (uses : List Use) (v : Int) :
    threshold (uses ++ [.verbosity v]) = .ofVerbosity v := by
  rw [threshold_concat]
  rfl

theorem registered_concat_iff :
    Registered (uses ++ [u]) n ↔ Registered uses n ∨ isRootName n = false ∧ u = .register n := by
  simp only [Registered, List.mem_append, List.mem_singleton, eq_comm (a := u)]
  tauto

structure Tuned (uses : List Use) (r : Registry) : Prop where
  rootLevel : r.rootLevel = threshold uses
  level : ∀ {n l}, r.logger? n = some l → l.level = none ∨
    programStem.toList.isPrefixOf n.toList = true ∧ l.level = some (threshold uses)
  handled : ∀ {n l}, r.logger? n = some l → (l.handled = true ↔ Registered uses n)
  propagates : ∀ {n l}, r.logger? n = some l → l.propagates = !l.handled
  registered : ∀ {n}, Registered uses n → r.isLogger n = true
  notRoot : ∀ {n}, r.isLogger n = true → isRootName n = false

namespace Tuned

theorem ensure (h : Tuned uses r) (x : String) : Tuned uses (r.ensure x) := by
  rcases ensure_cases r x with hsame | hx
  · rwa [hsame]
  have hcases : ∀ {n l}, (r.ensure x).logger? n = some l →
      (∃ l', r.logger? n = some l' ∧ l = { l' with parent := l.parent }) ∨
      n = x ∧ l = ⟨x, none, false, true, l.parent⟩ := by
    intro n l hl
    rw [logger?_ensure hx] at hl
    split at hl
    · next hnx =>
      cases hl
      exact .inr ⟨hnx, rfl⟩
    · obtain ⟨l', hl', rfl⟩ := Option.map_eq_some_iff.mp hl
      refine .inl ⟨l', hl', ?_⟩
      split <;> rfl
  have hnew : ¬ Registered uses x := by
    intro hreg
    have hlogger := h.registered hreg
    rw [hx.notLogger] at hlogger
    cases hlogger
  refine ⟨(rootLevel_ensure r x).trans h.rootLevel, fun {n l} hl => ?_, fun {n l} hl => ?_,
    fun {n l} hl => ?_, fun {n} hreg => isLogger_ensure_of_isLogger x (h.registered hreg),
    fun {n} hn => ?_⟩
  · rcases hcases hl with ⟨l', hl', heq⟩ | ⟨rfl, heq⟩
    · have hlevel := h.level hl'
      rwa [heq]
    · rw [heq]
      exact .inl rfl
  · rcases hcases hl with ⟨l', hl', heq⟩ | ⟨rfl, heq⟩
    · have hhandled := h.handled hl'
      rwa [heq]
    · rw [heq]
      simp [hnew]
  · rcases hcases hl with ⟨l', hl', heq⟩ | ⟨rfl, heq⟩
    · have hpropagates := h.propagates hl'
      rwa [heq]
    · rw [heq]
      rfl
  · by_cases hnx : n = x
    · exact hnx ▸ hx.notRoot
    · rw [isLogger_ensure hx] at hn
      exact h.notRoot (by simpa [hnx] using hn)

/-- What the verbosity and the registered names have become is all that matters. -/
theorem congr (h : Tuned uses r) {uses' : List Use} (hthreshold : threshold uses' = threshold uses)
    (hreg : ∀ n, Registered uses' n ↔ Registered uses n) : Tuned uses' r := by
  refine ⟨h.rootLevel.trans hthreshold.symm, fun hl => ?_, fun hl => ?_, h.propagates, fun hn => ?_,
    h.notRoot⟩
  · rw [hthreshold]
    exact h.level hl
  · rw [hreg]
    exact h.handled hl
  · exact h.registered ((hreg _).mp hn)

theorem call (h : Tuned uses r) (level : Level) (caller message : String)
    (explicit : Option String) (enabled : Bool) :
    Tuned (uses ++ [.call level caller message explicit enabled])
      (r.call level caller message explicit enabled).1 := by
  refine (h.ensure _).congr ?_ fun n => ?_
  · rw [threshold_concat]
    rfl
  · rw [registered_concat_iff]
    simp

theorem verbosity (h : Tuned uses r) (v : Int) :
    Tuned (uses ++ [.verbosity v]) (r.setVerbosity v) := by
  have hthreshold := threshold_verbosity uses v
  have hreg : ∀ n, Registered (uses ++ [.verbosity v]) n ↔ Registered uses n := by
    intro n
    rw [registered_concat_iff]
    simp
  have htree := sameTree_setLevels r programStem (.ofVerbosity v)
  have hcases : ∀ {n l}, (r.setVerbosity v).logger? n = some l → ∃ l', r.logger? n = some l' ∧
      l.level = (if programStem.toList.isPrefixOf n.toList then some (.ofVerbosity v) else l'.level) ∧
      l.handled = l'.handled ∧ l.propagates = l'.propagates := by
    intro n l hl
    rw [setVerbosity, logger?_setLevels] at hl
    obtain ⟨l', hl', rfl⟩ := Option.map_eq_some_iff.mp hl
    refine ⟨l', hl', ?_⟩
    split <;> exact ⟨rfl, rfl, rfl⟩
  refine ⟨hthreshold.symm, fun hl => ?_, fun hl => ?_, fun hl => ?_, fun hn => ?_, fun hn => ?_⟩
  · obtain ⟨l', hl', hlevel, -, -⟩ := hcases hl
    rw [hlevel]
    split
    · next hstem => exact .inr ⟨hstem, congrArg some hthreshold.symm⟩
    · next hstem => exact .inl ((h.level hl').resolve_right fun hlevel => hstem hlevel.1)
  · obtain ⟨l', hl', -, hhandled, -⟩ := hcases hl
    rw [hreg, hhandled]
    exact h.handled hl'
  · obtain ⟨l', hl', -, hhandled, hpropagates⟩ := hcases hl
    rw [hhandled, hpropagates]
    exact h.propagates hl'
  · rw [setVerbosity, htree.isLogger]
    exact h.registered ((hreg _).mp hn)
  · rw [setVerbosity, htree.isLogger] at hn
    exact h.notRoot hn

theorem register (h : Tuned uses r) (x : String) :
    Tuned (uses ++ [.register x]) (r.register x) := by
  have hthreshold : threshold (uses ++ [.register x]) = threshold uses := by
    rw [threshold_concat]
    rfl
  have hensure := h.ensure x
  have htree := sameTree_register r x
  have hcases : ∀ {n l}, (r.register x).logger? n = some l → ∃ l', (r.ensure x).logger? n = some l' ∧
      l.level = l'.level ∧ l.handled = (l'.handled || n == x) ∧
      l.propagates = (l'.propagates && (l'.handled || n != x)) := by
    intro n l hl
    rw [Registry.register, logger?_update] at hl
    obtain ⟨l', hl', rfl⟩ := Option.map_eq_some_iff.mp hl
    refine ⟨l', hl', ?_⟩
    by_cases hnx : n = x
    · cases hhandled : l'.handled <;> simp [hnx, hhandled]
    · simp [hnx]
  refine ⟨?_, fun hl => ?_, fun {n l} hl => ?_, fun {n l} hl => ?_, fun {n} hn => ?_, fun hn => ?_⟩
  · rw [Registry.register, rootLevel_update, hthreshold]
    exact hensure.rootLevel
  · obtain ⟨l', hl', hlevel, -, -⟩ := hcases hl
    rw [hthreshold, hlevel]
    exact hensure.level hl'
  · obtain ⟨l', hl', -, hhandled, -⟩ := hcases hl
    have hroot : isRootName n = false := hensure.notRoot (by simp [isLogger, hl'])
    rw [hhandled, registered_concat_iff, Bool.or_eq_true, hensure.handled hl', beq_iff_eq]
    simp [hroot, eq_comm]
  · obtain ⟨l', hl', -, hhandled, hpropagates⟩ := hcases hl
    rw [hhandled, hpropagates, hensure.propagates hl']
    by_cases hnx : n = x <;> cases l'.handled <;> simp [hnx, bne]
  · rw [htree.isLogger]
    rcases registered_concat_iff.mp hn with hn | ⟨hroot, hn⟩
    · exact hensure.registered hn
    · cases hn
      exact isLogger_ensure_self hroot r
  · rw [htree.isLogger] at hn
    exact hensure.notRoot hn

theorem use (h : Tuned uses r) (u : Use) : Tuned (uses ++ [u]) (r.use u).1 := by
  cases u with
  | verbosity v => exact h.verbosity v
  | register x => exact h.register x
  | call level caller message explicit enabled => exact h.call level caller message explicit enabled

end Tuned

/-- The two loggers of the start are registered on an empty registry. -/
theorem tuned_startup : Tuned [] startup := by
  have hcases : ∀ {n l}, startup.logger? n = some l →
      (n = diagnosticLogger ∨ n = converterLogger) ∧ l = ⟨n, none, true, false, none⟩ := by
    intro n l hl
    have hn := isLogger_startup (n := n) (by simp [isLogger, hl])
    refine ⟨hn, ?_⟩
    have hvalue : startup.logger? n = some ⟨n, none, true, false, none⟩ := by
      rcases hn with rfl | rfl <;> decide +kernel
    exact Option.some.inj (hl.symm.trans hvalue)
  refine ⟨rfl, fun hl => ?_, fun hl => ?_, fun hl => ?_, fun hn => ?_, fun hn => ?_⟩
  · rw [(hcases hl).2]
    exact .inl rfl
  · obtain ⟨hn, rfl⟩ := hcases hl
    rcases hn with rfl | rfl <;> simp [Registered] <;> decide
  · rw [(hcases hl).2]
    rfl
  · rcases List.mem_cons.mp (hn.2.resolve_right List.not_mem_nil) with rfl | hn
    · decide +kernel
    · rw [List.mem_singleton.mp hn]
      decide +kernel
  · rcases isLogger_startup hn with rfl | rfl <;> decide

theorem tuned_after (uses : List Use) : Tuned uses (after uses) := by
  induction uses using List.reverseRecOn with
  | nil => exact tuned_startup
  | append_singleton uses u ih =>
    rw [after_concat]
    exact ih.use u

/-! ## What is written -/

/-- One handler on the way up writes, that of the root if there is no other. -/
theorem handle_eq (record : Record) {ls : List Logger} (h : ∀ l ∈ ls, l.propagates = !l.handled) :
    handle record ls = [if ls.any (·.handled) then record.named else record.bare] := by
  induction ls with
  | nil => rfl
  | cons l above ih =>
    have hl := h l List.mem_cons_self
    rw [handle, hl, ih fun l' hl' => h l' (List.mem_cons_of_mem _ hl')]
    cases hhandled : l.handled <;> simp [hhandled]

theorem effectiveLevel_eq (h : ∀ l ∈ r.lineage n, l.level = none ∨ l.level = some r.rootLevel) :
    r.effectiveLevel n = r.rootLevel := by
  rw [effectiveLevel]
  cases hfind : (r.lineage n).findSome? (·.level) with
  | none => rfl
  | some level =>
    obtain ⟨l, hl, hlevel⟩ := List.exists_of_findSome?_eq_some hfind
    rcases h l hl with hnone | hsome
    · rw [hnone] at hlevel
      cases hlevel
    · exact Option.some.inj (hlevel.symm.trans hsome)

theorem effectiveLevel_after (uses : List Use) (n : String) :
    (after uses).effectiveLevel n = threshold uses := by
  have htuned := tuned_after uses
  rw [← htuned.rootLevel]
  refine effectiveLevel_eq fun l hl => ?_
  obtain ⟨m, hm⟩ := logger?_of_mem_lineageFrom hl
  rw [htuned.rootLevel]
  exact (htuned.level hm).imp_right And.right

/-- A record is written by its logger's name if a registered logger is on the way up. -/
theorem any_handled_iff (uses : List Use) (n : String) :
    ((after uses).lineage n).any (·.handled) = true ↔
      ∃ m, Relation.ReflTransGen (HangsBelow uses) n m ∧ Registered uses m := by
  have htuned := tuned_after uses
  have hparent : (after uses).Parent = HangsBelow uses := by
    funext n m
    exact propext parent_after_iff
  rw [← hparent, List.any_eq_true]
  constructor
  · rintro ⟨l, hl, hhandled⟩
    obtain ⟨m, hpath, hm⟩ := (wired_after uses).mem_lineage_iff.mp hl
    exact ⟨m, hpath, (htuned.handled hm).mp hhandled⟩
  · rintro ⟨m, hpath, hreg⟩
    obtain ⟨l, hl⟩ := Option.isSome_iff_exists.mp (htuned.registered hreg)
    exact ⟨l, (wired_after uses).mem_lineage_iff.mpr ⟨m, hpath, hl⟩, (htuned.handled hl).mpr hreg⟩

theorem HangsBelow.heads (h : HangsBelow uses n m) : Heads m n := heads_of_nearest? h.nearest

/-- Who stands above a logger has a name that heads its own. -/
theorem eq_or_heads_of_path (h : Relation.ReflTransGen (HangsBelow uses) n m) :
    m = n ∨ Heads m n := by
  induction h using Relation.ReflTransGen.head_induction_on with
  | refl => exact .inl rfl
  | head hstep hpath ih =>
    rcases ih with rfl | ih
    · exact .inr hstep.heads
    · exact .inr (ih.trans hstep.heads)

/-- Loggers whose names head another's stand above it, but for dots side by side and short names. -/
theorem path_of_heads (hn : (after uses).isLogger n = true) (hdots : SingleDots n)
    (hm : (after uses).isLogger m = true) (hne : m ≠ "") (hshort : m ∉ shortRootNames)
    (h : Heads m n) : Relation.ReflTransGen (HangsBelow uses) n m := by
  induction hlen : n.toList.length using Nat.strongRecOn generalizing n with
  | ind len ih =>
    subst hlen
    have hmem : m ∈ ancestorNames n := mem_ancestorNames hdots hne h
    obtain ⟨k, hk⟩ : ∃ k, (after uses).nearest? n = some k := by
      rw [← Option.isSome_iff_exists, nearest?, List.find?_isSome]
      exact ⟨m, hmem, hm⟩
    by_cases hmk : m = k
    · subst hmk
      exact .single ⟨hn, hk, fun hs => absurd hs hshort⟩
    · -- The nearest logger is headed as well, so its name is not short.
      have hheads : Heads m k :=
        rel_of_find? (R := fun a b => Heads b a) (pairwise_ancestorNames n) hmem hm hk hmk
      have hstep : HangsBelow uses n k :=
        ⟨hn, hk, fun hs => absurd hs (notMem_shortRootNames hheads.dot_mem)⟩
      exact .head hstep (ih _ hstep.heads.length_lt (isLogger_of_nearest? hk)
        (hdots.of_heads hstep.heads) hheads rfl)

theorem isRootName_of_dot (h : '.' ∈ n.toList) : isRootName n = false := by
  rw [Bool.eq_false_iff]
  intro hroot
  rcases (Bool.or_eq_true _ _).mp hroot with hroot | hroot
  · rw [beq_iff_eq.mp hroot] at h
    exact absurd h (by decide)
  · rw [beq_iff_eq.mp hroot] at h
    exact absurd h (by decide)

theorem threshold_call (earlier : List Use) (level : Level) (caller message : String)
    (explicit : Option String) (enabled : Bool) :
    threshold (earlier ++ [.call level caller message explicit enabled]) = threshold earlier := by
  rw [threshold_concat]
  rfl

/-- A record that passes is written once, by its name or without. -/
theorem write_after (uses : List Use) (record : Record) : (after uses).write record =
    if record.level.passes (threshold uses) then
      [if ((after uses).lineage record.logger).any (·.handled) then record.named else record.bare]
    else [] := by
  have hlineage : ∀ l ∈ (after uses).lineage record.logger, l.propagates = !l.handled := by
    intro l hl
    obtain ⟨m, hm⟩ := logger?_of_mem_lineageFrom hl
    exact (tuned_after uses).propagates hm
  rw [write, effectiveLevel_after, handle_eq record hlineage]

/-- A call writes for the loggers as they are once its own is one. -/
theorem written_by_call (earlier : List Use) (level : Level) (caller message : String)
    (explicit : Option String) (enabled : Bool) :
    let call := Use.call level caller message explicit enabled
    let name := (after earlier).loggerFor caller explicit
    let record : Record := ⟨name, level, message⟩
    ((after earlier).use call).2 =
      if enabled && level.passes (threshold earlier) then
        [if ((after (earlier ++ [call])).lineage name).any (·.handled) then record.named
          else record.bare]
      else [] := by
  intro call name record
  have hafter : (after earlier).ensure name = after (earlier ++ [call]) :=
    (after_concat earlier call).symm
  have hwrite : (after (earlier ++ [call])).write record =
      if level.passes (threshold earlier) then
        [if ((after (earlier ++ [call])).lineage name).any (·.handled) then record.named
          else record.bare]
      else [] := by
    rw [write_after, threshold_call]
  change (if enabled then ((after earlier).ensure name).write record else []) = _
  rw [hafter, hwrite]
  cases enabled <;> simp

/-- Whatever was done before, all loggers report from the level of the last verbosity, and a call
that reaches it writes one record and any other call none. The record has the name of its logger if
that logger or one above it is registered. All loggers whose names head it are above it, if no dots
stand side by side in its name, but for those of short names that are younger. -/
theorem call_writes_once (earlier : List Use) (level : Level) (caller message : String)
    (explicit : Option String) (enabled : Bool) :
    let call := Use.call level caller message explicit enabled
    let uses := earlier ++ [call]
    let name := (after earlier).loggerFor caller explicit
    let record : Record := ⟨name, level, message⟩
    let above := Relation.ReflTransGen (HangsBelow uses)
    (∀ n, (after earlier).effectiveLevel n = threshold earlier) ∧
      (∃ text, ((after earlier).use call).2 =
          (if enabled && level.passes (threshold earlier) then [text] else []) ∧
        ((∃ m, above name m ∧ Registered earlier m) ∧ text = record.named ∨
          (¬ ∃ m, above name m ∧ Registered earlier m) ∧ text = record.bare)) ∧
      (∀ m, above name m → m = name ∨ Heads m name) ∧
      ∀ m, SingleDots name → Heads m name → Registered earlier m → m ∉ shortRootNames →
        above name m := by
  intro call uses name record above
  have hreg : ∀ m, Registered uses m ↔ Registered earlier m := by
    intro m
    rw [registered_concat_iff]
    simp [call]
  have htuned := tuned_after uses
  refine ⟨effectiveLevel_after earlier, ?_, fun m => eq_or_heads_of_path, ?_⟩
  · have hany := any_handled_iff uses name
    simp only [hreg] at hany
    refine ⟨_, written_by_call earlier level caller message explicit enabled, ?_⟩
    by_cases hmarked : ∃ m, above name m ∧ Registered earlier m
    · exact .inl ⟨hmarked, if_pos (hany.mpr hmarked)⟩
    · exact .inr ⟨hmarked, if_neg (mt hany.mp hmarked)⟩
  · intro m hdots hheads hm hshort
    have hname : (after uses).isLogger name = true := by
      rw [after_concat]
      exact isLogger_ensure_self (isRootName_of_dot hheads.dot_mem) _
    have hne : m ≠ "" := by
      rintro rfl
      exact absurd hm.1 (by decide)
    exact path_of_heads hname hdots (htuned.registered ((hreg m).mpr hm)) hne hshort hheads

/-- A registered logger of a short name writes nothing for one below it that was there before. -/
theorem young_short_name_unseen :
    ¬ ∀ (earlier : List Use) (name above : String) (level : Level) (caller message : String),
      SingleDots name → Heads above name → Registered earlier above →
      level.passes (threshold earlier) = true →
      ((after earlier).use (.call level caller message (some name) true)).2 =
        [Record.named ⟨name, level, message⟩] := by
  intro h
  have hnamed := h [.call .warning "m" "x" (some "r.x") true, .register "r"] "r.x" "r" .warning
    "m" "x" (by decide) ⟨['x'], by decide⟩ (by decide) (by decide)
  exact absurd hnamed (by decide +kernel)

end OverlaySugar.Log
