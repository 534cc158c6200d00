import OverlaySugar.Proofs.LoggerTree

/-!
# Loggers over the uses of the log

The log is used by setting the verbosity, by registering loggers and by calls.
Each use makes one logger at most. What hangs below what afterwards follows
from the names and, for those that the root's own name starts with, from which
of two loggers came first.
-/

set_option autoImplicit false

namespace OverlaySugar.Log

inductive Use
  | verbosity (verbose : Int)
  | register (name : String)
  | call (level : Level) (caller message : String) (explicit : Option String) (enabled : Bool)
  deriving DecidableEq, Repr

namespace Registry

def use (r : Registry) : Use → Registry × List String
  | .verbosity v => (r.setVerbosity v, [])
  | .register name => (r.register name, [])
  | .call level caller message explicit enabled => r.call level caller message explicit enabled

end Registry

open Registry

def after (uses : List Use) : Registry := uses.foldl (fun r u => (r.use u).1) startup

def Precedes (uses : List Use) (m n : String) : Prop :=
  ∃ earlier, earlier <+: uses ∧ (after earlier).isLogger m = true ∧
    (after earlier).isLogger n = false

structure HangsBelow (uses : List Use) (n m : String) : Prop where
  logger : (after uses).isLogger n = true
  nearest : (after uses).nearest? n = some m
  older : m ∈ shortRootNames → Precedes uses m n

variable {r r' : Registry} {uses : List Use} {u : Use} {x n m : String}

theorem after_concat (uses : List Use) (u : Use) : after (uses ++ [u]) = ((after uses).use u).1 := by
  simp [after]

/-! ## One use -/

structure SameTree (r r' : Registry) : Prop where
  isLogger : r'.isLogger = r.isLogger
  parentOf : r'.parentOf = r.parentOf
  waiting : r'.waiting = r.waiting

namespace SameTree

theorem refl (r : Registry) : SameTree r r := ⟨rfl, rfl, rfl⟩

theorem nearest? (h : SameTree r r') (n : String) : r'.nearest? n = r.nearest? n := by
  rw [Registry.nearest?, Registry.nearest?, h.isLogger]

theorem wired (h : SameTree r r') (hr : r.Wired) : r'.Wired := by
  refine ⟨fun {n a} hn ha => ?_, fun {n a} ha => ?_, fun {n} hn => ?_⟩
  · rw [passedOver, h.isLogger] at ha
    rw [h.isLogger] at hn
    rw [h.waiting]
    exact hr.waits hn ha
  · rw [h.waiting] at ha
    rw [h.isLogger]
    exact hr.waited ha
  · rw [h.isLogger] at hn
    rw [h.parentOf, h.nearest?]
    exact hr.parent hn

end SameTree

theorem sameTree_of_map {f : String → Logger → Logger} (hf : ∀ n l, (f n l).parent = l.parent)
    (hlogger : ∀ n, r'.logger? n = (r.logger? n).map (f n)) (hwaiting : ∀ n, r'.waiting n = r.waiting n) :
    SameTree r r' := by
  refine ⟨?_, ?_, funext hwaiting⟩
  · funext n
    rw [isLogger, hlogger, Option.isSome_map, isLogger]
  · funext n
    rw [parentOf, hlogger, parentOf]
    cases r.logger? n with
    | none => rfl
    | some l => exact hf n l

def Entry.relevel (stem : String) (level : Level) (name : String) : Entry → Entry
  | .logger l =>
    .logger (if stem.toList.isPrefixOf name.toList then { l with level := some level } else l)
  | e => e

theorem find?_setLevels (r : Registry) (stem : String) (level : Level) (n : String) :
    (r.setLevels stem level).find? n = (r.find? n).map (Entry.relevel stem level n) := by
  have hentries : (r.setLevels stem level).entries =
      r.entries.map fun p => (p.1, Entry.relevel stem level p.1 p.2) := by
    refine List.map_congr_left fun p _ => ?_
    obtain ⟨k, e⟩ := p
    cases e <;> rfl
  rw [find?, hentries, lookup_map_values, find?]

theorem logger?_setLevels (r : Registry) (stem : String) (level : Level) (n : String) :
    (r.setLevels stem level).logger? n = (r.logger? n).map fun l =>
      if stem.toList.isPrefixOf n.toList then { l with level := some level } else l := by
  rw [logger?, find?_setLevels, logger?]
  rcases r.find? n with - | e
  · rfl
  · cases e <;> rfl

theorem waiting_setLevels (r : Registry) (stem : String) (level : Level) (n : String) :
    (r.setLevels stem level).waiting n = r.waiting n := by
  rw [waiting, find?_setLevels, waiting]
  rcases r.find? n with - | e
  · rfl
  · cases e <;> rfl

theorem sameTree_setLevels (r : Registry) (stem : String) (level : Level) :
    SameTree r (r.setLevels stem level) := by
  refine sameTree_of_map ?_ (logger?_setLevels r stem level) (waiting_setLevels r stem level)
  intro n l
  split <;> rfl

theorem sameTree_register (r : Registry) (x : String) : SameTree (r.ensure x) (r.register x) := by
  refine sameTree_of_map ?_ (logger?_update (r.ensure x) x · _) (waiting_update (r.ensure x) x · _)
  intro n l
  split
  · split <;> rfl
  · rfl

/-- A use makes at most one logger. -/
theorem exists_sameTree_ensure (r : Registry) (u : Use) :
    ∃ x, SameTree (r.ensure x) (r.use u).1 := by
  cases u with
  | verbosity v =>
    refine ⟨rootName, ?_⟩
    rw [ensure_of_root rfl]
    exact sameTree_setLevels r _ _
  | register name => exact ⟨name, sameTree_register r name⟩
  | call level caller message explicit enabled => exact ⟨_, .refl _⟩

/-! ## The loggers after some uses -/

theorem Registry.Wired.use (h : r.Wired) (u : Use) : (r.use u).1.Wired := by
  obtain ⟨x, hx⟩ := exists_sameTree_ensure r u
  exact hx.wired (h.ensure x)

theorem Registry.Wired.register (h : r.Wired) (x : String) : (r.register x).Wired := h.use (.register x)

theorem wired_empty : empty.Wired where
  waits h _ := absurd h Bool.false_ne_true
  waited h := absurd h List.not_mem_nil
  parent h := absurd h Bool.false_ne_true

theorem wired_startup : startup.Wired := (wired_empty.register _).register _

theorem wired_after (uses : List Use) : (after uses).Wired := by
  induction uses using List.reverseRecOn with
  | nil => exact wired_startup
  | append_singleton uses u ih =>
    rw [after_concat]
    exact ih.use u

theorem isLogger_ensure_of_isLogger (x : String) (hn : r.isLogger n = true) :
    (r.ensure x).isLogger n = true := by
  rcases r.ensure_cases x with hsame | hx
  · rwa [hsame]
  · rw [isLogger_ensure hx]
    simp [hn]

theorem isLogger_ensure_self (hroot : isRootName x = false) (r : Registry) :
    (r.ensure x).isLogger x = true := by
  by_cases hlogger : r.isLogger x = true
  · rwa [ensure_of_isLogger hlogger]
  · rw [isLogger_ensure ⟨hroot, by simpa using hlogger⟩]
    simp

theorem isLogger_use (u : Use) (hn : r.isLogger n = true) : (r.use u).1.isLogger n = true := by
  obtain ⟨x, hx⟩ := exists_sameTree_ensure r u
  rw [hx.isLogger]
  exact isLogger_ensure_of_isLogger x hn

theorem isLogger_of_prefix {earlier : List Use} (h : earlier <+: uses)
    (hn : (after earlier).isLogger n = true) : (after uses).isLogger n = true := by
  induction uses using List.reverseRecOn with
  | nil =>
    obtain rfl := List.prefix_nil.mp h
    exact hn
  | append_singleton uses u ih =>
    rcases List.prefix_concat_iff.mp h with rfl | h
    · exact hn
    · rw [after_concat]
      exact isLogger_use u (ih h)

theorem isLogger_of_precedes (h : Precedes uses m n) : (after uses).isLogger m = true := by
  obtain ⟨earlier, hearlier, hm, -⟩ := h
  exact isLogger_of_prefix hearlier hm

/-- A use changes nothing about what came before a logger. -/
theorem precedes_concat_iff (hn : (after (uses ++ [u])).isLogger n = true) :
    Precedes (uses ++ [u]) m n ↔ Precedes uses m n := by
  constructor
  · rintro ⟨earlier, hearlier, hm, hnot⟩
    rcases List.prefix_concat_iff.mp hearlier with rfl | hearlier
    · rw [hn] at hnot
      cases hnot
    · exact ⟨earlier, hearlier, hm, hnot⟩
  · rintro ⟨earlier, hearlier, h⟩
    exact ⟨earlier, hearlier.trans (List.prefix_append _ _), h⟩

theorem hangsBelow_concat_iff (hn : (after (uses ++ [u])).isLogger n = true)
    (hn' : (after uses).isLogger n = true)
    (hnearest : (after (uses ++ [u])).nearest? n = (after uses).nearest? n) :
    HangsBelow (uses ++ [u]) n m ↔ HangsBelow uses n m := by
  constructor
  · rintro ⟨-, hm, hold⟩
    exact ⟨hn', hnearest ▸ hm, fun h => (precedes_concat_iff hn).mp (hold h)⟩
  · rintro ⟨-, hm, hold⟩
    exact ⟨hn, hnearest.trans hm, fun h => (precedes_concat_iff hn).mpr (hold h)⟩

theorem isLogger_of_parent (h : r.Parent n m) : r.isLogger n = true := by
  obtain ⟨l, hl, -⟩ := Option.bind_eq_some_iff.mp h
  simp [isLogger, hl]

theorem isLogger_startup (hn : startup.isLogger n = true) :
    n = diagnosticLogger ∨ n = converterLogger := by
  have hfresh : empty.Fresh diagnosticLogger := ⟨by decide, by decide⟩
  have hfresh' : (empty.register diagnosticLogger).Fresh converterLogger :=
    ⟨by decide, by decide +kernel⟩
  rw [startup, (sameTree_register _ _).isLogger, isLogger_ensure hfresh',
    (sameTree_register _ _).isLogger, isLogger_ensure hfresh] at hn
  have hempty : empty.isLogger n = false := rfl
  simpa [hempty] using hn

theorem parent_startup_iff : (after []).Parent n m ↔ HangsBelow [] n m := by
  constructor
  · intro hm
    have hnone : startup.parentOf n = none := by
      rcases isLogger_startup (isLogger_of_parent hm) with rfl | rfl <;> decide +kernel
    exact absurd (hnone.symm.trans hm) (by simp)
  · rintro ⟨hn, hm, -⟩
    have hnone : startup.nearest? n = none := by
      rcases isLogger_startup hn with rfl | rfl <;> decide +kernel
    exact absurd (hnone.symm.trans hm) (by simp)

/-! ## A use that makes a logger -/

section
variable (hx : SameTree ((after uses).ensure x) (after (uses ++ [u]))) (hfresh : (after uses).Fresh x)
include hx hfresh

theorem nearest?_concat (n : String) : (after (uses ++ [u])).nearest? n =
    if x ∈ (after uses).passedOver n then some x else (after uses).nearest? n := by
  rw [hx.nearest?, nearest?_ensure hfresh]

/-- The new logger hangs below the nearest one, which was there before it. -/
theorem parent_concat_self : (after (uses ++ [u])).Parent x m ↔ HangsBelow (uses ++ [u]) x m := by
  have hn : (after (uses ++ [u])).isLogger x = true := by simp [hx.isLogger, isLogger_ensure hfresh]
  have hover : x ∉ (after uses).passedOver x :=
    fun hmem => notMem_ancestorNames x (List.takeWhile_subset _ hmem)
  have hnearest : (after (uses ++ [u])).nearest? x = (after uses).nearest? x := by
    rw [nearest?_concat hx hfresh, if_neg hover]
  rw [Parent, hx.parentOf, parentOf_ensure_self hfresh]
  refine ⟨fun hm => ⟨hn, hnearest.trans hm, fun _ => ?_⟩, fun hm => hnearest ▸ hm.nearest⟩
  exact ⟨uses, List.prefix_append _ _, isLogger_of_nearest? hm, hfresh.notLogger⟩

/-- A logger that the new one stands right above is moved below it, but not if its name is short:
then it is not the older of the two. -/
theorem parent_concat_of_passedOver (hne : n ≠ x) (hn : (after uses).isLogger n = true)
    (hover : x ∈ (after uses).passedOver n) :
    (after (uses ++ [u])).Parent n m ↔ HangsBelow (uses ++ [u]) n m := by
  have hn' : (after (uses ++ [u])).isLogger n = true := by
    simp [hx.isLogger, isLogger_ensure hfresh, hn]
  have hnearest : (after (uses ++ [u])).nearest? n = some x := by
    rw [nearest?_concat hx hfresh, if_pos hover]
  have hyoung : ¬ Precedes (uses ++ [u]) x n := by
    intro h
    have hlogger := isLogger_of_precedes ((precedes_concat_iff hn').mp h)
    rw [hfresh.notLogger] at hlogger
    cases hlogger
  rw [Parent, hx.parentOf, (wired_after uses).parentOf_of_passedOver hfresh hne hn hover]
  constructor
  · intro hm
    split at hm
    · cases hm
    · next hshort =>
      cases hm
      exact ⟨hn', hnearest, fun h => absurd h hshort⟩
  · rintro ⟨-, hm, hold⟩
    obtain rfl : x = m := Option.some.inj (hnearest.symm.trans hm)
    rw [if_neg fun h => hyoung (hold h)]

end

theorem parent_after_iff : (after uses).Parent n m ↔ HangsBelow uses n m := by
  induction uses using List.reverseRecOn generalizing m with
  | nil => exact parent_startup_iff
  | append_singleton uses u ih =>
    by_cases hn : (after (uses ++ [u])).isLogger n = true
    swap
    · exact ⟨fun hm => absurd (isLogger_of_parent hm) hn, fun hm => absurd hm.logger hn⟩
    obtain ⟨x, hx⟩ := exists_sameTree_ensure (after uses) u
    rw [← after_concat] at hx
    rcases (after uses).ensure_cases x with hsame | hfresh
    · rw [hsame] at hx
      have hn' : (after uses).isLogger n = true := by rwa [hx.isLogger] at hn
      rw [Parent, hx.parentOf]
      exact ih.trans (hangsBelow_concat_iff hn hn' (hx.nearest? n)).symm
    by_cases hnx : n = x
    · subst hnx
      exact parent_concat_self hx hfresh
    have hn' : (after uses).isLogger n = true := by
      rw [hx.isLogger, isLogger_ensure hfresh] at hn
      simpa [hnx] using hn
    by_cases hover : x ∈ (after uses).passedOver n
    · exact parent_concat_of_passedOver hx hfresh hnx hn' hover
    · have hnearest : (after (uses ++ [u])).nearest? n = (after uses).nearest? n := by
        rw [nearest?_concat hx hfresh, if_neg hover]
      rw [Parent, hx.parentOf, (wired_after uses).parentOf_of_not_passedOver hfresh hnx hn' hover]
      exact ih.trans (hangsBelow_concat_iff hn hn' hnearest).symm

end OverlaySugar.Log
