import OverlaySugar.Proofs.Remarks

/-!
# Options of presentation

The verbosity and the indentation only change how a conversion is shown. Two
conversions that agree in force go the same way through the same lines: what
they write differs by a pair of tabs at most, and what they report by the
warnings about root properties that are left out without a verbosity.
-/

set_option autoImplicit false

namespace OverlaySugar
open Text

/-! ## Lines -/

def SameButTabs (t t' : Text) : Prop :=
  t' = t ∨ t' = '\t' :: '\t' :: t ∨ t = '\t' :: '\t' :: t'

theorem sameButTabs_of_refits {o o' : Options} {t t' : Text} (h : Refits o o' t t') :
    SameButTabs t t' := by
  obtain ⟨d, u, rfl, rfl⟩ := h
  rcases indentFix_eq_or o.indentFix d u with h | h
  · rcases indentFix_eq_or o'.indentFix d u with h' | h'
    · exact .inl (h'.trans h.symm)
    · exact .inr (.inr (h.trans h'))
  · rcases indentFix_eq_or o'.indentFix d u with h' | h'
    · exact .inr (.inl (h'.trans h))
    · -- Both lack the tabs that the text has, and nothing else.
      have hsame := h'.symm.trans h
      exact .inl (List.cons.inj (List.cons.inj hsame).2).2

theorem eq_of_refits_agree {o o' : Options} (hfix : o'.indentFix = o.indentFix)
    {ts ts' : List Text} (h : List.Forall₂ (Refits o o') ts ts') : ts' = ts := by
  apply eq_of_refits (o := o)
  refine h.imp ?_
  rintro t t' ⟨d, u, ht, ht'⟩
  exact ⟨d, u, ht, by rw [ht', hfix]⟩

/-! ## Messages -/

/-- Remarks depend on force alone. -/
theorem remark?_agree {o o' : Options} (hforce : o'.force = o.force) (x : Position) :
    x.remark? o' = x.remark? o := by
  obtain ⟨force, fix, verbose⟩ := o
  obtain ⟨force', fix', verbose'⟩ := o'
  obtain rfl : force' = force := hforce
  rfl

theorem message?_agree {o o' : Options} (hforce : o'.force = o.force)
    (hv : o'.verbose = 0 ↔ o.verbose = 0) (x : Position) : x.message? o' = x.message? o := by
  rw [Position.message?, Position.message?, remark?_agree hforce]
  congr 1
  funext r
  cases r with
  | finding f => simp only [Remark.message?, hforce]
  | rootProperty property => simp only [Remark.message?, hforce, ne_eq, hv]

/-! ## Conversions -/

theorem Grows.agree {v v' : Int} {c : Counts} {t t' : Tally} (h : Grows v c .zero t)
    (h' : Grows v' c .zero t') :
    t'.errors = t.errors ∧ t'.rootProperties = t.rootProperties ∧
      (t'.warnings = 0 ↔ t.warnings = 0) := by
  obtain ⟨he, hp, hw⟩ := h.from_zero
  obtain ⟨he', hp', hw'⟩ := h'.from_zero
  have hproperties : t'.rootProperties = t.rootProperties := hp'.trans hp.symm
  refine ⟨he'.trans he.symm, hproperties, ?_⟩
  -- With root properties there is a warning at any verbosity, and without them none.
  rw [hw, hw', hproperties]
  by_cases h0 : t.rootProperties = 0
  · rw [h0, rootWarnings_zero, rootWarnings_zero]
  · have hone := one_le_rootWarnings v h0
    have hone' := one_le_rootWarnings v' h0
    omega

theorem exitStatus_agree {t t' : Tally} (he : t'.errors = t.errors)
    (hw : t'.warnings = 0 ↔ t.warnings = 0) : t'.exitStatus = t.exitStatus := by
  simp only [Tally.exitStatus, he, ne_eq, hw]

section
variable {o o' : Options}

/-- From the start two conversions that agree in force go side by side. -/
theorem convert_agree (hforce : o'.force = o.force) (lines : List Text) :
    List.Forall₂ (Refits o o') (convert o lines).lines (convert o' lines).lines ∧
      (convert o' lines).fatal = (convert o lines).fatal ∧
      ∃ c, Grows o.verbose c .zero (convert o lines).tally ∧
        Grows o'.verbose c .zero (convert o' lines).tally := by
  have hstart : (run o []).fatal = none := rfl
  have hstart' : (run o' []).fatal = none := rfl
  have halike : Alike 0 (run o []).state (run o' []).state := .intro rfl
  obtain ⟨ts, ts', hrefits, hlines, hlines', hmoved, hgrows⟩ :=
    convert_alike hforce hstart hstart' halike rfl lines
  have hlines : (convert o lines).lines = ts := hlines
  have hlines' : (convert o' lines).lines = ts' := hlines'
  refine ⟨?_, hmoved.trans ?_, hgrows⟩
  · rw [hlines, hlines']
    exact hrefits
  · change (convert o lines).fatal.map (Fatal.moved 0) = (convert o lines).fatal
    cases (convert o lines).fatal with
    | none => rfl
    | some f => exact congrArg (fun n => some { f with line := n }) (Int.add_zero f.line)

theorem messages_agree (hforce : o'.force = o.force) (hv : o'.verbose = 0 ↔ o.verbose = 0)
    (lines : List Text) : (convert o' lines).messages = (convert o lines).messages := by
  rw [messages_through, messages_through, (convert_agree hforce lines).2.1]
  exact List.filterMap_congr fun x _ => message?_agree hforce hv x

/-- The verbosity and the indentation do not interfere with a conversion: with the same force the
lines are the same but for pairs of tabs, the same line is fatal, and the counts and the exit
status say the same. Only the warnings about root properties can be more or fewer, and where both
verbosities are zero or neither is, all messages are the same. -/
theorem presentation_agrees (hforce : o'.force = o.force) (lines : List Text) :
    let c := convert o lines
    let c' := convert o' lines
    List.Forall₂ SameButTabs c.lines c'.lines ∧
      (o'.indentFix = o.indentFix → c'.lines = c.lines) ∧
      c'.fatal = c.fatal ∧
      c'.tally.errors = c.tally.errors ∧
      c'.tally.rootProperties = c.tally.rootProperties ∧
      (c'.tally.warnings = 0 ↔ c.tally.warnings = 0) ∧
      c'.status = c.status ∧
      ((o'.verbose = 0 ↔ o.verbose = 0) → c'.messages = c.messages) := by
  obtain ⟨hrefits, hfatal, k, hgrows, hgrows'⟩ := convert_agree hforce lines
  obtain ⟨herrors, hproperties, hwarnings⟩ := hgrows.agree hgrows'
  have hstatus : (convert o' lines).status = (convert o lines).status := by
    rw [status_convert, status_convert, hfatal, exitStatus_agree herrors hwarnings]
  exact ⟨hrefits.imp fun _ _ => sameButTabs_of_refits, fun hfix => eq_of_refits_agree hfix hrefits,
    hfatal, herrors, hproperties, hwarnings, hstatus, fun hv => messages_agree hforce hv lines⟩

end

/-- Two root properties, an overlay node without a target and one more level of indentation, with
force, under a negative verbosity and under none. -/
theorem presentation_agrees_of_loud :
    let lines := ["/ \x7b", "\tmodel = \"x\";", "\tcompatible = \"y\";", "\tfragment@0 \x7b",
      "\t\t__overlay__ \x7b", "\t\t\x7d;", "\t\x7d;", "\x7d;"].map String.toList
    let quiet : Options := ⟨true, true, 0⟩
    let loud : Options := ⟨true, false, -1⟩
    List.Forall₂ SameButTabs (convert quiet lines).lines (convert loud lines).lines ∧
      (convert loud lines).lines ≠ (convert quiet lines).lines ∧
      (convert loud lines).status = .forcedErrors ∧
      (convert loud lines).tally.warnings = 2 ∧ (convert quiet lines).tally.warnings = 1 ∧
      (convert ⟨true, false, 7⟩ lines).messages = (convert loud lines).messages := by
  intro lines quiet loud
  obtain ⟨hlines, -, -, -, -, -, hstatus, -⟩ :=
    @presentation_agrees quiet loud rfl lines
  obtain ⟨-, -, -, -, -, -, -, hmessages⟩ :=
    @presentation_agrees loud ⟨true, false, 7⟩ rfl lines
  exact ⟨hlines, by decide, hstatus.trans (by decide), by decide, by decide,
    hmessages (by decide)⟩

end OverlaySugar
