import OverlaySugar.Config.Settings
import OverlaySugar.Proofs.WrittenFiles

/-!
# Faults that are not reported

Loading a configuration goes from the file to the overrides and from these to
the options, and stops at the first fault. Each stage has faults of its own
that are refused with a message, and others that pass as they are. Which
overrides fail does not depend on the configuration that they change.
-/

set_option autoImplicit false

namespace OverlaySugar
open Text

theorem bind_eq_error_iff {ε α β : Type} {x : Except ε α} {f : α → Except ε β} {e : ε} :
    x >>= f = .error e ↔ x = .error e ∨ ∃ a, x = .ok a ∧ f a = .error e := by
  cases x with
  | error e' => simp [bind, Except.bind]
  | ok a => simp [bind, Except.bind]

namespace Config

/-! ## The file -/

namespace Cursor
variable {s : Cursor} {f : Utf8.Fault}

theorem start_ne_undecodable (n : Nat) (line value : Text) :
    s.start n line value ≠ .error (.undecodable f) := by
  intro h
  unfold start openSection setOption at h
  split at h <;> (try split at h) <;> cases h

theorem readLine_ne_undecodable (n : Nat) (line : Text) :
    s.readLine n line ≠ .error (.undecodable f) := by
  intro h
  simp only [readLine] at h
  split at h
  · cases h
  split at h
  · cases h
  split at h
  · split at h
    · cases h
    · exact start_ne_undecodable n line _ h
  · exact start_ne_undecodable n line _ h

theorem readLines_ne_undecodable (n : Nat) (lines : List Text) :
    s.readLines n lines ≠ .error (.undecodable f) := by
  induction lines generalizing s n with
  | nil => exact nofun
  | cons line lines ih =>
    intro h
    rcases bind_eq_error_iff.mp h with h | ⟨s', -, h⟩
    · exact readLine_ne_undecodable n line h
    · exact ih (n + 1) h

end Cursor

/-- The lines in front of a part that cannot be decoded are read first. -/
theorem ofBytes_eq_undecodable_iff {bytes : Bytes} {f : Utf8.Fault} :
    ofBytes bytes = .error (.undecodable f) ↔
      (∃ s, Cursor.initial.readLines 1 (readLines bytes).lines = .ok s) ∧
        (readLines bytes).fault = some f := by
  rw [ofBytes, ofReading, bind_eq_error_iff]
  constructor
  · rintro (h | ⟨s, hs, h⟩)
    · exact absurd h (Cursor.readLines_ne_undecodable 1 _)
    · refine ⟨⟨s, hs⟩, ?_⟩
      split at h
      · next hfault =>
        cases h
        exact hfault
      · split at h <;> cases h
  · rintro ⟨⟨s, hs⟩, hfault⟩
    refine .inr ⟨s, hs, ?_⟩
    simp only [hfault]
    rfl

/-! ## Overrides -/

def overrideValue (override : Text) : Text :=
  (overrideAssignment ((pieces '.' override).getLast?.getD [])).2

def overrideFault? (override : Text) : Option ConfigFault :=
  if (pieces '.' override).length < 2 then some (.noSection override)
  else (strayPercent? (overrideValue override)).map (.strayPercent (overrideValue override))

theorem fault_setIn (key value : Text) (names : List Text) (c : Config) :
    (setIn key value names c).fault =
      if names = [] then none else (strayPercent? value).map (.strayPercent value) := by
  induction names generalizing c with
  | nil => rfl
  | cons name names ih =>
    rw [if_neg (List.cons_ne_nil name names), setIn, set]
    cases hstray : strayPercent? value with
    | some n => rfl
    | none =>
      simp only [ih, hstray]
      split <;> rfl

theorem fault_applyOverride (c : Config) (override : Text) :
    (c.applyOverride override).fault = overrideFault? override := by
  rw [applyOverride, overrideFault?]
  split
  · rfl
  · next hparts =>
    -- The last of at least two parts names no section.
    have hnames : (pieces '.' override).dropLast ≠ [] := by
      intro hnil
      have hlength := congrArg List.length hnil
      rw [List.length_dropLast, List.length_nil] at hlength
      omega
    rw [overrideValue, fault_setIn, if_neg hnames]

theorem fault_applyOverrides (c : Config) (overrides : List Text) :
    (c.applyOverrides overrides).fault = overrides.findSome? overrideFault? := by
  induction overrides generalizing c with
  | nil => rfl
  | cons override overrides ih =>
    rw [applyOverrides, List.findSome?_cons, ← fault_applyOverride c override]
    cases hfault : (c.applyOverride override).fault with
    | some f => simp only [hfault]
    | none => simp only [ih]

theorem overrideFault?_cases {override : Text} {f : ConfigFault}
    (h : overrideFault? override = some f) :
    f.isRefused = true ∨ ∃ value n, f = .strayPercent value n := by
  rw [overrideFault?] at h
  split at h
  · cases h
    exact .inl rfl
  · obtain ⟨n, -, rfl⟩ := Option.map_eq_some_iff.mp h
    exact .inr ⟨_, n, rfl⟩

theorem load_eq_error_iff {fs : Files} {path : Text} {overrides : List Text} {f : ConfigFault} :
    load fs path overrides = .error f ↔ ofPath fs path = .error f ∨
      ∃ c, ofPath fs path = .ok c ∧ overrides.findSome? overrideFault? = some f := by
  rw [load, bind_eq_error_iff]
  refine or_congr Iff.rfl (exists_congr fun c => and_congr_right fun _ => ?_)
  rw [← fault_applyOverrides c overrides]
  cases hfault : (c.applyOverrides overrides).fault with
  | none => simp [pure, Except.pure, hfault]
  | some f' => simp [throw, throwThe, MonadExceptOf.throw, hfault]

/-! ## Options -/

def optionKeys : List Text := ["force".toList, "no_indent_fix".toList, "verbose".toList]

section
variable {c : Config} {key : Text} {f : ConfigFault}

theorem optionValue?_eq_error_iff : c.optionValue? key = .error f ↔
    ∃ g, c.value? optionsSection key = .error g ∧ f = .interpolation optionsSection key g := by
  rw [optionValue?]
  cases c.value? optionsSection key with
  | error g =>
    change Except.error (ConfigFault.interpolation optionsSection key g) = .error f ↔ _
    simp [eq_comm]
  | ok v =>
    change Except.ok v = .error f ↔ _
    simp

/-- A truth value that is read and is none is refused. -/
theorem truthOption_eq_error (h : c.truthOption key = .error f) (hf : f.isRefused = false) :
    c.optionValue? key = .error f := by
  rcases bind_eq_error_iff.mp h with h | ⟨v, -, h⟩
  · exact h
  · split at h
    · cases h
    · split at h
      · cases h
      · cases h
        cases hf

theorem truthOption_of_optionValue? (h : c.optionValue? key = .error f) :
    c.truthOption key = .error f :=
  bind_eq_error_iff.mpr (.inl h)

theorem verbosityOf_eq_error {v : Text} (h : verbosityOf v = .error f) : f.isRefused = true := by
  unfold verbosityOf at h
  split at h <;> cases h
  rfl

def FirstFault (c : Config) (f : ConfigFault) : Prop :=
  ∃ front key rest, optionKeys = front ++ key :: rest ∧
    (∀ k ∈ front, ∃ b, c.truthOption k = .ok b) ∧ c.optionValue? key = .error f

theorem options_eq_error_iff (hf : f.isRefused = false) : c.options = .error f ↔
    c.hasSection optionsSection = true ∧ c.FirstFault f := by
  cases hsection : c.hasSection optionsSection with
  | false =>
    refine ⟨fun h => ?_, fun h => absurd h.1 (by simp)⟩
    simp [options, hsection] at h
    cases h
  | true =>
    simp only [options, hsection, Bool.not_true, Bool.false_eq_true, if_false, bind_eq_error_iff]
    constructor
    · rintro (h | ⟨force, hforce, h | ⟨keepIndent, hkeep, h | ⟨v, -, h | ⟨n, -, h⟩⟩⟩⟩)
      · exact ⟨trivial, [], _, _, rfl, by simp, truthOption_eq_error h hf⟩
      · exact ⟨trivial, ["force".toList], _, _, rfl,
          List.forall_mem_singleton.mpr ⟨force, hforce⟩, truthOption_eq_error h hf⟩
      · refine ⟨trivial, ["force".toList, "no_indent_fix".toList], _, _, rfl, ?_, h⟩
        exact List.forall_mem_cons.mpr
          ⟨⟨force, hforce⟩, List.forall_mem_singleton.mpr ⟨keepIndent, hkeep⟩⟩
      · rw [verbosityOf_eq_error h] at hf
        cases hf
      · cases h
    · rintro ⟨-, front, key, rest, hkeys, hfront, hvalue⟩
      match front with
      | [] =>
        cases hkeys
        exact .inl (truthOption_of_optionValue? hvalue)
      | [_] =>
        cases hkeys
        obtain ⟨force, hforce⟩ := List.forall_mem_singleton.mp hfront
        exact .inr ⟨force, hforce, .inl (truthOption_of_optionValue? hvalue)⟩
      | [_, _] =>
        cases hkeys
        obtain ⟨⟨force, hforce⟩, hrest⟩ := List.forall_mem_cons.mp hfront
        obtain ⟨keepIndent, hkeep⟩ := List.forall_mem_singleton.mp hrest
        exact .inr ⟨force, hforce, .inr ⟨keepIndent, hkeep, .inl hvalue⟩⟩
      | _ :: _ :: _ :: _ :: _ => cases hkeys

end

/-! ## Files, overrides and options -/

inductive Unreported (fs : Files) (path : Text) (overrides : List Text) : ConfigFault → Prop
  /-- The path of the file is too long to be looked up. -/
  | badPath (hnamed : path.head? ≠ none) (hnul : '\x00' ∉ path)
      (hfind : fs.find (tidyPath path) = .error .nameTooLong) :
      Unreported fs path overrides (.badPath (tidyPath path) .nameTooLong)
  /-- The file is there, and a part of it cannot be decoded. -/
  | undecodableFile {there : Route × Node} {r : Route} {f : Utf8.Fault}
      (hnamed : path.head? ≠ none) (hnul : '\x00' ∉ path)
      (hfind : fs.find (tidyPath path) = .ok there)
      (hopen : fs.openInput (fs.absolutePath path) = .ok r)
      (hlines : ∃ s, Cursor.initial.readLines 1 (readLines (fs.bytesAt r)).lines = .ok s)
      (hfault : (readLines (fs.bytesAt r)).fault = some f) :
      Unreported fs path overrides (.undecodableFile f)
  /-- The first override that fails has a stray percent sign in its value. -/
  | strayPercent {c : Config} {value : Text} {n : Nat} (hfile : ofPath fs path = .ok c)
      (hoverride : overrides.findSome? overrideFault? = some (.strayPercent value n)) :
      Unreported fs path overrides (.strayPercent value n)
  /-- A value of the options cannot be interpolated. -/
  | interpolation {c : Config} {f : ConfigFault} (hload : load fs path overrides = .ok c)
      (hsection : c.hasSection optionsSection = true) (hvalue : c.FirstFault f) :
      Unreported fs path overrides f

variable {fs : Files} {path : Text} {overrides : List Text} {f : ConfigFault}

theorem Unreported.isRefused (h : Unreported fs path overrides f) : f.isRefused = false := by
  cases h with
  | badPath | undecodableFile | strayPercent => rfl
  | interpolation hload hsection hvalue =>
    obtain ⟨front, key, rest, -, -, hvalue⟩ := hvalue
    obtain ⟨g, -, rfl⟩ := optionValue?_eq_error_iff.mp hvalue
    rfl

theorem Unreported.configure (h : Unreported fs path overrides f) :
    (load fs path overrides >>= options) = .error f := by
  have hf := h.isRefused
  cases h with
  | badPath hnamed hnul hfind =>
    refine bind_eq_error_iff.mpr (.inl (load_eq_error_iff.mpr (.inl ?_)))
    rw [ofPath, if_neg hnamed, if_neg hnul, hfind]
  | undecodableFile hnamed hnul hfind hopen hlines hfault =>
    refine bind_eq_error_iff.mpr (.inl (load_eq_error_iff.mpr (.inl ?_)))
    rw [ofPath, if_neg hnamed, if_neg hnul, hfind]
    simp only [ofFile, hopen, ofBytes_eq_undecodable_iff.mpr ⟨hlines, hfault⟩]
  | strayPercent hfile hoverride =>
    exact bind_eq_error_iff.mpr (.inl (load_eq_error_iff.mpr (.inr ⟨_, hfile, hoverride⟩)))
  | interpolation hload hsection hvalue =>
    exact bind_eq_error_iff.mpr
      (.inr ⟨_, hload, (options_eq_error_iff hf).mpr ⟨hsection, hvalue⟩⟩)

theorem unreported_of_ofPath (h : ofPath fs path = .error f) (hf : f.isRefused = false) :
    Unreported fs path overrides f := by
  unfold ofPath at h
  split at h
  · cases h
  next hnamed =>
  split at h
  · cases h
    cases hf
  next hnul =>
  split at h
  · next there hfind =>
    unfold ofFile at h
    split at h
    · cases h
    next r hopen =>
    split at h
    · cases h
    · next g hbytes =>
      cases h
      obtain ⟨hlines, hfault⟩ := ofBytes_eq_undecodable_iff.mp hbytes
      exact .undecodableFile hnamed hnul hfind hopen hlines hfault
    · cases h
      cases hf
  · next hfind =>
    cases h
    exact .badPath hnamed hnul hfind
  · cases h
    cases hf

theorem unreported_of_load (h : load fs path overrides = .error f) (hf : f.isRefused = false) :
    Unreported fs path overrides f := by
  rcases load_eq_error_iff.mp h with h | ⟨c, hfile, h⟩
  · exact unreported_of_ofPath h hf
  · obtain ⟨override, -, hfault⟩ := List.exists_of_findSome?_eq_some h
    rcases overrideFault?_cases hfault with href | ⟨value, n, rfl⟩
    · rw [href] at hf
      cases hf
    · exact .strayPercent hfile h

theorem configure_eq_error_iff :
    (load fs path overrides >>= options) = .error f ∧ f.isRefused = false ↔
      Unreported fs path overrides f := by
  refine ⟨?_, fun h => ⟨h.configure, h.isRefused⟩⟩
  rintro ⟨h, hf⟩
  rcases bind_eq_error_iff.mp h with h | ⟨c, hload, h⟩
  · exact unreported_of_load h hf
  · obtain ⟨hsection, hvalue⟩ := (options_eq_error_iff hf).mp h
    exact .interpolation hload hsection hvalue

end Config
end OverlaySugar
