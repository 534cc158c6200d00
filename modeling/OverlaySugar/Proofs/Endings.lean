import OverlaySugar.Proofs.CommandLine
import OverlaySugar.Proofs.ConfigFaults
import OverlaySugar.Proofs.PartialReading

/-!
# How runs end

A run leaves in front of its conversion, and then it has changed no file, or
it starts one, and then only the file that the output goes to can be another
one afterwards. What is written before the input turns out to be broken stays.
A run that ends without a status left early, for a configuration whose fault is
not reported or a path that names nothing.
-/

set_option autoImplicit false

namespace OverlaySugar.CommandLine.Setup
open Text

variable {s : Setup} {a : Arguments} {o : Options} {input output : Option Route}
variable {result : Except Escape ExitStatus} {w : Wording}

/-! ## Runs that leave early -/

inductive LeavesEarly (s : Setup) : Except Escape ExitStatus → Prop
  | usage {f : UsageFault} (hscan : scan s.arguments = .error f) : LeavesEarly s (.ok .badArgs)
  | information {a : Arguments} {asked : Switch} (hscan : scan s.arguments = .ok a)
      (hasked : a.information? = some asked) : LeavesEarly s (.ok .ok)
  | operands {a : Arguments} (hscan : scan s.arguments = .ok a) (hnone : a.information? = none)
      (hmany : 1 < a.operands.length) : LeavesEarly s (.ok .badArgs)
  | refused {a : Arguments} {f : ConfigFault} (h : s.Understood a)
      (hconfig : s.configuration a = .error f) (hf : f.isRefused = true) :
      LeavesEarly s (.ok .badArgs)
  | unreported {a : Arguments} {f : ConfigFault} (h : s.Understood a)
      (hconfig : s.configuration a = .error f) (hf : f.isRefused = false) :
      LeavesEarly s (.error (.config f))
  | inputName {a : Arguments} {o : Options} (h : s.Understood a)
      (hconfig : s.configuration a = .ok o) (hnul : ∃ path ∈ a.operands, hasNul path = true) :
      LeavesEarly s (.error .nulInPath)
  | inputFault {a : Arguments} {o : Options} {f : PathFault} (h : s.Understood a)
      (hconfig : s.configuration a = .ok o) (hnul : ∀ path ∈ a.operands, hasNul path = false)
      (hinput : (Input.ofOperands a.operands).start s.files = .error f) :
      LeavesEarly s (.ok .badInput)
  | outputName {a : Arguments} {o : Options} {input : Option Route} (h : s.Understood a)
      (hconfig : s.configuration a = .ok o) (hnul : ∀ path ∈ a.operands, hasNul path = false)
      (hinput : (Input.ofOperands a.operands).start s.files = .ok input)
      (hnul' : hasNul (a.last .output) = true) : LeavesEarly s (.error .nulInPath)
  | outputFault {a : Arguments} {o : Options} {input : Option Route} {f : PathFault}
      (h : s.Understood a) (hconfig : s.configuration a = .ok o)
      (hnul : ∀ path ∈ a.operands, hasNul path = false)
      (hinput : (Input.ofOperands a.operands).start s.files = .ok input)
      (hnul' : hasNul (a.last .output) = false)
      (houtput : outputRoute s.files (a.last .output) = .error f) : LeavesEarly s (.ok .badInput)

theorem Understood.run_of_configuration (h : s.Understood a) (hconfig : s.configuration a = .ok o) :
    s.run w = s.convertWith w (withSwitches o a) a :=
  h.run.trans (runWith_of_configured h.noInformation h.single hconfig)

theorem Understood.run_of_fault {f : ConfigFault} (h : s.Understood a)
    (hconfig : s.configuration a = .error f) : s.run w =
      if f.isRefused then
        s.early ConfigFault.exitStatus "" (s.registry.write (s.own .error f.message))
      else s.escape (.config f) [] := by
  have hsingle := h.single
  rw [configuration] at hconfig
  rw [h.run, runWith, h.noInformation]
  rcases hops : a.operands with - | ⟨path, - | ⟨path', rest⟩⟩
  · simp only [hconfig]
  · simp only [hconfig]
  · simp [hops] at hsingle

theorem Understood.any_hasNul_iff (h : s.Understood a) :
    (a.operands.take 1).any hasNul = true ↔ ∃ path ∈ a.operands, hasNul path = true := by
  rw [List.take_of_length_le h.single, List.any_eq_true]

theorem Understood.any_hasNul_eq_false (h : s.Understood a)
    (hnul : ∀ path ∈ a.operands, hasNul path = false) :
    (a.operands.take 1).any hasNul = false := by
  rw [List.take_of_length_le h.single, List.any_eq_false]
  simpa using hnul

theorem start_of_outputRoute_error {fs : Files} {path : Text} {f : PathFault}
    (h : outputRoute fs path = .error f) : Output.start fs path = .error f := by
  unfold outputRoute at h
  split at h
  · cases h
  · next hpath =>
    rw [Output.start, if_neg hpath]
    cases hopen : fs.openOutput path with
    | error f' =>
      rw [hopen] at h
      cases h
      rfl
    | ok r =>
      rw [hopen] at h
      cases h

/-- A run that leaves early has not touched the files. -/
theorem LeavesEarly.run (h : s.LeavesEarly result) :
    (s.run w).result = result ∧ (s.run w).files = s.files := by
  cases h with
  | usage hscan =>
    rw [Setup.run, hscan]
    exact ⟨rfl, rfl⟩
  | @information a asked hscan hasked =>
    simp only [Setup.run, hscan, runWith, hasked]
    cases asked <;> exact ⟨rfl, rfl⟩
  | @operands a hscan hnone hmany =>
    simp only [Setup.run, hscan, runWith, hnone]
    rcases hops : a.operands with - | ⟨path, - | ⟨path', rest⟩⟩
    · simp [hops] at hmany
    · simp [hops] at hmany
    · exact ⟨rfl, rfl⟩
  | refused h hconfig hf =>
    rw [h.run_of_fault hconfig, if_pos hf]
    exact ⟨rfl, rfl⟩
  | unreported h hconfig hf =>
    rw [h.run_of_fault hconfig, hf]
    exact ⟨rfl, rfl⟩
  | inputName h hconfig hnul =>
    rw [h.run_of_configuration hconfig]
    simp only [convertWith, h.any_hasNul_iff.mpr hnul, if_true]
    exact ⟨rfl, rfl⟩
  | inputFault h hconfig hnul hinput =>
    rw [h.run_of_configuration hconfig]
    simp only [convertWith, h.any_hasNul_eq_false hnul, hinput, Bool.false_eq_true, if_false]
    exact ⟨rfl, rfl⟩
  | outputName h hconfig hnul hinput hnul' =>
    rw [h.run_of_configuration hconfig]
    simp only [convertWith, h.any_hasNul_eq_false hnul, hinput, hnul', Bool.false_eq_true, if_false,
      if_true]
    exact ⟨rfl, rfl⟩
  | outputFault h hconfig hnul hinput hnul' houtput =>
    rw [h.run_of_configuration hconfig]
    simp only [convertWith, h.any_hasNul_eq_false hnul, hinput, hnul',
      start_of_outputRoute_error houtput, Bool.false_eq_true, if_false]
    exact ⟨rfl, rfl⟩

/-- Every run leaves early or starts a conversion. -/
theorem leavesEarly_or_starts (s : Setup) :
    (∃ result, s.LeavesEarly result) ∨ ∃ a o input output, s.Starts a o input output := by
  cases hscan : scan s.arguments with
  | error f => exact .inl ⟨_, .usage hscan⟩
  | ok a =>
  cases hinfo : a.information? with
  | some asked => exact .inl ⟨_, .information hscan hinfo⟩
  | none =>
  by_cases hmany : 1 < a.operands.length
  · exact .inl ⟨_, .operands hscan hinfo hmany⟩
  have h : s.Understood a := ⟨hscan, hinfo, Nat.not_lt.mp hmany⟩
  cases hconfig : s.configuration a with
  | error f =>
    cases hf : f.isRefused with
    | true => exact .inl ⟨_, .refused h hconfig hf⟩
    | false => exact .inl ⟨_, .unreported h hconfig hf⟩
  | ok o =>
  by_cases hnul : ∃ path ∈ a.operands, hasNul path = true
  · exact .inl ⟨_, .inputName h hconfig hnul⟩
  have hnul : ∀ path ∈ a.operands, hasNul path = false := by simpa using hnul
  cases hinput : (Input.ofOperands a.operands).start s.files with
  | error f => exact .inl ⟨_, .inputFault h hconfig hnul hinput⟩
  | ok input =>
  cases hnul' : hasNul (a.last .output) with
  | true => exact .inl ⟨_, .outputName h hconfig hnul hinput hnul'⟩
  | false =>
  cases houtput : outputRoute s.files (a.last .output) with
  | error f => exact .inl ⟨_, .outputFault h hconfig hnul hinput hnul' houtput⟩
  | ok output => exact .inr ⟨a, o, input, output, h, hconfig, hnul, hinput, hnul', houtput⟩

/-! ## Runs that convert -/

def converted (s : Setup) (w : Wording) (o : Options) (input output : Option Route) : Converted :=
  convertReading w o (readLines (s.inputBytes (opened s.files output).2 input))

/-- The lines of a run that starts go to the output and nowhere else. -/
theorem Starts.ends (h : s.Starts a o input output) :
    let c := s.converted w (withSwitches o a) input output
    (s.run w).result = (s.conclude (withSwitches o a) (Input.ofOperands a.operands) c).1 ∧
      (output = none → (s.run w).printed = render c.lines ∧ (s.run w).files = s.files) ∧
      ∀ r, output = some r → (s.run w).printed = [] ∧
        (s.run w).files = s.files.write r (Utf8.encode (render c.lines)) := by
  intro c
  obtain ⟨registry, log, hrun⟩ := h.run
  rw [hrun]
  refine ⟨rfl, ?_, ?_⟩
  · rintro rfl
    exact ⟨rfl, rfl⟩
  · rintro r rfl
    exact ⟨rfl, Files.write_write s.files r [] _⟩

/-- A reading is converted like its lines, unless it breaks and none of them is fatal. -/
theorem convertReading_cases (w : Wording) (o : Options) (r : Reading) :
    ((OverlaySugar.run o r.lines).fatal ≠ none ∨ r.fault = none) ∧
        convertReading w o r = .ofConversion w (convert o r.lines) ∨
      ∃ f, r.fault = some f ∧ (OverlaySugar.run o r.lines).fatal = none ∧
        convertReading w o r = ⟨(OverlaySugar.run o r.lines).emitted,
          (OverlaySugar.run o r.lines).records, .error (.undecodable f)⟩ := by
  cases hfatal : (OverlaySugar.run o r.lines).fatal with
  | some f =>
    refine .inl ⟨.inl (by simp), ?_⟩
    change (State.feedAll o .initial r.lines).fatal = some f at hfatal
    simp [convertReading, convert, hfatal]
  | none =>
    change (State.feedAll o .initial r.lines).fatal = none at hfatal
    cases hfault : r.fault with
    | none => exact .inl ⟨.inr rfl, by simp [convertReading, convert, hfatal, hfault]⟩
    | some f =>
      refine .inr ⟨f, rfl, rfl, ?_⟩
      simp only [convertReading, hfatal, hfault]
      rfl

/-- Lines that were delivered are converted, also if what follows them is broken. -/
theorem convertReading_of_fault {r : Reading} (h : r.fault ≠ none) (w : Wording) (source : Input) :
    (convertReading w o r).lines = (OverlaySugar.run o r.lines).emitted ∧
      (s.conclude o source (convertReading w o r)).1 =
        match (OverlaySugar.run o r.lines).fatal with
        | some _ => ((convert o r.lines).exit w).mapError Escape.unworded
        | none => .ok .badInput := by
  rcases convertReading_cases w o r with ⟨hstop, hr⟩ | ⟨f, -, hnone, hr⟩
  · obtain ⟨f, hf⟩ := Option.ne_none_iff_exists'.mp (hstop.resolve_right h)
    rw [hr, hf]
    refine ⟨?_, conclude_ofConversion s o source w _⟩
    change (convert o r.lines).outcome.emitted = _
    rw [convert_of_stop hf]
  · rw [hr, hnone]
    exact ⟨rfl, rfl⟩

/-- Only the file that the output goes to can be another one after a run. -/
theorem starts_of_changed {q : Route} (h : (s.run w).files.node? q ≠ s.files.node? q) :
    ∃ a o input, s.Starts a o input (some q) := by
  rcases leavesEarly_or_starts s with ⟨result, hearly⟩ | ⟨a, o, input, output, hstarts⟩
  · rw [hearly.run.2] at h
    exact absurd rfl h
  · obtain ⟨-, hprinted, hwritten⟩ := @Starts.ends s a o input output w hstarts
    cases output with
    | none =>
      rw [(hprinted rfl).2] at h
      exact absurd rfl h
    | some r =>
      have hopens := writable_of_outputRoute hstarts.outputOpens
      rw [(hwritten r rfl).2] at h
      by_cases hq : q = r
      · subst hq
        exact ⟨a, o, input, hstarts⟩
      · exact absurd (hopens.node?_write_ne _ hq) h

/-- A run changes the file that the output goes to, and no other. It leaves this one as it is too
if it ends with the usage, with what is asked for, with a fault of the configuration, or because a
path cannot be opened. If the input cannot be decoded, the lines in front of the broken part are the
first lines of the input. What is converted of them stays written, and if they hold nothing that is
fatal itself, the run exits for an input that could not be read. -/
theorem run_changes_output_only (w : Wording) (s : Setup) :
    (∀ q, (s.run w).files.node? q ≠ s.files.node? q → ∃ a o input, s.Starts a o input (some q)) ∧
      (∀ result, s.LeavesEarly result →
        (s.run w).result = result ∧ (s.run w).files = s.files) ∧
      ∀ a o input output, s.Starts a o input output →
        let bytes := s.inputBytes (opened s.files output).2 input
        let lines := (readLines bytes).lines
        let r := OverlaySugar.run (withSwitches o a) lines
        (∀ t, bytes ≠ Utf8.encode t) →
          (∃ t rest, bytes = Utf8.encode t ++ rest ∧ ∀ u, lines <+: linesOf (t ++ u)) ∧
            (r.fatal = none → (s.run w).result = .ok .badInput) ∧
            (∀ f, r.fatal = some f → w.Documented (largestFigure lines) →
              (s.run w).result = .ok f.status) ∧
            (output = none → (s.run w).printed = render r.emitted) ∧
            ∀ q, output = some q → (s.run w).printed = [] ∧
              (s.run w).files.node? q = some (.file (Utf8.encode (render r.emitted))) := by
  refine ⟨fun q h => starts_of_changed h, fun result h => h.run, ?_⟩
  intro a o input output h bytes lines r hbroken
  have hfault : (readLines bytes).fault ≠ none := by
    rw [Ne, fault_readLines_eq_none_iff]
    rintro ⟨t, ht⟩
    exact hbroken t ht
  obtain ⟨hlines, hstatus⟩ := convertReading_of_fault (s := s) (o := withSwitches o a) hfault w
    (Input.ofOperands a.operands)
  obtain ⟨hresult, hprinted, hwritten⟩ := @Starts.ends s a o input output w h
  rw [converted, hlines] at hprinted hwritten
  rw [converted, hstatus] at hresult
  change (s.run w).result = match r.fatal with
    | some _ => ((convert (withSwitches o a) lines).exit w).mapError Escape.unworded
    | none => .ok .badInput at hresult
  refine ⟨lines_prefix_of_fault hfault, fun hnone => ?_, fun f hf hw => ?_,
    fun hout => (hprinted hout).1, ?_⟩
  · rw [hresult, hnone]
  · have hconvert : (convert (withSwitches o a) lines).status = f.status := by
      rw [convert_of_stop hf]
    rw [hresult, hf, exit_of_documented _ lines hw, hconvert]
    rfl
  · rintro q rfl
    obtain ⟨hnone, hfiles⟩ := hwritten q rfl
    have hopens := writable_of_outputRoute h.outputOpens
    exact ⟨hnone, by rw [hfiles, hopens.node?_write_self]⟩

/-- The first line is whole when the standard input ends inside a character. -/
theorem run_changes_output_only_of_broken_input :
    let broken := Utf8.encode "&a \x7b\n\tb".toList ++ [0xC3]
    let route : Route := [['w'], "out.dts".toList]
    let files : Files := ⟨[['w']], [(route, .file [0x78])]⟩
    let s : Setup := ⟨"dtsugar.__main__", ["-o", "out.dts"].map String.toList, files, broken⟩
    let e := s.run Quantity.wording
    (∀ t, broken ≠ Utf8.encode t) ∧ e.result = .ok .badInput ∧ e.printed = [] ∧
      e.files.node? route = some (.file (Utf8.encode "&a \x7b\n".toList)) := by
  intro broken route files s e
  let a : Arguments := ⟨[.parameter .output "out.dts".toList], []⟩
  have h : s.Starts a .standard none (some route) := {
    scanned := by decide +kernel
    noInformation := by decide
    single := by decide
    configured := by decide +kernel
    inputPath := by decide
    inputOpens := by decide +kernel
    outputPath := by decide
    outputOpens := by decide +kernel }
  have hfault : (readLines broken).fault ≠ none := by decide +kernel
  have hbroken : ∀ t, broken ≠ Utf8.encode t :=
    fun t ht => hfault (fault_readLines_eq_none_iff.mpr ⟨t, ht⟩)
  obtain ⟨-, -, hstarts⟩ := run_changes_output_only Quantity.wording s
  obtain ⟨-, hresult, -, -, hwritten⟩ := hstarts a .standard none (some route) h hbroken
  obtain ⟨hprinted, hnode⟩ := hwritten route rfl
  exact ⟨hbroken, hresult (by decide +kernel), hprinted, hnode.trans (by decide +kernel)⟩

/-! ## Runs that end without a status -/

theorem starts_of_unworded {f : WordingFault} (h : (s.run w).result = .error (.unworded f)) :
    ∃ a o input output, s.Starts a o input output := by
  rcases leavesEarly_or_starts s with ⟨result, hearly⟩ | hstarts
  · rw [hearly.run.1] at h
    subst h
    cases hearly
  · exact hstarts

/-- A conversion ends without a status only where its summary has no words. -/
theorem conclude_eq_error_iff {source : Input} {r : Reading} {e : Escape} :
    (s.conclude o source (convertReading w o r)).1 = .error e ↔
      ((OverlaySugar.run o r.lines).fatal ≠ none ∨ r.fault = none) ∧
        ∃ f, e = .unworded f ∧ (convert o r.lines).summary w = .error f := by
  rcases convertReading_cases w o r with ⟨hread, hr⟩ | ⟨f, hfault, hnone, hr⟩
  · rw [hr, conclude_ofConversion, and_iff_right hread]
    cases hs : (convert o r.lines).summary w with
    | ok text => simp [exit_of_summary hs, Except.mapError]
    | error f => simp [exit_of_fault hs, Except.mapError, eq_comm]
  · simp [hr, conclude, hnone, hfault]

theorem leavesEarly_of_error {e : Escape} (h : (s.run w).result = .error e)
    (he : ∀ f, e ≠ .unworded f) : s.LeavesEarly (.error e) := by
  rcases leavesEarly_or_starts s with ⟨result, hearly⟩ | ⟨a, o, input, output, hstarts⟩
  · rw [← h, (hearly.run (w := w)).1]
    exact hearly
  · rw [hstarts.ends.1] at h
    obtain ⟨-, f, hf, -⟩ := conclude_eq_error_iff.mp h
    exact absurd hf (he f)

/-- A run ends without a status for a fault of the configuration that is not reported, or for a
path with a NUL once all in front of it has gone well, or at the end of a conversion whose figures
have no words, where words are not as documented. It ends with one of seven statuses else, and all
other faults of the configuration are refused. -/
theorem run_escapes_iff (w : Wording) (s : Setup) :
    (∀ f, (s.run w).result = .error (.config f) ↔ ∃ a, s.Understood a ∧
      Config.Unreported s.files (a.last .configFile) (a.values .configValue) f) ∧
    ((s.run w).result = .error .nulInPath ↔ ∃ a o, s.Understood a ∧ s.configuration a = .ok o ∧
      ((∃ path ∈ a.operands, hasNul path = true) ∨
        (∃ input, (Input.ofOperands a.operands).start s.files = .ok input) ∧
          hasNul (a.last .output) = true)) ∧
    (∀ f, (s.run w).result = .error (.unworded f) ↔ ∃ a o input output,
      s.Starts a o input output ∧
        let r := readLines (s.inputBytes (opened s.files output).2 input)
        ((OverlaySugar.run (withSwitches o a) r.lines).fatal ≠ none ∨ r.fault = none) ∧
          (convert (withSwitches o a) r.lines).summary w = .error f) ∧
    (∀ a o input output, s.Starts a o input output →
      let bytes := s.inputBytes (opened s.files output).2 input
      w.Documented (largestFigure (readLines bytes).lines) →
        ∀ f, (s.run w).result ≠ .error (.unworded f)) ∧
    (∀ a f, s.Understood a → s.configuration a = .error f → f.isRefused = true →
      (s.run w).result = .ok .badArgs) ∧
    ∀ status, (s.run w).result = .ok status → status.code ∈ [0, 1, 2, 3, 10, 11, 12] := by
  have hunworded (f : WordingFault) : (s.run w).result = .error (.unworded f) ↔
      ∃ a o input output, s.Starts a o input output ∧
        let r := readLines (s.inputBytes (opened s.files output).2 input)
        ((OverlaySugar.run (withSwitches o a) r.lines).fatal ≠ none ∨ r.fault = none) ∧
          (convert (withSwitches o a) r.lines).summary w = .error f := by
    constructor
    · intro h
      obtain ⟨a, o, input, output, hstarts⟩ := starts_of_unworded h
      rw [hstarts.ends.1] at h
      obtain ⟨hread, f', hf, hsummary⟩ := conclude_eq_error_iff.mp h
      cases hf
      exact ⟨a, o, input, output, hstarts, hread, hsummary⟩
    · rintro ⟨a, o, input, output, hstarts, hread, hsummary⟩
      rw [hstarts.ends.1]
      exact conclude_eq_error_iff.mpr ⟨hread, f, rfl, hsummary⟩
  refine ⟨fun f => ?_, ?_, hunworded, fun a o input output hstarts hw f h => ?_,
    fun a f h hconfig hf => (LeavesEarly.refused h hconfig hf).run.1, ?_⟩
  · constructor
    · intro h
      cases leavesEarly_of_error h (by simp) with
      | @unreported a f h hconfig hf =>
        exact ⟨a, h, Config.configure_eq_error_iff.mp ⟨hconfig, hf⟩⟩
    · rintro ⟨a, h, hf⟩
      obtain ⟨hconfig, hrefused⟩ := Config.configure_eq_error_iff.mpr hf
      exact (LeavesEarly.unreported h hconfig hrefused).run.1
  · constructor
    · intro h
      cases leavesEarly_of_error h (by simp) with
      | @inputName a o h hconfig hnul => exact ⟨a, o, h, hconfig, .inl hnul⟩
      | @outputName a o input h hconfig hnul hinput hnul' =>
        exact ⟨a, o, h, hconfig, .inr ⟨⟨input, hinput⟩, hnul'⟩⟩
    · rintro ⟨a, o, h, hconfig, hnul | ⟨⟨input, hinput⟩, hnul'⟩⟩
      · exact (LeavesEarly.inputName h hconfig hnul).run.1
      · by_cases hnul : ∃ path ∈ a.operands, hasNul path = true
        · exact (LeavesEarly.inputName h hconfig hnul).run.1
        · exact (LeavesEarly.outputName h hconfig (by simpa using hnul) hinput hnul').run.1
  · rw [hstarts.ends.1] at h
    obtain ⟨-, f', -, hsummary⟩ := conclude_eq_error_iff.mp h
    obtain ⟨size, -, hwords⟩ := exists_summary (withSwitches o a) _ hw
    rw [hsummary] at hwords
    cases hwords
  · rintro (_ | _ | _ | _ | _ | _ | _) - <;> decide

/-- A configured value that is a percent sign ends the run without a status. -/
theorem run_with_stray_percent :
    let s : Setup := ⟨"dtsugar.__main__",
      ["--cfgval", "options.verbose=%", "-"].map String.toList, ⟨[], []⟩, []⟩
    (s.run Quantity.wording).result = .error (.config (.strayPercent ['%'] 0)) := by
  decide +kernel

end OverlaySugar.CommandLine.Setup
