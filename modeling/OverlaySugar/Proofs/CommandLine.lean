import Mathlib.Data.List.Perm.Basic
import OverlaySugar.CommandLine.Run
import OverlaySugar.Proofs.Decoding
import OverlaySugar.Proofs.Summary
import OverlaySugar.Proofs.WrittenFiles

/-!
# Runs of the command line that convert

When nothing is in the way of a run it is the conversion of its input, written
where the arguments say. Switches are counted and of a parameter the values
are taken in order, so the order of the settings makes no other difference.
-/

set_option autoImplicit false

namespace OverlaySugar.CommandLine
open Text

/-! ## Arguments -/

structure Arguments.Reorders (a a' : Arguments) : Prop where
  operands : a'.operands = a.operands
  settings : a'.settings.Perm a.settings
  values : ∀ p, a'.values p = a.values p

namespace Arguments
variable {a a' : Arguments}

theorem information?_eq_none_iff : a.information? = none ↔
    .switch .help ∉ a.settings ∧ .switch .version ∉ a.settings := by
  rw [information?, List.findSome?_eq_none_iff]
  constructor
  · intro h
    exact ⟨fun hm => by simpa using h _ hm, fun hm => by simpa using h _ hm⟩
  · rintro ⟨hhelp, hversion⟩ x hx
    cases x with
    | switch s =>
      cases s with
      | help => exact absurd hx hhelp
      | version => exact absurd hx hversion
      | _ => rfl
    | parameter p v => rfl

namespace Reorders

theorem information? (h : Reorders a a') : a'.information? = none ↔ a.information? = none := by
  rw [information?_eq_none_iff, information?_eq_none_iff, h.settings.mem_iff, h.settings.mem_iff]

theorem count (h : Reorders a a') (s : Switch) : a'.count s = a.count s :=
  h.settings.count_eq _

theorem has (h : Reorders a a') (s : Switch) : a'.has s = a.has s := by
  rw [Arguments.has, Arguments.has, Bool.eq_iff_iff, List.contains_iff_mem, List.contains_iff_mem,
    h.settings.mem_iff]

theorem last (h : Reorders a a') (p : Parameter) : a'.last p = a.last p := by
  rw [Arguments.last, Arguments.last, h.values]

theorem withSwitches (h : Reorders a a') (o : Options) :
    Setup.withSwitches o a' = Setup.withSwitches o a := by
  simp only [Setup.withSwitches, h.has, h.count]

end Reorders
end Arguments

/-! ## Runs -/

def outputRoute (fs : Files) (path : Text) : Except PathFault (Option Route) :=
  if path = [] then .ok none else (fs.openOutput path).map some

def linesOf (t : Text) : List Text := chunksAfter '\n' (unifyLineEnds t)

namespace Setup
variable {s : Setup} {a : Arguments} {o : Options} {input output : Option Route} {t : Text}
variable {w : Wording}

/-- Nothing is in the way of a conversion: the arguments are understood and ask for no more than
it, the configuration gives options, and input and output can be opened. They are not the same
file, and the input is encoded text. -/
structure Ready (s : Setup) (a : Arguments) (o : Options) (input output : Option Route) (t : Text) :
    Prop where
  scanned : scan s.arguments = .ok a
  noInformation : a.information? = none
  single : a.operands.length ≤ 1
  configured :
    Config.load s.files (a.last .configFile) (a.values .configValue) >>= Config.options = .ok o
  inputPath : ∀ path ∈ a.operands, hasNul path = false
  inputOpens : (Input.ofOperands a.operands).start s.files = .ok input
  outputPath : hasNul (a.last .output) = false
  outputOpens : outputRoute s.files (a.last .output) = .ok output
  apart : ∀ r, output = some r → input ≠ some r
  decodes : s.inputBytes s.files input = Utf8.encode t

structure Understood (s : Setup) (a : Arguments) : Prop where
  scanned : scan s.arguments = .ok a
  noInformation : a.information? = none
  single : a.operands.length ≤ 1

def configuration (s : Setup) (a : Arguments) : Except ConfigFault Options :=
  Config.load s.files (a.last .configFile) (a.values .configValue) >>= Config.options

structure Starts (s : Setup) (a : Arguments) (o : Options) (input output : Option Route) : Prop
    extends s.Understood a where
  configured : s.configuration a = .ok o
  inputPath : ∀ path ∈ a.operands, hasNul path = false
  inputOpens : (Input.ofOperands a.operands).start s.files = .ok input
  outputPath : hasNul (a.last .output) = false
  outputOpens : outputRoute s.files (a.last .output) = .ok output

theorem Ready.starts (h : s.Ready a o input output t) : s.Starts a o input output :=
  ⟨⟨h.scanned, h.noInformation, h.single⟩, h.configured, h.inputPath, h.inputOpens, h.outputPath,
    h.outputOpens⟩

theorem runWith_of_configured (hnone : a.information? = none) (hsingle : a.operands.length ≤ 1)
    (hconfig : Config.load s.files (a.last .configFile) (a.values .configValue) >>=
      Config.options = .ok o) : s.runWith w a = s.convertWith w (withSwitches o a) a := by
  rw [runWith, hnone]
  match hops : a.operands with
  | [] => simp only [hconfig]
  | [_] => simp only [hconfig]
  | _ :: _ :: _ => simp [hops] at hsingle

def opened (fs : Files) : Option Route → Output × Files
  | none => (.standard, fs)
  | some r => (.file r, fs.write r [])

theorem of_outputRoute {fs : Files} {path : Text} (h : outputRoute fs path = .ok output) :
    path = [] ∧ output = none ∨
      ∃ r, path ≠ [] ∧ fs.openOutput path = .ok r ∧ output = some r := by
  unfold outputRoute at h
  split at h
  · next hpath =>
    cases h
    exact .inl ⟨hpath, rfl⟩
  · next hpath =>
    cases hopen : fs.openOutput path with
    | error f =>
      rw [hopen] at h
      cases h
    | ok r =>
      rw [hopen] at h
      cases h
      exact .inr ⟨r, hpath, rfl, rfl⟩

theorem start_of_outputRoute {fs : Files} {path : Text} (h : outputRoute fs path = .ok output) :
    Output.start fs path = .ok (opened fs output) := by
  rcases of_outputRoute h with ⟨rfl, rfl⟩ | ⟨r, hpath, hopen, rfl⟩
  · rfl
  · rw [Output.start, if_neg hpath, hopen]
    rfl

theorem writable_of_outputRoute {fs : Files} {path : Text} {r : Route}
    (h : outputRoute fs path = .ok (some r)) : fs.Writable r := by
  rcases of_outputRoute h with ⟨-, hnone⟩ | ⟨r', -, hopen, hr⟩
  · cases hnone
  · cases hr
    exact Files.writable_of_openOutput hopen

theorem convertWith_of_starts (h : s.Starts a o input output) (o' : Options) :
    ∃ registry log, s.convertWith w o' a = s.convertOpened w o' registry log
      (Input.ofOperands a.operands) input (opened s.files output).1 (opened s.files output).2 := by
  have hnul : (a.operands.take 1).any hasNul = false := by
    rw [List.any_eq_false]
    intro path hpath
    simp [h.inputPath path (List.mem_of_mem_take hpath)]
  simp only [convertWith, hnul, h.inputOpens, h.outputPath, start_of_outputRoute h.outputOpens,
    Bool.false_eq_true, if_false]
  exact ⟨_, _, rfl⟩

theorem convertWith_of_ready (h : s.Ready a o input output t) (o' : Options) :
    ∃ registry log, s.convertWith w o' a = s.convertOpened w o' registry log
      (Input.ofOperands a.operands) input (opened s.files output).1 (opened s.files output).2 :=
  convertWith_of_starts h.starts o'

theorem Understood.run (h : s.Understood a) : s.run w = s.runWith w a := by
  rw [Setup.run, h.scanned]

/-- A run that starts is a conversion from then on, also if its input is broken. -/
theorem Starts.run (h : s.Starts a o input output) :
    ∃ registry log, s.run w = s.convertOpened w (withSwitches o a) registry log
      (Input.ofOperands a.operands) input (opened s.files output).1 (opened s.files output).2 := by
  rw [h.toUnderstood.run, runWith_of_configured h.noInformation h.single h.configured]
  exact convertWith_of_starts h _

theorem inputBytes_opened (h : s.Ready a o input output t) :
    s.inputBytes (opened s.files output).2 input = s.inputBytes s.files input := by
  cases input with
  | none => rfl
  | some q =>
    cases output with
    | none => rfl
    | some r =>
      have hne : q ≠ r := fun hq => h.apart r rfl (congrArg some hq)
      exact (writable_of_outputRoute h.outputOpens).bytesAt_write_ne [] hne

theorem conclude_ofConversion (s : Setup) (o : Options) (source : Input) (w : Wording)
    (c : Conversion) : (s.conclude o source (.ofConversion w c)).1 =
      (c.exit w).mapError Escape.unworded := by
  cases hs : c.summary w with
  | ok text =>
    rw [exit_of_summary hs, Converted.ofConversion, logged_of_summary hs]
    rfl
  | error f =>
    rw [exit_of_fault hs, Converted.ofConversion, logged_of_fault hs]
    rfl

/-- An encoded text is converted, and the lines go where the output is open. -/
theorem convertOpened_of_encoded {registry : Log.Registry} {log : List String} {source : Input}
    {target : Output} {fs : Files} (h : s.inputBytes fs input = Utf8.encode t) :
    let c := convert o (linesOf t)
    let e := s.convertOpened w o registry log source input target fs
    e.result = (c.exit w).mapError Escape.unworded ∧
      (e.printed, e.files) = target.write fs c.text := by
  intro c e
  have he : e = s.convertOpened w o registry log source input target fs := rfl
  rw [convertOpened, h, readLines_encode, convertReading_of_no_fault] at he
  rw [he]
  exact ⟨conclude_ofConversion s o source w c, rfl⟩

theorem runWith_reorders {a' : Arguments} (h : a.Reorders a') (hnone : a.information? = none)
    (s : Setup) : s.runWith w a' = s.runWith w a := by
  simp only [runWith, convertWith, h.information?.mpr hnone, hnone, h.operands, h.last, h.values,
    h.withSwitches]

/-- A run that nothing is in the way of exits with the status of a conversion and writes its text
and nothing else, to the standard output or to the file, also if a line is fatal. The lines are
those of the input, the options those of the configuration unless a switch is given, and the order
of the settings makes no difference. Where the figures of its summary have no words, the conversion
has no status, and neither has the run. -/
theorem run_converts (w : Wording) (h : s.Ready a o input output t) :
    let options : Options :=
      { force := o.force || a.has .force
        indentFix := o.indentFix && !a.has .noIndentFix
        verbose := if a.count .verbose = 0 then o.verbose else a.count .verbose }
    let c := convert options (linesOf t)
    (s.run w).result = (c.exit w).mapError Escape.unworded ∧
      (w.Documented (largestFigure (linesOf t)) → (s.run w).result = .ok c.status) ∧
      (output = none → (s.run w).printed = c.text ∧ (s.run w).files = s.files) ∧
      (∀ r, output = some r → (s.run w).printed = [] ∧
        (s.run w).files.node? r = some (.file (Utf8.encode c.text)) ∧
        ∀ q, q ≠ r → (s.run w).files.node? q = s.files.node? q) ∧
      ∀ arguments a', scan arguments = .ok a' → a.Reorders a' →
        { s with arguments }.run w = s.run w := by
  intro options c
  have hrun : s.run w = s.runWith w a := by rw [run, h.scanned]
  obtain ⟨registry, log, hopened⟩ := convertWith_of_ready h options
  have hwith : s.run w = s.convertOpened w options registry log (Input.ofOperands a.operands)
      input (opened s.files output).1 (opened s.files output).2 :=
    hrun.trans ((runWith_of_configured h.noInformation h.single h.configured).trans hopened)
  obtain ⟨hresult, hwritten⟩ := convertOpened_of_encoded (o := options)
    ((inputBytes_opened h).trans h.decodes)
  rw [← hwith] at hresult hwritten
  refine ⟨hresult, fun hw => ?_, ?_, ?_, ?_⟩
  · rw [hresult, exit_of_documented options _ hw]
    rfl
  · rintro rfl
    exact Prod.mk.inj hwritten
  · rintro r rfl
    obtain ⟨hprinted, hfiles⟩ := Prod.mk.inj hwritten
    have hfiles : (s.run w).files = s.files.write r (Utf8.encode c.text) :=
      hfiles.trans (Files.write_write s.files r [] _)
    have hopens := writable_of_outputRoute h.outputOpens
    rw [hfiles]
    exact ⟨hprinted, hopens.node?_write_self _, fun q hne => hopens.node?_write_ne _ hne⟩
  · intro arguments a' hscan hreorders
    have hrun' : { s with arguments }.run w = { s with arguments }.runWith w a' := by
      rw [run, hscan]
    rw [hrun', hrun, ← runWith_reorders hreorders h.noInformation s]
    rfl

/-- A fatal line behind one that is written. Each line of the input ends with a carriage return. -/
theorem run_converts_up_to_fatal_line :
    let text := "/* é */\r/ \x7b\r\t_x \x7b\r".toList
    let source : Route := [['w'], "in.dts".toList]
    let target : Route := [['w'], "out.dts".toList]
    let files : Files := ⟨[['w']], [(source, .file (Utf8.encode text))]⟩
    let s : Setup :=
      ⟨"dtsugar.__main__", ["-v", "--output=out.dts", "in.dts"].map String.toList, files, []⟩
    let e := s.run Quantity.wording
    e.result = .ok .illegalNode ∧ e.printed = [] ∧
      e.files.node? target = some (.file (Utf8.encode "/* é */\n".toList)) ∧
      e.files.node? source = some (.file (Utf8.encode text)) ∧
      { s with arguments := ["--out", "out.dts", "-v", "in.dts"].map String.toList }.run
        Quantity.wording = e := by
  intro text source target files s e
  let a : Arguments := ⟨[.switch .verbose, .parameter .output "out.dts".toList], ["in.dts".toList]⟩
  let a' : Arguments := ⟨[.parameter .output "out.dts".toList, .switch .verbose], ["in.dts".toList]⟩
  have h : s.Ready a .standard (some source) (some target) text := {
    scanned := by decide +kernel
    noInformation := by decide
    single := by decide
    configured := by decide +kernel
    inputPath := by decide
    inputOpens := by decide +kernel
    outputPath := by decide
    outputOpens := by decide +kernel
    apart := by decide
    decodes := by decide +kernel }
  have hreorders : a.Reorders a' := ⟨rfl, by decide, fun p => by cases p <;> rfl⟩
  have hlimit : largestFigure (linesOf text) < Quantity.binary64Limit := by decide +kernel
  obtain ⟨-, hresult, -, hwritten, hrun⟩ := run_converts Quantity.wording h
  obtain ⟨hprinted, htarget, hothers⟩ := hwritten target rfl
  exact ⟨hresult (documented_wording hlimit), hprinted, htarget,
    (hothers source (by decide)).trans (by decide +kernel), hrun _ a' (by decide +kernel) hreorders⟩

/-! ## Conversions in place -/

theorem encode_eq_nil_iff : Utf8.encode t = [] ↔ t = [] := by
  constructor
  · intro h
    have hdecodes := Utf8.decodes_encode t
    rw [h] at hdecodes
    cases hdecodes
    rfl
  · rintro rfl
    rfl

/-- A file that is converted to itself is empty afterwards, and the run exits as if all were well:
opening the output has emptied the file before a line is read. So its conversion is lost unless it
is empty, and its status unless nothing is wrong with it. -/
theorem run_in_place {r : Route} (hw : w.Documented 0) (h : s.Starts a o (some r) (some r)) :
    (s.run w).result = .ok .ok ∧ (s.run w).printed = [] ∧
      (s.run w).files.node? r = some (.file []) ∧
      (∀ q, q ≠ r → (s.run w).files.node? q = s.files.node? q) ∧
      ∀ t, s.files.node? r = some (.file (Utf8.encode t)) →
        let c := convert (withSwitches o a) (linesOf t)
        ((s.run w).result = .ok c.status ∧
          (s.run w).files.node? r = some (.file (Utf8.encode c.text)) ↔
            c.status = .ok ∧ c.text = []) := by
  have hopens := writable_of_outputRoute h.outputOpens
  have hempty : s.inputBytes (opened s.files (some r)).2 (some r) = Utf8.encode [] := by
    rw [inputBytes, opened, Files.bytesAt, hopens.node?_write_self]
    rfl
  obtain ⟨registry, log, hrun⟩ := h.run
  obtain ⟨hresult, hwritten⟩ := convertOpened_of_encoded (o := withSwitches o a) hempty
  rw [← hrun] at hresult hwritten
  obtain ⟨hprinted, hfiles⟩ := Prod.mk.inj hwritten
  have hfiles : (s.run w).files = s.files.write r [] := by
    rw [hfiles]
    exact Files.write_write s.files r [] _
  have hnode : (s.run w).files.node? r = some (.file []) := by
    rw [hfiles, hopens.node?_write_self]
  -- Without a line there is nothing to find fault with.
  have hresult : (s.run w).result = .ok .ok := by
    rw [hresult, exit_of_documented _ (linesOf []) hw]
    rfl
  refine ⟨hresult, hprinted, hnode, fun q hne => by rw [hfiles, hopens.node?_write_ne [] hne], ?_⟩
  intro t _ c
  rw [hresult, hnode]
  simp only [Except.ok.injEq, Option.some.injEq, Node.file.injEq]
  rw [eq_comm, @eq_comm _ [] (Utf8.encode c.text), encode_eq_nil_iff]

/-- A file of one line that any conversion keeps as it is. -/
theorem run_in_place_of_version_tag :
    let text := "/dts-v1/;\n".toList
    let route : Route := [['w'], "in.dts".toList]
    let files : Files := ⟨[['w']], [(route, .file (Utf8.encode text))]⟩
    let s : Setup :=
      ⟨"dtsugar.__main__", ["-o", "in.dts", "in.dts"].map String.toList, files, []⟩
    let e := s.run Quantity.wording
    e.result = .ok .ok ∧ e.files.node? route = some (.file []) ∧
      (convert .standard (linesOf text)).text = text := by
  intro text route files s e
  let a : Arguments := ⟨[.parameter .output "in.dts".toList], ["in.dts".toList]⟩
  have h : s.Starts a .standard (some route) (some route) := {
    scanned := by decide +kernel
    noInformation := by decide
    single := by decide
    configured := by decide +kernel
    inputPath := by decide
    inputOpens := by decide +kernel
    outputPath := by decide
    outputOpens := by decide +kernel }
  have hw : Quantity.wording.Documented 0 := documented_wording (by decide +kernel)
  obtain ⟨hresult, -, hempty, -⟩ := run_in_place hw h
  exact ⟨hresult, hempty, by decide +kernel⟩

end Setup
end OverlaySugar.CommandLine
