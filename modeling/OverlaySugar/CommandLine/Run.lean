import OverlaySugar.CommandLine.Arguments
import OverlaySugar.CommandLine.Streams
import OverlaySugar.Config.Settings

/-!
# One run of the command line

A run is a function of the arguments, the files and the standard input. It
ends with an exit status or with a fault that is not reported, and has
printed, logged and written something until then.
-/

set_option autoImplicit false

namespace OverlaySugar.CommandLine
open Text

inductive Escape
  | config (fault : ConfigFault)
  | nulInPath
  | unworded (fault : WordingFault)
  deriving DecidableEq, Repr

def Escape.message : Escape → String
  | .config f => f.message
  | .nulInPath => "embedded null byte"
  | .unworded f => f.message

/-- `name` is that of the command line's own logger. -/
structure Setup where
  name : String
  arguments : List Text
  files : Files
  input : Bytes
  deriving DecidableEq, Repr

structure Ending where
  result : Except Escape ExitStatus
  printed : Text
  log : List String
  files : Files

namespace Setup

def registry (s : Setup) : Log.Registry := Log.Registry.startup.register s.name

def early (s : Setup) (status : ExitStatus) (printed : String) (log : List String) : Ending :=
  ⟨.ok status, printed.toList, log, s.files⟩

def escape (s : Setup) (e : Escape) (log : List String) : Ending := ⟨.error e, [], log, s.files⟩

def withSwitches (o : Options) (a : Arguments) : Options :=
  { force := o.force || a.has .force
    indentFix := o.indentFix && !a.has .noIndentFix
    verbose := if a.count .verbose = 0 then o.verbose else a.count .verbose }

def own (s : Setup) (level : Log.Level) (message : String) : Log.Record := ⟨s.name, level, message⟩

/-- The bytes to convert: those of the file as it is once the output is open, or of the standard
input. Both are decoded as strict UTF-8, with each line end made a line feed. -/
def inputBytes (s : Setup) (fs : Files) : Option Route → Bytes
  | none => s.input
  | some r => fs.bytesAt r

def conclude (s : Setup) (o : Options) (input : Input) (c : Converted) :
    Except Escape ExitStatus × List Log.Record :=
  match c.result with
  | .error (.undecodable f) =>
    (.ok .badInput, [s.own .error s!"input overlay {input.name} could not be read: {f.message}"])
  | .error (.unworded f) => (.error (.unworded f), [])
  | .ok c =>
    (.ok c.status, match c.fatal with
      | some f => if o.verbose = 0 then [] else
          [s.own .info s!"{input.name}: conversion stopped at line {f.line}"]
      | none => [])

def convertOpened (s : Setup) (w : Wording) (o : Options) (registry : Log.Registry)
    (log : List String) (input : Input) (route : Option Route) (output : Output) (fs : Files) :
    Ending :=
  let c := convertReading w o (readLines (s.inputBytes fs route))
  let (result, records) := s.conclude o input c
  let (printed, fs) := output.write fs (render c.lines)
  ⟨result, printed, log ++ registry.writeAll (c.records ++ records), fs⟩

def hasNul (path : Text) : Bool := '\x00' ∈ path

def convertWith (s : Setup) (w : Wording) (o : Options) (a : Arguments) : Ending :=
  let registry := s.registry.setVerbosity o.verbose
  let log := registry.write (s.own .debug s!"options: {o.describe}")
  let input := Input.ofOperands a.operands
  let path := a.last .output
  let refuse := fun message =>
    s.early .badInput "" (log ++ registry.write (s.own .error message))
  if (a.operands.take 1).any hasNul then s.escape .nulInPath log
  else match input.start s.files with
    | .error f => refuse s!"input overlay {input.name} could not be opened: {f.message}"
    | .ok route =>
      if hasNul path then s.escape .nulInPath log
      else match Output.start s.files path with
        | .error f => refuse s!"output file {String.ofList path} could not be opened: {f.message}"
        | .ok (output, fs) => s.convertOpened w o registry log input route output fs

def tooManyMessage (operands : List Text) : String :=
  let shown := String.ofList ([' '].intercalate operands)
  s!"[ERROR]: only one input overlay can be converted, got: {shown}\n\n"

def runWith (s : Setup) (w : Wording) (a : Arguments) : Ending :=
  match a.information?, a.operands with
  | some .version, _ => s.early .ok (version ++ "\n") []
  | some _, _ => s.early .ok usage []
  | none, _ :: _ :: _ => s.early .badArgs (tooManyMessage a.operands ++ usage) []
  | none, _ =>
    match Config.load s.files (a.last .configFile) (a.values .configValue) >>= Config.options with
    | .ok o => s.convertWith w (withSwitches o a) a
    | .error f =>
      if f.isRefused then s.early ConfigFault.exitStatus "" (s.registry.write (s.own .error f.message))
      else s.escape (.config f) []

def paths (s : Setup) : List Text :=
  match scan s.arguments with
  | .error _ => []
  | .ok a => a.last .configFile :: a.last .output :: a.operands.take 1

def readsStandardInput (s : Setup) : Bool :=
  match scan s.arguments with
  | .error _ => false
  | .ok a => Input.ofOperands a.operands == .standard

def run (s : Setup) (w : Wording) : Ending :=
  match scan s.arguments with
  | .error f => s.early .badArgs (f.message ++ "\n" ++ usage) []
  | .ok a => s.runWith w a

end Setup
end OverlaySugar.CommandLine
