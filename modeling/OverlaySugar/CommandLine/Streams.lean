import OverlaySugar.Conversion
import OverlaySugar.Files
import OverlaySugar.Text.Source

/-!
# Input and output of a run

The overlay is read from the standard input or from a file, and written to
the standard output or to a file. A file that is written is emptied when it
is opened, before any input is read. Bytes that cannot be decoded end the
reading; what was converted until then is kept. So does a summary that cannot
be put into words, when all else is done.
-/

set_option autoImplicit false

namespace OverlaySugar.CommandLine
open Text

inductive Input
  | standard
  | file (path : Text)
  deriving DecidableEq, Repr

namespace Input

def ofOperands : List Text → Input
  | path :: _ => if path = ['-'] then .standard else .file path
  | [] => .standard

def name : Input → String
  | .standard => "<stdin>"
  | .file path => String.ofList path

def start (fs : Files) : Input → Except PathFault (Option Route)
  | .standard => .ok none
  | .file path => (fs.openInput path).map some

end Input

inductive Output
  | standard
  | file (route : Route)
  deriving DecidableEq, Repr

namespace Output

def start (fs : Files) (path : Text) : Except PathFault (Output × Files) :=
  if path = [] then .ok (.standard, fs)
  else (fs.openOutput path).map fun r => (.file r, fs.write r [])

def write (fs : Files) (text : Text) : Output → Text × Files
  | .standard => (text, fs)
  | .file r => ([], fs.write r (Utf8.encode text))

end Output

inductive Interruption
  | undecodable (fault : Utf8.Fault)
  | unworded (fault : WordingFault)
  deriving DecidableEq, Repr

structure Converted where
  lines : List Text
  records : List Log.Record
  result : Except Interruption Conversion

def Converted.ofConversion (w : Wording) (c : Conversion) : Converted :=
  ⟨c.lines, (c.logged w).records, (c.logged w).result.mapError .unworded⟩

def convertReading (w : Wording) (o : Options) (r : Reading) : Converted :=
  let run := State.feedAll o .initial r.lines
  match run.fatal, r.fault with
  | none, some f => ⟨run.emitted, run.records, .error (.undecodable f)⟩
  | _, _ => .ofConversion w (.ofRun o run)

theorem convertReading_of_no_fault (w : Wording) (o : Options) (lines : List Text) :
    convertReading w o ⟨lines, none⟩ = .ofConversion w (convert o lines) := by
  simp only [convertReading, convert]
  cases (State.feedAll o .initial lines).fatal <;> rfl

end OverlaySugar.CommandLine
