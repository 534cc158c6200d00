import OverlaySugar.Log.Record

/-!
# Diagnostics of a conversion

Errors, warnings and root properties are counted, and each error or warning
is a message. The exit status of a run that reached its end follows from the
counts, errors before warnings. The words of the summary are another library's.
-/

set_option autoImplicit false

namespace OverlaySugar

inductive ExitStatus
  | ok | badArgs | badInput | warnings | forcedErrors | illegalNode | missingTarget
  deriving DecidableEq, Repr

namespace ExitStatus

def code : ExitStatus → Nat
  | .ok => 0
  | .badArgs => 1
  | .badInput => 2
  | .warnings => 3
  | .forcedErrors => 10
  | .illegalNode => 11
  | .missingTarget => 12

def name : ExitStatus → String
  | .ok => "OK"
  | .badArgs => "BAD_ARGS"
  | .badInput => "BAD_INPUT"
  | .warnings => "WARNINGS"
  | .forcedErrors => "FORCED_ERRORS"
  | .illegalNode => "ILLEGAL_NODE"
  | .missingTarget => "MISSING_TARGET"

def all : List ExitStatus :=
  [.ok, .badArgs, .badInput, .warnings, .forcedErrors, .illegalNode, .missingTarget]

def ofCode? (n : Int) : Option ExitStatus := all.find? fun s => (s.code : Int) == n

def unknownCodeMessage (n : Int) : String := s!"{n} is not a valid ExitStatus"

theorem ofCode?_code (s : ExitStatus) : ofCode? s.code = some s := by cases s <;> decide

end ExitStatus

inductive Severity
  | warning | error
  deriving DecidableEq, Repr

def Severity.name : Severity → String
  | .warning => "warning"
  | .error => "error"

def Severity.level : Severity → Log.Level
  | .warning => .warning
  | .error => .error

structure Message where
  severity : Severity
  text : String
  deriving DecidableEq, Repr

def located (text : String) (line : Int) : String :=
  if line = 0 then text else s!"line {line}: {text}"

structure Fatal where
  status : ExitStatus
  message : String
  line : Int
  deriving DecidableEq, Repr

def Fatal.text (f : Fatal) : String := s!"line {f.line}: {f.message}"

/-! ## Words for numbers

Counts and sizes are put into words by two functions of another library. They are a parameter of
all that shows such words, and either may fail on a number. -/

structure WordingFault where
  message : String
  deriving DecidableEq, Repr

structure Wording where
  pluralize : Int → String → Option String → Except WordingFault String
  formatSize : Int → Except WordingFault String

def countText (n : Nat) (one : String) (many? : Option String) : String :=
  let many := many?.getD (one ++ "s")
  s!"{n} {if n = 1 then one else many}"

/-- What is documented of the words for numbers up to `limit`: a count stands in front of its noun,
which is in the plural unless it is one, with an `s` if no plural is given, and every size has a
text. -/
structure Wording.Documented (w : Wording) (limit : Nat) : Prop where
  pluralize : ∀ n : Nat, n ≤ limit → ∀ one many?,
    w.pluralize n one many? = .ok (countText n one many?)
  formatSize : ∀ n : Nat, n ≤ limit → ∃ text, w.formatSize n = .ok text

/-! ## Counts -/

structure Tally where
  errors : Nat
  warnings : Nat
  rootProperties : Nat
  deriving DecidableEq, Repr

namespace Tally

def zero : Tally := ⟨0, 0, 0⟩

def error (t : Tally) (text : String) (line : Int) : Tally × Message :=
  ({ t with errors := t.errors + 1 }, ⟨.error, located text line⟩)

def warning (t : Tally) (text : String) (line : Int) : Tally × Message :=
  ({ t with warnings := t.warnings + 1 }, ⟨.warning, located text line⟩)

def fatal (t : Tally) (status : ExitStatus) (text : String) (line : Int) : Tally × Message × Fatal :=
  let (t, m) := t.error text line
  (t, m, ⟨status, text, line⟩)

def rootProperty (t : Tally) (verbose : Int) (property : String) (line : Int) :
    Tally × Option Message :=
  let t := { t with rootProperties := t.rootProperties + 1 }
  if verbose ≠ 0 ∨ t.rootProperties = 1 then
    let (t, m) := t.warning s!"property '{property}' found in root node" line
    (t, some m)
  else (t, none)

def exitStatus (t : Tally) : ExitStatus :=
  if t.errors ≠ 0 then .forcedErrors else if t.warnings ≠ 0 then .warnings else .ok

def summary (t : Tally) (w : Wording) (lines bytes : Int) : Except WordingFault String := do
  let lines ← w.pluralize lines "line" none
  let bytes ← w.formatSize bytes
  let errors ← w.pluralize t.errors "error" none
  let warnings ← w.pluralize t.warnings "warning" none
  let properties ← w.pluralize t.rootProperties "root property" (some "root properties")
  return s!"converted {lines} ({bytes}): {errors}, {warnings}, {properties}"

end Tally
end OverlaySugar
