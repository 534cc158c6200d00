/-!
# Log levels and records

The level that a run reports from follows its verbosity. A record is written
with the name of the logger that it came from, unless the root writes it.
-/

set_option autoImplicit false

namespace OverlaySugar.Log

inductive Level
  | debug | info | warning | error
  deriving DecidableEq, Repr

namespace Level

def name : Level → String
  | .debug => "DEBUG"
  | .info => "INFO"
  | .warning => "WARNING"
  | .error => "ERROR"

def rank : Level → Nat
  | .debug => 0
  | .info => 1
  | .warning => 2
  | .error => 3

def passes (l t : Level) : Bool := t.rank ≤ l.rank

def ofVerbosity (verbose : Int) : Level :=
  if verbose ≥ 2 then .debug else if verbose = 1 then .info else .warning

theorem error_passes (t : Level) : passes .error t = true := by cases t <;> rfl

theorem warning_passes_ofVerbosity (v : Int) : passes .warning (ofVerbosity v) = true := by
  unfold ofVerbosity
  repeat' split
  all_goals rfl

theorem debug_passes_iff {v : Int} : passes .debug (ofVerbosity v) = true ↔ 2 ≤ v := by
  unfold ofVerbosity
  split
  · exact iff_of_true rfl (by omega)
  · split <;> exact iff_of_false (by decide) (by omega)

theorem info_passes_iff {v : Int} : passes .info (ofVerbosity v) = true ↔ 1 ≤ v := by
  unfold ofVerbosity
  split
  · exact iff_of_true rfl (by omega)
  · split
    · exact iff_of_true rfl (by omega)
    · exact iff_of_false (by decide) (by omega)

theorem passes_of_debug {t : Level} (h : passes .debug t = true) (l : Level) :
    passes l t = true := by
  cases t <;> cases l <;> first | rfl | cases h

end Level

structure Record where
  logger : String
  level : Level
  message : String
  deriving DecidableEq, Repr

def Record.named (r : Record) : String := s!"[{r.logger}][{r.level.name}]: {r.message}\n"

def Record.bare (r : Record) : String := s!"[{r.level.name}]: {r.message}\n"

end OverlaySugar.Log
