import OverlaySugar.Converter
import OverlaySugar.Log.Registry

/-!
# Whole conversions

A conversion reads all lines of a source, or those up to a fatal one. It has
the converted lines, the messages, an exit status and a log. The log is what
the registry writes for the records of the run. A summary that cannot be put
into words is an error of the conversion as a whole.
-/

set_option autoImplicit false

namespace OverlaySugar
open Text

def render (lines : List Text) : Text := lines.flatMap (· ++ ['\n'])

def joined (lines : List Text) : Text :=
  if lines = [] then [] else ['\n'].intercalate lines ++ ['\n']

structure Emitter where
  lines : List Text
  stream : Text
  deriving DecidableEq, Repr

namespace Emitter

def empty : Emitter := ⟨[], []⟩

def emit (e : Emitter) (line : Text) : Emitter :=
  ⟨e.lines ++ [line], e.stream ++ (line ++ ['\n'])⟩

def take (e : Emitter) : Event → Emitter
  | .line _ t => e.emit t
  | _ => e

end Emitter

def Outcome.emitter (r : Outcome) : Emitter := r.events.foldl Emitter.take .empty

def Message.record (m : Message) : Log.Record :=
  ⟨Log.diagnosticLogger, m.severity.level, m.text⟩

namespace Event

def record? : Event → Option Log.Record
  | .line _ _ => none
  | .message m => some m.record
  | .trace t => some ⟨Log.converterLogger, .debug, t⟩

end Event

def Outcome.records (r : Outcome) : List Log.Record := r.events.filterMap Event.record?

structure Conversion where
  outcome : Outcome
  status : ExitStatus
  verbose : Int
  deriving DecidableEq, Repr

namespace Conversion

def lines (c : Conversion) : List Text := c.outcome.emitted

def text (c : Conversion) : Text := render c.lines

def messages (c : Conversion) : List Message := c.outcome.messages

def tally (c : Conversion) : Tally := c.outcome.state.tally

def fatal (c : Conversion) : Option Fatal := c.outcome.fatal

def summary (c : Conversion) (w : Wording) : Except WordingFault String :=
  c.tally.summary w c.outcome.state.linesRead c.outcome.state.bytesRead

end Conversion

structure Logged where
  records : List Log.Record
  result : Except WordingFault Conversion

/-- What has been logged when a conversion is over, and what its caller gets. The summary comes
last, and it is put into words also where it is not logged. -/
def Conversion.logged (c : Conversion) (w : Wording) : Logged :=
  match c.summary w with
  | .ok text =>
    ⟨c.outcome.records ++ if c.verbose = 0 then [] else [⟨Log.converterLogger, .info, text⟩], .ok c⟩
  | .error f => ⟨c.outcome.records, .error f⟩

theorem logged_of_summary {c : Conversion} {w : Wording} {text : String}
    (h : c.summary w = .ok text) : c.logged w =
      ⟨c.outcome.records ++
        if c.verbose = 0 then [] else [⟨Log.converterLogger, .info, text⟩], .ok c⟩ := by
  rw [Conversion.logged, h]

theorem logged_of_fault {c : Conversion} {w : Wording} {f : WordingFault}
    (h : c.summary w = .error f) : c.logged w = ⟨c.outcome.records, .error f⟩ := by
  rw [Conversion.logged, h]

def Conversion.ofRun (o : Options) (r : Outcome) : Conversion :=
  match r.fatal with
  | some f => ⟨r, f.status, o.verbose⟩
  | none => ⟨r.state.finish.after r.events, r.state.finish.state.tally.exitStatus, o.verbose⟩

def convert (o : Options) (source : List Text) : Conversion :=
  .ofRun o (State.feedAll o .initial source)

end OverlaySugar
