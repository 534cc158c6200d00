import OverlaySugar.Config.Interpolation
import OverlaySugar.Config.Reader
import OverlaySugar.Diagnostics
import OverlaySugar.Files

/-!
# Faults of a configuration

Most faults of a configuration are refused with a message of their own. Some
are not: undecodable files, values that cannot be interpolated, percent signs
in an override and overlong paths pass as they are.
-/

set_option autoImplicit false

namespace OverlaySugar
open Text

inductive ConfigFault
  | missingFile (path : Text)
  | unreadableFile (path source : Text) (fault : ReadFault)
  | noSection (override : Text)
  | notBoolean (value : Text)
  | badVerbosity (value : Text)
  | undecodableFile (fault : Utf8.Fault)
  | strayPercent (value : Text) (position : Nat)
  | interpolation (name key : Text) (fault : InterpolationFault)
  | badPath (path : Text) (fault : PathFault)
  deriving DecidableEq, Repr

namespace ConfigFault

def isRefused : ConfigFault → Bool
  | .missingFile _ | .unreadableFile _ _ _ | .noSection _ | .notBoolean _ | .badVerbosity _ => true
  | .undecodableFile _ | .strayPercent _ _ | .interpolation _ _ _ | .badPath _ _ => false

def exitStatus : ExitStatus := .badArgs

def shownSource (source : Text) : String := s!"PosixPath({quote source})"

def message : ConfigFault → String
  | .missingFile path => s!"config file {String.ofList path} does not exist"
  | .unreadableFile path source f =>
    s!"config file {String.ofList path} could not be parsed: {f.message (shownSource source)}"
  | .noSection o => s!"configuration value '{String.ofList o}' has no section"
  | .notBoolean v => s!"invalid [options] value: Not a boolean: {String.ofList v}"
  | .badVerbosity v => s!"invalid [options] verbose value: {String.ofList v}"
  | .undecodableFile f => f.message
  | .strayPercent v n => s!"invalid interpolation syntax in {quote v} at position {n}"
  | .interpolation name key f => f.message name key
  | .badPath path f => s!"[Errno {f.number}] {f.message}: {quote path}"

end ConfigFault
end OverlaySugar
