import OverlaySugar.Config.Overrides
import OverlaySugar.Converter
import OverlaySugar.Text.Numeral

/-!
# Options from a configuration

The section `options` gives the conversion options. A key that it lacks, or
a lacking section, keeps the standard value. A verbosity is an integer or
else a truth value.
-/

set_option autoImplicit false

namespace OverlaySugar
open Text

def optionsSection : Text := "options".toList

def truthWords : List (Text × Bool) :=
  [("1".toList, true), ("yes".toList, true), ("true".toList, true), ("on".toList, true),
   ("0".toList, false), ("no".toList, false), ("false".toList, false), ("off".toList, false)]

def truthOf? (t : Text) : Option Bool := truthWords.lookup (lower t)

namespace Config

def optionValue? (c : Config) (key : Text) : Except ConfigFault (Option Text) :=
  (c.value? optionsSection key).mapError (.interpolation optionsSection key)

def truthOption (c : Config) (key : Text) : Except ConfigFault Bool := do
  match ← c.optionValue? key with
  | none => return false
  | some v =>
    match truthOf? v with
    | some b => return b
    | none => throw (.notBoolean v)

def verbosityOf (v : Text) : Except ConfigFault Int :=
  match integer? v, truthOf? v with
  | some n, _ => .ok n
  | none, some b => .ok (if b then 1 else 0)
  | none, none => .error (.badVerbosity v)

def options (c : Config) : Except ConfigFault Options := do
  if !c.hasSection optionsSection then return .standard
  let force ← c.truthOption "force".toList
  let keepIndent ← c.truthOption "no_indent_fix".toList
  let verbose ← c.optionValue? "verbose".toList
  return ⟨force, !keepIndent, ← verbosityOf (verbose.getD "0".toList)⟩

def packaged : Config :=
  ⟨[], [(optionsSection, [("force".toList, "false".toList), ("no_indent_fix".toList, "false".toList),
    ("verbose".toList, "0".toList)])]⟩

def ofFile (fs : Files) (path source : Text) : Except ConfigFault Config :=
  match fs.openInput source with
  | .error _ => .ok empty
  | .ok r =>
    match ofBytes (fs.bytesAt r) with
    | .ok c => .ok c
    | .error (.undecodable f) => .error (.undecodableFile f)
    | .error f => .error (.unreadableFile path source f)

/-- The configuration in a named file, which has to be there. It is looked for from the working
directory but read by its path from the root, and that one can be too long to be opened. -/
def ofPath (fs : Files) (path : Text) : Except ConfigFault Config :=
  if path.head? = none then .ok packaged
  else if '\x00' ∈ path then .error (.missingFile path)
  else match fs.find (tidyPath path) with
    | .ok _ => ofFile fs path (fs.absolutePath path)
    | .error .nameTooLong => .error (.badPath (tidyPath path) .nameTooLong)
    | .error _ => .error (.missingFile path)

def load (fs : Files) (path : Text) (overrides : List Text) : Except ConfigFault Config := do
  let r := (← ofPath fs path).applyOverrides overrides
  match r.fault with
  | some f => throw f
  | none => return r.config

end Config
end OverlaySugar
