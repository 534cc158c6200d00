import OverlaySugar.Table
import OverlaySugar.Text.LetterCase

/-!
# Configurations

Sections hold keys with raw values, in the order in which they were first
set. A key that a section does not have is looked for among the defaults.
-/

set_option autoImplicit false

namespace OverlaySugar

abbrev Entries := List (Text × Text)

structure Config where
  defaults : Entries
  sections : List (Text × Entries)
  deriving DecidableEq, Repr

def defaultSection : Text := "DEFAULT".toList

namespace Config

def empty : Config := ⟨[], []⟩

def storesToDefaults (section_ : Text) : Bool := section_ == [] || section_ == defaultSection

def hasSection (c : Config) (name : Text) : Bool := c.sections.any (·.1 == name)

def entries (c : Config) (name : Text) : Entries :=
  if storesToDefaults name then c.defaults else (c.sections.lookup name).getD []

def own? (c : Config) (name key : Text) : Option Text := (c.entries name).lookup key

def raw? (c : Config) (name key : Text) : Option Text :=
  (c.own? name key).or (c.defaults.lookup key)

def clear (c : Config) (name : Text) : Config :=
  if name = defaultSection then { c with defaults := [] }
  else { c with sections := assign name [] c.sections }

def put (c : Config) (name key value : Text) : Config :=
  if storesToDefaults name then { c with defaults := assign key value c.defaults }
  else { c with sections := assign name (assign key value (c.entries name)) c.sections }

def items (c : Config) (own : Entries) : Entries :=
  own.foldl (fun es (k, v) => assign k v es) c.defaults

def mapValues (c : Config) (f : Text → Text) : Config :=
  let each := fun (es : Entries) => es.map fun (k, v) => (k, f v)
  ⟨each c.defaults, c.sections.map fun (name, es) => (name, each es)⟩

end Config
end OverlaySugar
