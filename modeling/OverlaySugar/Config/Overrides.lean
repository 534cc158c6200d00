import OverlaySugar.Config.Fault

/-!
# Overrides

An override `section.key=value` sets one value, and without `=value` sets it
to `True`. Every dotted part but the last names a section, which is created
where it does not exist. A failing override keeps what it has done so far.
-/

set_option autoImplicit false

namespace OverlaySugar
open Text

def trueValue : Text := "True".toList

def overrideAssignment (part : Text) : Text × Text :=
  let parts := pieces '=' part
  let key := parts.head?.getD []
  let value := parts.getLast?.getD []
  (key, if key = value then trueValue else value)

structure Changed where
  config : Config
  fault : Option ConfigFault
  deriving DecidableEq, Repr

namespace Config

def ensureSection (c : Config) (name : Text) : Config := if c.hasSection name then c else c.clear name

def set (c : Config) (name key value : Text) : Changed :=
  match strayPercent? value with
  | some n => ⟨c, some (.strayPercent value n)⟩
  | none => ⟨c.put name (lower key) value, none⟩

def setIn (key value : Text) : List Text → Config → Changed
  | [], c => ⟨c, none⟩
  | name :: rest, c =>
    let r := (c.ensureSection name).set name key value
    match r.fault with
    | some _ => r
    | none => setIn key value rest r.config

def applyOverride (c : Config) (override : Text) : Changed :=
  let parts := pieces '.' override
  if parts.length < 2 then ⟨c, some (.noSection override)⟩
  else
    let (key, value) := overrideAssignment (parts.getLast?.getD [])
    setIn key value parts.dropLast c

def applyOverrides : Config → List Text → Changed
  | c, [] => ⟨c, none⟩
  | c, o :: rest =>
    let r := c.applyOverride o
    match r.fault with
    | some _ => r
    | none => applyOverrides r.config rest

end Config
end OverlaySugar
