import OverlaySugar.Log.Record
import OverlaySugar.Table

/-!
# The logger registry

Loggers have dotted names and hang below the nearest logger known above
them, the root in the end. A record goes up from its logger, and each handler
on the way writes it; registering a logger gives it a handler and stops its
records there. A level that is not set is taken from above. Names above a
logger that nobody asked for yet are kept as placeholders with the loggers to
move once they become one.
-/

set_option autoImplicit false

namespace OverlaySugar.Log

/-- `parent` is the logger above, `none` for the root. Only one that propagates passes its
records on to it. -/
structure Logger where
  name : String
  level : Option Level
  handled : Bool
  propagates : Bool
  parent : Option String
  deriving DecidableEq, Repr

inductive Entry
  | logger (l : Logger)
  | placeholder (below : List String)
  deriving DecidableEq, Repr

structure Registry where
  rootLevel : Level
  entries : List (String × Entry)
  deriving DecidableEq, Repr

def rootName : String := "root"

def isRootName (name : String) : Bool := name == "" || name == rootName

/-- The names above one that is read backwards, nearest first. A dot next to a dot that was
taken is passed over, and so is one at the start. -/
def namesAbove : List Char → List String
  | [] => []
  | ['.'] => []
  | '.' :: c :: rest => String.ofList (c :: rest).reverse :: namesAbove rest
  | _ :: rest => namesAbove rest

def ancestorNames (name : String) : List String := namesAbove name.toList.reverse

namespace Registry

def empty : Registry := ⟨.warning, []⟩

def find? (r : Registry) (name : String) : Option Entry := r.entries.lookup name

def logger? (r : Registry) (name : String) : Option Logger :=
  match r.find? name with
  | some (.logger l) => some l
  | _ => none

def put (r : Registry) (name : String) (e : Entry) : Registry :=
  { r with entries := assign name e r.entries }

def update (r : Registry) (name : String) (f : Logger → Logger) : Registry :=
  match r.logger? name with
  | some l => r.put name (.logger (f l))
  | none => r

def setParent (r : Registry) (name : String) (parent : Option String) : Registry :=
  r.update name ({ · with parent })

def attach (name : String) : List String → Registry → Registry
  | [], r => r.setParent name none
  | above :: rest, r =>
    match r.find? above with
    | some (.logger _) => r.setParent name (some above)
    | some (.placeholder below) =>
      attach name rest (r.put above (.placeholder (if name ∈ below then below else below ++ [name])))
    | none => attach name rest (r.put above (.placeholder [name]))

def adopt (name : String) : List String → Registry → Registry
  | [], r => r
  | child :: rest, r =>
    match r.logger? child with
    | none => adopt name rest r
    | some l =>
      if name.toList.isPrefixOf (l.parent.getD rootName).toList then adopt name rest r
      else adopt name rest (r.setParent child (some name))

def ensure (r : Registry) (name : String) : Registry :=
  if isRootName name then r else
  let fresh := Entry.logger ⟨name, none, false, true, none⟩
  match r.find? name with
  | some (.logger _) => r
  | some (.placeholder below) => attach name (ancestorNames name) (adopt name below (r.put name fresh))
  | none => attach name (ancestorNames name) (r.put name fresh)

def register (r : Registry) (name : String) : Registry :=
  (r.ensure name).update name fun l =>
    if l.handled then l else { l with handled := true, propagates := false }

def setLevels (r : Registry) (stem : String) (level : Level) : Registry :=
  { rootLevel := level
    entries := r.entries.map fun
      | (name, .logger l) =>
        (name, .logger (if stem.toList.isPrefixOf name.toList then { l with level := some level } else l))
      | p => p }

def lineageFrom (r : Registry) : Nat → Option String → List Logger
  | n + 1, some name =>
    match r.logger? name with
    | some l => l :: lineageFrom r n l.parent
    | none => []
  | _, _ => []

def lineage (r : Registry) (name : String) : List Logger :=
  r.lineageFrom r.entries.length (some name)

def effectiveLevel (r : Registry) (name : String) : Level :=
  ((r.lineage name).findSome? (·.level)).getD r.rootLevel

def handle (record : Record) : List Logger → List String
  | [] => [record.bare]
  | l :: above =>
    (if l.handled then [record.named] else []) ++ if l.propagates then handle record above else []

def write (r : Registry) (record : Record) : List String :=
  if record.level.passes (r.effectiveLevel record.logger) then handle record (r.lineage record.logger)
  else []

def writeAll (r : Registry) (records : List Record) : List String := records.flatMap r.write

def loggerFor (r : Registry) (caller : String) (explicit : Option String) : String :=
  match explicit with
  | some name => if isRootName name then rootName else name
  | none => if (r.find? caller).isSome && !isRootName caller then caller else rootName

def call (r : Registry) (level : Level) (caller message : String) (explicit : Option String)
    (enabled : Bool) : Registry × List String :=
  let logger := r.loggerFor caller explicit
  let r := r.ensure logger
  (r, if enabled then r.write ⟨logger, level, message⟩ else [])

def describe (r : Registry) (name : String) : String × String × Bool × Nat :=
  match r.logger? name with
  | some l => (name, (l.level.map (·.name)).getD "NOTSET", l.propagates, if l.handled then 1 else 0)
  | none => (rootName, r.rootLevel.name, true, 1)

end Registry

/-! ## The loggers of this program -/

def programStem : String := "dtsugar"

def diagnosticLogger : String := "dtsugar.diag"

def converterLogger : String := "dtsugar.convert"

namespace Registry

def startup : Registry := (empty.register diagnosticLogger).register converterLogger

def setVerbosity (r : Registry) (verbose : Int) : Registry :=
  r.setLevels programStem (.ofVerbosity verbose)

end Registry
end OverlaySugar.Log
