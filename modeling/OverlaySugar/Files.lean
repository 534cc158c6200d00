import OverlaySugar.Table
import OverlaySugar.Text.Utf8

/-!
# Files

A tree of named nodes with a working directory, and the look-up of paths in
it. A route is the names from the root of the tree; a path is text that leads
to a route from the root or the working directory.
-/

set_option autoImplicit false

namespace OverlaySugar
open Text

inductive Node
  | file (bytes : Bytes)
  | directory
  deriving DecidableEq, Repr

inductive PathFault
  | notFound | isDirectory | notDirectory | nameTooLong
  deriving DecidableEq, Repr

namespace PathFault

def message : PathFault → String
  | .notFound => "No such file or directory"
  | .isDirectory => "Is a directory"
  | .notDirectory => "Not a directory"
  | .nameTooLong => "File name too long"

def number : PathFault → Nat
  | .notFound => 2
  | .isDirectory => 21
  | .notDirectory => 20
  | .nameTooLong => 36

end PathFault

abbrev Route := List Text

structure Files where
  here : Route
  nodes : List (Route × Node)
  deriving DecidableEq, Repr

/-! ## Paths -/

def maxNameBytes : Nat := 255

def maxPathBytes : Nat := 4095

def sameName : Text := ['.']

def parentName : Text := "..".toList

def namesOf (path : Text) : List Text := (pieces '/' path).filter (· ≠ [])

def isAbsolute (path : Text) : Bool := path.head? == some '/'

def endsInSlash (path : Text) : Bool := path.getLast? == some '/'

def joinNames (names : List Text) : Text := ['/'].intercalate names

def rootOf (path : Text) : Text :=
  match path.takeWhile (· == '/') with
  | [] => []
  | [a, b] => [a, b]
  | a :: _ => [a]

def tidyPath (path : Text) : Text :=
  let tidy := rootOf path ++ joinNames ((namesOf path).filter (· ≠ sameName))
  if tidy = [] then sameName else tidy

namespace Route

def path (r : Route) : Text := '/' :: joinNames r

end Route

namespace Files

def isDirectory (fs : Files) (r : Route) : Bool :=
  r == [] || r.isPrefixOf fs.here ||
    fs.nodes.any fun (r', n) => (r' == r && n == .directory) || (r.isPrefixOf r' && r != r')

def node? (fs : Files) (r : Route) : Option Node :=
  if fs.isDirectory r then some .directory else fs.nodes.lookup r

def absolutePath (fs : Files) (path : Text) : Text :=
  let tidy := tidyPath path
  if isAbsolute tidy then tidy
  else Route.path (fs.here ++ (namesOf tidy).filter (· ≠ sameName))

def enter (fs : Files) (r : Route) (name : Text) : Except PathFault Route :=
  if name = sameName then .ok r
  else if name = parentName then .ok r.dropLast
  else if utf8Length name > maxNameBytes then .error .nameTooLong
  else match fs.node? (r ++ [name]) with
    | some .directory => .ok (r ++ [name])
    | some (.file _) => .error .notDirectory
    | none => .error .notFound

def walk (fs : Files) : Route → List Text → Except PathFault Route
  | r, [] => .ok r
  | r, name :: rest => fs.enter r name >>= fun r => fs.walk r rest

/-- The directory that a path leads to, and the name in it that is still to be looked up. All names
but the last have to be those of directories; a last `.` or `..` is one too, and then no name is
left. -/
def locate (fs : Files) (path : Text) : Except PathFault (Route × Option Text) :=
  if path = [] then .error .notFound
  else if utf8Length path > maxPathBytes then .error .nameTooLong
  else do
    let names := namesOf path
    let r ← fs.walk (if isAbsolute path then [] else fs.here) names.dropLast
    match names.getLast? with
    | none => return (r, none)
    | some name =>
      if name = sameName ∨ name = parentName then return (← fs.enter r name, none)
      else return (r, some name)

def find (fs : Files) (path : Text) : Except PathFault (Route × Node) := do
  match ← fs.locate path with
  | (r, none) => return (r, .directory)
  | (r, some name) =>
    if utf8Length name > maxNameBytes then throw .nameTooLong
    match fs.node? (r ++ [name]) with
    | none => throw .notFound
    | some .directory => return (r ++ [name], .directory)
    | some (.file bytes) =>
      if endsInSlash path then throw .notDirectory else return (r ++ [name], .file bytes)

def openInput (fs : Files) (path : Text) : Except PathFault Route := do
  match ← fs.find path with
  | (_, .directory) => throw .isDirectory
  | (r, .file _) => return r

def openOutput (fs : Files) (path : Text) : Except PathFault Route := do
  match ← fs.locate path with
  | (_, none) => throw .isDirectory
  | (r, some name) =>
    if endsInSlash path then throw .isDirectory
    else if utf8Length name > maxNameBytes then throw .nameTooLong
    else if fs.isDirectory (r ++ [name]) then throw .isDirectory
    else return r ++ [name]

def bytesAt (fs : Files) (r : Route) : Bytes :=
  match fs.node? r with
  | some (.file bytes) => bytes
  | _ => []

def write (fs : Files) (r : Route) (bytes : Bytes) : Files :=
  { fs with nodes := assign r (.file bytes) fs.nodes }

def changesSince (fs before : Files) : List (Route × Bytes) :=
  fs.nodes.filterMap fun
    | (r, .file bytes) => if before.node? r = some (.file bytes) then none else some (r, bytes)
    | (_, .directory) => none

def routesAlong (fs : Files) (path : Text) : List Route :=
  let step := fun (rs : List Route) name =>
    let r := rs.head?.getD []
    (if name = sameName then r else if name = parentName then r.dropLast else r ++ [name]) :: rs
  (namesOf path).foldl step [if isAbsolute path then [] else fs.here]

end Files
end OverlaySugar
