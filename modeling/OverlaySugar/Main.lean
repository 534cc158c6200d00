import OverlaySugar.CommandLine.Run
import OverlaySugar.Quantity

/-!
# The command line program

Looks at the files that the arguments name, runs, and writes what has
changed. Everything is decided in the run.
-/

set_option autoImplicit false

namespace OverlaySugar.CommandLine
open Text

def pathOf (r : Route) : String := String.ofList r.path

def observe (r : Route) : IO (Option Node) := do
  try
    let bytes ← IO.FS.readBinFile (pathOf r)
    return some (.file bytes.toList)
  catch
    | .inappropriateType .. => return some .directory
    | _ => return none

def observeAll (fs : Files) (routes : List Route) : IO Files := do
  let mut nodes := fs.nodes
  for r in routes do
    match nodes.lookup r, nodes.lookup r.dropLast with
    | none, some (.file _) | some _, _ => pure ()
    | none, _ => if let some n ← observe r then nodes := nodes ++ [(r, n)]
  return { fs with nodes }

partial def readRest (stream : IO.FS.Stream) (got : ByteArray) : IO ByteArray := do
  let more ← stream.read 65536
  if more.isEmpty then return got else readRest stream (got ++ more)

def setup (arguments : List String) : IO Setup := do
  let here ← IO.currentDir
  let files : Files := ⟨namesOf here.toString.toList, []⟩
  let bare : Setup := ⟨"dtsugar.__main__", arguments.map (·.toList), files, []⟩
  let files ← observeAll files (bare.paths.flatMap fun p => (files.routesAlong p).reverse)
  let input ← if bare.readsStandardInput then readRest (← IO.getStdin) .empty else pure .empty
  return { bare with files, input := input.toList }

def finish (s : Setup) (e : Ending) : IO UInt32 := do
  for (r, bytes) in e.files.changesSince s.files do
    IO.FS.writeBinFile (pathOf r) ⟨bytes.toArray⟩
  (← IO.getStdout).putStr (String.ofList e.printed)
  (← IO.getStderr).putStr (String.join e.log)
  match e.result with
  | .ok status => return status.code.toUInt32
  | .error escape =>
    (← IO.getStderr).putStrLn escape.message
    return 1

end OverlaySugar.CommandLine

def main (arguments : List String) : IO UInt32 := do
  let s ← OverlaySugar.CommandLine.setup arguments
  OverlaySugar.CommandLine.finish s (s.run OverlaySugar.Quantity.wording)
