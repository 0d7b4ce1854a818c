import Bindings.CommandLine.Run

/-!
# The program

Reads the files that the command line names, does what it asks for, and passes on what
is printed and written.
-/

namespace Bindings.CommandLine

/-- The text at a path, if a file can be read there. -/
def readText? (path : String) : IO (Option (String × String)) := do
  try
    return some (path, ← IO.FS.readFile path)
  catch _ => return none

/-- The place of a path, if a directory is there. -/
def directory? (path : String) : IO (Option Place) := do
  try
    if ← (← IO.FS.realPath path).isDir then return some (FileTree.placeOf (Path.ofText path))
    else return none
  catch _ => return none

/-- The paths that the words of a command line name. -/
def pathsOf (words : List String) : List String :=
  match Arguments.read words with
  | .ok a => a.paths
  | .error _ => []

/-- Writes a file, and the directories on the way to it. -/
def writeText (place : Place) (text : String) : IO Unit := do
  IO.FS.createDirAll (if place.dropLast.isEmpty then "." else Place.text place.dropLast)
  IO.FS.writeFile (Place.text place) text

/-- The files and directories at the paths that the words of a command line name. -/
def readTree (words : List String) : IO FileTree := do
  let tree := FileTree.ofFiles (← (pathsOf words).filterMapM readText?)
  return { tree with made := ← (pathsOf words).filterMapM directory? }

/-- Runs the program on the words of its command line, and gives the status that it ends with. -/
def execute (words : List String) : IO UInt32 := do
  match run words (← readTree words) with
  | .error breakdown =>
    IO.eprintln breakdown.message
    return 1
  | .ok outcome =>
    for (place, text) in outcome.written do writeText place text
    IO.print outcome.output.shown
    IO.eprint outcome.complaints
    return UInt32.ofNat outcome.status

end Bindings.CommandLine

/-- The program. -/
def main (words : List String) : IO UInt32 := Bindings.CommandLine.execute words
