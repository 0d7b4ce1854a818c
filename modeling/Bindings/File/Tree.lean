import Bindings.File.Path
import Bindings.Table
import Bindings.Text.Quoted

/-!
# File trees

The files that a run sees, by their places. A directory is there if it was made, or if a
file lies below it. Walking a path tells what stands at its end.
-/

namespace Bindings
open Bindings.Text

/-! ## Places -/

/-- The parts that lead to a place from the working directory, or from the root directory if
    the first part is a slash. -/
abbrev Place := List String

/-- The root directory. -/
def rootPlace : Place := ["/"]

/-- The null device, an empty file that every system has. -/
def nullDevice : Place := rootPlace ++ ["dev", "null"]

/-- The directory above a place. -/
def Place.above (p : Place) : Place :=
  if p = rootPlace then p
  else match p.getLast? with
    | none | some ".." => p ++ [".."]
    | some _ => p.dropLast

/-- The text of a place. -/
def Place.text : Place → String
  | "/" :: parts => "/" ++ join "/" parts
  | parts => join "/" parts

/-! ## Trees -/

/-- What stands at the end of a path. A path is broken if it leads through a place where
    nothing is, and blocked if it leads through a file. A path or a name in it may be too long
    for the system, and a path with a zero character is none at all. -/
inductive Spot
  | directory (place : Place)
  | file (place : Place) (text : String)
  | free (place : Place)
  | broken
  | blocked
  | tooLong
  | unwritable
  deriving DecidableEq, Repr, Inhabited

/-- The most bytes that a name may have. -/
def longestName : Nat := 255

/-- The most bytes that a path may have. -/
def longestPath : Nat := 4095

/-- Files with their texts, and the directories that were made. -/
structure FileTree where
  files : Table Place String := {}
  made : List Place := []
  deriving Inhabited

namespace FileTree

/-- Whether a place is a directory. -/
def isDirectory (t : FileTree) (p : Place) : Bool :=
  p.all (· = "..") || p = rootPlace || t.made.contains p
    || t.files.keys.any fun file => p.isPrefixOf file && p ≠ file

/-- What stands at a place in a directory. -/
def spot (t : FileTree) (p : Place) : Spot :=
  if t.isDirectory p then .directory p
  else match t.files.get? p with
    | some text => .file p text
    | none => .free p

/-- What stands one part further. -/
def step (t : FileTree) (s : Spot) (part : String) : Spot :=
  match s with
  | .directory p =>
    if part = ".." then t.spot (Place.above p)
    else if longestName < part.utf8ByteSize then .tooLong
    else t.spot (p ++ [part])
  | .file .. | .blocked => .blocked
  | .free _ | .broken => .broken
  | .tooLong => .tooLong
  | .unwritable => .unwritable

/-- What stands at the end of a path. -/
def walk (t : FileTree) (path : Path) : Spot :=
  if path.text.toList.contains '\x00' then .unwritable
  else if longestPath < path.text.utf8ByteSize then .tooLong
  else path.parts.foldl t.step (.directory (if path.root = "" then [] else rootPlace))

/-- The place of a path in a tree where all directories on its way are there. -/
def placeOf (path : Path) : Place :=
  path.parts.foldl (fun p part => if part = ".." then Place.above p else p ++ [part])
    (if path.root = "" then [] else rootPlace)

/-- The tree of files given by the texts of their paths, and the null device. -/
def ofFiles (files : List (String × String)) : FileTree where
  files := Table.ofList
    ((nullDevice, "") :: files.map fun (path, text) => (placeOf (Path.ofText path), text))

end FileTree

/-! ## Errors -/

/-- Why a file cannot be read, or a file or directory cannot be written. -/
inductive FileError
  | missing (path : Path)
  | inTheWay (path : Path)
  | notDirectory (path : Path)
  | isDirectory (path : Path)
  | tooLong (path : Path)
  | unwritable
  deriving DecidableEq, Repr, Inhabited

/-- The message of an error, with the number that the system gives it if the path comes so far. -/
def FileError.message : FileError → String
  | missing path => "[Errno 2] No such file or directory: " ++ quoted path.text
  | inTheWay path => "[Errno 17] File exists: " ++ quoted path.text
  | notDirectory path => "[Errno 20] Not a directory: " ++ quoted path.text
  | isDirectory path => "[Errno 21] Is a directory: " ++ quoted path.text
  | tooLong path => "[Errno 36] File name too long: " ++ quoted path.text
  | unwritable => "embedded null byte"

namespace FileTree

/-! ## Reading -/

/-- Whether something stands at the end of a path. A path that is too long cannot be looked up. -/
def has? (t : FileTree) (path : Path) : Except FileError Bool :=
  match t.walk path with
  | .directory _ | .file .. => .ok true
  | .free _ | .broken | .blocked | .unwritable => .ok false
  | .tooLong => .error (.tooLong path)

/-- The text of the file at a path. -/
def read (t : FileTree) (path : Path) : Except FileError String :=
  match t.walk path with
  | .file _ text => .ok text
  | .directory _ => .error (.isDirectory path)
  | .free _ | .broken => .error (.missing path)
  | .blocked => .error (.notDirectory path)
  | .tooLong => .error (.tooLong path)
  | .unwritable => .error .unwritable

/-! ## Changes -/

/-- Makes the directory at a path, unless it is there. -/
def makeOne (t : FileTree) (path : Path) : Except FileError FileTree :=
  match t.walk path with
  | .directory _ => .ok t
  | .free place => .ok { t with made := t.made ++ [place] }
  | .file .. => .error (.inTheWay path)
  | .blocked => .error (.notDirectory path)
  | .broken => .error (.missing path)
  | .tooLong => .error (.tooLong path)
  | .unwritable => .error .unwritable

/-- Makes the directory whose parts are given last one first. If the path to it is broken, the
    directory above is made before it. -/
def makeBelow (t : FileTree) (root : String) : List String → Except FileError FileTree
  | [] => .ok t
  | part :: above =>
    let path : Path := ⟨root, (part :: above).reverse⟩
    match t.walk path with
    | .broken => do (← t.makeBelow root above).makeOne path
    | _ => t.makeOne path

/-- Makes the directory at a path, and those on the way to it. -/
def makeDirectory (t : FileTree) (path : Path) : Except FileError FileTree :=
  t.makeBelow path.root path.parts.reverse

/-- Writes a file into a directory that is there. -/
def write (t : FileTree) (path : Path) (text : String) : Except FileError FileTree :=
  match t.walk path with
  | .file place _ | .free place => .ok { t with files := t.files.put place text }
  | .directory _ => .error (.isDirectory path)
  | .blocked => .error (.notDirectory path)
  | .broken => .error (.missing path)
  | .tooLong => .error (.tooLong path)
  | .unwritable => .error .unwritable

end FileTree
end Bindings
