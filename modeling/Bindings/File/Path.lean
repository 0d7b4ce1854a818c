import Bindings.Text.Part

/-!
# Paths

Paths as they are written: the slashes in front, and the parts between slashes. Empty
parts and single points lead nowhere and are left out; `..` is a part like any other.
-/

namespace Bindings
open Bindings.Text

/-- A path. What stands in front of its parts is nothing, one slash, or two. -/
structure Path where
  root : String
  parts : List String
  deriving DecidableEq, Repr, Inhabited

namespace Path

/-- The slashes in front of a path. Two stay two, and three or more are one. -/
def rootOf : List Char → String
  | '/' :: '/' :: '/' :: _ => "/"
  | '/' :: '/' :: _ => "//"
  | '/' :: _ => "/"
  | _ => ""

/-- Whether a part leads somewhere. -/
def isPart (part : String) : Bool := part ≠ "" && part ≠ "."

/-- The path that a text writes. -/
def ofText (s : String) : Path where
  root := rootOf s.toList
  parts := ((cutAll '/' s.toList).map String.ofList).filter isPart

/-- The text of a path. A path without parts is the directory that it starts in. -/
def text (p : Path) : String :=
  let written := p.root ++ join "/" p.parts
  if written = "" then "." else written

/-- The last part of a path, or nothing if it has none. -/
def name (p : Path) : String := p.parts.getLast?.getD ""

/-- The path without its last part. -/
def parent (p : Path) : Path := { p with parts := p.parts.dropLast }

end Path
end Bindings
