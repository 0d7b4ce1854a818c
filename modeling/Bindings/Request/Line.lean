import Bindings.Config.Error
import Bindings.Text.Blank
import Bindings.Text.Part

/-!
# Request lines

What may be asked for: a name, a namespace, all functions of a module as `NAME.*`, or all
constants that begin with a text as `TEXT*`. Modules may have names that are no
identifiers.
-/

namespace Bindings.Request
open Bindings.Text

/-! ## Names -/

/-- A letter of the basic Latin alphabet. -/
def isLetter (c : Char) : Bool := ('A' ≤ c && c ≤ 'Z') || ('a' ≤ c && c ≤ 'z')

/-- A digit of the basic Latin alphabet. -/
def isFigure (c : Char) : Bool := '0' ≤ c && c ≤ '9'

/-- A character of an identifier. -/
def isIdentifierChar (c : Char) : Bool := isLetter c || isFigure c || c = '_'

/-- A row of letters, figures and underscores that does not begin with a figure. -/
def isIdentifier : List Char → Bool
  | [] => false
  | c :: rest => (isLetter c || c = '_') && rest.all isIdentifierChar

/-- Identifiers with points between them. -/
def isDottedName (cs : List Char) : Bool := (cutAll '.' cs).all isIdentifier

/-- A character of a module name. -/
def isModuleChar (c : Char) : Bool := isIdentifierChar c || c = '-'

/-- A name of a module: parts with points between them, the first not with a hyphen in front. -/
def isModuleName (cs : List Char) : Bool :=
  cs.head?.any isIdentifierChar
    && (cutAll '.' cs).all fun part => !part.isEmpty && part.all isModuleChar

/-! ## Lines -/

/-- A row without the given end, if it has it. -/
def withoutEnd? (ending cs : List Char) : Option (List Char) :=
  if ending.isSuffixOf cs then some (cs.take (cs.length - ending.length)) else none

/-- Whether a row has the form of a request. -/
def isRequest (cs : List Char) : Bool :=
  match withoutEnd? ['.', '*'] cs with
  | some body => isDottedName body || isModuleName body
  | none =>
    match withoutEnd? ['*'] cs with
    | some body => isDottedName body
    | none => isDottedName cs

/-- The request of a line, without the blanks around it. -/
def validate (line : String) : Except ConfigError String :=
  if isRequest (strip line).toList then .ok (strip line) else .error (.request line)

/-- Whether a line without blanks around it says something. -/
def isSilent (line : String) : Bool := line = "" || begins "//" line || begins "#" line

/-- The requests of a text, one a line. Empty lines and comments are passed over. -/
def readLines (text : String) : Except ConfigError (List String) :=
  (((lines text).map strip).filter (!isSilent ·)).mapM validate

end Bindings.Request
