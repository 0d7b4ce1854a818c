import Bindings.Text.Digit
import Bindings.Text.Part

/-!
# Arguments

What the words of a command line ask for. A flag is written in full, or by a start that
only one flag has. Its value is the next word, or what follows an equals sign. The words
are taken in order, and the first thing that is wrong ends the reading.
-/

namespace Bindings.CommandLine
open Bindings.Text

/-! ## Flags -/

/-- The flags of the command line. -/
inductive Flag
  | help
  | metadata
  | request
  | requestsFile
  | options
  | platform
  | docs
  | templates
  | manifest
  | suggest
  | listNamespaces
  deriving DecidableEq, Repr, Inhabited

namespace Flag

/-- The name of a flag. -/
def name : Flag → String
  | help => "--help"
  | metadata => "--metadata"
  | request => "--request"
  | requestsFile => "--requests-file"
  | options => "--options"
  | platform => "--platform"
  | docs => "--docs"
  | templates => "--templates"
  | manifest => "--manifest"
  | suggest => "--suggest"
  | listNamespaces => "--list-namespaces"

/-- All flags. -/
def all : List Flag :=
  [help, metadata, request, requestsFile, options, platform, docs, templates, manifest, suggest,
    listNamespaces]

/-- Whether a flag has a value. -/
def hasValue : Flag → Bool
  | help | listNamespaces => false
  | _ => true

/-- The flag that may not be given beside a flag. -/
def rival? : Flag → Option Flag
  | suggest => some listNamespaces
  | listNamespaces => some suggest
  | _ => none

/-- The flags that a text can mean: the one of that name, or else all that begin with it. -/
def named (s : String) : List Flag :=
  match all.find? (·.name = s) with
  | some flag => [flag]
  | none => all.filter fun flag => begins s flag.name

end Flag

/-! ## Words -/

/-- What is wrong with a command line. -/
inductive UsageError
  | ambiguous (word : String) (flags : List Flag)
  | noValue (flag : Flag)
  | needlessValue (flag : Flag)
  | unexpected (word : String)
  | conflict
  deriving DecidableEq, Repr, Inhabited

/-- The message of an error. -/
def UsageError.message : UsageError → String
  | ambiguous word flags =>
    word ++ " could mean " ++ join ", " (flags.map (·.name))
  | noValue flag => flag.name ++ " needs a value"
  | needlessValue flag => flag.name ++ " has no value"
  | unexpected word => "unexpected argument: " ++ word
  | conflict => Flag.suggest.name ++ " and " ++ Flag.listNamespaces.name ++ " exclude each other"

/-- A word of a command line: a flag, with what follows its equals sign if it has one, or a text
    that can be the value of a flag before it. What is neither fits nowhere. -/
inductive Word
  | given (flag : Flag) (value : Option String)
  | text (s : String)
  | stray (s : String)
  deriving DecidableEq, Repr, Inhabited

/-- Whether a row is a number in decimal notation, possibly with a point and figures after it. -/
def isNumeral (cs : List Char) : Bool :=
  match cutAll '.' cs with
  | [whole] => !whole.isEmpty && whole.all isDigit
  | [whole, rest] => whole.all isDigit && !rest.isEmpty && rest.all isDigit
  | _ => false

/-- A row without one line feed at its end. -/
def withoutLineFeed (cs : List Char) : List Char :=
  if cs.getLast? = some '\n' then cs.dropLast else cs

/-- Whether a row that begins with a hyphen is a text all the same: the hyphen alone, a negative
    number, or words with blanks between them. -/
def isHyphenText (cs : List Char) : Bool :=
  cs = ['-'] || isNumeral (withoutLineFeed (cs.drop 1)) || cs.contains ' '

/-- The parts of a text before and after its first equals sign, if it has one. -/
def assignment (s : String) : String × Option String :=
  match s.toList.span (· ≠ '=') with
  | (_, []) => (s, none)
  | (name, _ :: value) => (String.ofList name, some (String.ofList value))

/-- What a word is. -/
def Word.read (s : String) : Except UsageError Word :=
  let other : Word := if isHyphenText s.toList then .text s else .stray s
  match s.toList with
  | '-' :: '-' :: _ =>
    let (name, value) := assignment s
    match Flag.named name with
    | [flag] => .ok (.given flag value)
    | [] => .ok other
    | flags => .error (.ambiguous s flags)
  | '-' :: 'h' :: rest =>
    .ok (.given .help (if rest.all (· = 'h') then none else some (String.ofList rest)))
  | '-' :: _ => .ok other
  | _ => .ok (.text s)

/-- What the words are. Two hyphens alone end the flags, and no word may follow them. -/
def readWords : List String → Except UsageError (List Word)
  | [] => .ok []
  | "--" :: _ => .ok [.stray "--"]
  | s :: rest => do return (← Word.read s) :: (← readWords rest)

/-! ## Arguments -/

/-- The value of a flag: a text, or nothing at all. -/
inductive FlagValue
  | text (s : String)
  | empty
  deriving DecidableEq, Repr, Inhabited

namespace FlagValue

/-- The value that a text after an equals sign gives. Two hyphens give an empty one. -/
def read (s : String) : FlagValue := if s = "--" then empty else text s

/-- The text of a value, if it has one. -/
def text? : FlagValue → Option String
  | text s => some s
  | empty => none

end FlagValue

/-- What a command line asks for. Of a flag with one value the last value counts. -/
structure Arguments where
  help : Bool := false
  metadata : List FlagValue := []
  requests : List FlagValue := []
  requestsFile : Option FlagValue := none
  options : Option FlagValue := none
  platform : Option FlagValue := none
  docs : Option FlagValue := none
  templates : Option FlagValue := none
  manifest : Option FlagValue := none
  suggest : Option FlagValue := none
  listNamespaces : Bool := false
  deriving DecidableEq, Repr, Inhabited

namespace Arguments

/-- The arguments with a flag and its value, if the flag has one. -/
def assign (a : Arguments) (value : Option FlagValue) : Flag → Arguments
  | .help => { a with help := true }
  | .metadata => { a with metadata := a.metadata ++ value.toList }
  | .request => { a with requests := a.requests ++ value.toList }
  | .requestsFile => { a with requestsFile := value }
  | .options => { a with options := value }
  | .platform => { a with platform := value }
  | .docs => { a with docs := value }
  | .templates => { a with templates := value }
  | .manifest => { a with manifest := value }
  | .suggest => { a with suggest := value }
  | .listNamespaces => { a with listNamespaces := true }

/-- The arguments with one more flag, unless its rival is among those given before. -/
def give (a : Arguments) (given : List Flag) (flag : Flag) (value : Option FlagValue) :
    Except UsageError Arguments :=
  if flag.rival?.any given.contains then .error .conflict else .ok (a.assign value flag)

/-- The arguments with the words that follow the given flags. Nothing counts after the flag for
    help, and a word that fits nowhere counts only if that flag does not follow. -/
def take (a : Arguments) (given : List Flag) : List Word → Except UsageError Arguments
  | [] => .ok a
  | .text s :: rest | .stray s :: rest => do
    let a ← a.take given rest
    if a.help then return a else throw (.unexpected s)
  | .given .help none :: _ => .ok (a.assign none .help)
  | .given .listNamespaces none :: rest => do
    (← a.give given .listNamespaces none).take (.listNamespaces :: given) rest
  | .given flag none :: .text value :: rest => do
    (← a.give given flag (some (.text value))).take (flag :: given) rest
  | .given flag none :: _ => .error (.noValue flag)
  | .given flag (some value) :: rest => do
    if flag.hasValue then (← a.give given flag (some (.read value))).take (flag :: given) rest
    else throw (.needlessValue flag)

/-- The arguments that the words of a command line write. -/
def read (words : List String) : Except UsageError Arguments := do
  take {} [] (← readWords words)

end Arguments
end Bindings.CommandLine
