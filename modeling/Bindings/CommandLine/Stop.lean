import Bindings.CommandLine.Arguments
import Bindings.Config.Error
import Bindings.Fault
import Bindings.File.Tree
import Bindings.Generation.Failure
import Bindings.Markup.Encoding

/-!
# Stops

Why a run ends early. Most causes are told in the output. A run that meets one that nobody has
provided for breaks down, and its output is lost.
-/

namespace Bindings.CommandLine

/-! ## Breakdowns -/

/-- What a run does not survive: a value that is needed and empty, a path that cannot be looked up
    or a file of settings that cannot be read, and a document in an encoding that is not known. -/
inductive Breakdown
  | emptyValue (flag : Flag)
  | file (error : FileError)
  | document (error : Markup.DocumentError)
  deriving DecidableEq, Repr, Inhabited

/-- What the empty value of a flag is asked for, and does not have: a text is asked for its part
    without blanks around it, the path of a manifest for the directory above it, and any other path
    whether it exists. -/
def Flag.askedFor : Flag → String
  | .request | .platform => "strip"
  | .manifest => "parent"
  | _ => "exists"

/-- The message of a breakdown. -/
def Breakdown.message : Breakdown → String
  | emptyValue flag => "'list' object has no attribute '" ++ flag.askedFor ++ "'"
  | file e => e.message
  | document e => e.message

/-! ## Stops -/

/-- Why a run ends early. -/
inductive Stop
  | config (error : ConfigError)
  | document (error : Markup.DocumentError)
  | fault (fault : Fault)
  | file (error : FileError)
  | failure (failure : Failure)
  | noSuggestion (name : String)
  | breakdown (breakdown : Breakdown)
  deriving DecidableEq, Repr, Inhabited

namespace Stop

/-- The stop that a document without a tree is. An encoding that is not known, or not one of
    characters, breaks the run down. -/
def ofDocument (e : Markup.DocumentError) : Stop :=
  match e with
  | .unknownEncoding _ | .binaryEncoding _ => breakdown (.document e)
  | _ => document e

/-- The lines that tell of an error in the settings. -/
def configLines (e : ConfigError) : List LooseText :=
  (.ofString ("Config error [" ++ e.code ++ "]: ") ++ e.message)
    :: match e.suggestion? with
      | some hint => [.ofString ("Hint: " ++ hint)]
      | none => []

/-- The lines of a stop among the output. What the program did not provide for is an internal
    error. -/
def output : Stop → List LooseText
  | config e => configLines e
  | document .malformed => ["Error: " ++ Markup.DocumentError.malformed.message]
  | document e => ["Internal error: " ++ e.message]
  | fault f => ["Error: " ++ f.message]
  | file .unwritable => ["Internal error: " ++ FileError.unwritable.message]
  | file e => ["Error: " ++ e.message]
  | failure f => ["Internal error: " ++ f.message]
  | noSuggestion _ | breakdown _ => []

/-- The lines of a stop among the complaints. -/
def complaints : Stop → List String
  | noSuggestion name => ["Error: nothing resembles '" ++ name ++ "'"]
  | _ => []

end Stop
end Bindings.CommandLine
