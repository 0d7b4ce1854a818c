import Bindings.Text.Loose
import Bindings.Text.Quoted

/-!
# Configuration errors

What can be wrong with the settings of a run, each with its code, its message and a hint.
-/

namespace Bindings
open Bindings.Text

/-- What is wrong with a document of options. -/
inductive OptionsProblem
  | notObject
  | platformNotString
  | comNotObject
  | unknownCom (key : LooseText)
  | comNotNames (key : LooseText)
  | comNotBool (key : LooseText)
  | unknown (key : LooseText)
  | notBool (key : LooseText)
  | unreadable (path : String)
  deriving DecidableEq, Repr, Inhabited

/-- What stands in a message where a reader of structured values would say what it missed. -/
def readerWords : String := "<json error>"

/-- The message of a problem with options. -/
def OptionsProblem.message : OptionsProblem → LooseText
  | notObject => "Options document must be a JSON object."
  | platformNotString => "Option 'platform' must be a string."
  | comNotObject => "Option 'comInterop' must be an object."
  | unknownCom key => .ofString "Unknown comInterop option: " ++ key
  | comNotNames key =>
    .ofString "Option 'comInterop." ++ key ++ .ofString "' must be a list of names."
  | comNotBool key =>
    .ofString "Option 'comInterop." ++ key ++ .ofString "' must be true or false."
  | unknown key => .ofString "Unknown option: " ++ key
  | notBool key => .ofString "Option '" ++ key ++ .ofString "' must be true or false."
  | unreadable path => "Options file is not valid JSON: " ++ path ++ ": " ++ readerWords

/-- What is wrong with the settings of a run. -/
inductive ConfigError
  | platform (raw : LooseText)
  | request (line : String)
  | options (problem : OptionsProblem)
  | unreadableDocs (path : String)
  | docsNotTexts (path : String)
  | missingPath (flag path : String)
  | missingRequests
  | conflict
  deriving DecidableEq, Repr, Inhabited

namespace ConfigError

/-- The code of an error. -/
def code : ConfigError → String
  | platform _ => "INVALID_PLATFORM"
  | request _ => "INVALID_REQUEST"
  | options _ | unreadableDocs _ | docsNotTexts _ => "INVALID_OPTIONS"
  | missingPath .. => "PATH_NOT_FOUND"
  | missingRequests => "MISSING_REQUESTS"
  | conflict => "CONFLICT_GENERATE_DISCOVERY"

/-- The message of an error. -/
def message : ConfigError → LooseText
  | platform raw => .ofString "Unsupported platform: " ++ raw
  | request line => "Invalid request: " ++ quoted line
  | options problem => problem.message
  | unreadableDocs path =>
    "Documentation file is not valid JSON: " ++ path ++ ": " ++ readerWords
  | docsNotTexts path => "Documentation file must map API names to strings: " ++ path
  | missingPath flag path => "Path for " ++ flag ++ " does not exist: " ++ path
  | missingRequests => "Nothing to generate: no requests given."
  | conflict => "Discovery commands cannot be combined with generation requests."

/-- What to do about an error. -/
def suggestion? : ConfigError → Option String
  | platform _ => some "Use one of: x86, x64, arm64, or anycpu."
  | request _ =>
    some ("Request a name (CreateFileW), a namespace, a module wildcard (KERNEL32.*) or a "
      ++ "constant prefix (WM_*).")
  | options _ =>
    some "Options files are JSON objects, e.g. \x7b\"allowMarshaling\": false\x7d."
  | unreadableDocs _ => some "Documentation files map API names to summary strings."
  | docsNotTexts _ => none
  | missingPath .. => some "Provide an existing path for this flag."
  | missingRequests => some "Pass --request NAME (repeatable) or --requests-file PATH."
  | conflict => some "Run --suggest/--list-namespaces separately from --request."

end ConfigError
end Bindings
