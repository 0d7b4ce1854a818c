import Bindings.CommandLine.Stop
import Bindings.Config.Options
import Bindings.Request.Line

/-!
# Jobs

What a run is to do. Everything that the arguments say is checked before anything is
generated: first the metadata, then the requests, then the rest. Requests and options are read
at once, and of the other files only whether there is something at their paths counts.
-/

namespace Bindings.CommandLine

/-- What is generated, and from what. -/
structure Generation where
  metadata : List Path
  requests : List String
  options : Options
  docs : Option Path
  templates : Option Path
  manifest : Option FlagValue
  deriving DecidableEq, Repr, Inhabited

/-- What a run is to do. -/
inductive Job
  | listNamespaces (metadata : List Path)
  | suggest (metadata : List Path) (name : String)
  | generate (generation : Generation)
  deriving DecidableEq, Repr, Inhabited

/-- Where the metadata is if the arguments name none. -/
def defaultMetadata : String := "metadata/win32.xml"

/-- Where the metadata is. -/
def Arguments.metadataValues (a : Arguments) : List FlagValue :=
  if a.metadata.isEmpty then [.text defaultMetadata] else a.metadata

/-- A path and all paths on the way to it. -/
def pathsTo (path : Path) : List Path :=
  (List.range (path.parts.length + 1)).map fun n => { path with parts := path.parts.take n }

/-- The paths at which files matter: those to read, and those on the way to the manifest. -/
def Arguments.paths (a : Arguments) : List String :=
  let read := a.metadataValues ++ [a.requestsFile, a.options, a.docs, a.templates].filterMap id
  read.filterMap (·.text?)
    ++ match a.manifest.bind (·.text?) with
      | some path => (pathsTo (Path.ofText path)).map (·.text)
      | none => []

namespace Job

/-- The path that a flag has for its value, if there is something at that path. -/
def existing (files : FileTree) (flag : Flag) : FlagValue → Except Stop Path
  | .empty => .error (.breakdown (.emptyValue flag))
  | .text s => do
    let path := Path.ofText s
    if ← (files.has? path).mapError (.breakdown ∘ .file) then return path
    else throw (.config (.missingPath flag.name path.text))

/-- The path that a flag has for its value, if the flag is given and its value not empty. -/
def existing? (files : FileTree) (flag : Flag) : Option FlagValue → Except Stop (Option Path)
  | some (.text s) => some <$> existing files flag (.text s)
  | some .empty | none => .ok none

/-- The path that a flag has for its value, and the text of the file there. -/
def settings (files : FileTree) (flag : Flag) (value : FlagValue) :
    Except Stop (Path × String) := do
  let path ← existing files flag value
  return (path, ← (files.read path).mapError (.breakdown ∘ .file))

/-- A request of the command line. -/
def request : FlagValue → Except Stop String
  | .text line => (Request.validate line).mapError .config
  | .empty => .error (.breakdown (.emptyValue .request))

/-- The requests of the arguments: those of the command line, then those of a file. -/
def requests (a : Arguments) (files : FileTree) : Except Stop (List String) := do
  let given ← a.requests.mapM request
  match a.requestsFile with
  | none => return given
  | some value =>
    let (_, text) ← settings files .requestsFile value
    return given ++ (← (Request.readLines text).mapError .config)

/-- The options of the arguments. The platform of the command line goes before that of the
    document. -/
def options (a : Arguments) (files : FileTree) : Except Stop Options := do
  let options ← match a.options with
    | none => pure {}
    | some value =>
      let (path, text) ← settings files .options value
      (Options.read path.text text).mapError .config
  match a.platform with
  | none => return options
  | some .empty => throw (.breakdown (.emptyValue .platform))
  | some (.text raw) => return { options with platform := ← (Platform.read raw).mapError .config }

/-- What is generated from metadata for requests. -/
def generation (a : Arguments) (files : FileTree) (metadata : List Path)
    (requests : List String) : Except Stop Generation := do
  if requests.isEmpty then throw (.config .missingRequests)
  else
    let options ← options a files
    let docs ← existing? files .docs a.docs
    let templates ← existing? files .templates a.templates
    return { metadata, requests, options, docs, templates, manifest := a.manifest }

/-- The job that the arguments ask for. An empty name asks for no suggestion. -/
def ofArguments (a : Arguments) (files : FileTree) : Except Stop Job := do
  let metadata ← a.metadataValues.mapM (existing files .metadata)
  let requests ← requests a files
  let name := (a.suggest.bind (·.text?)).getD ""
  if name = "" && !a.listNamespaces then return .generate (← generation a files metadata requests)
  else if !requests.isEmpty then throw (.config .conflict)
  else if name = "" then return .listNamespaces metadata
  else return .suggest metadata name

end Job
end Bindings.CommandLine
