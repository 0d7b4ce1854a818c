import Bindings.CommandLine.Job
import Bindings.Markup.Document
import Bindings.Output.Summary
import Bindings.Output.Unit

/-!
# Runs

What a run prints and writes, and the status that it ends with. A run is a function of
its arguments and of the files that it sees.
-/

namespace Bindings.CommandLine
open Bindings.Metadata Bindings.Text

/-! ## Runs -/

/-- What a run has printed so far, and the files as it leaves them. -/
structure Progress where
  output : LooseText := .ofString ""
  files : FileTree
  deriving Inhabited

/-- A part of a run. -/
abbrev Run := ExceptT Stop (StateM Progress)

namespace Run

/-- Prints a text. -/
def print (text : LooseText) : Run Unit := modify fun p => { p with output := p.output ++ text }

/-- Prints a line. -/
def say (line : LooseText) : Run Unit := print (line ++ .ofString "\n")

/-- A result, or the stop that an error is. -/
def orStop {ε α : Type} (stop : ε → Stop) : Except ε α → Run α
  | .ok a => return a
  | .error e => throw (stop e)

/-- The text of the file at a path. -/
def text (path : Path) : Run String := do orStop .file ((← get).files.read path)

/-- The root element of the document at a path. -/
def element (path : Path) : Run Markup.Element := do
  orStop .ofDocument (Markup.Element.read (← text path))

/-- The index of metadata. All documents are read before any is indexed. -/
def index (metadata : List Path) : Run Index := do
  let roots ← metadata.mapM element
  orStop .fault (Index.ofDocuments roots)

/-- The standard templates with those of a catalog over them. -/
def templates : Option Path → Run Catalog
  | none => return Catalog.standard
  | some path => do
    let catalog ← orStop .fault (Catalog.read (← element path))
    return Catalog.standard.merge catalog

/-- The texts of a documentation file for the names that can be asked for. -/
def docs : Option Path → Run (Table String String)
  | none => return {}
  | some path => do
    let texts ← orStop .config (readDocumentation path.text (← text path))
    return ⟨texts.entries.filterMap fun (name, text) => name.toString?.map (·, text.shown)⟩

/-- Writes a manifest, and the directories on the way to it. -/
def writeManifest (units : List OutputUnit) : FlagValue → Run Path
  | .empty => throw (.breakdown (.emptyValue .manifest))
  | .text s => do
    let path := Path.ofText s
    let files := (← get).files
    let files ← orStop .file do (← files.makeDirectory path.parent).write path (manifestText units)
    modify fun p => { p with files }
    return path

end Run

/-! ## Jobs -/

/-- The number of names in all namespaces that a table of a namespace holds. -/
def nameCount {α : Type} (index : Index) (table : Members → Table String (List α)) : Int :=
  (index.namespaces.values.flatMap fun members => (table members).keys).length

/-- The line that tells the size of an index. -/
def indexLine (index : Index) : String :=
  "  Index: " ++ ofInt index.namespaces.size ++ " namespaces, "
    ++ ofInt (nameCount index (·.functions)) ++ " functions, "
    ++ ofInt (nameCount index (·.types)) ++ " types, "
    ++ ofInt (nameCount index (·.constants)) ++ " constants"

/-- What a session gives for the requests: their outcomes, the number of entities that it has
    committed, and the units of these. -/
def requested (lines : List String) :
    Gen (List RequestOutcome × Nat × List OutputUnit) := do
  let outcomes ← runRequests lines
  return (outcomes, (← get).ledger.committed.size, ← committedUnits)

/-- What is told of a generation that has come to some outcomes and units. -/
def Generation.summary (g : Generation) (outcomes : List RequestOutcome) (units : List OutputUnit) :
    Summary where
  metadata := join ", " (g.metadata.map (·.name))
  platform := g.options.platformName?.getD "anycpu"
  style := styleText g.options
  outcomes
  units := units.map fun u => (u.name, u.declarations.length)

/-- Generates what is requested, and prints a summary. Tells whether every request ended
    without an error. -/
def runGeneration (g : Generation) : Run Bool := do
  Run.say ("Parsing: " ++ join ", " (g.metadata.map (·.text)))
  let index ← Run.index g.metadata
  Run.say (indexLine index)
  let docs ← Run.docs g.docs
  let templates ← Run.templates g.templates
  match requested g.requests { index, options := g.options, docs, templates } {} with
  | .error e _ => throw (.failure e)
  | .ok (outcomes, committed, units) _ =>
    Run.say ("  Requested: " ++ ofInt outcomes.length ++ " requests, " ++ ofInt committed
      ++ " entities committed")
    if let some value := g.manifest then
      let path ← Run.writeManifest units value
      Run.say ("  Manifest: " ++ path.text)
    let summary := g.summary outcomes units
    Run.print summary.text
    return !summary.hasErrors

/-- Prints the names that resemble a name, one a line. -/
def runSuggestion (metadata : List Path) (name : String) : Run Unit := do
  let env : Environment := { index := ← Run.index metadata }
  match env.suggest name 10 with
  | [] => throw (.noSuggestion name)
  | names => names.forM fun name => Run.say name

/-- Does a job. Tells whether it went well. -/
def Job.run : Job → Run Bool
  | .listNamespaces metadata => do
    Run.print (namespaceTable (← Run.index metadata))
    return true
  | .suggest metadata name => do
    runSuggestion metadata name
    return true
  | .generate g => runGeneration g

/-! ## Outcomes -/

/-- How a run ends: its status, what it printed, and the files that it wrote. -/
structure Outcome where
  status : Nat
  output : LooseText
  complaints : String
  written : List (Place × String)
  deriving DecidableEq, Repr, Inhabited

/-- Lines with an end each. -/
def lineText (lines : List String) : String := String.join (lines.map (· ++ "\n"))

/-- The outcome of a part of a run that sees the given files, if it does not break down. -/
def Run.outcome (run : Run Bool) (files : FileTree) : Except Breakdown Outcome :=
  let (result, p) := Id.run (StateT.run (ExceptT.run run) { files })
  let written := p.files.files.entries.filter fun (place, text) =>
    files.files.get? place ≠ some text
  match result with
  | .ok good => .ok ⟨if good then 0 else 1, p.output, "", written⟩
  | .error (.breakdown b) => .error b
  | .error stop =>
    let output := stop.output.foldl (fun told line => told ++ line ++ .ofString "\n") p.output
    .ok ⟨1, output, lineText stop.complaints, written⟩

/-- Does what the arguments ask for. -/
def runArguments (a : Arguments) (files : FileTree) : Except Breakdown Outcome :=
  Run.outcome (do (← Run.orStop id (Job.ofArguments a files)).run) files

/-- How to call the program. -/
def usage : String := "usage: bindings [flags]\n\n"
  ++ lineText (Flag.all.map fun flag =>
    "  " ++ flag.name ++ if flag.hasValue then " VALUE" else "")

/-- Does what the words of a command line ask for. -/
def run (words : List String) (files : FileTree) : Except Breakdown Outcome :=
  match Arguments.read words with
  | .error e => .ok ⟨2, "", usage ++ "error: " ++ e.message ++ "\n", []⟩
  | .ok a => if a.help then .ok ⟨0, usage, "", []⟩ else runArguments a files

end Bindings.CommandLine
