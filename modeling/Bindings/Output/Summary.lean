import Bindings.Metadata.Index
import Bindings.Request.Run

/-!
# Summaries

The text that tells what a run generated, and the table of the namespaces of the metadata.
-/

namespace Bindings
open Bindings.Text

/-- What a summary tells: how the run was set up, the outcome of each request, and the number
    of declarations in each unit. -/
structure Summary where
  metadata : String
  platform : String
  style : String
  outcomes : List RequestOutcome
  units : List (String × Int)
  deriving DecidableEq, Repr, Inhabited

namespace Summary

/-- The number of declarations in all units. -/
def declarationCount (s : Summary) : Int := s.units.foldl (fun total u => total + u.2) 0

/-- Whether a request ended with an error. -/
def hasErrors (s : Summary) : Bool := s.outcomes.any (·.error.isSome)

end Summary

/-- The style that options select. -/
def styleText (options : Options) : String :=
  (if options.allowMarshaling then "marshaling" else "raw")
    ++ if options.emitSingleUnit then ", single unit" else ""

/-- What a report says besides the number of entities. -/
def reportNotes (r : SweepReport) : List String :=
  (if r.skippedPlatform.isEmpty then []
    else [ofInt r.skippedPlatform.length ++ " skipped for platform"])
  ++ if r.failures.isEmpty then [] else [ofInt r.failures.length ++ " failed"]

/-- A report in one line. -/
def reportText (r : SweepReport) : String :=
  if !r.notFound.isEmpty then "not found"
  else
    let notes := reportNotes r
    "+" ++ ofInt r.committedCount ++ " entities"
      ++ if notes.isEmpty then "" else " (" ++ join ", " notes ++ ")"

/-- An outcome in one line. At most three suggestions are shown. -/
def outcomeText (o : RequestOutcome) : String :=
  (match o.error, o.report with
    | some error, _ => "error: " ++ error
    | none, some report => reportText report
    | none, none => "")
  ++ if o.suggestions.isEmpty then ""
    else " (did you mean: " ++ join ", " (o.suggestions.take 3) ++ "?)"

/-- The width of the widest text. -/
def widest (texts : List String) : Nat := (texts.map (·.toList.length)).foldl max 0

/-- The text of a summary. -/
def Summary.text (s : Summary) : String :=
  let width := widest (s.outcomes.map (·.request))
  let unitWidth := widest (s.units.map (·.1))
  let outcomes := s.outcomes.map fun o =>
    "    " ++ padAfter width o.request ++ "  " ++ outcomeText o
  let units := s.units.map fun (name, count) =>
    "    " ++ padAfter unitWidth name ++ "  " ++ padBefore 5 (ofInt count) ++ " declarations"
  join "\n" (["Projection generated:", "",
      "  Metadata:   " ++ s.metadata,
      "  Platform:   " ++ s.platform,
      "  Style:      " ++ s.style, "",
      "  Requests:"] ++ outcomes
    ++ ["", "  Units:"] ++ units
    ++ ["", "  Total: " ++ ofInt s.declarationCount ++ " declarations across "
        ++ ofInt s.units.length ++ " units", ""])

/-- The table of the namespaces, with the number of names of each sort. -/
def namespaceTable (index : Metadata.Index) : String :=
  let width := widest index.namespaces.keys
  let lines := (inKeyOrder index.namespaces).map fun (space, m) =>
    "  " ++ padAfter width space ++ "  " ++ padBefore 5 (ofInt m.functions.size)
      ++ " functions  " ++ padBefore 5 (ofInt m.types.size)
      ++ " types  " ++ padBefore 5 (ofInt m.constants.size) ++ " constants"
  join "\n" ([ofInt index.namespaces.size ++ " namespaces:", ""] ++ lines ++ [""])

end Bindings
