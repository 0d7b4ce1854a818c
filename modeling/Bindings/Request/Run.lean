import Bindings.Request.Line
import Bindings.Request.Suggestion
import Bindings.Request.Sweep

/-!
# Requests

What can be asked of a session. Each request runs in one transaction: what it commits
becomes visible together, and nothing of it stays if it fails.
-/

namespace Bindings
open Bindings.Metadata Bindings.Text

/-! ## Names -/

/-- A name without the blanks around it, if it is a dotted name. -/
def validName (name : String) : Gen String :=
  if Request.isDottedName (strip name).toList then return strip name
  else throw (.input (.invalidName name))

/-- Requests all that a name stands for. Tells whether it stands for anything. -/
def requestName (name : String) : Gen Bool := do
  let links ← sessionLinks
  inTransaction (links.name name)

/-! ## Sweeps -/

/-- Requests all definitions of a namespace. -/
def requestNamespace (space : String) (cancel : Cancellation) : Gen SweepReport := do
  let env ← read
  match env.index.namespaces.get? space with
  | none => throw (.input (.unknownNamespace space (env.suggest space 10)))
  | some members => sweep (namespaceCandidates env.options space members) cancel

/-- Requests all functions of a module. -/
def requestModule (module : String) (cancel : Cancellation) : Gen SweepReport := do
  let env ← read
  match env.index.functionsInModule module with
  | [] => throw (.input (.emptyModule module))
  | functions => sweep (moduleCandidates env.options functions) cancel

/-- A text without the stars at its end. -/
def withoutStars (s : String) : String :=
  String.ofList (s.toList.reverse.dropWhile (· = '*')).reverse

/-- Requests all constants that begin with a text, which may have stars after it. -/
def requestPrefix (start : String) (cancel : Cancellation) : Gen SweepReport := do
  let stem := withoutStars start
  if stem = "" then throw (.input (.noConstants start))
  else
    match (← read).index.constantsWithPrefix stem with
    | [] => throw (.input (.noConstants stem))
    | constants => sweep (byFullName (constants.map .constant)) cancel

/-- Requests all definitions. -/
def requestAll (cancel : Cancellation) : Gen SweepReport := do
  sweep (allCandidates (← read)) cancel

/-! ## Single requests -/

/-- Requests a name or, if it is that of a namespace, the whole namespace. Tells whether the
    name stands for anything. -/
def requestByName (name : String) : Gen Bool := do
  let valid ← validName name
  if (← read).index.hasNamespace valid then
    let _ ← requestNamespace valid none
    return true
  else requestName valid

/-- The names of templates that hold a name, in any case. -/
def similarTemplates (env : Environment) (name : String) : List String :=
  env.templates.names.filter fun known => occurs (lower name) (lower known)

/-- Requests a function-like macro by the name of its template. -/
def requestInlineFunction (name : String) : Gen Bool := do
  let valid ← validName name
  let env ← read
  let unknown : Gen Bool :=
    throw (.input (.unknownInlineFunction valid (similarTemplates env valid)))
  match env.templates.get? valid with
  | none => unknown
  | some template =>
    if template.kind = .inlineFunction then
      inTransaction (demand (.template template))
      return true
    else unknown

/-- Requests what a line asks for: `NAME.*` a module, `TEXT*` constants, and anything else a
    namespace or a name. -/
def request (line : String) (cancel : Cancellation) : Gen SweepReport := do
  let text := strip line
  if ends ".*" text then requestModule (dropEnd 2 text) cancel
  else if ends "*" text then requestPrefix text cancel
  else
    let valid ← validName text
    if (← read).index.hasNamespace valid then requestNamespace valid cancel
    else
      let links ← sessionLinks
      let (found, committed) ← inTransaction (counted (links.name valid))
      return {
        candidateCount := if found then 1 else 0
        committedCount := committed
        notFound := if found then [] else [valid] }

/-- Requests the guarded handle that a release function backs. -/
def requestHandle (releaseName : String) : Gen (Option GuardedHandle) := do
  let links ← sessionLinks
  inTransaction (links.guardedHandle releaseName)

/-- Projects a native type outside of any request. -/
def projectType (type : NativeType) (context : Context) (usage : Usage) : Gen Projection := do
  project (← sessionLinks) type context usage

/-! ## Several lines -/

/-- The result of a request line: a report or the message of an error, and names that may have
    been meant. -/
structure RequestOutcome where
  request : String
  report : Option SweepReport := none
  error : Option String := none
  suggestions : List String := []
  deriving DecidableEq, Repr, Inhabited

/-- A line without the points and stars at its end. -/
def withoutWildcard (line : String) : String :=
  String.ofList (line.toList.reverse.dropWhile fun c => c = '.' || c = '*').reverse

/-- Runs a request line. A request that fails has an outcome too. -/
def runRequest (line : String) : Gen RequestOutcome := do
  match ← Gen.attempt (request line none) with
  | .ok report =>
    let suggestions ← match report.notFound with
      | name :: _ => suggestions name 5
      | [] => pure []
    return { request := line, report := some report, suggestions }
  | .error (.input problem) =>
    let suggestions ← match problem.candidates with
      | [] => suggestions (withoutWildcard line) 5
      | candidates => pure candidates
    return { request := line, error := some problem.message, suggestions }
  | .error (.platformMismatch name platform architectures) =>
    return { request := line
             error := some (Failure.platformMismatch name platform architectures).message }
  | .error (.structural failure) =>
    return { request := line, error := some failure.fault.message }
  | .error other => throw other

/-- Runs request lines one after the other. -/
def runRequests (lines : List String) : Gen (List RequestOutcome) := lines.mapM runRequest

end Bindings
