import Bindings.Generation.Production

/-!
# Sweeps

A sweep has many candidates produced in one transaction, each in a savepoint, so that a
failure of one does not touch the others.
-/

namespace Bindings
open Bindings.Metadata Bindings.Text

/-! ## Reports -/

/-- The outcome of a request: how many candidates it had, how many entities it committed, the
    candidates skipped for the platform, those that failed, and names that mean nothing. -/
structure SweepReport where
  candidateCount : Nat
  committedCount : Int
  skippedPlatform : List String := []
  failures : List (String × String) := []
  notFound : List String := []
  deriving DecidableEq, Repr, Inhabited

/-- When a sweep is cancelled: at the check before the candidate of a number, if at all. -/
abbrev Cancellation := Option Nat

/-- How a candidate of a sweep ended. -/
inductive CandidateOutcome
  | produced
  | skipped (name : String)
  | failed (name message : String)
  deriving DecidableEq, Repr, Inhabited

/-- The candidates among several that were skipped. -/
def skippedOf (outcomes : List CandidateOutcome) : List String :=
  outcomes.filterMap fun
    | .skipped name => some name
    | _ => none

/-- The candidates among several that failed, with their messages. -/
def failuresOf (outcomes : List CandidateOutcome) : List (String × String) :=
  outcomes.filterMap fun
    | .failed name message => some (name, message)
    | _ => none

/-! ## Running -/

/-- Stops the sweep before the candidate of a number if it is cancelled by then. -/
def checkCancelled (cancel : Cancellation) (index : Nat) : Gen Unit :=
  if cancel.any (· ≤ index) then throw .cancelled else return

/-- Has one candidate produced in a savepoint. -/
def sweepCandidate (links : Links) (candidate : Candidate) : Gen CandidateOutcome := do
  match ← Gen.attempt (inSavepoint (links.candidate candidate)) with
  | .ok _ => return .produced
  | .error (.platformMismatch ..) => return .skipped candidate.1
  | .error (.structural failure) => return .failed candidate.1 failure.fault.message
  | .error other => throw other

/-- Has the candidates from a number on produced, one after the other. -/
def sweepFrom (links : Links) (cancel : Cancellation) :
    Nat → List Candidate → Gen (List CandidateOutcome)
  | _, [] => return []
  | index, candidate :: rest => do
    checkCancelled cancel index
    let outcome ← sweepCandidate links candidate
    return outcome :: (← sweepFrom links cancel (index + 1) rest)

/-- Has all candidates produced in one transaction. -/
def sweep (candidates : List Candidate) (cancel : Cancellation) : Gen SweepReport := do
  let links ← sessionLinks
  let (outcomes, committed) ← inTransaction (counted (sweepFrom links cancel 0 candidates))
  return {
    candidateCount := candidates.length
    committedCount := committed
    skippedPlatform := skippedOf outcomes
    failures := failuresOf outcomes }

/-! ## Candidates -/

/-- Whether the narrow variant of a function is left out because there is a wide one. -/
def isSuppressedNarrow (options : Options) (name : String) (names : List String) : Bool :=
  options.wideCharOnly && ends "A" name && names.contains (dropEnd 1 name ++ "W")

/-- The entries of a table in the order of their keys. -/
def inKeyOrder {ν : Type} (table : Table String ν) : List (String × ν) :=
  table.entries.mergeSort fun a b => !(b.1 < a.1)

/-- The candidates of a namespace: functions, then types, then constants. -/
def namespaceCandidates (options : Options) (space : String) (members : Members) :
    List Candidate :=
  let functions := (inKeyOrder members.functions).filter fun (name, _) =>
    !isSuppressedNarrow options name members.functions.keys
  functions.map (fun (name, variants) => (dotted space name, variants.map .function))
    ++ (inKeyOrder members.types).map
      (fun (name, variants) => (dotted space name, variants.map .type))
    ++ (inKeyOrder members.constants).map
      (fun (name, variants) => (dotted space name, variants.map .constant))

/-- Definitions by full name, in the order of the names. -/
def byFullName (definitions : List Definition) : List Candidate :=
  inKeyOrder (definitions.foldl (fun groups d => groups.push d.full d) {})

/-- The candidates of a module. -/
def moduleCandidates (options : Options) (functions : List Function) : List Candidate :=
  let candidates := byFullName (functions.map .function)
  let names := candidates.map fun (full, _) => lastSegment full
  candidates.filter fun (full, _) => !isSuppressedNarrow options (lastSegment full) names

/-- The candidates of all namespaces, in the order of their names. -/
def allCandidates (env : Environment) : List Candidate :=
  (inKeyOrder env.index.namespaces).flatMap fun (space, members) =>
    namespaceCandidates env.options space members

end Bindings
