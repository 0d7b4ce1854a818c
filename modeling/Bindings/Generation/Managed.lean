import Bindings.Generation.BaseChain

/-!
# Managed types

A type is managed if it needs marshaling: a delegate, a conforming interface, or a struct
with a field of a managed type, not through a pointer. A walk that meets a type under way
leaves it undecided and notes who depends on it; at the end a verdict for a type is handed
on to its dependents.
-/

namespace Bindings
open Bindings.Metadata

/-! ## Verdicts -/

namespace Analysis

/-- Notes that the verdict of `owner` depends on that of another type. -/
def depend (a : Analysis) (dependency owner : AnalysisKey) : Analysis :=
  { a with
    dependents := if ((a.dependents.get? dependency).getD []).contains owner then a.dependents
      else a.dependents.push dependency owner
    provisional := if a.provisional.contains owner then a.provisional
      else owner :: a.provisional }

/-- Hands the verdicts of managed types on to their dependents once. -/
def spread (dependents : List (AnalysisKey × List AnalysisKey))
    (verdicts : Table AnalysisKey Bool) : Table AnalysisKey Bool :=
  dependents.foldl (fun verdicts (key, owners) =>
    if verdicts.get? key = some true then
      owners.foldl (fun verdicts owner => verdicts.put owner true) verdicts
    else verdicts) verdicts

/-- Hands verdicts on as often as there are types with dependents. -/
def spreadAll (dependents : List (AnalysisKey × List AnalysisKey)) :
    Nat → Table AnalysisKey Bool → Table AnalysisKey Bool
  | 0, verdicts => verdicts
  | rounds + 1, verdicts => spreadAll dependents rounds (spread dependents verdicts)

/-- Hands all verdicts on and forgets who depends on whom. -/
def settle (a : Analysis) : Analysis :=
  { a with
    verdicts := spreadAll a.dependents.entries a.dependents.size a.verdicts
    dependents := {}
    provisional := [] }

end Analysis

/-- Changes the state of the analysis. -/
def State.analyse (s : State) (f : Analysis → Analysis) : State :=
  { s with analysis := f s.analysis }

/-! ## The walk -/

/-- The type that a field holds in place: the element of an array, if it is a name. -/
def heldReference? : NativeType → Option QualifiedName
  | .array element _ => heldReference? element
  | .handle reference => some reference
  | _ => none

/-- Whether the type that a field of `owner` holds is managed, as far as `walk` can tell. -/
def fieldIsManaged (walk : TypeDefinition → Gen (Option Bool)) (marshaling : Bool)
    (owner : AnalysisKey) (type : NativeType) : Gen Bool := do
  match heldReference? type with
  | none => return false
  | some reference =>
    match ← resolve reference with
    | none => return false
    | some t =>
      match ← walk t with
      | some true => return true
      | verdict =>
        let dependency := (marshaling, t.full)
        if verdict.isNone || (← get).analysis.provisional.contains dependency then
          modify (·.analyse (·.depend dependency owner))
        return false

/-- Whether a field of `owner` is managed. The fields after the first managed one are not
    looked at. -/
def anyFieldIsManaged (walk : TypeDefinition → Gen (Option Bool)) (marshaling : Bool)
    (owner : AnalysisKey) : List Field → Gen Bool
  | [] => return false
  | f :: rest => do
    if ← fieldIsManaged walk marshaling owner f.type then return true
    else anyFieldIsManaged walk marshaling owner rest

/-- The verdict on a type, or nothing for a type that is under way. Each step goes to a type
    that is not, so the number of types bounds the depth. -/
def walk (marshaling : Bool) : Nat → TypeDefinition → Gen (Option Bool)
  | 0, _ => throw .depthExceeded
  | depth + 1, t => do
    let key := (marshaling, t.full)
    let analysis := (← get).analysis
    match analysis.verdicts.get? key with
    | some verdict => return some verdict
    | none =>
      if analysis.visiting.contains key then return none
      else
        let verdict ← match t.shape with
          | .enum .. => pure false
          | .delegate .. => pure marshaling
          | .interface .. => if marshaling then isConforming t else pure false
          | .record r =>
            if r.explicitLayout then pure false
            else do
              modify (·.analyse fun a => { a with visiting := key :: a.visiting })
              Gen.ensuring (anyFieldIsManaged (walk marshaling depth) marshaling key r.fields)
                (·.analyse fun a => { a with visiting := a.visiting.filter (· ≠ key) })
        modify (·.analyse fun a => { a with verdicts := a.verdicts.put key verdict })
        return some verdict

/-! ## Questions -/

/-- Whether a type is managed. After the outermost walk the verdicts are settled, also when
    the walk fails. -/
def isManagedType (t : TypeDefinition) (marshaling : Bool) : Gen Bool := do
  let depth := (← read).typeCount + 2
  let outermost := (← get).analysis.visiting.isEmpty
  let _ ← Gen.ensuring (walk marshaling depth t)
    (if outermost then (·.analyse (·.settle)) else id)
  return ((← get).analysis.verdicts.get? (marshaling, t.full)).getD false

/-- Whether a native type is managed: that of the elements of an array, or of a name. -/
def isManaged (type : NativeType) (marshaling : Bool) : Gen Bool := do
  match heldReference? type with
  | none => return false
  | some reference =>
    match ← resolve reference with
    | none => return false
    | some t => isManagedType t marshaling

end Bindings
