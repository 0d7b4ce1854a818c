import Bindings.Config.Options
import Bindings.Generation.Failure
import Bindings.Metadata.Index
import Bindings.Target.Substitution
import Bindings.Template.Catalog

/-!
# Sessions

What generation reads, what it remembers from one request to the next, and computations
over both. A computation that fails keeps what it remembered up to then.
-/

namespace Bindings
open Bindings.Metadata

/-! ## What a session reads -/

/-- Everything that stays the same in a session. Names in `available` are defined already and
    never generated. -/
structure Environment where
  index : Index
  options : Options := {}
  docs : Table String String := {}
  templates : Catalog := Catalog.standard
  available : List String := []
  substitutions : Substitutions := Substitutions.standard
  deriving Inhabited

namespace Environment

/-- Who sees the declarations of a session. -/
def visibility (env : Environment) : Visibility :=
  if env.options.isPublic then .everyone else .assembly

/-- The number of definitions that a table of a namespace holds. -/
def countIn {α : Type} (table : Metadata.Members → Table String (List α)) (env : Environment) :
    Nat :=
  (env.index.namespaces.values.flatMap fun m => (table m).values.flatten).length

/-- The number of type definitions. -/
def typeCount (env : Environment) : Nat := env.countIn (·.types)

/-- More than any chain of entities has in which each needs the next. A function and a release
    function, the two variants of a type and the expansion of a delegate, a constant and a
    template are each at most once in a chain, and an inline array ends it. -/
def depth (env : Environment) : Nat :=
  2 * env.countIn (·.functions) + 3 * env.typeCount + env.countIn (·.constants)
    + env.templates.size + 3

end Environment

/-! ## What a session remembers -/

/-- A type under analysis, and whether marshaling is allowed for it. -/
abbrev AnalysisKey := Bool × String

/-- The state of the analysis of managed types. -/
structure Analysis where
  verdicts : Table AnalysisKey Bool := {}
  visiting : List AnalysisKey := []
  provisional : List AnalysisKey := []
  dependents : Table AnalysisKey (List AnalysisKey) := {}
  deriving Inhabited

/-- What a session remembers: the ledger and its current transaction, the delegates that are
    being expanded, the analysis of managed types, which interfaces conform, and which release
    functions back a handle. -/
structure State where
  ledger : Ledger := {}
  current : Option TransactionId := none
  expanding : List String := []
  analysis : Analysis := {}
  conformance : Table String Bool := {}
  handles : Table String (Option GuardedHandle) := {}
  deriving Inhabited

/-! ## Computations -/

/-- A computation of a session. -/
abbrev Gen := ReaderT Environment (EStateM Failure State)

namespace Gen
variable {α : Type}

/-- The result of a computation, or the failure that it ends with. -/
def attempt (x : Gen α) : Gen (Except Failure α) := fun env s =>
  match x env s with
  | .ok a s => .ok (.ok a) s
  | .error e s => .ok (.error e) s

/-- A computation with a change of the state after it, whether it fails or not. -/
def ensuring (x : Gen α) (after : State → State) : Gen α := do
  let result ← attempt x
  modify after
  match result with
  | .ok a => return a
  | .error e => throw e

/-- The result of a selection. -/
def ofSelection (r : Except SelectionError α) : Gen α :=
  match r with
  | .ok a => return a
  | .error e => throw (.ofSelection e)

/-- Stops because of a fault. -/
def fault (f : Fault) : Gen α := throw (.ofFault f)

/-- Runs a computation of the ledger. -/
def onLedger (step : Ledger → Except LedgerError (α × Ledger)) : Gen α := do
  match step (← get).ledger with
  | .ok (a, ledger) =>
    modify fun s => { s with ledger }
    return a
  | .error e => throw (.ledger e)

/-- Takes a step of the ledger. -/
def stepLedger (step : Ledger → Except LedgerError Ledger) : Gen Unit :=
  onLedger fun l => (step l).map ((), ·)

/-- The name of the chosen architecture. -/
def platform : Gen (Option String) := do return (← read).options.platformName?

/-- The documentation of a name. -/
def docs (name : String) : Gen (Option String) := do return (← read).docs.get? name

end Gen

/-- The variant of a type that a reference means on the chosen platform, if the metadata has
    the type. -/
def resolve (reference : QualifiedName) : Gen (Option TypeDefinition) := do
  let env ← read
  match env.index.resolve reference with
  | [] => return none
  | variants =>
    return some (← Gen.ofSelection (select (·.architectures) variants env.options.platformName?
      reference.full))

end Bindings
