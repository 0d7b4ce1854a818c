import Bindings.Ledger.Basic
import Bindings.Metadata.Variant

/-!
# Failures

Why generation stops: the metadata has no projection, the platform does not match, the
request is no good, the run was cancelled, or a step on the ledger was refused.
-/

namespace Bindings
open Bindings.Text

/-! ## Requests -/

/-- What is wrong with a request. -/
inductive InputProblem
  | ambiguous (name : String) (candidates : List String)
  | unknownInlineFunction (name : String) (candidates : List String)
  | unknownNamespace (name : String) (candidates : List String)
  | emptyModule (module : String)
  | noConstants (start : String)
  | invalidName (name : String)
  deriving DecidableEq, Repr, Inhabited

namespace InputProblem

/-- The message of a problem. -/
def message : InputProblem → String
  | ambiguous name _ => "'" ++ name ++ "' is ambiguous; qualify it with its namespace"
  | unknownInlineFunction name _ => "Unknown macro name: " ++ name
  | unknownNamespace name _ => "Unknown namespace: " ++ name
  | emptyModule module => "No functions found in module " ++ module
  | noConstants start => "No constants found with prefix " ++ quoted start
  | invalidName name => "Invalid API name: " ++ quoted name

/-- The names that may have been meant. -/
def candidates : InputProblem → List String
  | ambiguous _ names | unknownInlineFunction _ names | unknownNamespace _ names => names
  | _ => []

end InputProblem

/-! ## Failures -/

/-- Why generation stops. The last cause never arises: the depth that it speaks of is more than
    any chain of entities that need each other has. -/
inductive Failure
  | structural (failure : StructuralFailure)
  | platformMismatch (name : String) (platform : Option String) (architectures : List String)
  | input (problem : InputProblem)
  | cancelled
  | ledger (error : LedgerError)
  | badLimit (limit : Int)
  | depthExceeded
  deriving DecidableEq, Repr, Inhabited

namespace Failure

/-- The message of a failure. -/
def message : Failure → String
  | structural failure => failure.fault.message
  | platformMismatch name platform architectures =>
    let target := match platform with
      | some platform => if platform = "" then "any CPU" else platform
      | none => "any CPU"
    name ++ " is only available for " ++ join ", " architectures ++ ", not " ++ target
  | input problem => problem.message
  | cancelled => "Generation was cancelled"
  | ledger error => error.message
  | badLimit limit => "n must be > 0: " ++ ofInt limit
  | depthExceeded => "Entities need each other too deeply"

/-- The failure that a fault is where no entity is being produced. -/
def ofFault (fault : Fault) : Failure := structural { fault }

/-- The failure that an error of a selection is. -/
def ofSelection : Metadata.SelectionError → Failure
  | .fault fault => ofFault fault
  | .platformMismatch name platform architectures => platformMismatch name platform architectures

end Failure
end Bindings
