import Bindings.Main
import Bindings.Proofs.Generation.Production
import Bindings.Proofs.Ledger.Durability
import Bindings.Proofs.Request.Transaction
import Bindings.Proofs.Request.Atomic
import Bindings.Proofs.Metadata.Index
import Bindings.Proofs.Generation.Choice
import Bindings.Proofs.Generation.BaseChain
import Bindings.Proofs.Request.Closure
import Bindings.Proofs.Generation.Verdict
import Bindings.Proofs.Request.Raw
import Bindings.Proofs.Request.Apart
import Bindings.Proofs.Request.Failures
import Bindings.Proofs.Request.Order
import Bindings.Proofs.Request.Questions
import Bindings.Proofs.Generation.Descent
import Bindings.Proofs.Generation.Offered
import Bindings.Proofs.Generation.Stack
import Bindings.Proofs.Request.Termination
import Bindings.Proofs.Generation.Inspection
import Bindings.Proofs.Request.Tally
import Bindings.Proofs.Generation.Recall
import Bindings.Proofs.Generation.Source
import Bindings.Proofs.Generation.Concurrence
import Bindings.Proofs.Request.Source
import Bindings.Proofs.Request.Fairness
import Bindings.Proofs.Request.Identity
import Bindings.Proofs.Request.Agreement
import Bindings.Proofs.Generation.Asking
import Bindings.Proofs.Request.Helpers
import Bindings.Proofs.Native.Grammar
import Bindings.Proofs.Native.RoundTrip
import Bindings.Proofs.Generation.Call
import Bindings.Proofs.Generation.Slots
import Bindings.Proofs.Generation.Layout
import Bindings.Proofs.Request.Layout
import Bindings.Proofs.Request.Availability
import Bindings.Proofs.Request.Names
import Bindings.Proofs.Generation.Repetition
import Bindings.Proofs.Request.Reporting
import Bindings.Proofs.Request.Settlement
import Bindings.Proofs.Request.Cancellation
import Bindings.Proofs.Metadata.Documents
import Bindings.Proofs.Overload.Assembly
import Bindings.Proofs.Overload.Body
import Bindings.Proofs.Overload.Distinction
import Bindings.Proofs.Request.Confinement
import Bindings.Proofs.Ledger.Trial
import Bindings.Proofs.Request.Forms
import Bindings.Proofs.Request.Interruption
import Bindings.Proofs.Request.Partition
import Bindings.Proofs.Request.Extents
import Bindings.Proofs.Overload.Wrapping
import Bindings.Proofs.Request.Release
import Bindings.Proofs.Output.Units
import Bindings.Proofs.Request.Dispatch
import Bindings.Proofs.Request.Qualified
import Bindings.Proofs.Request.Overlap
