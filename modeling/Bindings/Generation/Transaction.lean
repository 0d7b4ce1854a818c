import Bindings.Generation.Session

/-!
# Production in transactions

A request runs in one transaction and each candidate of a sweep in a savepoint. An entity
is produced once: what is committed or in flight is left alone, and what has failed fails
again in the same way.
-/

namespace Bindings
variable {α : Type}

/-! ## Transactions -/

/-- Runs a computation in a transaction that is open already, as the current one, and closes
    it: it is committed if the computation succeeds and rolled back if it fails. -/
def runIn (id : TransactionId) (outer : Option TransactionId) (body : Gen α) : Gen α := do
  modify fun s => { s with current := some id }
  match ← Gen.attempt body with
  | .ok a =>
    Gen.ensuring (Gen.stepLedger (·.commit id)) fun s => { s with current := outer }
    return a
  | .error e =>
    modify fun s => { s with ledger := s.ledger.rollback id, current := outer }
    throw e

/-- Runs a computation in the current transaction, or in one of its own if there is none. -/
def inTransaction (body : Gen α) : Gen α := do
  match (← get).current with
  | some _ => body
  | none =>
    let id ← Gen.onLedger (·.begin)
    runIn id none body

/-- The current transaction. -/
def currentTransaction : Gen TransactionId := do
  match (← get).current with
  | some id => return id
  | none => throw (.ledger .noTransaction)

/-- Runs a computation in a savepoint over the current transaction. -/
def inSavepoint (body : Gen α) : Gen α := do
  let outer ← currentTransaction
  let id ← Gen.onLedger (·.savepoint outer)
  runIn id (some outer) body

/-- The number of entities that the current transaction has completed. -/
def pendingCount : Gen Nat := do
  let id ← currentTransaction
  return ((← get).ledger.pendingOf id).length

/-- Runs a computation, and tells by how many completed entities the current transaction grew. -/
def counted (body : Gen α) : Gen (α × Int) := do
  let before ← pendingCount
  let a ← body
  let after ← pendingCount
  return (a, (after : Int) - before)

/-! ## Production -/

/-- Notes how a producer of an entity ended. -/
def settleEntity (id : TransactionId) (key : EntityKey) :
    Except Failure (List Declaration) → Gen Unit
  | .ok declarations => Gen.stepLedger (·.complete id key declarations)
  | .error (.structural failure) => do
    let failure := failure.attributedTo key
    modify fun s => { s with ledger := s.ledger.fail id key failure }
    throw (.structural failure)
  | .error other => do
    modify fun s => { s with ledger := s.ledger.forget id key }
    throw other

/-- Produces the declarations of an entity, unless it is known already or defined elsewhere. -/
def produce (key : EntityKey) (producer : Gen (List Declaration)) : Gen Unit := do
  let id ← currentTransaction
  match (← get).ledger.entryIn id key with
  | .committed _ | .inFlight => return
  | .failed failure => throw (.structural failure)
  | .notStarted =>
    if (← read).available.contains key.name.full then
      Gen.stepLedger (·.complete id key [])
    else
      Gen.stepLedger (·.markInFlight id key)
      settleEntity id key (← Gen.attempt producer)

end Bindings
