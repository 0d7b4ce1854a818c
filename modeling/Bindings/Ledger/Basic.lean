import Bindings.Declaration
import Bindings.Fault
import Bindings.Ledger.Key
import Bindings.Table

/-!
# The ledger

What has been generated. A transaction holds work in progress over the durable record, and
a savepoint is a transaction over another one. Work becomes durable when an outermost
transaction is committed; failures are durable at once and survive a rollback.
-/

namespace Bindings

/-! ## Entries -/

/-- A failure of an entity, and the entity that it began with. -/
structure StructuralFailure where
  fault : Fault
  key : Option EntityKey := none
  deriving DecidableEq, Repr, Inhabited

/-- The failure as one of `key`, unless it belongs to another entity already. -/
def StructuralFailure.attributedTo (failure : StructuralFailure) (key : EntityKey) :
    StructuralFailure :=
  { failure with key := some (failure.key.getD key) }

/-- What is known of an entity. -/
inductive Entry
  | notStarted
  | inFlight
  | committed (declarations : List Declaration)
  | failed (failure : StructuralFailure)
  deriving Inhabited

/-- An entity with its declarations. -/
abbrev Completion := EntityKey × List Declaration

/-! ## Transactions -/

/-- The number of a transaction; each one made gets the next number. -/
abbrev TransactionId := Nat

/-- A transaction. Its overlay hides what lies below it; `pending` are the entities that it
    completed, in order. A savepoint has the transaction below it as its parent. -/
structure Transaction where
  parent : Option TransactionId := none
  overlay : Table EntityKey Entry := {}
  pending : List Completion := []
  closed : Bool := false
  deriving Inhabited

/-- Why a step on a ledger is refused. -/
inductive LedgerError
  | alreadyOpen
  | closed
  | noTransaction
  deriving DecidableEq, Repr, Inhabited

/-- The message of a refusal. -/
def LedgerError.message : LedgerError → String
  | alreadyOpen => "A generation transaction is already open"
  | closed => "Transaction is already closed"
  | noTransaction => "Entity production requires an open transaction"

/-- The durable record, and all transactions made over it. -/
structure Ledger where
  committed : Table EntityKey (List Declaration) := {}
  failures : Table EntityKey StructuralFailure := {}
  active : Option TransactionId := none
  transactions : Array Transaction := #[]
  deriving Inhabited

namespace Ledger

/-! ## The durable record -/

/-- What the durable record knows of an entity. -/
def entry (l : Ledger) (key : EntityKey) : Entry :=
  match l.committed.get? key with
  | some declarations => .committed declarations
  | none =>
    match l.failures.get? key with
    | some failure => .failed failure
    | none => .notStarted

/-- Records a failure. An entity keeps the first one. -/
def recordFailure (l : Ledger) (key : EntityKey) (failure : StructuralFailure) : Ledger :=
  { l with failures := l.failures.putNew key failure }

/-- The durable entities in the order in which they were committed. -/
def committedKeys (l : Ledger) : List EntityKey := l.committed.keys

/-- The durable declarations in the order in which they were committed. -/
def declarations (l : Ledger) : List Declaration := l.committed.values.flatten

/-- Makes completed entities durable. An entity keeps its first declarations. -/
def merge (l : Ledger) (pending : List Completion) : Ledger :=
  { l with committed := pending.foldl (fun t e => t.putNew e.1 e.2) l.committed }

/-- Lets go of a transaction if it is the active one. -/
def release (l : Ledger) (id : TransactionId) : Ledger :=
  if l.active = some id then { l with active := none } else l

/-! ## Reading through transactions -/

/-- What a transaction knows of an entity: its own overlay first, then the transactions below
    it, and last the durable record. -/
def entryIn (l : Ledger) (id : TransactionId) (key : EntityKey) : Entry :=
  match l.transactions[id]? with
  | none => l.entry key
  | some t =>
    match t.overlay.get? key, t.parent with
    | some e, _ => e
    | none, some below => if below < id then l.entryIn below key else l.entry key
    | none, none => l.entry key
termination_by id

/-- Whether a transaction is there and open. -/
def isOpen (l : Ledger) (id : TransactionId) : Bool := l.transactions[id]?.any (!·.closed)

/-- The entities that a transaction completed. -/
def pendingOf (l : Ledger) (id : TransactionId) : List Completion :=
  (l.transactions[id]?.map (·.pending)).getD []

/-! ## Steps -/

/-- Changes a transaction. -/
def change (l : Ledger) (id : TransactionId) (f : Transaction → Transaction) : Ledger :=
  { l with transactions := l.transactions.modify id f }

/-- Opens an outermost transaction, of which there is one at a time. -/
def begin (l : Ledger) : Except LedgerError (TransactionId × Ledger) :=
  match l.active with
  | some _ => .error .alreadyOpen
  | none =>
    let id := l.transactions.size
    .ok (id, { l with active := some id, transactions := l.transactions.push {} })

/-- Opens a savepoint over an open transaction. -/
def savepoint (l : Ledger) (id : TransactionId) : Except LedgerError (TransactionId × Ledger) :=
  if l.isOpen id then
    .ok (l.transactions.size,
      { l with transactions := l.transactions.push { parent := some id } })
  else .error .closed

/-- Notes in an open transaction that an entity is being produced. -/
def markInFlight (l : Ledger) (id : TransactionId) (key : EntityKey) : Except LedgerError Ledger :=
  if l.isOpen id then
    .ok (l.change id fun t => { t with overlay := t.overlay.put key .inFlight })
  else .error .closed

/-- Takes an entity out of the overlay of a transaction, open or closed. -/
def forget (l : Ledger) (id : TransactionId) (key : EntityKey) : Ledger :=
  l.change id fun t => { t with overlay := t.overlay.erase key }

/-- Notes the declarations of an entity in an open transaction. -/
def complete (l : Ledger) (id : TransactionId) (key : EntityKey)
    (declarations : List Declaration) : Except LedgerError Ledger :=
  if l.isOpen id then
    .ok (l.change id fun t => { t with
      overlay := t.overlay.put key (.committed declarations)
      pending := t.pending ++ [(key, declarations)] })
  else .error .closed

/-- Notes the failure of an entity in a transaction, open or closed, and records it. -/
def fail (l : Ledger) (id : TransactionId) (key : EntityKey) (failure : StructuralFailure) :
    Ledger :=
  (l.change id fun t => { t with overlay := t.overlay.put key (.failed failure) }).recordFailure
    key failure

/-- Closes a transaction. -/
def close (l : Ledger) (id : TransactionId) : Ledger :=
  l.change id fun t => { t with closed := true }

/-- Commits an open transaction: a savepoint into the transaction below it, an outermost one
    into the durable record. -/
def commit (l : Ledger) (id : TransactionId) : Except LedgerError Ledger :=
  match l.transactions[id]? with
  | none => .error .closed
  | some t =>
    if t.closed then .error .closed
    else
      match t.parent with
      | some below =>
        .ok ((l.change below fun p => { p with
          overlay := p.overlay.update t.overlay
          pending := p.pending ++ t.pending }).close id)
      | none => .ok (((l.merge t.pending).release id).close id)

/-- Rolls an open transaction back: what it noted is gone. A closed one stays as it is. -/
def rollback (l : Ledger) (id : TransactionId) : Ledger :=
  match l.transactions[id]? with
  | none => l
  | some t =>
    if t.closed then l
    else
      let cleared := l.change id fun t => { t with overlay := {}, pending := [], closed := true }
      if t.parent.isNone then cleared.release id else cleared

end Ledger
end Bindings
