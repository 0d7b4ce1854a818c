import Bindings.Ledger.Basic

/-!
# Histories of a ledger

A ledger is driven by steps in any order, each on any transaction made so far. A run keeps a
log of the steps with what came of each. From the log alone it can be told which completions
become durable: those that successful commits carried, one after the other, from the
transaction that completed them to an outermost one.
-/

namespace Bindings.Ledger

/-! ## Steps -/

/-- A step on a ledger. All but the first and `recordFailure` name a transaction. -/
inductive Step
  | begin
  | savepoint (id : TransactionId)
  | markInFlight (id : TransactionId) (key : EntityKey)
  | forget (id : TransactionId) (key : EntityKey)
  | complete (id : TransactionId) (key : EntityKey) (declarations : List Declaration)
  | fail (id : TransactionId) (key : EntityKey) (failure : StructuralFailure)
  | recordFailure (key : EntityKey) (failure : StructuralFailure)
  | commit (id : TransactionId)
  | rollback (id : TransactionId)

/-- The transaction that a step names. -/
def Step.target? : Step → Option TransactionId
  | begin | recordFailure .. => none
  | savepoint id | markInFlight id _ | forget id _ | complete id .. | fail id .. | commit id
  | rollback id => some id

/-- The step that makes a transaction over the given one, or an outermost one. -/
def Step.opening : Option TransactionId → Step
  | none => begin
  | some parent => savepoint parent

/-- What came of a step: it was done, it made a transaction, it was refused, or it named a
    transaction that has not been made. -/
inductive Outcome
  | done
  | opened (id : TransactionId)
  | refused (error : LedgerError)
  | unmade

/-- The ledger after a step that may be refused; a refused step changes nothing. -/
def settled (l : Ledger) : Except LedgerError Ledger → Ledger × Outcome
  | .ok next => (next, .done)
  | .error e => (l, .refused e)

/-- The ledger after a step that makes a transaction unless it is refused. -/
def extended (l : Ledger) : Except LedgerError (TransactionId × Ledger) → Ledger × Outcome
  | .ok (id, next) => (next, .opened id)
  | .error e => (l, .refused e)

/-- Takes a step on a transaction that has been made. -/
def act (l : Ledger) : Step → Ledger × Outcome
  | .begin => l.extended l.begin
  | .savepoint id => l.extended (l.savepoint id)
  | .markInFlight id key => l.settled (l.markInFlight id key)
  | .forget id key => (l.forget id key, .done)
  | .complete id key declarations => l.settled (l.complete id key declarations)
  | .fail id key failure => (l.fail id key failure, .done)
  | .recordFailure key failure => (l.recordFailure key failure, .done)
  | .commit id => l.settled (l.commit id)
  | .rollback id => (l.rollback id, .done)

/-- Takes a step, if the transaction that it names has been made. -/
def take (l : Ledger) (step : Step) : Ledger × Outcome :=
  if step.target?.all (· < l.transactions.size) then l.act step else (l, .unmade)

/-! ## Runs -/

/-- The steps taken so far, each with what came of it. -/
abbrev Log := List (Step × Outcome)

/-- A ledger with the log of the steps that led to it. -/
structure Run where
  ledger : Ledger := {}
  log : Log := []

/-- A run with one more step. -/
def Run.next (r : Run) (step : Step) : Run :=
  { ledger := (r.ledger.take step).1, log := r.log ++ [(step, (r.ledger.take step).2)] }

/-- The run of several steps on a new ledger. -/
def Run.of (steps : List Step) : Run := steps.foldl Run.next {}

/-! ## What a log tells -/

namespace Log

/-- Step `n` made an outermost transaction. -/
def BeganAt (log : Log) (n : Nat) (id : TransactionId) : Prop :=
  log[n]? = some (.begin, .opened id)

/-- Step `n` made a savepoint. -/
def SplitAt (log : Log) (n : Nat) (parent child : TransactionId) : Prop :=
  log[n]? = some (.savepoint parent, .opened child)

/-- Step `n` made a transaction over the given one, or an outermost one. -/
def MadeAt (log : Log) (n : Nat) (id : TransactionId) (parent : Option TransactionId) : Prop :=
  log[n]? = some (.opening parent, .opened id)

/-- Step `n` completed an entity in a transaction. -/
def CompletedAt (log : Log) (n : Nat) (id : TransactionId) (c : Completion) : Prop :=
  log[n]? = some (.complete id c.1 c.2, .done)

/-- Step `n` committed a transaction. -/
def CommittedAt (log : Log) (n : Nat) (id : TransactionId) : Prop :=
  log[n]? = some (.commit id, .done)

/-- Step `n` committed a transaction or rolled it back; to roll a closed one back is allowed,
    but does nothing. -/
def ClosedAt (log : Log) (n : Nat) (id : TransactionId) : Prop :=
  log.CommittedAt n id ∨ log[n]? = some (.rollback id, .done)

/-! ## Routes -/

/-- The numbers of the steps that carried a completion, the last one first: commits, and at the
    end the step that completed the entity. -/
abbrev Route := List Nat

/-- The order in which completions are merged: the one whose outermost commit came first, and
    within one commit the one that had reached the committed transaction first. -/
def Route.Before (a b : Route) : Prop := List.Lex (fun m n : Nat => m < n) a b

/-- A completion has reached a transaction by a route: it was made there, or it had reached a
    savepoint over it and then the savepoint was committed. -/
inductive Reached (log : Log) (c : Completion) : TransactionId → Route → Prop
  | completed {n : Nat} {id : TransactionId} (completes : log.CompletedAt n id c) :
      Reached log c id [n]
  | folded {i m n : Nat} {parent child : TransactionId} {rest : Route}
      (arrived : Reached log c child (m :: rest)) (splits : log.SplitAt i parent child)
      (commits : log.CommittedAt n child) (made : i < n) (later : m < n) :
      Reached log c parent (n :: m :: rest)

/-- A completion has become durable by a route: it had reached an outermost transaction, and
    then that was committed. -/
def Durable (log : Log) (c : Completion) (route : Route) : Prop :=
  ∃ i m n id rest, log.Reached c id (m :: rest) ∧ log.BeganAt i id ∧ log.CommittedAt n id ∧
    i < n ∧ m < n ∧ route = n :: m :: rest

/-- The declarations come from the first completion of the key that has become durable. -/
def FirstDurable (log : Log) (key : EntityKey) (declarations : List Declaration) : Prop :=
  ∃ route, log.Durable (key, declarations) route ∧
    ∀ others otherRoute, log.Durable (key, others) otherRoute → ¬ Route.Before otherRoute route

/-- A transaction that was never closed, was rolled back without having been committed, or is a
    savepoint committed only after its parent had been closed. -/
def Lost (log : Log) (id : TransactionId) : Prop :=
  (∀ n, ¬ log.ClosedAt n id) ∨
  (∃ n, log[n]? = some (.rollback id, .done) ∧ ∀ m, m < n → ¬ log.CommittedAt m id) ∨
  ∃ i parent m n, log.SplitAt i parent id ∧ log.ClosedAt m parent ∧ log.CommittedAt n id ∧ m < n

/-! ## Logs with one more line -/

theorem line_append_iff (log : Log) (e x : Step × Outcome) (n : Nat) :
    (log ++ [e])[n]? = some x ↔ log[n]? = some x ∨ (n = log.length ∧ e = x) := by
  rcases Nat.lt_trichotomy n log.length with old | rfl | beyond
  · have other : n ≠ log.length := by omega
    simp [List.getElem?_append_left old, other]
  · simp
  · have past : (log ++ [e]).length ≤ n := by simp; omega
    have other : n ≠ log.length := by omega
    have none : log.length ≤ n := by omega
    simp [List.getElem?_eq_none past, List.getElem?_eq_none none, other]

theorem line_lt {log : Log} {n : Nat} {x : Step × Outcome} (line : log[n]? = some x) :
    n < log.length :=
  (List.getElem?_eq_some_iff.mp line).1

theorem line_old {log : Log} {e x : Step × Outcome} {n : Nat} (line : (log ++ [e])[n]? = some x)
    (old : n < log.length) : log[n]? = some x := by
  rwa [List.getElem?_append_left old] at line

theorem line_mono {log : Log} (e : Step × Outcome) {x : Step × Outcome} {n : Nat}
    (line : log[n]? = some x) : (log ++ [e])[n]? = some x :=
  (line_append_iff log e x n).mpr (.inl line)

theorem Reached.mono {log : Log} {c : Completion} {id : TransactionId} {route : Route}
    (reached : log.Reached c id route) (e : Step × Outcome) : Reached (log ++ [e]) c id route := by
  induction reached with
  | completed completes => exact .completed (line_mono e completes)
  | folded arrived splits commits made later ih =>
    exact .folded ih (line_mono e splits) (line_mono e commits) made later

theorem Reached.bound {log : Log} {c : Completion} {id : TransactionId} {m : Nat} {rest : Route}
    (reached : log.Reached c id (m :: rest)) : m < log.length := by
  cases reached with
  | completed completes => exact line_lt completes
  | folded arrived splits commits made later => exact line_lt commits

/-- What the last line of a log adds to the completions that have reached a transaction. -/
inductive Arrives (log : Log) (e : Step × Outcome) (c : Completion) : TransactionId → Route → Prop
  | completed {id : TransactionId} (line : e = (.complete id c.1 c.2, .done)) :
      Arrives log e c id [log.length]
  | folded {i m : Nat} {parent child : TransactionId} {rest : Route}
      (arrived : log.Reached c child (m :: rest)) (splits : log.SplitAt i parent child)
      (line : e = (.commit child, .done)) : Arrives log e c parent (log.length :: m :: rest)

theorem reached_append_iff (log : Log) (e : Step × Outcome) (c : Completion) (id : TransactionId)
    (route : Route) :
    Reached (log ++ [e]) c id route ↔ log.Reached c id route ∨ log.Arrives e c id route := by
  constructor
  · intro reached
    induction reached with
    | completed completes =>
      rcases (line_append_iff ..).mp completes with old | ⟨rfl, line⟩
      · exact .inl (.completed old)
      · exact .inr (.completed line)
    | @folded i m n parent child rest arrived splits commits made later ih =>
      have length := line_lt commits
      simp only [List.length_append, List.length_singleton] at length
      have before : log.Reached c child (m :: rest) := by
        rcases ih with old | new
        · exact old
        · cases new <;> omega
      have split := line_old splits (by omega)
      rcases (line_append_iff ..).mp commits with old | ⟨rfl, line⟩
      · exact .inl (.folded before split old made later)
      · exact .inr (.folded before split line)
  · rintro (old | new)
    · exact old.mono e
    · cases new with
      | completed line => exact .completed ((line_append_iff ..).mpr (.inr ⟨rfl, line⟩))
      | folded arrived splits line =>
        exact .folded (arrived.mono e) (line_mono e splits)
          ((line_append_iff ..).mpr (.inr ⟨rfl, line⟩)) (line_lt splits) arrived.bound

theorem durable_append_iff (log : Log) (e : Step × Outcome) (c : Completion) (route : Route) :
    Durable (log ++ [e]) c route ↔ log.Durable c route ∨
      ∃ i m id rest, log.Reached c id (m :: rest) ∧ log.BeganAt i id ∧ e = (.commit id, .done) ∧
        route = log.length :: m :: rest := by
  constructor
  · rintro ⟨i, m, n, id, rest, reached, begins, commits, made, later, rfl⟩
    have length := line_lt commits
    simp only [List.length_append, List.length_singleton] at length
    have before : log.Reached c id (m :: rest) := by
      rcases (reached_append_iff ..).mp reached with old | new
      · exact old
      · cases new <;> omega
    have began := line_old begins (by omega)
    rcases (line_append_iff ..).mp commits with old | ⟨rfl, line⟩
    · exact .inl ⟨i, m, n, id, rest, before, began, old, made, later, rfl⟩
    · exact .inr ⟨i, m, id, rest, before, began, line, rfl⟩
  · rintro (⟨i, m, n, id, rest, reached, begins, commits, made, later, rfl⟩ |
      ⟨i, m, id, rest, reached, begins, line, rfl⟩)
    · exact ⟨i, m, n, id, rest, reached.mono e, line_mono e begins, line_mono e commits, made,
        later, rfl⟩
    · exact ⟨i, m, log.length, id, rest, reached.mono e, line_mono e begins,
        (line_append_iff ..).mpr (.inr ⟨rfl, line⟩), line_lt begins, reached.bound, rfl⟩

end Log
end Bindings.Ledger
