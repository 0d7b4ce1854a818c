import Bindings.Proofs.Generation.Outcome
import Bindings.Proofs.Request.Atomic

/-!
# Transactions that gather

The outermost transaction of a request notes exactly what it has completed, and none of it is
durable already. Savepoints keep that, whether they are committed or rolled back, and once the
transaction is committed the durable record knows what the transaction knew.
-/

namespace Bindings
open Bindings.Metadata

variable {env : Environment} {α : Type} {s t u : State} {id : TransactionId}

/-! ## Running in a transaction -/

theorem runIn_eq (id : TransactionId) (outer : Option TransactionId) (body : Gen α) (s : State) :
    runIn id outer body env s = match body env { s with current := some id } with
      | .ok a t => match t.ledger.commit id with
        | .ok l => .ok a { t with ledger := l, current := outer }
        | .error e => .error (.ledger e) { t with current := outer }
      | .error e t => .error e { t with ledger := t.ledger.rollback id, current := outer } := by
  rw [runIn, Gen.modify_bind, Gen.bind_eq, Gen.attempt_eq]
  cases body env { s with current := some id } with
  | error e t => rfl
  | ok a t =>
    change (Gen.ensuring (Gen.stepLedger (·.commit id)) (fun s => { s with current := outer }) >>=
      fun _ => pure a : Gen α) env t = _
    rw [Gen.bind_eq, Gen.ensuring_eq, Gen.stepLedger_eq]
    cases committed : t.ledger.commit id <;> simp only [committed] <;> rfl

/-- A computation in an outermost transaction of its own. -/
theorem inTransaction_eq (rest : s.AtRest) (body : Gen α) :
    inTransaction body env s = match body env s.begun with
      | .ok a t => match t.ledger.commit s.ledger.transactions.size with
        | .ok l => .ok a { t with ledger := l, current := none }
        | .error e => .error (.ledger e) { t with current := none }
      | .error e t => .error e
          { t with ledger := t.ledger.rollback s.ledger.transactions.size, current := none } := by
  unfold inTransaction
  rw [Gen.get_bind, rest.current]
  change (Gen.onLedger (·.begin) >>= fun id => runIn id none body) env s = _
  rw [Gen.bind_eq, Gen.onLedger_eq, Ledger.begin, rest.active]
  exact runIn_eq _ none body _

/-- A computation in a savepoint. -/
theorem inSavepoint_eq (inside : s.In id) (body : Gen α) :
    inSavepoint body env s = match body env (s.split id) with
      | .ok a t => match t.ledger.commit s.ledger.transactions.size with
        | .ok l => .ok a { t with ledger := l, current := some id }
        | .error e => .error (.ledger e) { t with current := some id }
      | .error e t => .error e
          { t with ledger := t.ledger.rollback s.ledger.transactions.size, current := some id } := by
  unfold inSavepoint
  rw [Gen.bind_eq, currentTransaction_eq, inside.current]
  change (Gen.onLedger (·.savepoint id) >>= fun n => runIn n (some id) body) env s = _
  rw [Gen.bind_eq, Gen.onLedger_eq, Ledger.savepoint, if_pos inside.opened]
  exact runIn_eq _ (some id) body _

theorem sessionLinks_eq (s : State) : sessionLinks env s = .ok (Links.upTo env.depth) s := rfl

theorem pendingCount_eq (s : State) :
    pendingCount env s = match s.current with
      | some id => .ok (s.ledger.pendingOf id).length s
      | none => .error (.ledger .noTransaction) s := by
  rw [pendingCount, Gen.bind_eq, currentTransaction_eq]
  cases s.current <;> rfl

theorem begun_in (s : State) : s.begun.In s.ledger.transactions.size where
  current := rfl
  opened := by simp [State.begun, Ledger.isOpen]

theorem split_in (s : State) (outer : TransactionId) : (s.split outer).In s.ledger.transactions.size where
  current := rfl
  opened := by simp [State.split, Ledger.isOpen]

/-! ## Candidates -/

/-- What becomes of a candidate whose production fails. -/
def Failure.conclusion (candidate : Candidate) : Failure → Except Failure CandidateOutcome
  | .platformMismatch .. => .ok (.skipped candidate.1)
  | .structural failure => .ok (.failed candidate.1 failure.fault.message)
  | other => .error other

theorem sweepCandidate_eq (links : Links) (c : Candidate) (s : State) :
    sweepCandidate links c env s = match inSavepoint (links.candidate c) env s with
      | .ok _ t => .ok .produced t
      | .error e t => Gen.ended (e.conclusion c) t := by
  unfold sweepCandidate
  rw [Gen.bind_eq, Gen.attempt_eq]
  cases inSavepoint (links.candidate c) env s with
  | ok a t => rfl
  | error e t => cases e <;> rfl

/-! ## Gathering -/

/-- The current transaction is an outermost one that notes exactly what it has completed, and has
    completed nothing that is durable already. -/
structure State.Gathers (s : State) (id : TransactionId) : Prop extends s.In id where
  active : s.ledger.active = some id
  notes : ∃ x, s.ledger.transactions[id]? = some x ∧ x.parent = none ∧ x.overlay.keys.Nodup ∧
    ∀ key, x.overlay.get? key = (Table.lookupIn key x.pending).map .committed
  fresh : ∀ c ∈ s.pending, s.ledger.committed.get? c.1 = none

theorem State.In.pending_eq (inside : s.In id) {x : Transaction}
    (found : s.ledger.transactions[id]? = some x) : s.pending = x.pending := by
  simp [State.pending, inside.current, Ledger.pendingOf, found]

/-- What is known: what has been completed, and else the durable record. -/
theorem State.Gathers.entry (gathers : s.Gathers id) (key : EntityKey) :
    s.entry key = ((Table.lookupIn key s.pending).map .committed).getD (s.ledger.entry key) := by
  obtain ⟨x, found, parent, _, overlay⟩ := gathers.notes
  rw [gathers.pending_eq found, ← overlay]
  simp only [State.entry, gathers.current, Ledger.entryIn_eq found, parent]
  rfl

theorem begun_gathers (s : State) : s.begun.Gathers s.ledger.transactions.size where
  toIn := begun_in s
  active := rfl
  notes := ⟨{}, by simp [State.begun], rfl, .nil, fun _ => rfl⟩
  fresh := by simp [State.pending, State.begun, Ledger.pendingOf]

theorem begun_pending (s : State) : s.begun.pending = [] := by
  simp [State.pending, State.begun, Ledger.pendingOf]

theorem split_pending (s : State) (outer : TransactionId) : (s.split outer).pending = [] := by
  simp [State.pending, State.split, Ledger.pendingOf]

theorem State.In.split_entry (inside : s.In id) (key : EntityKey) :
    (s.split id).entry key = s.entry key :=
  Bindings.split_entry inside.current (isOpen_bound inside.opened) key

/-- What has not been started is neither complete nor durable. -/
theorem State.Gathers.notStarted (gathers : s.Gathers id) {key : EntityKey}
    (fresh : s.entry key = .notStarted) :
    Table.lookupIn key s.pending = none ∧ s.ledger.committed.get? key = none := by
  rw [gathers.entry] at fresh
  cases completed : Table.lookupIn key s.pending with
  | some declarations =>
    rw [completed] at fresh
    cases fresh
  | none =>
    rw [completed] at fresh
    refine ⟨rfl, ?_⟩
    cases durable : s.ledger.committed.get? key with
    | none => rfl
    | some declarations => simp [Ledger.entry, durable] at fresh

/-- What has been noted of completions once more of them are noted. -/
theorem notes_append {key : EntityKey} {early more : List Completion}
    {overlay : Option Entry} (before : overlay = (Table.lookupIn key early).map .committed)
    (apart : ∀ c ∈ more, Table.lookupIn c.1 early = none) :
    ((Table.lookupIn key more).map Entry.committed).or overlay =
      (Table.lookupIn key (early ++ more)).map .committed := by
  rw [before, Table.lookupIn_append]
  cases late : Table.lookupIn key more with
  | none => cases Table.lookupIn key early <;> rfl
  | some declarations =>
    rw [apart _ (Table.mem_of_lookupIn late)]
    rfl

theorem fresh_append {early more : List Completion} {committed : Table EntityKey (List Declaration)}
    (before : ∀ c ∈ early, committed.get? c.1 = none) (after : ∀ c ∈ more, committed.get? c.1 = none) :
    ∀ c ∈ early ++ more, committed.get? c.1 = none := by
  intro c member
  rcases List.mem_append.mp member with old | new
  · exact before c old
  · exact after c new

/-- A computation in a gathering transaction adds to what is gathered. -/
theorem State.Gathers.produced (gathers : s.Gathers id) {more : List Completion}
    (produces : Produces id s t more) : t.Gathers id ∧ t.pending = s.pending ++ more := by
  obtain ⟨f, adds, same⟩ := produces.ledger
  obtain ⟨x, found, parent, distinct, overlay⟩ := gathers.notes
  have inside := produces.inside gathers.toIn
  have foundT : t.ledger.transactions[id]? = some (f x) := by
    rw [same, Ledger.getElem?_change, found]
    rfl
  have apart := fun c member => gathers.notStarted (produces.fresh c member)
  rw [gathers.pending_eq found] at apart
  have pending : t.pending = s.pending ++ more := by
    rw [inside.pending_eq foundT, adds.pending, gathers.pending_eq found]
  refine ⟨{
    toIn := inside
    active := by rw [same]; exact gathers.active
    notes := ⟨f x, foundT, (adds.parent x).trans parent, adds.distinct x distinct, fun key => ?_⟩
    fresh := ?_ }, pending⟩
  · rw [adds.overlay, adds.pending]
    exact notes_append (overlay key) fun c member => (apart c member).1
  · rw [pending, same]
    exact fresh_append gathers.fresh fun c member => (apart c member).2

/-! ## Savepoints -/

/-- A savepoint that is committed hands what it has gathered to the transaction below it. -/
theorem State.Gathers.fold (gathers : s.Gathers id) {more : List Completion}
    (produces : Produces s.ledger.transactions.size (s.split id) t more) :
    ∃ l, t.ledger.commit s.ledger.transactions.size = .ok l ∧
      State.Gathers { t with ledger := l, current := some id } id ∧
      State.pending { t with ledger := l, current := some id } = s.pending ++ more ∧
      l.committed = s.ledger.committed ∧ l.failures = s.ledger.failures := by
  have there := isOpen_bound gathers.opened
  have apart : s.ledger.transactions.size ≠ id := Nat.ne_of_gt there
  obtain ⟨f, adds, same⟩ := produces.ledger
  obtain ⟨p, foundP, parent, distinct, overlay⟩ := gathers.notes
  have closed : p.closed = false := by
    obtain ⟨q, foundQ, opened⟩ := gathers.found
    rwa [Option.some.inj (foundP.symm.trans foundQ)]
  have foundX : t.ledger.transactions[s.ledger.transactions.size]? = some (f { parent := some id }) := by
    rw [same, Ledger.getElem?_change]
    simp [State.split]
  have below : t.ledger.transactions[id]? = some p := by
    rw [same, Ledger.change, Array.getElem?_modify, if_neg apart]
    simpa [State.split, Array.getElem?_push, apart.symm] using foundP
  obtain ⟨l, committed, folds⟩ := Ledger.commit_savepoint foundX ((adds.closed _).trans rfl)
    ((adds.parent _).trans rfl) apart
  have after := folds.below _ p foundX below
  have fresh := fun c member => gathers.notStarted
    ((gathers.split_entry c.1).symm.trans (produces.fresh c member))
  rw [gathers.pending_eq foundP] at fresh
  have inside : State.In { t with ledger := l, current := some id } id :=
    ⟨rfl, (Ledger.isOpen_iff l id).mpr ⟨_, after, closed⟩⟩
  have pending : State.pending { t with ledger := l, current := some id } = s.pending ++ more := by
    rw [inside.pending_eq after, gathers.pending_eq foundP, Transaction.absorb, adds.pending]
    rfl
  have durable : l.committed = s.ledger.committed := by rw [folds.committed, same]; rfl
  refine ⟨l, committed, {
    toIn := inside
    active := by rw [folds.active, same]; exact gathers.active
    notes := ⟨_, after, parent, Table.nodup_update _ _ distinct, fun key => ?_⟩
    fresh := ?_ }, pending, durable, by rw [folds.failures, same]; rfl⟩
  · rw [Transaction.absorb, Table.get?_update _ _ (adds.distinct { parent := some id } .nil), adds.overlay, adds.pending,
      Table.get?_empty, Option.or_none]
    exact notes_append (overlay key) fun c member => (fresh c member).1
  · rw [pending, durable]
    exact fresh_append gathers.fresh fun c member => (fresh c member).2

/-- What was known in a savepoint is known in the transaction below it once the savepoint is committed. -/
theorem State.Gathers.fold_entry (gathers : s.Gathers id) {more : List Completion}
    (produces : Produces s.ledger.transactions.size (s.split id) t more) (after : u.Gathers id)
    (pending : u.pending = s.pending ++ more) (committed : u.ledger.committed = s.ledger.committed)
    (failures : u.ledger.failures = s.ledger.failures) (key : EntityKey) : u.entry key = t.entry key := by
  have fresh : ∀ c ∈ more, Table.lookupIn c.1 s.pending = none := fun c member =>
    (gathers.notStarted ((gathers.split_entry c.1).symm.trans (produces.fresh c member))).1
  have ledger : u.ledger.entry key = s.ledger.entry key := by
    rw [Ledger.entry, Ledger.entry, committed, failures]
  rw [after.entry, pending, produces.entry (split_in s id), gathers.split_entry, gathers.entry, ledger,
    ← notes_append rfl fresh]
  cases Table.lookupIn key more <;> rfl

/-- A savepoint that is rolled back leaves what the transaction below it has gathered. -/
theorem State.Gathers.unfold (gathers : s.Gathers id) (kept : Keeps (s.split id) t) {u : State}
    (rolled : u = { t with ledger := t.ledger.rollback s.ledger.transactions.size, current := some id }) :
    u.Gathers id ∧ u.pending = s.pending ∧ u.ledger.committed = s.ledger.committed ∧
      u.ledger.failures = t.ledger.failures := by
  have there := isOpen_bound gathers.opened
  obtain ⟨x, found, parent, opened⟩ := kept.savepoint
  obtain ⟨shuts, active, committed⟩ := Ledger.rollback_savepoint found opened parent
  have below : (t.ledger.rollback s.ledger.transactions.size).transactions[id]? =
      s.ledger.transactions[id]? :=
    (shuts.untouched (Nat.ne_of_lt there)).trans (kept.below there)
  obtain ⟨p, foundP, notes⟩ := gathers.notes
  obtain ⟨q, foundQ, closed⟩ := gathers.found
  subst rolled
  have inside : State.In { t with
      ledger := t.ledger.rollback s.ledger.transactions.size, current := some id } id :=
    ⟨rfl, (Ledger.isOpen_iff _ id).mpr ⟨q, below.trans foundQ, closed⟩⟩
  have pending : State.pending { t with
      ledger := t.ledger.rollback s.ledger.transactions.size, current := some id } = s.pending := by
    rw [inside.pending_eq (below.trans foundP), gathers.pending_eq foundP]
  have durable := committed.trans kept.committed
  refine ⟨{
    toIn := inside
    active := active.trans (kept.active.trans gathers.active)
    notes := ⟨p, below.trans foundP, notes⟩
    fresh := ?_ }, pending, durable, shuts.failures⟩
  rw [pending, durable]
  exact gathers.fresh

/-! ## Commits -/

/-- What is gathered becomes durable. -/
theorem State.Gathers.commit (gathers : s.Gathers id) :
    ∃ l, s.ledger.commit id = .ok l ∧ l.failures = s.ledger.failures ∧
      l.committed = s.pending.foldl (fun table c => table.putNew c.1 c.2) s.ledger.committed := by
  obtain ⟨x, found, parent, _⟩ := gathers.notes
  obtain ⟨y, foundY, opened⟩ := gathers.found
  obtain rfl := Option.some.inj (found.symm.trans foundY)
  obtain ⟨l, committed, shuts, _, durable⟩ :=
    Ledger.commit_outermost found opened parent gathers.active
  exact ⟨l, committed, shuts.failures, by rw [gathers.pending_eq found, durable]⟩

/-- The durable record knows what the transaction knew that was committed into it. -/
theorem State.Gathers.entry_commit (gathers : s.Gathers id) {l : Ledger}
    (failures : l.failures = s.ledger.failures)
    (committed : l.committed = s.pending.foldl (fun table c => table.putNew c.1 c.2) s.ledger.committed)
    (key : EntityKey) : l.entry key = s.entry key := by
  rw [gathers.entry, Ledger.entry, Ledger.entry, failures, committed, Table.get?_foldl_putNew]
  cases completed : Table.lookupIn key s.pending with
  | none => rw [Option.or_none]; rfl
  | some declarations =>
    rw [gathers.fresh _ (Table.mem_of_lookupIn completed)]
    rfl

end Bindings
