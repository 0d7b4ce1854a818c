import Bindings.Proofs.Ledger.Reading

/-!
# Closing a transaction

What a ledger is like after an open transaction was committed or rolled back. Of the other
transactions only the one below a savepoint that is committed changes.
-/

namespace Bindings

/-- A transaction that has been rolled back. -/
def Transaction.clear (x : Transaction) : Transaction :=
  { x with overlay := {}, pending := [], closed := true }

/-- A transaction that takes over what a savepoint on it holds. -/
def Transaction.absorb (p x : Transaction) : Transaction :=
  { p with
    overlay := p.overlay.update x.overlay
    pending := p.pending ++ x.pending }

namespace Ledger

variable {l m n : Ledger} {id outer : TransactionId} {x p : Transaction}

/-- A transaction has been closed, and at most one other, the one below it, has changed. -/
structure Shuts (l : Ledger) (id : TransactionId) (below : Option TransactionId) (m : Ledger) :
    Prop where
  failures : m.failures = l.failures
  size : m.transactions.size = l.transactions.size
  others : ∀ i, i ≠ id → below ≠ some i → m.transactions[i]? = l.transactions[i]?
  closed : ∀ x, m.transactions[id]? = some x → x.closed = true

theorem Shuts.untouched (shuts : l.Shuts id none m) {i : TransactionId} (older : i ≠ id) :
    m.transactions[i]? = l.transactions[i]? :=
  shuts.others i older (by simp)

theorem Shuts.weaken (shuts : l.Shuts id none m) (below : Option TransactionId) :
    l.Shuts id below m :=
  { shuts with others := fun _ older _ => shuts.untouched older }

theorem Shuts.of_transactions {below : Option TransactionId} (shuts : l.Shuts id below m)
    (failures : n.failures = l.failures) (same : n.transactions = m.transactions) :
    l.Shuts id below n where
  failures := failures
  size := same ▸ shuts.size
  others := same ▸ shuts.others
  closed := same ▸ shuts.closed

/-- A change of a transaction that closes it. -/
theorem Shuts.change (found : l.transactions[id]? = some x) {f : Transaction → Transaction}
    (closes : (f x).closed = true) : l.Shuts id none (l.change id f) where
  failures := rfl
  size := by simp [Ledger.change]
  others i older _ := by simp [Ledger.change, Array.getElem?_modify, Ne.symm older]
  closed y foundY := by
    simp only [Ledger.change, Array.getElem?_modify, if_true, found, Option.map_some,
      Option.some.injEq] at foundY
    rwa [← foundY]

/-! ## Savepoints -/

/-- A savepoint has been committed into the transaction below it. -/
structure Folds (l : Ledger) (id outer : TransactionId) (m : Ledger) : Prop
    extends l.Shuts id (some outer) m where
  active : m.active = l.active
  committed : m.committed = l.committed
  below : ∀ x p, l.transactions[id]? = some x → l.transactions[outer]? = some p →
    m.transactions[outer]? = some (Transaction.absorb p x)

theorem commit_savepoint (found : l.transactions[id]? = some x) (opened : x.closed = false)
    (parent : x.parent = some outer) (apart : id ≠ outer) :
    ∃ m, l.commit id = .ok m ∧ l.Folds id outer m := by
  refine ⟨(l.change outer (Transaction.absorb · x)).close id, ?_, ?_⟩
  · simp [commit, found, opened, parent, Transaction.absorb]
  · refine { failures := rfl, active := rfl, committed := rfl, size := ?_, others := ?_, closed := ?_,
             below := ?_ }
    · simp [close, change]
    · intro i older other
      have other : outer ≠ i := fun same => other (congrArg some same)
      simp [close, change, Array.getElem?_modify, other, Ne.symm older]
    · intro y foundY
      simp only [close, change, Array.getElem?_modify, if_true, if_neg apart.symm, found,
        Option.map_some, Option.some.injEq] at foundY
      rw [← foundY]
    · intro y p foundY foundP
      obtain rfl := Option.some.inj (found.symm.trans foundY)
      simp [close, change, Array.getElem?_modify, apart, foundP]

/-- A transaction into which a savepoint was committed knows what the savepoint knew. -/
theorem Folds.entryIn (folds : l.Folds id outer m) (younger : outer < id)
    (found : l.transactions[id]? = some x) (above : x.parent = some outer)
    (foundP : l.transactions[outer]? = some p) (distinct : x.overlay.keys.Nodup) (key : EntityKey) :
    m.entryIn outer key = l.entryIn id key := by
  have under : m.entryUnder outer p.parent key = l.entryUnder outer p.parent key := by
    refine entryUnder_same folds.committed folds.failures (fun i lower => ?_) _ key
    have apart : some outer ≠ some i := fun same => Nat.ne_of_gt lower (Option.some.inj same)
    exact congrArg (Option.map _) (folds.others i (Nat.ne_of_lt (Nat.lt_trans lower younger)) apart)
  rw [entryIn_eq (folds.below x p found foundP), entryIn_eq found, above]
  simp only [Transaction.absorb, Table.get?_update _ _ distinct, under]
  simp only [entryUnder, younger, if_true, entryIn_eq foundP]
  cases x.overlay.get? key <;> rfl

/-- A savepoint that is rolled back leaves what is below it and the durable record alone. -/
theorem rollback_savepoint (found : l.transactions[id]? = some x) (opened : x.closed = false)
    (parent : x.parent = some outer) :
    l.Shuts id none (l.rollback id) ∧ (l.rollback id).active = l.active ∧
      (l.rollback id).committed = l.committed := by
  have result : l.rollback id = l.change id Transaction.clear := by
    simp only [rollback, found, opened, parent]
    rfl
  rw [result]
  exact ⟨.change found rfl, rfl, rfl⟩

/-! ## Outermost transactions -/

/-- An outermost transaction that is committed makes durable what it completed. -/
theorem commit_outermost (found : l.transactions[id]? = some x) (opened : x.closed = false)
    (parent : x.parent = none) (active : l.active = some id) :
    ∃ m, l.commit id = .ok m ∧ l.Shuts id none m ∧ m.active = none ∧
      m.committed = x.pending.foldl (fun table e => table.putNew e.1 e.2) l.committed := by
  refine ⟨((l.merge x.pending).release id).close id, by simp [commit, found, opened, parent], ?_⟩
  rw [release_eq]
  have closes : l.Shuts id none (l.close id) := .change found rfl
  refine ⟨closes.of_transactions rfl rfl, ?_, rfl⟩
  simp [close, change, merge, active]

/-- An outermost transaction that is rolled back leaves the durable record alone. -/
theorem rollback_outermost (found : l.transactions[id]? = some x) (opened : x.closed = false)
    (parent : x.parent = none) (active : l.active = some id) :
    l.Shuts id none (l.rollback id) ∧ (l.rollback id).active = none ∧
      (l.rollback id).committed = l.committed := by
  have result : l.rollback id = (l.change id Transaction.clear).release id := by
    simp only [rollback, found, opened, parent]
    rfl
  rw [result, release_eq]
  have clears : l.Shuts id none (l.change id Transaction.clear) := .change found rfl
  refine ⟨clears.of_transactions rfl rfl, ?_, rfl⟩
  simp [change, active]

end Ledger
end Bindings
