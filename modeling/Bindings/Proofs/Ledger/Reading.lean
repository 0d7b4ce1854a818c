import Bindings.Proofs.Ledger.Effect

/-!
# Reading through transactions

What a transaction knows of an entity depends only on its own overlay and on what lies below
it. A savepoint begins with what the transaction below it knows.
-/

namespace Bindings.Ledger

variable {l m : Ledger} {id : TransactionId} {t : Transaction} {key : EntityKey}

/-! ## One transaction -/

/-- What lies below a transaction knows of an entity. -/
def entryUnder (l : Ledger) (id : TransactionId) (parent : Option TransactionId) (key : EntityKey) :
    Entry :=
  match parent with
  | some below => if below < id then l.entryIn below key else l.entry key
  | none => l.entry key

/-- A transaction looks into its overlay first, and else below. -/
theorem entryIn_eq (found : l.transactions[id]? = some t) :
    l.entryIn id key = (t.overlay.get? key).getD (l.entryUnder id t.parent key) := by
  rw [entryIn, found]
  dsimp only
  cases noted : t.overlay.get? key with
  | some e => rfl
  | none =>
    cases below : t.parent with
    | none => rfl
    | some parent => rfl

theorem entryIn_of_none (missing : l.transactions[id]? = none) : l.entryIn id key = l.entry key := by
  rw [entryIn, missing]

/-! ## Entries that agree -/

/-- Two entries agree on what has been produced and on what is being produced. -/
structure Alike (e f : Entry) : Prop where
  inFlight : f = .inFlight ↔ e = .inFlight
  committed : ∀ declarations, f = .committed declarations ↔ e = .committed declarations

theorem Alike.refl (e : Entry) : Alike e e := ⟨Iff.rfl, fun _ => Iff.rfl⟩

/-- The durable entries agree where the durable declarations do. -/
theorem entry_alike (same : m.committed = l.committed) (key : EntityKey) :
    Alike (l.entry key) (m.entry key) := by
  unfold entry
  rw [same]
  cases l.committed.get? key with
  | some declarations => exact .refl _
  | none => cases l.failures.get? key <;> cases m.failures.get? key <;> simp [Alike.mk]

/-- What a transaction notes, and over which one it lies. -/
def overlayOf (l : Ledger) (id : TransactionId) : Option (Option TransactionId × Table EntityKey Entry) :=
  l.transactions[id]?.map fun t => (t.parent, t.overlay)

/-- What a transaction knows changes no more than the durable record when nothing changes in it and
    below it. -/
theorem entryIn_related {related : Entry → Entry → Prop} (refl : ∀ e, related e e)
    (durable : ∀ key, related (l.entry key) (m.entry key))
    (same : ∀ i, i ≤ id → m.overlayOf i = l.overlayOf i) (key : EntityKey) :
    related (l.entryIn id key) (m.entryIn id key) := by
  induction id using Nat.strongRecOn with
  | _ id ih =>
    have here := same id (Nat.le_refl id)
    cases found : l.transactions[id]? with
    | none =>
      have missing : m.transactions[id]? = none := by simpa [overlayOf, found] using here
      rw [entryIn_of_none found, entryIn_of_none missing]
      exact durable key
    | some t =>
      obtain ⟨u, foundM, parent, overlay⟩ :
          ∃ u, m.transactions[id]? = some u ∧ u.parent = t.parent ∧ u.overlay = t.overlay := by
        simpa [overlayOf, found] using here
      rw [entryIn_eq found, entryIn_eq foundM, overlay, parent]
      cases t.overlay.get? key with
      | some e => exact refl e
      | none =>
        cases t.parent with
        | none => exact durable key
        | some below =>
          simp only [Option.getD_none, entryUnder]
          split
          · next lower => exact ih below lower fun i low => same i (Nat.le_trans low (Nat.le_of_lt lower))
          · exact durable key

/-- What a transaction knows stays as it is when nothing changes in it, below it and durably. -/
theorem entryIn_same (committed : m.committed = l.committed) (failures : m.failures = l.failures)
    (same : ∀ i, i ≤ id → m.overlayOf i = l.overlayOf i) (key : EntityKey) :
    m.entryIn id key = l.entryIn id key := by
  refine entryIn_related (m := l) (l := m) (fun _ => rfl) (fun key => ?_)
    (fun i low => (same i low).symm) key
  unfold entry
  rw [committed, failures]

/-- What lies below a transaction knows the same when only the transaction itself changes. -/
theorem entryUnder_same (committed : m.committed = l.committed) (failures : m.failures = l.failures)
    (same : ∀ i, i < id → m.overlayOf i = l.overlayOf i) (parent : Option TransactionId)
    (key : EntityKey) : m.entryUnder id parent key = l.entryUnder id parent key := by
  have durable : m.entry key = l.entry key := by
    unfold entry
    rw [committed, failures]
  cases parent with
  | none => exact durable
  | some below =>
    simp only [entryUnder]
    split
    · next lower =>
      exact entryIn_same committed failures (fun i low => same i (Nat.lt_of_le_of_lt low lower)) key
    · exact durable

/-! ## Steps -/

theorem getElem?_change (l : Ledger) (id : TransactionId) (f : Transaction → Transaction) :
    (l.change id f).transactions[id]? = l.transactions[id]?.map f := by
  simp [change, Array.getElem?_modify]

theorem change_id (l : Ledger) (id : TransactionId) : l.change id (fun t => t) = l := by
  have same : l.transactions.modify id (fun t => t) = l.transactions := by
    refine Array.ext_getElem? fun i => ?_
    rw [Array.getElem?_modify]
    split <;> simp
  rw [change, same]

theorem change_change (l : Ledger) (id : TransactionId) (f g : Transaction → Transaction) :
    (l.change id f).change id g = l.change id (g ∘ f) := by
  have same : (l.transactions.modify id f).modify id g = l.transactions.modify id (g ∘ f) := by
    refine Array.ext_getElem? fun i => ?_
    simp only [Array.getElem?_modify]
    split <;> simp
  rw [change, change, change]
  exact congrArg _ same

theorem overlayOf_change_of_ne (l : Ledger) {id other : TransactionId} (f : Transaction → Transaction)
    (different : id ≠ other) : (l.change id f).overlayOf other = l.overlayOf other := by
  simp [overlayOf, change, Array.getElem?_modify, different]

/-- A transaction whose overlay changes looks into the new overlay. -/
theorem entryIn_change (found : l.transactions[id]? = some t) {f : Transaction → Transaction}
    (parent : (f t).parent = t.parent) :
    (l.change id f).entryIn id key = ((f t).overlay.get? key).getD (l.entryUnder id t.parent key) := by
  have changed : (l.change id f).transactions[id]? = some (f t) := by
    simp [change, Array.getElem?_modify, found]
  have under : (l.change id f).entryUnder id t.parent key = l.entryUnder id t.parent key :=
    entryUnder_same (l := l) (m := l.change id f) rfl rfl
      (fun i lower => overlayOf_change_of_ne l f (Nat.ne_of_gt lower)) _ key
  rw [entryIn_eq changed, parent, under]

/-- An entry that a transaction writes into its overlay is what it knows from then on. -/
theorem entryIn_note (found : l.transactions[id]? = some t) {f : Transaction → Transaction}
    (parent : (f t).parent = t.parent) {written : EntityKey} {e : Entry}
    (overlay : (f t).overlay = t.overlay.put written e) :
    (l.change id f).entryIn id key = if written = key then e else l.entryIn id key := by
  rw [entryIn_change found parent, overlay, Table.get?_put, entryIn_eq found]
  split <;> rfl

/-- A new savepoint knows what the transaction below it knows. -/
theorem entryIn_savepoint (there : id < l.transactions.size) :
    entryIn { l with transactions := l.transactions.push { parent := some id } } l.transactions.size
      key = l.entryIn id key := by
  rw [entryIn_eq (t := { parent := some id }) (by simp)]
  simp only [Table.get?_empty, Option.getD_none, entryUnder, there, if_true]
  refine entryIn_same (l := l)
    (m := { l with transactions := l.transactions.push { parent := some id } }) rfl rfl
    (fun i low => ?_) key
  have old : i ≠ l.transactions.size := Nat.ne_of_lt (Nat.lt_of_le_of_lt low there)
  simp [overlayOf, Array.getElem?_push, old]

end Bindings.Ledger
