import Bindings.Proofs.Generation.Production
import Bindings.Proofs.Ledger.Closing
import Bindings.Request.Run

/-!
# Savepoints

A savepoint leaves the transaction below it grown if it is committed, and as it was but for
failures if it is rolled back.
-/

namespace Bindings

variable {env : Environment} {D : Discipline env} {α : Type} {s t u : State}

/-! ## Closing -/

/-- Running a computation in a transaction closes the transaction. -/
theorem runIn_leads {id : TransactionId} {outer : Option TransactionId} {body : Gen α}
    {ok final : α → State → Prop} {failed lost : State → Prop}
    (runs : Gen.Leads env { s with current := some id } body ok failed)
    (commits : ∀ a t, ok a t →
      ∃ l, t.ledger.commit id = .ok l ∧ final a { t with ledger := l, current := outer })
    (rolls : ∀ t, failed t → lost { t with ledger := t.ledger.rollback id, current := outer }) :
    Gen.Leads env s (runIn id outer body) final lost := by
  unfold runIn
  refine .modify (.attempt (runs.imp (fun a t holds => ?_) fun t holds e => rolls t holds))
  obtain ⟨l, committed, good⟩ := commits a t holds
  refine .bind (Q := fun _ u => final a u) (.ensuring ?_) fun _ u good => good
  rw [Gen.Leads, Gen.stepLedger_eq, committed]
  exact good

/-! ## Savepoints -/

/-- A state after a savepoint has been opened over a transaction. -/
def State.split (s : State) (outer : TransactionId) : State :=
  { s with
    ledger := { s.ledger with transactions := s.ledger.transactions.push { parent := some outer } }
    current := some s.ledger.transactions.size }

/-- What a savepoint looks like after the computation in it. -/
theorem Keeps.savepoint {outer : TransactionId} (kept : Keeps (s.split outer) t) :
    ∃ x, t.ledger.transactions[s.ledger.transactions.size]? = some x ∧ x.parent = some outer ∧
      x.closed = false := by
  have standing := kept.standing s.ledger.transactions.size (by simp [State.split])
  simpa [State.standing, State.split, and_assoc] using standing

/-- The transaction below a savepoint is as it was before. -/
theorem Keeps.below {outer : TransactionId} (there : outer < s.ledger.transactions.size)
    (kept : Keeps (s.split outer) t) :
    t.ledger.transactions[outer]? = s.ledger.transactions[outer]? := by
  have apart : outer ≠ s.ledger.transactions.size := Nat.ne_of_lt there
  have early : outer < (s.split outer).ledger.transactions.size := by
    simpa [State.split] using Nat.lt_succ_of_lt there
  rw [kept.others outer early (by simp [State.split, Ne.symm apart])]
  simp [State.split, Array.getElem?_push, apart]

/-- Leaving a savepoint keeps all but the content of the transaction below it. -/
theorem Keeps.leave {outer : TransactionId} (current : s.current = some outer)
    (there : outer < s.ledger.transactions.size) (kept : Keeps (s.split outer) t) {l : Ledger}
    (shuts : t.ledger.Shuts s.ledger.transactions.size (some outer) l)
    (active : l.active = t.ledger.active) (committed : l.committed = t.ledger.committed)
    (standing : State.standing { t with ledger := l } outer = t.standing outer) :
    Keeps s { t with ledger := l, current := some outer } where
  current := current.symm
  active := active.trans kept.active
  committed := committed.trans kept.committed
  failures := shuts.failures ▸ kept.failures
  size := by
    have grown := kept.size
    simp only [State.split, Array.size_push] at grown
    simp only [shuts.size]
    omega
  others id old different := by
    have older : id ≠ s.ledger.transactions.size := Nat.ne_of_lt old
    refine (shuts.others id older fun same => different (current.trans same)).trans ?_
    rw [kept.others id (by simp [State.split]; omega) (by simp [State.split, Ne.symm older])]
    simp [State.split, Array.getElem?_push, older]
  standing id old := by
    have older : id ≠ s.ledger.transactions.size := Nat.ne_of_lt old
    have before : t.standing id = s.standing id := by
      rw [kept.standing id (by simp [State.split]; omega)]
      simp [State.standing, State.split, Array.getElem?_push, older]
    by_cases same : id = outer
    · subst same
      exact standing.trans before
    · rw [← before, State.standing, State.standing]
      exact congrArg (Option.map _) (shuts.others id older fun h => same (Option.some.inj h).symm)
  closed id x beyond found := by
    by_cases new : id = s.ledger.transactions.size
    · subst new
      exact shuts.closed x found
    · have apart : outer ≠ id := Nat.ne_of_lt (Nat.lt_of_lt_of_le there beyond)
      have later := shuts.others id new fun same => apart (Option.some.inj same)
      exact kept.closed id x (by simp [State.split]; omega) (later.symm.trans found)
  expanding := kept.expanding
  conforms := kept.conforms
  judges := kept.judges
  unasked := kept.unasked

/-- A state is sound in a transaction that has just been opened. -/
theorem Discipline.Safe.opened (safe : D.Safe s) {l : Ledger} {id : TransactionId}
    (fresh : ∀ x, l.transactions[id]? = some x → x.overlay = {}) :
    D.Sound { s with ledger := l, current := some id } := by
  refine ⟨safe.moved l (some id), fun other x is found => ?_⟩
  obtain rfl := Option.some.inj is
  rw [fresh x found]
  exact List.nodup_nil

/-- A state is sound in a savepoint that has just been opened. -/
theorem Discipline.Safe.split (safe : D.Safe s) (outer : TransactionId) : D.Sound (s.split outer) :=
  safe.opened fun x found => by
    simp only [Array.getElem?_push, if_true, Option.some.injEq] at found
    rw [← found]

theorem split_entry {outer : TransactionId} (current : s.current = some outer)
    (there : outer < s.ledger.transactions.size) (key : EntityKey) :
    (s.split outer).entry key = s.entry key := by
  simp only [State.entry, State.split, current]
  exact Ledger.entryIn_savepoint there

/-- What a savepoint added belongs to the transaction below it once the savepoint is committed. -/
theorem Discipline.Grows.fold {outer : TransactionId} (current : s.current = some outer)
    (there : outer < s.ledger.transactions.size) (before : D.Sound s) (sound : D.Sound t)
    (grown : D.Grows (s.split outer) t) {l : Ledger}
    (folds : t.ledger.Folds s.ledger.transactions.size outer l) :
    D.Sound { t with ledger := l, current := some outer } ∧
      D.Grows s { t with ledger := l, current := some outer } := by
  obtain ⟨x, found, parent, _⟩ := grown.toKeeps.savepoint
  obtain ⟨p, foundS⟩ : ∃ p, s.ledger.transactions[outer]? = some p :=
    ⟨_, Array.getElem?_eq_getElem there⟩
  have foundP : t.ledger.transactions[outer]? = some p := (grown.toKeeps.below there).trans foundS
  have currentT : t.current = some s.ledger.transactions.size := grown.current
  have atOuter := folds.below x p found foundP
  have kept : Keeps s { t with ledger := l, current := some outer } := by
    refine .leave current there grown.toKeeps folds.toShuts folds.active folds.committed ?_
    simp [State.standing, atOuter, foundP, Transaction.absorb]
  have entry : ∀ key, State.entry { t with ledger := l, current := some outer } key = t.entry key := by
    intro key
    simp only [State.entry, currentT]
    exact folds.entryIn there found parent foundP (sound.distinct _ x currentT found) key
  have entryS : ∀ key, (s.split outer).entry key = s.entry key := split_entry current there
  have later : Carries t { t with ledger := l, current := some outer } :=
    ⟨fun key known => by rwa [State.Knows, entry], fun _ _ h => h, fun _ _ h => h⟩
  refine ⟨⟨sound.toSafe.moved l (some outer), fun i y at_i foundY => ?_⟩,
    ⟨kept, fun key => ?_, fun key ds produced => ?_⟩, ?_⟩
  · obtain rfl := Option.some.inj at_i
    obtain rfl := Option.some.inj (atOuter.symm.trans foundY)
    exact Table.nodup_update _ _ (before.distinct outer p current foundS)
  · rw [entry, grown.inFlight, entryS]
  · rw [entry]
    exact grown.produced key ds ((entryS key).trans produced)
  · obtain ⟨more, pending, accounted, new⟩ := grown.added
    refine ⟨more, ?_, fun c member => (accounted c member).carries later, fun key ds produced => ?_⟩
    · have ofX : x.pending = more := by
        have held : t.pending = x.pending := by
          simp [State.pending, currentT, Ledger.pendingOf, found]
        rw [← held, pending]
        simp [State.pending, State.split, Ledger.pendingOf]
      simp [State.pending, current, Ledger.pendingOf, atOuter, foundS, ofX, Transaction.absorb]
    · rw [entry] at produced
      exact (new key ds produced).imp_left fun old => (entryS key).symm.trans old

/-- A savepoint that is rolled back leaves nothing behind but failures. -/
theorem Keeps.unfold {outer : TransactionId} (current : s.current = some outer)
    (there : outer < s.ledger.transactions.size) (before : D.Sound s) (safe : D.Safe t)
    (kept : Keeps (s.split outer) t) {l : Ledger}
    (shuts : t.ledger.Shuts s.ledger.transactions.size none l)
    (active : l.active = t.ledger.active) (committed : l.committed = t.ledger.committed) :
    D.Sound { t with ledger := l, current := some outer } ∧
      D.Grows s { t with ledger := l, current := some outer } := by
  have below := kept.below there
  have atOuter : l.transactions[outer]? = s.ledger.transactions[outer]? :=
    (shuts.untouched (Nat.ne_of_lt there)).trans below
  have left : Keeps s { t with ledger := l, current := some outer } := by
    refine .leave current there kept (shuts.weaken _) active committed ?_
    simp [State.standing, atOuter, below]
  have overlays : ∀ i, i ≤ outer → l.overlayOf i = s.ledger.overlayOf i := by
    intro i low
    by_cases same : i = outer
    · subst same
      rw [Ledger.overlayOf, Ledger.overlayOf, atOuter]
    · have old : i < s.ledger.transactions.size := Nat.lt_of_le_of_lt low there
      have different : s.current ≠ some i := by
        rw [current]
        exact fun h => same (Option.some.inj h).symm
      exact congrArg (Option.map _) (left.others i old different)
  have alike : ∀ key, Ledger.Alike (s.entry key)
      (State.entry { t with ledger := l, current := some outer } key) := by
    intro key
    simp only [State.entry, current]
    exact Ledger.entryIn_related Ledger.Alike.refl (Ledger.entry_alike left.committed) overlays key
  refine ⟨⟨safe.moved l (some outer), fun i y at_i foundY => ?_⟩,
    ⟨left, fun key => (alike key).inFlight, fun key ds => ((alike key).committed ds).mpr⟩,
    [], ?_, by simp, fun key ds produced => .inl (((alike key).committed ds).mp produced)⟩
  · obtain rfl := Option.some.inj at_i
    exact before.distinct outer y current (atOuter.symm.trans foundY)
  · simp [State.pending, current, Ledger.pendingOf, atOuter]

/-- A computation in a savepoint grows the state, also when it fails. -/
theorem inSavepoint_leads (sound : D.Sound s) {body : Gen α}
    (ends : ∀ outer, D.Sound (s.split outer) → D.Ends (s.split outer) body fun _ _ => True) :
    Gen.Leads env s (inSavepoint body) (fun _ t => D.Sound t ∧ D.Grows s t)
      (fun t => D.Sound t ∧ D.Grows s t) := by
  unfold inSavepoint
  refine .bind (Q := fun outer t => s = t ∧ s.current = some outer)
    (currentTransaction_leads (fun outer current => ⟨rfl, current⟩) ⟨sound, .refl s⟩) ?_
  rintro outer _ ⟨rfl, current⟩
  refine .bind (Q := fun id u => s.ledger.savepoint outer = .ok (id, u.ledger) ∧
    u = { s with ledger := u.ledger }) (.onLedger (fun id l made => ⟨made, rfl⟩) ⟨sound, .refl s⟩) ?_
  rintro id u ⟨made, same⟩
  unfold Ledger.savepoint at made
  split at made
  · next opened =>
    obtain ⟨rfl, ledger⟩ := Prod.mk.inj (Except.ok.inj made)
    have there := isOpen_bound opened
    have split : { u with current := some s.ledger.transactions.size } = s.split outer := by
      rw [same, ← ledger]
      rfl
    have runs : D.Ends { u with current := some s.ledger.transactions.size } body fun _ _ => True := by
      rw [split]
      exact ends outer (sound.toSafe.split outer)
    refine runIn_leads runs ?_ ?_
    · rintro _ t ⟨soundT, grown, _⟩
      rw [split] at grown
      obtain ⟨x, found, parent, opened⟩ := grown.toKeeps.savepoint
      obtain ⟨l, committed, folds⟩ := Ledger.commit_savepoint found opened parent (Nat.ne_of_gt there)
      exact ⟨l, committed, grown.fold current there sound soundT folds⟩
    · rintro t ⟨safe, kept⟩
      rw [split] at kept
      obtain ⟨x, found, parent, opened⟩ := kept.savepoint
      obtain ⟨shuts, active, committed⟩ := Ledger.rollback_savepoint found opened parent
      exact kept.unfold current there sound safe shuts active committed
  · cases made

end Bindings
