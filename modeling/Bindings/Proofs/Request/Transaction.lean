import Bindings.Proofs.Request.Savepoint

/-!
# Outermost transactions

Between requests a state is at rest. A transaction that is run from there ends at rest again:
with a durable record that has only grown if it is committed, and with the same one if it is
rolled back.
-/

namespace Bindings

variable {env : Environment} {D : Discipline env} {α : Type} {s t u : State}

/-! ## Rest -/

/-- No transaction is open, and nothing is being expanded or analysed. -/
structure State.AtRest (s : State) : Prop where
  current : s.current = none
  active : s.ledger.active = none
  closed : ∀ (id : Nat) x, s.ledger.transactions[id]? = some x → x.closed = true
  expanding : s.expanding = []
  calm : s.Calm

/-- A new session is at rest. -/
theorem State.AtRest.empty : State.AtRest {} where
  current := rfl
  active := rfl
  closed id x found := by simp at found
  expanding := rfl
  calm := ⟨rfl, rfl, rfl⟩

/-- At rest nothing is being produced. -/
theorem State.AtRest.not_inFlight (rest : s.AtRest) (key : EntityKey) : s.entry key ≠ .inFlight := by
  simp only [State.entry, rest.current, Ledger.entry]
  cases s.ledger.committed.get? key with
  | some declarations => exact Entry.noConfusion
  | none => cases s.ledger.failures.get? key <;> exact Entry.noConfusion

/-- At rest what has been produced is durable. -/
theorem State.AtRest.produced_iff (rest : s.AtRest) (key : EntityKey) (declarations : List Declaration) :
    s.entry key = .committed declarations ↔ s.ledger.committed.get? key = some declarations := by
  simp only [State.entry, rest.current, Ledger.entry]
  cases s.ledger.committed.get? key with
  | some other => simp
  | none => cases s.ledger.failures.get? key <;> simp

theorem State.AtRest.knows_iff (rest : s.AtRest) (key : EntityKey) :
    s.Knows key ↔ ∃ declarations, s.ledger.committed.get? key = some declarations := by
  simp [State.knows_iff, rest.not_inFlight, rest.produced_iff]

/-! ## Advancing -/

namespace Discipline

/-- From one state to a state at rest nothing durable is lost, and what is new is accounted for. -/
structure Advances (D : Discipline env) (s t : State) : Prop where
  rest : t.AtRest
  safe : D.Safe t
  committed : s.ledger.committed.entries <+: t.ledger.committed.entries
  failures : s.ledger.failures.entries <+: t.ledger.failures.entries
  conforms : ∀ d answer, s.Conforms d answer → t.Conforms d answer
  judges : ∀ d verdict, s.Judges d verdict → t.Judges d verdict
  unasked : ∀ name, t.analysis.verdicts.get? (false, name) = s.analysis.verdicts.get? (false, name)
  added : ∀ c ∈ t.ledger.committed.entries, c ∈ s.ledger.committed.entries ∨ D.Accounts t c

theorem Advances.carries (rest : s.AtRest) (advances : D.Advances s t) : Carries s t where
  knows key known := by
    obtain ⟨declarations, found⟩ := (rest.knows_iff key).mp known
    exact (advances.rest.knows_iff key).mpr ⟨declarations, Table.get?_of_prefix advances.committed found⟩
  conforms := advances.conforms
  judges := advances.judges

theorem Advances.refl (rest : s.AtRest) (safe : D.Safe s) : D.Advances s s where
  rest := rest
  safe := safe
  committed := List.prefix_refl _
  failures := List.prefix_refl _
  conforms _ _ h := h
  judges _ _ h := h
  unasked _ := rfl
  added _ := .inl

theorem Advances.trans (first : D.Advances s t) (second : D.Advances t u) : D.Advances s u where
  rest := second.rest
  safe := second.safe
  committed := first.committed.trans second.committed
  failures := first.failures.trans second.failures
  conforms d answer h := second.conforms d answer (first.conforms d answer h)
  judges d verdict h := second.judges d verdict (first.judges d verdict h)
  unasked name := (second.unasked name).trans (first.unasked name)
  added c member := by
    rcases second.added c member with old | new
    · exact (first.added c old).imp_right fun accounted => accounted.carries (second.carries first.rest)
    · exact .inr new

/-- A computation leads from rest to rest. If it fails, the durable record is as it was. -/
structure Turns (D : Discipline env) (s : State) (x : Gen α) : Prop where
  leads : Gen.Leads env s x (fun _ t => D.Advances s t)
    fun t => D.Advances s t ∧ t.ledger.committed = s.ledger.committed

end Discipline

/-! ## One transaction -/

/-- A state after an outermost transaction has been opened. -/
def State.begun (s : State) : State :=
  { s with
    ledger := { s.ledger with
      active := some s.ledger.transactions.size
      transactions := s.ledger.transactions.push {} }
    current := some s.ledger.transactions.size }

theorem begun_entry (rest : s.AtRest) (key : EntityKey) : s.begun.entry key = s.entry key := by
  simp only [State.entry, State.begun, rest.current]
  rw [Ledger.entryIn_eq (t := {}) (by simp)]
  rfl

/-- A state is sound in an outermost transaction that has just been opened. -/
theorem Discipline.Safe.begun (safe : D.Safe s) : D.Sound s.begun :=
  safe.opened fun x found => by
    simp only [Array.getElem?_push, if_true, Option.some.injEq] at found
    rw [← found]

/-- What an outermost transaction looks like after the computation in it. -/
theorem Keeps.outermost (kept : Keeps s.begun t) :
    ∃ x, t.ledger.transactions[s.ledger.transactions.size]? = some x ∧ x.parent = none ∧
      x.closed = false := by
  have standing := kept.standing s.ledger.transactions.size (by simp [State.begun])
  simpa [State.standing, State.begun, and_assoc] using standing

/-- After an outermost transaction has been closed the state is at rest. -/
theorem Keeps.atRest (rest : s.AtRest) (kept : Keeps s.begun t) (calm : t.Calm) {l : Ledger}
    (active : l.active = none) (shuts : t.ledger.Shuts s.ledger.transactions.size none l) :
    State.AtRest { t with ledger := l, current := none } where
  current := rfl
  active := active
  closed id x found := by
    rcases Nat.lt_trichotomy id s.ledger.transactions.size with old | rfl | beyond
    · have apart : id ≠ s.ledger.transactions.size := Nat.ne_of_lt old
      have same := kept.standing id (by simp [State.begun]; omega)
      rw [show State.standing s.begun id = s.standing id by
        simp [State.standing, State.begun, Array.getElem?_push, apart]] at same
      have foundT : t.ledger.transactions[id]? = some x := (shuts.untouched apart).symm.trans found
      obtain ⟨y, foundS⟩ : ∃ y, s.ledger.transactions[id]? = some y :=
        ⟨_, Array.getElem?_eq_getElem old⟩
      simp only [State.standing, foundT, foundS, Option.map_some, Option.some.injEq,
        Prod.mk.injEq] at same
      rw [same.2]
      exact rest.closed id y foundS
    · exact shuts.closed x found
    · have foundT := (shuts.untouched (Nat.ne_of_gt beyond)).symm.trans found
      exact kept.closed id x (by simp [State.begun]; omega) foundT
  expanding := kept.expanding.trans rest.expanding
  calm := calm.alike rfl

/-- The durable record that an outermost transaction leaves when it is committed knows what the
    transaction knew. -/
theorem Discipline.Grows.carries_commit (rest : s.AtRest) (grown : D.Grows s.begun t) {l : Ledger}
    (rested : State.AtRest { t with ledger := l, current := none })
    (durable : l.committed = t.pending.foldl (fun table e => table.putNew e.1 e.2) s.ledger.committed) :
    Carries t { t with ledger := l, current := none } := by
  refine ⟨fun key known => (rested.knows_iff key).mpr ?_, fun _ _ h => h, fun _ _ h => h⟩
  obtain ⟨more, pending, _, new⟩ := grown.added
  simp only [durable, Table.get?_foldl_putNew]
  rcases (t.knows_iff key).mp known with flying | ⟨ds, produced⟩
  · rw [grown.inFlight, begun_entry rest] at flying
    exact absurd flying (rest.not_inFlight key)
  · rcases new key ds produced with old | late
    · rw [begun_entry rest, rest.produced_iff] at old
      exact ⟨ds, by rw [old]; rfl⟩
    · have held : Table.lookupIn key t.pending ≠ none := by
        intro missing
        rw [Table.lookupIn_eq_none_iff, pending] at missing
        exact missing (List.mem_map_of_mem (f := (·.1)) (List.mem_append_right _ late))
      obtain ⟨first, found⟩ := Option.ne_none_iff_exists'.mp held
      cases before : s.ledger.committed.get? key with
      | none => exact ⟨first, by rw [found]; rfl⟩
      | some other => exact ⟨other, rfl⟩

/-- An outermost transaction that is committed makes durable what has been produced in it. -/
theorem Discipline.Grows.commit (rest : s.AtRest) (sound : D.Sound t) (grown : D.Grows s.begun t) :
    ∃ l, t.ledger.commit s.ledger.transactions.size = .ok l ∧
      D.Advances s { t with ledger := l, current := none } := by
  obtain ⟨x, found, parent, opened⟩ := grown.toKeeps.outermost
  have currentT : t.current = some s.ledger.transactions.size := grown.current
  obtain ⟨l, committed, shuts, active, durable⟩ :=
    Ledger.commit_outermost found opened parent grown.active
  have rested := grown.toKeeps.atRest rest sound.calm active shuts
  have held : t.pending = x.pending := by simp [State.pending, currentT, Ledger.pendingOf, found]
  rw [grown.committed, ← held] at durable
  have later := grown.carries_commit rest rested durable
  refine ⟨l, committed, {
    rest := rested
    safe := sound.toSafe.moved l none
    committed := by
      simp only [durable]
      exact Table.prefix_foldl_putNew _ _
    failures := by
      simp only [shuts.failures]
      exact grown.failures
    conforms := grown.conforms
    judges := grown.judges
    unasked := grown.unasked
    added := fun c member => ?_ }⟩
  simp only [durable] at member
  obtain ⟨more, pending, accounted, _⟩ := grown.added
  have fresh : t.pending = more := by
    rw [pending]
    simp [State.pending, State.begun, Ledger.pendingOf]
  rcases Table.mem_foldl_putNew member with old | late
  · exact .inl old
  · exact .inr ((accounted c (fresh ▸ late)).carries later)

/-- An outermost transaction that is rolled back leaves the durable record as it was. -/
theorem Keeps.rollback (rest : s.AtRest) (safe : D.Safe t) (kept : Keeps s.begun t) :
    D.Advances s
        { t with ledger := t.ledger.rollback s.ledger.transactions.size, current := none } ∧
      (t.ledger.rollback s.ledger.transactions.size).committed = s.ledger.committed := by
  obtain ⟨x, found, parent, opened⟩ := kept.outermost
  obtain ⟨shuts, active, same⟩ := Ledger.rollback_outermost found opened parent kept.active
  have committed : _ = s.ledger.committed := same.trans kept.committed
  refine ⟨{
    rest := kept.atRest rest safe.calm active shuts
    safe := safe.moved _ none
    committed := committed.symm ▸ List.prefix_refl _
    failures := by
      simp only [shuts.failures]
      exact kept.failures
    conforms := kept.conforms
    judges := kept.judges
    unasked := kept.unasked
    added := fun c member => .inl (committed ▸ member) }, committed⟩

/-- A computation in a transaction of its own leads from rest to rest. -/
theorem inTransaction_turns (rest : s.AtRest) (safe : D.Safe s) {body : Gen α}
    (ends : D.Sound s.begun → D.Ends s.begun body fun _ _ => True) :
    D.Turns s (inTransaction body) := by
  unfold inTransaction
  refine ⟨Gen.Leads.get ?_⟩
  simp only [rest.current]
  refine .bind (Q := fun id u => id = s.ledger.transactions.size ∧
    { u with current := some s.ledger.transactions.size } = s.begun)
    (.onLedger (fun id l made => ?_) ⟨.refl rest safe, rfl⟩) ?_
  · unfold Ledger.begin at made
    rw [rest.active] at made
    obtain ⟨rfl, ledger⟩ := Prod.mk.inj (Except.ok.inj made)
    exact ⟨rfl, by rw [← ledger]; rfl⟩
  · rintro _ u ⟨rfl, begun⟩
    have runs : D.Ends { u with current := some s.ledger.transactions.size } body fun _ _ => True := by
      rw [begun]
      exact ends safe.begun
    refine runIn_leads runs ?_ ?_
    · rintro _ t ⟨soundT, grown, _⟩
      rw [begun] at grown
      exact grown.commit rest soundT
    · rintro t ⟨safe, kept⟩
      rw [begun] at kept
      exact kept.rollback rest safe

end Bindings
