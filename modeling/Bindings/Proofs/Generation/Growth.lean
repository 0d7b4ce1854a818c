import Bindings.Generation.Session
import Bindings.Proofs.Table

/-!
# How states grow

What a computation inside a request leaves as it was. When it fails, what its own transaction
holds does not count any more, but everything else is kept (`Keeps`). When it succeeds, what was
known of an entity is kept too (`Extends`).
-/

namespace Bindings

/-! ## What a state knows -/

/-- Whether an entity has been produced or is being produced. -/
def Entry.isKnown : Entry → Bool
  | committed _ | inFlight => true
  | notStarted | failed _ => false

namespace State

/-- What is known of an entity in the current transaction, or durably when there is none. -/
def entry (s : State) (key : EntityKey) : Entry :=
  match s.current with
  | some id => s.ledger.entryIn id key
  | none => s.ledger.entry key

/-- An entity has been produced or is being produced. -/
def Knows (s : State) (key : EntityKey) : Prop := (s.entry key).isKnown = true

/-- The entities that the current transaction completed. -/
def pending (s : State) : List Completion :=
  match s.current with
  | some id => s.ledger.pendingOf id
  | none => []

/-- The parent of a transaction and whether it is closed. -/
def standing (s : State) (id : TransactionId) : Option (Option TransactionId × Bool) :=
  s.ledger.transactions[id]?.map fun t => (t.parent, t.closed)

/-- The answer that is remembered on whether an interface conforms. -/
def Conforms (s : State) (t : Metadata.TypeDefinition) (answer : Bool) : Prop :=
  s.conformance.get? t.full = some answer

/-- The verdict that is remembered on whether a type needs marshaling. -/
def Judges (s : State) (t : Metadata.TypeDefinition) (verdict : Bool) : Prop :=
  s.analysis.verdicts.get? (true, t.full) = some verdict

/-- No type is under analysis. -/
structure Calm (s : State) : Prop where
  visiting : s.analysis.visiting = []
  provisional : s.analysis.provisional = []
  dependents : s.analysis.dependents = {}

theorem Calm.alike {s t : State} (calm : s.Calm) (same : t.analysis = s.analysis) : t.Calm := by
  obtain ⟨visiting, provisional, dependents⟩ := calm
  rw [← same] at visiting provisional dependents
  exact ⟨visiting, provisional, dependents⟩

end State

/-! ## Keeping -/

/-- All is as it was but for the content of the current transaction, further failures, further
    transactions that are closed, and further answers that are remembered. -/
structure Keeps (s t : State) : Prop where
  current : t.current = s.current
  active : t.ledger.active = s.ledger.active
  committed : t.ledger.committed = s.ledger.committed
  failures : s.ledger.failures.entries <+: t.ledger.failures.entries
  size : s.ledger.transactions.size ≤ t.ledger.transactions.size
  others : ∀ id, id < s.ledger.transactions.size → s.current ≠ some id →
    t.ledger.transactions[id]? = s.ledger.transactions[id]?
  standing : ∀ id, id < s.ledger.transactions.size → t.standing id = s.standing id
  closed : ∀ id x, s.ledger.transactions.size ≤ id → t.ledger.transactions[id]? = some x →
    x.closed = true
  expanding : t.expanding = s.expanding
  conforms : ∀ d answer, s.Conforms d answer → t.Conforms d answer
  judges : ∀ d verdict, s.Judges d verdict → t.Judges d verdict
  unasked : ∀ name, t.analysis.verdicts.get? (false, name) = s.analysis.verdicts.get? (false, name)

variable {s t u : State}

theorem Keeps.refl (s : State) : Keeps s s where
  current := rfl
  active := rfl
  committed := rfl
  failures := List.prefix_refl _
  size := Nat.le_refl _
  others _ _ _ := rfl
  standing _ _ := rfl
  closed id x beyond found := by
    rw [Array.getElem?_eq_none beyond] at found
    cases found
  expanding := rfl
  conforms _ _ h := h
  judges _ _ h := h
  unasked _ := rfl

theorem Keeps.trans (first : Keeps s t) (second : Keeps t u) : Keeps s u where
  current := second.current.trans first.current
  active := second.active.trans first.active
  committed := second.committed.trans first.committed
  failures := first.failures.trans second.failures
  size := Nat.le_trans first.size second.size
  others id there other :=
    (second.others id (Nat.lt_of_lt_of_le there first.size) (first.current ▸ other)).trans
      (first.others id there other)
  standing id there :=
    (second.standing id (Nat.lt_of_lt_of_le there first.size)).trans (first.standing id there)
  closed id x beyond found := by
    by_cases there : id < t.ledger.transactions.size
    · have same := second.standing id there
      obtain ⟨y, before⟩ : ∃ y, t.ledger.transactions[id]? = some y :=
        ⟨_, Array.getElem?_eq_getElem there⟩
      simp only [State.standing, found, before, Option.map_some, Option.some.injEq,
        Prod.mk.injEq] at same
      rw [same.2]
      exact first.closed id y beyond before
    · exact second.closed id x (Nat.le_of_not_lt there) found
  expanding := second.expanding.trans first.expanding
  conforms d answer h := second.conforms d answer (first.conforms d answer h)
  judges d verdict h := second.judges d verdict (first.judges d verdict h)
  unasked name := (second.unasked name).trans (first.unasked name)

/-! ## Extending -/

/-- What is known and what is remembered stays so. -/
structure Carries (s t : State) : Prop where
  knows : ∀ key, s.Knows key → t.Knows key
  conforms : ∀ d answer, s.Conforms d answer → t.Conforms d answer
  judges : ∀ d verdict, s.Judges d verdict → t.Judges d verdict

/-- What is carried is known later. -/
instance : CoeFun (Carries s t) fun _ => ∀ key, s.Knows key → t.Knows key := ⟨Carries.knows⟩

theorem Carries.refl (s : State) : Carries s s where
  knows _ h := h
  conforms _ _ h := h
  judges _ _ h := h

theorem Carries.trans (first : Carries s t) (second : Carries t u) : Carries s u where
  knows key h := second.knows key (first.knows key h)
  conforms d answer h := second.conforms d answer (first.conforms d answer h)
  judges d verdict h := second.judges d verdict (first.judges d verdict h)

/-- What was produced or being produced still is; nothing else is being produced. -/
structure Extends (s t : State) : Prop extends Keeps s t where
  inFlight : ∀ key, t.entry key = .inFlight ↔ s.entry key = .inFlight
  produced : ∀ key declarations, s.entry key = .committed declarations →
    t.entry key = .committed declarations

theorem Extends.refl (s : State) : Extends s s where
  toKeeps := .refl s
  inFlight _ := Iff.rfl
  produced _ _ h := h

theorem Extends.trans (first : Extends s t) (second : Extends t u) : Extends s u where
  toKeeps := first.toKeeps.trans second.toKeeps
  inFlight key := (second.inFlight key).trans (first.inFlight key)
  produced key declarations h := second.produced key declarations (first.produced key declarations h)

theorem State.knows_iff (s : State) (key : EntityKey) :
    s.Knows key ↔ s.entry key = .inFlight ∨ ∃ declarations, s.entry key = .committed declarations := by
  unfold Knows
  cases s.entry key <;> simp [Entry.isKnown]

theorem Extends.carries (growth : Extends s t) : Carries s t where
  knows key known := by
    rcases (s.knows_iff key).mp known with flying | ⟨declarations, produced⟩
    · exact (t.knows_iff key).mpr (.inl ((growth.inFlight key).mpr flying))
    · exact (t.knows_iff key).mpr (.inr ⟨declarations, growth.produced key declarations produced⟩)
  conforms := growth.conforms
  judges := growth.judges

/-! ## Changes outside of the ledger -/

/-- A change that leaves the ledger as it is, and only adds to what is remembered. -/
theorem Extends.of_memory (current : t.current = s.current) (ledger : t.ledger = s.ledger)
    (expanding : t.expanding = s.expanding)
    (conforms : ∀ d answer, s.Conforms d answer → t.Conforms d answer)
    (judges : ∀ d verdict, s.Judges d verdict → t.Judges d verdict)
    (unasked : ∀ name,
      t.analysis.verdicts.get? (false, name) = s.analysis.verdicts.get? (false, name)) :
    Extends s t := by
  have entry : ∀ key, t.entry key = s.entry key := by
    intro key
    simp only [State.entry, current, ledger]
  exact {
    current, expanding, conforms, judges, unasked
    active := by rw [ledger]
    committed := by rw [ledger]
    failures := ledger ▸ List.prefix_refl _
    size := ledger ▸ Nat.le_refl _
    others := fun _ _ _ => by rw [ledger]
    standing := fun _ _ => by rw [State.standing, State.standing, ledger]
    closed := fun id x beyond found => by
      rw [ledger, Array.getElem?_eq_none beyond] at found
      cases found
    inFlight := fun key => by rw [entry]
    produced := fun key declarations h => (entry key).trans h }

end Bindings
