import Bindings.Proofs.Generation.Comparison
import Bindings.Proofs.Generation.Production

/-!
# What a computation leaves in the ledger

A computation in an open transaction that succeeds has added completions of entities that were
not started, and recorded no failure. One that fails has recorded its failure for each entity
whose production the failure went through, and nothing else; so the production of entities can
be watched from outside without any difference.
-/

namespace Bindings

variable {env : Environment} {α β : Type} {s t u : State} {id : TransactionId}

/-! ## Completions -/

/-- A state has an open transaction as its current one. -/
structure State.In (s : State) (id : TransactionId) : Prop where
  current : s.current = some id
  opened : s.ledger.isOpen id = true

theorem State.In.found (inside : s.In id) :
    ∃ x, s.ledger.transactions[id]? = some x ∧ x.closed = false :=
  (Ledger.isOpen_iff s.ledger id).mp inside.opened

/-- Which delegates are being expanded makes no difference to the current transaction. -/
theorem State.In.expansion (inside : s.In id) (names : List String) :
    State.In { s with expanding := names } id := ⟨inside.current, inside.opened⟩

/-- An open transaction is still the current one, and still open, where all but its content is kept. -/
theorem Keeps.inside (keeps : Keeps s t) (inside : s.In id) : t.In id where
  current := keeps.current.trans inside.current
  opened := by
    obtain ⟨x, found, opened⟩ := inside.found
    have standing := keeps.standing id (isOpen_bound inside.opened)
    obtain ⟨y, foundY, _, closed⟩ : ∃ y, t.ledger.transactions[id]? = some y ∧ y.parent = x.parent ∧
        y.closed = x.closed := by
      simpa [State.standing, found] using standing
    exact (Ledger.isOpen_iff t.ledger id).mpr ⟨y, foundY, closed.trans opened⟩

/-- A change of a transaction that adds completions, and nothing else that is known. -/
structure Adds (more : List Completion) (f : Transaction → Transaction) : Prop where
  parent : ∀ x, (f x).parent = x.parent
  closed : ∀ x, (f x).closed = x.closed
  pending : ∀ x, (f x).pending = x.pending ++ more
  overlay : ∀ x key, (f x).overlay.get? key =
    ((Table.lookupIn key more).map Entry.committed).or (x.overlay.get? key)
  distinct : ∀ x, x.overlay.keys.Nodup → (f x).overlay.keys.Nodup

theorem Adds.nothing : Adds [] fun x => x where
  parent _ := rfl
  closed _ := rfl
  pending x := (List.append_nil x.pending).symm
  overlay _ _ := rfl
  distinct _ h := h

/-- Completions of other entities are added later. -/
theorem Adds.trans {more later : List Completion} {f g : Transaction → Transaction}
    (first : Adds more f) (second : Adds later g)
    (apart : ∀ c ∈ later, Table.lookupIn c.1 more = none) : Adds (more ++ later) (g ∘ f) where
  parent x := (second.parent (f x)).trans (first.parent x)
  closed x := (second.closed (f x)).trans (first.closed x)
  pending x := by rw [Function.comp, second.pending, first.pending, List.append_assoc]
  overlay x key := by
    rw [Function.comp, second.overlay, first.overlay, Table.lookupIn_append]
    cases late : Table.lookupIn key later with
    | none => cases Table.lookupIn key more <;> rfl
    | some declarations =>
      rw [apart _ (Table.mem_of_lookupIn late)]
      rfl
  distinct x h := second.distinct (f x) (first.distinct x h)

/-- A computation has added completions to the current transaction. -/
structure Produces (id : TransactionId) (s t : State) (more : List Completion) : Prop where
  current : t.current = s.current
  ledger : ∃ f, Adds more f ∧ t.ledger = s.ledger.change id f
  fresh : ∀ c ∈ more, s.entry c.1 = .notStarted

theorem Produces.same (current : t.current = s.current) (ledger : t.ledger = s.ledger) :
    Produces id s t [] where
  current := current
  ledger := ⟨_, .nothing, by rw [ledger, Ledger.change_id]⟩
  fresh := by simp

section
variable {more later : List Completion}

theorem Produces.inside (produces : Produces id s t more) (inside : s.In id) : t.In id := by
  obtain ⟨f, adds, same⟩ := produces.ledger
  obtain ⟨x, found, opened⟩ := inside.found
  refine ⟨produces.current.trans inside.current, (Ledger.isOpen_iff t.ledger id).mpr ⟨f x, ?_, ?_⟩⟩
  · rw [same, Ledger.getElem?_change, found]
    rfl
  · rw [adds.closed, opened]

theorem Produces.failures (produces : Produces id s t more) :
    t.ledger.failures = s.ledger.failures := by
  obtain ⟨f, _, same⟩ := produces.ledger
  rw [same]
  rfl

theorem Produces.committed (produces : Produces id s t more) :
    t.ledger.committed = s.ledger.committed := by
  obtain ⟨f, _, same⟩ := produces.ledger
  rw [same]
  rfl

theorem Produces.pending (produces : Produces id s t more) (inside : s.In id) :
    t.pending = s.pending ++ more := by
  obtain ⟨f, adds, same⟩ := produces.ledger
  have after : t.pending = (s.change id f).pending := by
    simp only [State.pending, State.change, produces.current, same]
  rw [after, s.pending_change inside.current (isOpen_bound inside.opened) adds.pending]

/-- What is known afterwards: the completions, and else what was known before. -/
theorem Produces.entry (produces : Produces id s t more) (inside : s.In id) (key : EntityKey) :
    t.entry key = ((Table.lookupIn key more).map Entry.committed).getD (s.entry key) := by
  obtain ⟨f, adds, same⟩ := produces.ledger
  obtain ⟨x, found, _⟩ := inside.found
  simp only [State.entry, produces.current, inside.current, same]
  rw [Ledger.entryIn_change found (adds.parent x), Ledger.entryIn_eq found, adds.overlay]
  cases Table.lookupIn key more <;> rfl

/-- What was known before a computation is known after it. -/
theorem Produces.knows (produces : Produces id s t more) (inside : s.In id)
    (key : EntityKey) (known : s.Knows key) : t.Knows key := by
  rw [State.Knows, produces.entry inside]
  cases Table.lookupIn key more with
  | none => exact known
  | some declarations => rfl

/-- What was not started before a computation and after it was not completed by it. -/
theorem Produces.notStarted (produces : Produces id s t more) (inside : s.In id) {key : EntityKey}
    (fresh : t.entry key = .notStarted) :
    s.entry key = .notStarted ∧ Table.lookupIn key more = none := by
  rw [produces.entry inside] at fresh
  cases completed : Table.lookupIn key more with
  | none => exact ⟨by simpa [completed] using fresh, rfl⟩
  | some declarations =>
    rw [completed] at fresh
    cases fresh

theorem Produces.trans (first : Produces id s t more) (second : Produces id t u later)
    (inside : s.In id) : Produces id s u (more ++ later) := by
  obtain ⟨f, adds, same⟩ := first.ledger
  obtain ⟨g, addsLater, sameLater⟩ := second.ledger
  have apart := fun c member => first.notStarted inside (second.fresh c member)
  refine ⟨second.current.trans first.current, ⟨g ∘ f, ?_, ?_⟩, fun c member => ?_⟩
  · exact adds.trans addsLater fun c member => (apart c member).2
  · rw [sameLater, same, Ledger.change_change]
  · rcases List.mem_append.mp member with early | late
    · exact first.fresh c early
    · exact (apart c late).1

end

/-! ## Failures -/

/-- Each failure is one of the entity that it began with. -/
def Ledger.Attributed (l : Ledger) : Prop :=
  ∀ key failure, l.failures.get? key = some failure →
    ∃ root, failure.key = some root ∧ l.failures.get? root = some failure

/-- Exactly what has failed is known to have failed. -/
structure State.Recalls (s : State) : Prop where
  told : ∀ key failure, s.entry key = .failed failure ↔ s.ledger.failures.get? key = some failure
  attributed : s.ledger.Attributed

theorem State.Recalls.unfailed (recalls : s.Recalls) {key : EntityKey}
    (fresh : s.entry key = .notStarted) : s.ledger.failures.get? key = none := by
  cases found : s.ledger.failures.get? key with
  | none => rfl
  | some failure =>
    have failed := (recalls.told key failure).mpr found
    rw [fresh] at failed
    cases failed

theorem Produces.recalls {more : List Completion} (produces : Produces id s t more)
    (inside : s.In id) (recalls : s.Recalls) : t.Recalls where
  told key failure := by
    rw [produces.failures, ← recalls.told, produces.entry inside]
    cases completed : Table.lookupIn key more with
    | none => rfl
    | some declarations =>
      have fresh := produces.fresh _ (Table.mem_of_lookupIn completed)
      rw [fresh]
      exact ⟨nofun, nofun⟩
  attributed := by
    rw [Ledger.Attributed, produces.failures]
    exact recalls.attributed

/-- A failure that went through the production of entities is recorded for all of them. -/
structure Fails (s t : State) (path : List EntityKey) (failure : StructuralFailure) : Prop where
  failures : t.ledger.failures.entries = s.ledger.failures.entries ++ path.map (·, failure)
  distinct : path.Nodup
  fresh : ∀ key ∈ path, s.entry key = .notStarted
  begins : failure.key = none ∧ path = [] ∨
    ∃ root, failure.key = some root ∧ t.ledger.failures.get? root = some failure

theorem Fails.recorded {path : List EntityKey} {failure : StructuralFailure} {key : EntityKey}
    (fails : Fails s t path failure) (recalls : s.Recalls) (member : key ∈ path) :
    t.ledger.failures.get? key = some failure := by
  have absent := recalls.unfailed (fails.fresh key member)
  rw [Table.get?, fails.failures, Table.lookupIn_append, Table.lookupIn_map, if_pos member]
  rw [Table.get?] at absent
  rw [absent]
  rfl

theorem Fails.after {more : List Completion} {path : List EntityKey} {failure : StructuralFailure}
    (produces : Produces id s t more) (inside : s.In id) (fails : Fails t u path failure) :
    Fails s u path failure where
  failures := by rw [fails.failures, produces.failures]
  distinct := fails.distinct
  fresh key member := (produces.notStarted inside (fails.fresh key member)).1
  begins := fails.begins

/-! ## Outcomes -/

/-- What a computation that starts in an open transaction leaves in the ledger. -/
def Outcome (id : TransactionId) (s : State) : EStateM.Result Failure State α → Prop
  | .ok _ t => ∃ more, Produces id s t more
  | .error (.structural failure) t => s.Recalls → ∃ path, Fails s t path failure
  | .error _ t => t.ledger.failures = s.ledger.failures

theorem Outcome.after {more : List Completion} (produces : Produces id s t more) (inside : s.In id)
    {result : EStateM.Result Failure State α} (outcome : Outcome id t result) :
    Outcome id s result := by
  cases result with
  | ok a u =>
    obtain ⟨later, producesLater⟩ := outcome
    exact ⟨more ++ later, produces.trans producesLater inside⟩
  | error e u =>
    cases e with
    | structural failure =>
      intro recalls
      obtain ⟨path, fails⟩ := outcome (produces.recalls inside recalls)
      exact ⟨path, fails.after produces inside⟩
    | platformMismatch | input | cancelled | ledger | badLimit | depthExceeded =>
      exact Eq.trans outcome produces.failures

/-- In every open transaction a computation leaves what it should, and another one does the same
    where exactly what has failed is known to have failed. -/
def Runs (env : Environment) (x y : Gen α) : Prop :=
  ∀ id s, s.In id → Outcome id s (x env s) ∧ (s.Recalls → y env s = x env s)

theorem Runs.secluded {x : Gen α} (secluded : Gen.Secluded env x) : Runs env x x := by
  intro id s inside
  obtain ⟨result, m, unowned, ends⟩ := secluded s.memory
  refine ⟨?_, fun _ => rfl⟩
  rw [ends s rfl]
  cases result with
  | ok a => exact ⟨[], .same rfl rfl⟩
  | error e =>
    cases e with
    | structural failure =>
      exact fun _ => ⟨[], (List.append_nil _).symm, .nil, by simp, .inl ⟨unowned _ rfl _ rfl, rfl⟩⟩
    | platformMismatch | input | cancelled | ledger | badLimit | depthExceeded => exact rfl

theorem Runs.bind {x y : Gen α} {f g : α → Gen β} (first : Runs env x y)
    (rest : ∀ a, Runs env (f a) (g a)) : Runs env (x >>= f) (y >>= g) := by
  intro id s inside
  obtain ⟨outcome, alike⟩ := first id s inside
  rw [Gen.bind_eq, Gen.bind_eq]
  cases ended : x env s with
  | error e t =>
    rw [ended] at outcome alike
    refine ⟨?_, fun recalls => by rw [alike recalls]⟩
    cases e <;> exact outcome
  | ok a t =>
    rw [ended] at outcome alike
    obtain ⟨more, produces⟩ := outcome
    obtain ⟨outcome, alikeLater⟩ := rest a id t (produces.inside inside)
    refine ⟨outcome.after produces inside, fun recalls => ?_⟩
    rw [alike recalls]
    exact alikeLater (produces.recalls inside recalls)

/-- An outcome does not depend on which delegates are being expanded. -/
theorem Outcome.ensuring {x : Gen α} {expanding : List String} {after : State → State}
    (quiet : ∀ u, (after u).ledger = u.ledger ∧ (after u).current = u.current)
    (outcome : Outcome id { s with expanding } (x env { s with expanding })) :
    Outcome id s (Gen.ensuring x after env { s with expanding }) := by
  rw [Gen.ensuring_eq]
  cases ended : x env { s with expanding } with
  | ok a t =>
    rw [ended] at outcome
    obtain ⟨more, produces⟩ := outcome
    obtain ⟨ledger, current⟩ := quiet t
    exact ⟨more, current.trans produces.current, ledger ▸ produces.ledger, produces.fresh⟩
  | error e t =>
    rw [ended] at outcome
    obtain ⟨ledger, _⟩ := quiet t
    cases e with
    | structural failure =>
      intro recalls
      obtain ⟨path, fails⟩ := outcome ⟨recalls.told, recalls.attributed⟩
      exact ⟨path, ledger ▸ fails.failures, fails.distinct, fails.fresh, ledger ▸ fails.begins⟩
    | platformMismatch | input | cancelled | ledger | badLimit | depthExceeded =>
      exact (congrArg Ledger.failures ledger).trans outcome

theorem Runs.expansion {x y : Gen α} (name : String) (runs : Runs env x y) :
    Runs env (inExpansion name x) (inExpansion name y) := by
  intro id s inside
  rw [inExpansion_eq, inExpansion_eq]
  split
  · exact Runs.secluded (.fault (.selfReferringDelegate name)) id s inside
  · obtain ⟨outcome, alike⟩ := runs id _ (inside.expansion (name :: s.expanding))
    refine ⟨outcome.ensuring fun u => ⟨rfl, rfl⟩, fun recalls => ?_⟩
    rw [Gen.ensuring_eq, Gen.ensuring_eq, alike ⟨recalls.told, recalls.attributed⟩]

/-! ## Production -/

/-- A transaction in which an entity is being produced. -/
def Transaction.mark (key : EntityKey) (x : Transaction) : Transaction :=
  { x with overlay := x.overlay.put key .inFlight }

/-- A transaction in which an entity has been produced. -/
def Transaction.finish (key : EntityKey) (declarations : List Declaration) (x : Transaction) :
    Transaction :=
  { x with
    overlay := x.overlay.put key (.committed declarations)
    pending := x.pending ++ [(key, declarations)] }

/-- A state in which an entity is being produced. -/
def State.marked (s : State) (id : TransactionId) (key : EntityKey) : State :=
  s.change id (Transaction.mark key)

/-- A state in which an entity has been produced. -/
def State.completed (s : State) (id : TransactionId) (key : EntityKey)
    (declarations : List Declaration) : State :=
  s.change id (Transaction.finish key declarations)

/-- A state in which an entity has failed. -/
def State.failing (s : State) (id : TransactionId) (key : EntityKey) (failure : StructuralFailure) :
    State :=
  { s with ledger := s.ledger.fail id key failure }

/-- A state in which an entity is not being produced any more. -/
def State.forgetting (s : State) (id : TransactionId) (key : EntityKey) : State :=
  { s with ledger := s.ledger.forget id key }

theorem State.In.complete_eq (inside : s.In id) (key : EntityKey) (declarations : List Declaration) :
    Gen.stepLedger (·.complete id key declarations) env s =
      .ok () (s.completed id key declarations) := by
  rw [Gen.stepLedger_eq, Ledger.complete, if_pos inside.opened]
  rfl

/-- How a producer ends, and what is noted of it. -/
theorem settled_eq (key : EntityKey) (producer : Gen (List Declaration)) (t : State) :
    (Gen.attempt producer >>= settleEntity id key) env t = match producer env t with
      | .ok declarations u => Gen.stepLedger (·.complete id key declarations) env u
      | .error (.structural failure) u =>
        .error (.structural (failure.attributedTo key)) (u.failing id key (failure.attributedTo key))
      | .error other u => .error other (u.forgetting id key) := by
  rw [Gen.bind_eq, Gen.attempt_eq]
  cases producer env t with
  | ok declarations u => rfl
  | error e u => cases e <;> rfl

/-- How the production of an entity ends in an open transaction. -/
theorem produce_eq (inside : s.In id) (key : EntityKey) (producer : Gen (List Declaration)) :
    produce key producer env s = match s.entry key with
      | .committed _ | .inFlight => .ok () s
      | .failed failure => .error (.structural failure) s
      | .notStarted =>
        if env.available.contains key.name.full then .ok () (s.completed id key [])
        else match producer env (s.marked id key) with
          | .ok declarations t => Gen.stepLedger (·.complete id key declarations) env t
          | .error (.structural failure) t =>
            .error (.structural (failure.attributedTo key)) (t.failing id key (failure.attributedTo key))
          | .error other t => .error other (t.forgetting id key) := by
  have atId : s.ledger.entryIn id key = s.entry key := by simp only [State.entry, inside.current]
  unfold produce
  rw [Gen.bind_eq, currentTransaction_eq, inside.current]
  dsimp only
  rw [Gen.get_bind, atId]
  cases s.entry key with
  | committed declarations => rfl
  | inFlight => rfl
  | failed failure => rfl
  | notStarted =>
    change (if env.available.contains key.name.full then _ else _ : Gen Unit) env s = _
    split
    · exact inside.complete_eq key []
    · rw [Gen.bind_eq, Gen.stepLedger_eq, Ledger.markInFlight, if_pos inside.opened]
      exact settled_eq key producer (s.marked id key)

section
variable {key : EntityKey}

theorem State.In.change (inside : s.In id) {f : Transaction → Transaction}
    (closed : ∀ x, (f x).closed = x.closed) : (s.change id f).In id := by
  obtain ⟨x, found, opened⟩ := inside.found
  refine ⟨inside.current, (Ledger.isOpen_iff _ id).mpr ⟨f x, ?_, (closed x).trans opened⟩⟩
  rw [State.change, Ledger.getElem?_change, found]
  rfl

theorem State.In.marked (inside : s.In id) (key : EntityKey) : (s.marked id key).In id :=
  inside.change fun _ => rfl

theorem State.In.completed (inside : s.In id) (key : EntityKey) (declarations : List Declaration) :
    (s.completed id key declarations).In id :=
  inside.change fun _ => rfl

theorem marked_entry (inside : s.In id) (key other : EntityKey) :
    (s.marked id key).entry other = if key = other then .inFlight else s.entry other :=
  s.entry_change inside.current (isOpen_bound inside.opened) (f := Transaction.mark key)
    (fun _ => rfl) (fun _ => rfl) other

theorem marked_pending (inside : s.In id) (key : EntityKey) :
    (s.marked id key).pending = s.pending := by
  have same := s.pending_change inside.current (isOpen_bound inside.opened)
    (f := Transaction.mark key) fun x => (List.append_nil x.pending).symm
  rwa [List.append_nil] at same

theorem completed_entry (inside : s.In id) (key other : EntityKey) (declarations : List Declaration) :
    (s.completed id key declarations).entry other =
      if key = other then .committed declarations else s.entry other :=
  s.entry_change inside.current (isOpen_bound inside.opened)
    (f := Transaction.finish key declarations) (fun _ => rfl) (fun _ => rfl) other

theorem completed_pending (inside : s.In id) (key : EntityKey) (declarations : List Declaration) :
    (s.completed id key declarations).pending = s.pending ++ [(key, declarations)] :=
  s.pending_change inside.current (isOpen_bound inside.opened)
    (f := Transaction.finish key declarations) fun _ => rfl

/-- What has not been started once an entity is being produced is another entity. -/
theorem marked_notStarted (inside : s.In id) {other : EntityKey}
    (fresh : (s.marked id key).entry other = .notStarted) :
    key ≠ other ∧ s.entry other = .notStarted := by
  rw [marked_entry inside] at fresh
  split at fresh
  · cases fresh
  · next apart => exact ⟨apart, fresh⟩

theorem State.Recalls.marked (recalls : s.Recalls) (inside : s.In id)
    (fresh : s.entry key = .notStarted) : (s.marked id key).Recalls where
  told other failure := by
    rw [marked_entry inside]
    split
    · next same =>
      subst same
      refine ⟨nofun, fun found => ?_⟩
      have failed := (recalls.told key failure).mpr found
      rw [fresh] at failed
      cases failed
    · exact recalls.told other failure
  attributed := recalls.attributed

/-- An entity is complete at once. -/
theorem Produces.completed (fresh : s.entry key = .notStarted) (declarations : List Declaration) :
    Produces id s (s.completed id key declarations) [(key, declarations)] where
  current := rfl
  ledger := by
    refine ⟨Transaction.finish key declarations, ?_, rfl⟩
    exact {
      parent := fun _ => rfl, closed := fun _ => rfl, pending := fun _ => rfl
      overlay := fun x other => by
        rw [Transaction.finish, Table.get?_put, Table.lookupIn]
        split <;> rfl
      distinct := fun x h => Table.nodup_put x.overlay h key _ }
  fresh c member := by
    rw [List.mem_singleton.mp member]
    exact fresh

/-- An entity is complete after others were completed in its production. -/
theorem Produces.enclosing {more : List Completion} (inside : s.In id)
    (fresh : s.entry key = .notStarted) (produces : Produces id (s.marked id key) t more)
    (declarations : List Declaration) :
    Produces id s (t.completed id key declarations) (more ++ [(key, declarations)]) := by
  obtain ⟨f, adds, same⟩ := produces.ledger
  have others : ∀ c ∈ more, key ≠ c.1 ∧ s.entry c.1 = .notStarted :=
    fun c member => marked_notStarted inside (produces.fresh c member)
  have absent : Table.lookupIn key more = none := by
    cases completed : Table.lookupIn key more with
    | none => rfl
    | some found => exact absurd rfl (others _ (Table.mem_of_lookupIn completed)).1
  refine ⟨produces.current, ⟨Transaction.finish key declarations ∘ f ∘ Transaction.mark key, ?_, ?_⟩,
    fun c member => ?_⟩
  · exact {
      parent := fun x => adds.parent _
      closed := fun x => adds.closed _
      pending := fun x => by
        simp only [Function.comp, Transaction.finish]
        rw [adds.pending, List.append_assoc]
        rfl
      overlay := fun x other => by
        simp only [Function.comp, Transaction.finish]
        rw [Table.get?_put, Table.lookupIn_append, adds.overlay, Transaction.mark, Table.get?_put]
        by_cases own : key = other
        · subst own
          simp [absent, Table.lookupIn]
        · cases Table.lookupIn other more <;> simp [own, Table.lookupIn]
      distinct := fun x h => Table.nodup_put _ (adds.distinct _ (Table.nodup_put _ h key _)) key _ }
  · rw [State.completed, State.change, same, State.marked, State.change, Ledger.change_change,
      Ledger.change_change]
    rfl
  · rcases List.mem_append.mp member with nested | own
    · exact (others c nested).2
    · rw [List.mem_singleton.mp own]
      exact fresh

/-- A failure in the production of an entity becomes one of the entity too. -/
theorem Fails.enclosing {path : List EntityKey} {failure : StructuralFailure} (inside : s.In id)
    (recalls : s.Recalls) (fresh : s.entry key = .notStarted)
    (fails : Fails (s.marked id key) t path failure) :
    Fails s (t.failing id key (failure.attributedTo key)) (path ++ [key]) (failure.attributedTo key) := by
  have others : ∀ other ∈ path, key ≠ other ∧ s.entry other = .notStarted :=
    fun other member => marked_notStarted inside (fails.fresh other member)
  have unrecorded : t.ledger.failures.has key = false := by
    have absent : key ∉ t.ledger.failures.keys := by
      rw [Table.keys, fails.failures, List.map_append, List.mem_append]
      rintro (before | nested)
      · exact (Table.get?_eq_none_iff s.ledger.failures key).mp (recalls.unfailed fresh) before
      · obtain ⟨_, there, same⟩ := List.mem_map.mp nested
        obtain ⟨other, member, rfl⟩ := List.mem_map.mp there
        exact (others other member).1 same.symm
    simpa [Table.has] using (Table.get?_eq_none_iff t.ledger.failures key).mpr absent
  have recorded : (t.failing id key (failure.attributedTo key)).ledger.failures.entries =
      t.ledger.failures.entries ++ [(key, failure.attributedTo key)] := by
    change (t.ledger.failures.putNew key (failure.attributedTo key)).entries = _
    rw [Table.entries_putNew, unrecorded]
    rfl
  have distinct : (path ++ [key]).Nodup := by
    rw [List.nodup_append]
    refine ⟨fails.distinct, by simp, fun a member b single same => ?_⟩
    obtain rfl := List.mem_singleton.mp single
    exact (others a member).1 same.symm
  have untouched : ∀ other ∈ path ++ [key], s.entry other = .notStarted := by
    intro other member
    rcases List.mem_append.mp member with nested | own
    · exact (others other nested).2
    · rw [List.mem_singleton.mp own]
      exact fresh
  rcases fails.begins with ⟨unowned, rfl⟩ | ⟨root, owned, found⟩
  · have own : failure.attributedTo key = { failure with key := some key } := by
      rw [StructuralFailure.attributedTo, unowned]
      rfl
    refine ⟨?_, distinct, untouched, .inr ⟨key, by rw [own], ?_⟩⟩
    · rw [recorded, fails.failures]
      simp only [List.map_nil, List.append_nil, List.nil_append, List.map_cons]
      rfl
    · change (t.ledger.failures.putNew key (failure.attributedTo key)).get? key = _
      rw [Table.get?_putNew, if_pos rfl]
      have absent : t.ledger.failures.get? key = none := by simpa [Table.has] using unrecorded
      rw [absent]
      rfl
  · have kept : failure.attributedTo key = failure := by
      rw [StructuralFailure.attributedTo, owned]
      obtain ⟨fault, own⟩ := failure
      cases owned
      rfl
    rw [kept] at recorded ⊢
    refine ⟨?_, distinct, untouched, .inr ⟨root, owned, ?_⟩⟩
    · rw [recorded, fails.failures, List.map_append, List.append_assoc]
      rfl
    · exact Table.get?_of_prefix ⟨_, recorded.symm⟩ found

/-- What the production of an entity leaves: an entity that fails is recorded with its failure. -/
theorem produce_outcome {x y : Gen (List Declaration)} (runs : Runs env x y) (inside : s.In id) :
    Outcome id s (produce key x env s) ∧ ∀ failure t,
      produce key x env s = .error (.structural failure) t → s.Recalls →
        t.ledger.failures.get? key = some failure := by
  rw [produce_eq inside key x]
  cases known : s.entry key with
  | committed declarations => exact ⟨⟨[], .same rfl rfl⟩, fun _ _ ended => by cases ended⟩
  | inFlight => exact ⟨⟨[], .same rfl rfl⟩, fun _ _ ended => by cases ended⟩
  | failed failure =>
    dsimp only
    refine ⟨fun recalls => ⟨[], (List.append_nil _).symm, .nil, by simp, .inr ?_⟩, ?_⟩
    · exact recalls.attributed key failure ((recalls.told key failure).mp known)
    · rintro _ _ ⟨⟩ recalls
      exact (recalls.told key failure).mp known
  | notStarted =>
    dsimp only
    split
    · exact ⟨⟨_, .completed known []⟩, fun _ _ ended => by cases ended⟩
    · obtain ⟨outcome, _⟩ := runs id (s.marked id key) (inside.marked key)
      cases ended : x env (s.marked id key) with
      | ok declarations t =>
        rw [ended] at outcome
        obtain ⟨more, produces⟩ := outcome
        simp only [(produces.inside (inside.marked key)).complete_eq]
        exact ⟨⟨_, produces.enclosing inside known declarations⟩, fun _ _ ended => by cases ended⟩
      | error e t =>
        rw [ended] at outcome
        cases e with
        | structural failure =>
          have enclosing : s.Recalls → ∃ path, Fails s
              (t.failing id key (failure.attributedTo key)) (path ++ [key]) (failure.attributedTo key) :=
            fun recalls => (outcome (recalls.marked inside known)).imp fun _ fails =>
              fails.enclosing inside recalls known
          refine ⟨fun recalls => ?_, ?_⟩
          · obtain ⟨path, fails⟩ := enclosing recalls
            exact ⟨path ++ [key], fails⟩
          · rintro _ _ ⟨⟩ recalls
            obtain ⟨path, fails⟩ := enclosing recalls
            exact fails.recorded recalls (by simp)
        | platformMismatch | input | cancelled | ledger | badLimit | depthExceeded =>
          exact ⟨outcome, fun _ _ ended => by cases ended⟩

end

/-! ## Watching -/

/-- Raises an alarm after the production of an entity, unless a structural failure is recorded for
    the entity that it comes from, and nothing is recorded when the production ends in any other
    way. -/
def checkRecord (alarm : Failure) (key : EntityKey) (before : Table EntityKey StructuralFailure) :
    Except Failure Unit → Gen Unit
  | .ok _ => do
    if (← get).ledger.failures.entries = before.entries then return else throw alarm
  | .error (.structural failure) => do
    if (← get).ledger.failures.get? key = some failure then throw (.structural failure)
    else throw alarm
  | .error other => do
    if (← get).ledger.failures.entries = before.entries then throw other else throw alarm

/-- Watches the production of an entity. An entity that has failed fails again in the same way,
    without being produced, and what the production of another one records is checked. -/
def watch (alarm : Failure) (key : EntityKey) (production : Gen Unit) : Gen Unit := do
  let before := (← get).ledger.failures
  match before.get? key with
  | some failure => throw (.structural failure)
  | none => checkRecord alarm key before (← Gen.attempt production)

/-- A production is not told from one that is watched if there is nothing to raise an alarm for. -/
theorem watch_quiet {alarm : Failure} {key : EntityKey} {production : Gen Unit}
    (again : ∀ failure, s.ledger.failures.get? key = some failure →
      production env s = .error (.structural failure) s)
    (ok : ∀ t, production env s = .ok () t → t.ledger.failures = s.ledger.failures)
    (structural : ∀ failure t, production env s = .error (.structural failure) t →
      t.ledger.failures.get? key = some failure)
    (other : ∀ e t, production env s = .error e t → (∀ failure, e ≠ .structural failure) →
      t.ledger.failures = s.ledger.failures) :
    watch alarm key production env s = production env s := by
  unfold watch
  rw [Gen.get_bind]
  cases known : s.ledger.failures.get? key with
  | some failure => exact (again failure known).symm
  | none =>
    change (Gen.attempt production >>= checkRecord alarm key s.ledger.failures) env s = _
    rw [Gen.bind_eq, Gen.attempt_eq]
    cases ended : production env s with
    | ok a t =>
      change checkRecord alarm key s.ledger.failures (.ok a) env t = _
      rw [checkRecord, Gen.get_bind, if_pos (by rw [ok t ended])]
      rfl
    | error e t =>
      change checkRecord alarm key s.ledger.failures (.error e) env t = _
      cases e with
      | structural failure =>
        rw [checkRecord, Gen.get_bind, if_pos (structural failure t ended)]
        rfl
      | platformMismatch | input | cancelled | ledger | badLimit | depthExceeded =>
        change (do
          if (← get).ledger.failures.entries = s.ledger.failures.entries then throw _
          else throw alarm : Gen Unit) env t = _
        rw [Gen.get_bind, if_pos (by rw [other _ t ended fun _ same => by cases same])]
        rfl

theorem Runs.produce {x y : Gen (List Declaration)} (runs : Runs env x y) (alarm : Failure)
    (key : EntityKey) : Runs env (produce key x) (watch alarm key (Bindings.produce key y)) := by
  intro id s inside
  obtain ⟨outcome, recorded⟩ : Outcome id s (Bindings.produce key x env s) ∧ _ :=
    produce_outcome runs inside
  refine ⟨outcome, fun recalls => ?_⟩
  have alike : Bindings.produce key y env s = Bindings.produce key x env s := by
    rw [produce_eq inside key y, produce_eq inside key x]
    cases fresh : s.entry key with
    | notStarted => rw [(runs id (s.marked id key) (inside.marked key)).2 (recalls.marked inside fresh)]
    | committed | inFlight | failed => rfl
  rw [watch_quiet, alike]
  · intro failure known
    rw [produce_eq inside key y, (recalls.told key failure).mpr known]
  · intro t ended
    rw [← alike, ended] at outcome
    obtain ⟨more, produces⟩ := outcome
    exact produces.failures
  · intro failure t ended
    exact recorded failure t (alike ▸ ended) recalls
  · intro e t ended general
    rw [← alike, ended] at outcome
    cases e with
    | structural failure => exact absurd rfl (general failure)
    | platformMismatch | input | cancelled | ledger | badLimit | depthExceeded => exact outcome

/-- What has been produced is known. -/
theorem produce_known {key : EntityKey} {x y : Gen (List Declaration)} (runs : Runs env x y)
    (inside : s.In id) (ended : produce key x env s = .ok () t) : t.Knows key := by
  rw [produce_eq inside] at ended
  rw [State.knows_iff]
  cases known : s.entry key with
  | committed declarations =>
    rw [known] at ended
    cases ended
    exact .inr ⟨declarations, known⟩
  | inFlight =>
    rw [known] at ended
    cases ended
    exact .inl known
  | failed failure =>
    rw [known] at ended
    cases ended
  | notStarted =>
    simp only [known] at ended
    split at ended
    · cases ended
      exact .inr ⟨[], by rw [completed_entry inside, if_pos rfl]⟩
    · obtain ⟨outcome, _⟩ := runs id (s.marked id key) (inside.marked key)
      cases produced : x env (s.marked id key) with
      | error e u =>
        rw [produced] at ended
        cases e <;> cases ended
      | ok declarations u =>
        rw [produced] at outcome ended
        obtain ⟨more, produces⟩ := outcome
        have insideU := produces.inside (inside.marked key)
        simp only [insideU.complete_eq] at ended
        cases ended
        exact .inr ⟨declarations, by rw [completed_entry insideU, if_pos rfl]⟩

theorem Runs.congr {x y u v : Gen α} (left : ∀ s, x env s = u env s) (right : ∀ s, y env s = v env s)
    (runs : Runs env u v) : Runs env x y := by
  intro id s inside
  rw [left, right]
  exact runs id s inside

/-- Computations that leave what they should, compared with what is watched. -/
def Comparison.outcomes (env : Environment) : Comparison env :=
  .ofSecluded (Runs env) .congr .secluded .bind

/-- The links of a session, compared with links on which every production is watched. -/
theorem watched_linked (alarm : Failure) (depth : Nat) :
    (Comparison.outcomes env).Linked (Links.upTo depth) (Links.around (watch alarm) depth) :=
  around_linked (.outcomes env) .depthExceeded (fun key _ _ runs => runs.produce alarm key)
    (fun name _ _ runs => runs.expansion name) depth

/-- The declarations of an entity leave what they should, and are the same where productions are watched. -/
theorem declarationsOf_runs (alarm : Failure) (depth : Nat) (e : Entity) :
    Runs env (declarationsOf (Links.upTo depth) e) (declarationsOf (Links.around (watch alarm) depth) e) :=
  declarationsOf_matches (watched_linked alarm depth) trivial

/-- So does a candidate of a sweep. -/
theorem candidate_runs (alarm : Failure) (depth : Nat) (c : Candidate) :
    Runs env ((Links.upTo depth).candidate c) ((Links.around (watch alarm) depth).candidate c) :=
  candidate_matches (watched_linked alarm depth) fun _ _ => trivial

end Bindings
