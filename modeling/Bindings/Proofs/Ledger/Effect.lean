import Bindings.Proofs.Ledger.History
import Bindings.Proofs.Table

/-!
# What a step does

The part of a transaction that decides what becomes durable is its shape: its parent, what it
has completed, and whether it is closed. `take_effect` tells once what any step on a ledger does
to the shapes, the durable record and the active transaction.
-/

namespace Bindings.Ledger

/-! ## Shapes -/

/-- A transaction without its overlay. -/
structure Shape where
  parent : Option TransactionId
  pending : List Completion
  closed : Bool

/-- The shape of a transaction. -/
def shapeOf (t : Transaction) : Shape := ⟨t.parent, t.pending, t.closed⟩

/-- The shape of a transaction of a ledger. -/
def shape (l : Ledger) (id : TransactionId) : Option Shape := l.transactions[id]?.map shapeOf

theorem shape_isSome_iff (l : Ledger) (id : TransactionId) :
    (l.shape id).isSome ↔ id < l.transactions.size := by
  simp [shape]

theorem shape_bound {l : Ledger} {id : TransactionId} {s : Shape} (found : l.shape id = some s) :
    id < l.transactions.size :=
  (shape_isSome_iff l id).mp (by simp [found])

theorem shape_eq_some_iff (l : Ledger) (id : TransactionId) (s : Shape) :
    l.shape id = some s ↔ ∃ t, l.transactions[id]? = some t ∧ shapeOf t = s := by
  simp [shape]

theorem shape_size (l : Ledger) : l.shape l.transactions.size = none := by
  simp [shape]

theorem shape_change (l : Ledger) (id other : TransactionId) (f : Transaction → Transaction) :
    (l.change id f).shape other =
      if id = other then (l.transactions[other]?.map f).map shapeOf else l.shape other := by
  by_cases same : id = other
  · subst same
    simp [shape, change, Array.getElem?_modify]
  · simp [shape, change, Array.getElem?_modify, same]

/-- A change of the overlay alone leaves all shapes as they are. -/
theorem shape_change_quiet (l : Ledger) (id other : TransactionId) (f : Transaction → Transaction)
    (quiet : ∀ t, shapeOf (f t) = shapeOf t) : (l.change id f).shape other = l.shape other := by
  rw [shape_change]
  by_cases same : id = other
  · simp only [same, if_true, shape, Option.map_map]
    exact congrArg (Option.map · _) (funext quiet)
  · simp [same]

theorem shape_change_self {l : Ledger} {id : TransactionId} {t : Transaction}
    (found : l.transactions[id]? = some t) (f : Transaction → Transaction) :
    (l.change id f).shape id = some (shapeOf (f t)) := by
  simp [shape_change, found]

theorem shape_change_of_ne (l : Ledger) {id other : TransactionId} (f : Transaction → Transaction)
    (different : id ≠ other) : (l.change id f).shape other = l.shape other := by
  simp [shape_change, different]

theorem isOpen_iff (l : Ledger) (id : TransactionId) :
    l.isOpen id = true ↔ ∃ t, l.transactions[id]? = some t ∧ t.closed = false := by
  unfold isOpen
  cases l.transactions[id]? <;> simp

/-- An outermost transaction that is open. -/
def OpenTop (l : Ledger) (id : TransactionId) : Prop :=
  ∃ t, l.transactions[id]? = some t ∧ t.parent = none ∧ t.closed = false

theorem openTop_iff (l : Ledger) (id : TransactionId) :
    l.OpenTop id ↔ ∃ pending, l.shape id = some ⟨none, pending, false⟩ := by
  constructor
  · rintro ⟨t, found, top, opened⟩
    exact ⟨t.pending, (shape_eq_some_iff ..).mpr ⟨t, found, by rw [shapeOf, top, opened]⟩⟩
  · rintro ⟨pending, found⟩
    obtain ⟨t, at_id, same⟩ := (shape_eq_some_iff ..).mp found
    simp only [shapeOf, Shape.mk.injEq] at same
    exact ⟨t, at_id, same.1, same.2.2⟩

/-! ## Effects -/

/-- Lines of a log that neither make a transaction nor close one nor complete an entity. -/
def Quiet : Step × Outcome → Prop
  | (_, .opened _) | (.commit _, .done) | (.rollback _, .done) | (.complete .., .done) => False
  | _ => True

/-- What a step and what came of it say about the ledger before and after it. -/
inductive Effect (l next : Ledger) : Step → Outcome → Prop
  | quiet {step : Step} {outcome : Outcome} (silent : Quiet (step, outcome))
      (shapes : ∀ id, next.shape id = l.shape id) (committed : next.committed = l.committed)
      (active : next.active = l.active) : Effect l next step outcome
  | began {id : TransactionId} (idle : l.active = none) (fresh : id = l.transactions.size)
      (made : next.shape id = some ⟨none, [], false⟩)
      (others : ∀ other, other ≠ id → next.shape other = l.shape other)
      (committed : next.committed = l.committed) (active : next.active = some id) :
      Effect l next .begin (.opened id)
  | split {parent id : TransactionId} (there : parent < l.transactions.size)
      (fresh : id = l.transactions.size) (made : next.shape id = some ⟨some parent, [], false⟩)
      (others : ∀ other, other ≠ id → next.shape other = l.shape other)
      (committed : next.committed = l.committed) (active : next.active = l.active) :
      Effect l next (.savepoint parent) (.opened id)
  | completed {id : TransactionId} {key : EntityKey} {declarations : List Declaration}
      {parent : Option TransactionId} {pending : List Completion}
      (before : l.shape id = some ⟨parent, pending, false⟩)
      (after : next.shape id = some ⟨parent, pending ++ [(key, declarations)], false⟩)
      (others : ∀ other, other ≠ id → next.shape other = l.shape other)
      (committed : next.committed = l.committed) (active : next.active = l.active) :
      Effect l next (.complete id key declarations) .done
  | folded {id parent : TransactionId} {pending : List Completion}
      (before : l.shape id = some ⟨some parent, pending, false⟩) (apart : parent ≠ id)
      (after : next.shape id = some ⟨some parent, pending, true⟩)
      (below : next.shape parent =
        (l.shape parent).map fun s => { s with pending := s.pending ++ pending })
      (others : ∀ other, other ≠ id → other ≠ parent → next.shape other = l.shape other)
      (committed : next.committed = l.committed) (active : next.active = l.active) :
      Effect l next (.commit id) .done
  | merged {id : TransactionId} {pending : List Completion}
      (before : l.shape id = some ⟨none, pending, false⟩)
      (after : next.shape id = some ⟨none, pending, true⟩)
      (others : ∀ other, other ≠ id → next.shape other = l.shape other)
      (committed : next.committed = pending.foldl (fun t e => t.putNew e.1 e.2) l.committed)
      (active : next.active = if l.active = some id then none else l.active) :
      Effect l next (.commit id) .done
  | discarded {id : TransactionId} {parent : Option TransactionId} {pending : List Completion}
      (before : l.shape id = some ⟨parent, pending, false⟩)
      (after : next.shape id = some ⟨parent, [], true⟩)
      (others : ∀ other, other ≠ id → next.shape other = l.shape other)
      (committed : next.committed = l.committed)
      (active : next.active = if parent = none ∧ l.active = some id then none else l.active) :
      Effect l next (.rollback id) .done
  | idle {id : TransactionId} {parent : Option TransactionId} {pending : List Completion}
      (before : l.shape id = some ⟨parent, pending, true⟩) (same : next = l) :
      Effect l next (.rollback id) .done

/-! ## The effect of each step -/

variable {l : Ledger} {id : TransactionId}

theorem release_eq (l : Ledger) (id : TransactionId) :
    l.release id = { l with active := if l.active = some id then none else l.active } := by
  unfold release
  split <;> rfl

theorem shape_push (l : Ledger) (t : Transaction) (active : Option TransactionId) (other : TransactionId) :
    shape { l with active, transactions := l.transactions.push t } other =
      if other = l.transactions.size then some (shapeOf t) else l.shape other := by
  simp only [shape, Array.getElem?_push]
  split <;> rfl

theorem begin_effect (l : Ledger) :
    Effect l (l.extended l.begin).1 .begin (l.extended l.begin).2 := by
  cases busy : l.active with
  | some other =>
    simp only [begin, busy, extended]
    exact .quiet trivial (fun _ => rfl) rfl rfl
  | none =>
    simp only [begin, busy, extended]
    refine .began busy rfl ?_ (fun other different => ?_) rfl rfl
    · rw [shape_push, if_pos rfl]
      rfl
    · rw [shape_push, if_neg different]

theorem savepoint_effect (l : Ledger) (there : id < l.transactions.size) :
    Effect l (l.extended (l.savepoint id)).1 (.savepoint id) (l.extended (l.savepoint id)).2 := by
  by_cases opened : l.isOpen id = true
  · simp only [savepoint, opened, if_true, extended]
    refine .split there rfl ?_ (fun other different => ?_) rfl rfl
    · rw [shape_push l _ l.active, if_pos rfl]
      rfl
    · rw [shape_push l _ l.active, if_neg different]
  · simp only [savepoint, opened, extended]
    exact .quiet trivial (fun _ => rfl) rfl rfl

theorem markInFlight_effect (l : Ledger) (id : TransactionId) (key : EntityKey) :
    Effect l (l.settled (l.markInFlight id key)).1 (.markInFlight id key)
      (l.settled (l.markInFlight id key)).2 := by
  by_cases opened : l.isOpen id = true
  · simp only [markInFlight, opened, if_true, settled]
    exact .quiet trivial (fun other => shape_change_quiet l id other _ fun _ => rfl) rfl rfl
  · simp only [markInFlight, opened, settled]
    exact .quiet trivial (fun _ => rfl) rfl rfl

theorem complete_effect (l : Ledger) (id : TransactionId) (key : EntityKey)
    (declarations : List Declaration) :
    Effect l (l.settled (l.complete id key declarations)).1 (.complete id key declarations)
      (l.settled (l.complete id key declarations)).2 := by
  by_cases opened : l.isOpen id = true
  · obtain ⟨t, found, isOpened⟩ := (isOpen_iff l id).mp opened
    simp only [complete, opened, if_true, settled]
    have before : l.shape id = some ⟨t.parent, t.pending, false⟩ :=
      (shape_eq_some_iff ..).mpr ⟨t, found, by rw [shapeOf, isOpened]⟩
    refine .completed before ?_ (fun other different => ?_) rfl rfl
    · rw [shape_change_self found]
      simp only [shapeOf, isOpened]
    · exact shape_change_of_ne l _ different.symm
  · simp only [complete, opened, settled]
    exact .quiet trivial (fun _ => rfl) rfl rfl

/-- Each savepoint is younger than the transaction below it. -/
def Rooted (l : Ledger) : Prop :=
  ∀ id parent pending closed, l.shape id = some ⟨some parent, pending, closed⟩ → parent < id

theorem commit_effect (rooted : l.Rooted) (there : id < l.transactions.size) :
    Effect l (l.settled (l.commit id)).1 (.commit id) (l.settled (l.commit id)).2 := by
  obtain ⟨t, found⟩ : ∃ t, l.transactions[id]? = some t := ⟨_, Array.getElem?_eq_getElem there⟩
  have before : l.shape id = some ⟨t.parent, t.pending, t.closed⟩ :=
    (shape_eq_some_iff ..).mpr ⟨t, found, rfl⟩
  cases isClosed : t.closed with
  | true =>
    simp only [commit, found, isClosed, if_true, settled]
    exact .quiet trivial (fun _ => rfl) rfl rfl
  | false =>
    rw [isClosed] at before
    cases below : t.parent with
    | none =>
      rw [below] at before
      simp only [commit, found, isClosed, below, settled, Bool.false_eq_true, if_false]
      have same : (l.merge t.pending).release id |>.transactions[id]? = some t := by
        rw [release_eq]
        exact found
      refine .merged before ?_ (fun other different => ?_) ?_ ?_
      · rw [close, shape_change_self same]
        simp only [shapeOf, below]
      · rw [close, shape_change_of_ne _ _ different.symm, release_eq]
        rfl
      · rw [release_eq]
        rfl
      · rw [release_eq]
        rfl
    | some parent =>
      rw [below] at before
      have younger : parent < id := rooted id parent t.pending false before
      have apart : parent ≠ id := Nat.ne_of_lt younger
      simp only [commit, found, isClosed, below, settled, Bool.false_eq_true, if_false]
      refine .folded before apart ?_ ?_ (fun other notId notParent => ?_) rfl rfl
      · have same : (l.change parent fun p => { p with
            overlay := p.overlay.update t.overlay
            pending := p.pending ++ t.pending }).transactions[id]? = some t := by
          simp [change, Array.getElem?_modify, apart, found]
        rw [close, shape_change_self same]
        simp only [shapeOf, below]
      · rw [close, shape_change_of_ne _ _ apart.symm, shape_change, if_pos rfl]
        cases at_parent : l.transactions[parent]? <;> simp [shape, at_parent, shapeOf]
      · rw [close, shape_change_of_ne _ _ notId.symm, shape_change_of_ne _ _ notParent.symm]

theorem rollback_effect (there : id < l.transactions.size) :
    Effect l (l.rollback id) (.rollback id) .done := by
  obtain ⟨t, found⟩ : ∃ t, l.transactions[id]? = some t := ⟨_, Array.getElem?_eq_getElem there⟩
  have before : l.shape id = some ⟨t.parent, t.pending, t.closed⟩ :=
    (shape_eq_some_iff ..).mpr ⟨t, found, rfl⟩
  cases isClosed : t.closed with
  | true =>
    rw [isClosed] at before
    exact .idle before (by simp [rollback, found, isClosed])
  | false =>
    rw [isClosed] at before
    obtain ⟨cleared, made⟩ : ∃ cleared, cleared =
        l.change id fun t => { t with overlay := {}, pending := [], closed := true } := ⟨_, rfl⟩
    have after : cleared.shape id = some ⟨t.parent, [], true⟩ := by
      rw [made, shape_change_self found]
      rfl
    have others : ∀ other, other ≠ id → cleared.shape other = l.shape other := by
      intro other different
      rw [made, shape_change_of_ne l _ different.symm]
    cases below : t.parent with
    | none =>
      have result : l.rollback id = cleared.release id := by
        simp [rollback, found, isClosed, below, made]
      rw [result, release_eq]
      rw [below] at before after
      exact .discarded before after others (by simp [made, change]) (by simp [made, change])
    | some parent =>
      have result : l.rollback id = cleared := by
        simp [rollback, found, isClosed, below, made]
      rw [result]
      rw [below] at before after
      exact .discarded before after others (by simp [made, change]) (by simp [made, change])

/-- Every step has one of the effects. -/
theorem take_effect (rooted : l.Rooted) (step : Step) :
    Effect l (l.take step).1 step (l.take step).2 := by
  by_cases made : step.target?.all (· < l.transactions.size) = true
  · rw [take, if_pos made]
    cases step with
    | begin => exact begin_effect l
    | savepoint id => exact savepoint_effect l (by simpa [Step.target?] using made)
    | markInFlight id key => exact markInFlight_effect l id key
    | forget id key =>
      exact .quiet trivial (fun other => shape_change_quiet l id other _ fun _ => rfl) rfl rfl
    | complete id key declarations => exact complete_effect l id key declarations
    | fail id key failure =>
      exact .quiet trivial (fun other => shape_change_quiet l id other _ fun _ => rfl) rfl rfl
    | recordFailure key failure => exact .quiet trivial (fun _ => rfl) rfl rfl
    | commit id => exact commit_effect rooted (by simpa [Step.target?] using made)
    | rollback id => exact rollback_effect (by simpa [Step.target?] using made)
  · rw [take, if_neg made]
    exact .quiet (by cases step <;> trivial) (fun _ => rfl) rfl rfl

/-! ## Parents and closing -/

variable {next : Ledger} {step : Step} {outcome : Outcome} {parent : Option TransactionId}
  {pending : List Completion} {closed : Bool}

/-- A transaction after a step was there before it, over the same parent, or was made by it. -/
theorem Effect.before (effect : Effect l next step outcome)
    (found : next.shape id = some ⟨parent, pending, closed⟩) :
    (∃ pending closed, l.shape id = some ⟨parent, pending, closed⟩) ∨
      (step = .opening parent ∧ outcome = .opened id ∧ closed = false ∧
        ∀ below, parent = some below → below < id) := by
  cases effect with
  | quiet silent shapes committed active => exact .inl ⟨pending, closed, shapes id ▸ found⟩
  | @began fresh idle newest made others committed active =>
    by_cases same : id = fresh
    · subst same
      rw [made] at found
      cases found
      exact .inr ⟨rfl, rfl, rfl, fun below none => nomatch none⟩
    · exact .inl ⟨pending, closed, others id same ▸ found⟩
  | @split below fresh there newest made others committed active =>
    by_cases same : id = fresh
    · subst same
      rw [made] at found
      cases found
      refine .inr ⟨rfl, rfl, rfl, fun other above => ?_⟩
      cases above
      exact newest ▸ there
    · exact .inl ⟨pending, closed, others id same ▸ found⟩
  | @completed target key declarations below earlier before after others committed active =>
    by_cases same : id = target
    · subst same
      rw [after] at found
      cases found
      exact .inl ⟨_, _, before⟩
    · exact .inl ⟨pending, closed, others id same ▸ found⟩
  | @folded target below earlier before apart after changed others committed active =>
    by_cases same : id = target
    · subst same
      rw [after] at found
      cases found
      exact .inl ⟨_, _, before⟩
    · by_cases under : id = below
      · subst under
        rw [changed] at found
        obtain ⟨s, shaped, same⟩ := Option.map_eq_some_iff.mp found
        cases same
        exact .inl ⟨_, _, shaped⟩
      · exact .inl ⟨pending, closed, others id same under ▸ found⟩
  | @merged target earlier before after others committed active =>
    by_cases same : id = target
    · subst same
      rw [after] at found
      cases found
      exact .inl ⟨_, _, before⟩
    · exact .inl ⟨pending, closed, others id same ▸ found⟩
  | @discarded target below earlier before after others committed active =>
    by_cases same : id = target
    · subst same
      rw [after] at found
      cases found
      exact .inl ⟨_, _, before⟩
    · exact .inl ⟨pending, closed, others id same ▸ found⟩
  | idle before same => exact .inl ⟨pending, closed, same ▸ found⟩

/-- A transaction stays over its parent, and its closing is told by a line of the log. -/
theorem Effect.after (effect : Effect l next step outcome)
    (found : l.shape id = some ⟨parent, pending, closed⟩) :
    ∃ pending, next.shape id = some ⟨parent, pending, closed⟩ ∨
      (next.shape id = some ⟨parent, pending, true⟩ ∧ outcome = .done ∧
        (step = .commit id ∨ step = .rollback id)) := by
  have there := shape_bound found
  cases effect with
  | quiet silent shapes committed active => exact ⟨pending, .inl ((shapes id).trans found)⟩
  | began idle newest made others committed active =>
    exact ⟨pending, .inl ((others id (newest ▸ Nat.ne_of_lt there)).trans found)⟩
  | split below newest made others committed active =>
    exact ⟨pending, .inl ((others id (newest ▸ Nat.ne_of_lt there)).trans found)⟩
  | @completed target key declarations below earlier before after others committed active =>
    by_cases same : id = target
    · subst same
      rw [before] at found
      cases found
      exact ⟨_, .inl after⟩
    · exact ⟨pending, .inl ((others id same).trans found)⟩
  | @folded target below earlier before apart after changed others committed active =>
    by_cases same : id = target
    · subst same
      rw [before] at found
      cases found
      exact ⟨_, .inr ⟨after, rfl, .inl rfl⟩⟩
    · by_cases under : id = below
      · subst under
        rw [found] at changed
        exact ⟨_, .inl changed⟩
      · exact ⟨pending, .inl ((others id same under).trans found)⟩
  | @merged target earlier before after others committed active =>
    by_cases same : id = target
    · subst same
      rw [before] at found
      cases found
      exact ⟨_, .inr ⟨after, rfl, .inl rfl⟩⟩
    · exact ⟨pending, .inl ((others id same).trans found)⟩
  | @discarded target below earlier before after others committed active =>
    by_cases same : id = target
    · subst same
      rw [before] at found
      cases found
      exact ⟨_, .inr ⟨after, rfl, .inr rfl⟩⟩
    · exact ⟨pending, .inl ((others id same).trans found)⟩
  | idle before same => exact ⟨pending, .inl (same ▸ found)⟩

/-- A transaction that a step made is new, open and empty. -/
theorem Effect.of_opening (effect : Effect l next (.opening parent) (.opened id)) :
    l.shape id = none ∧ next.shape id = some ⟨parent, [], false⟩ := by
  cases parent with
  | none =>
    cases effect with
    | quiet silent => exact silent.elim
    | began idle newest made => exact ⟨newest ▸ shape_size l, made⟩
  | some below =>
    cases effect with
    | quiet silent => exact silent.elim
    | split there newest made => exact ⟨newest ▸ shape_size l, made⟩

/-- A transaction that a step committed was open before and is closed after it. -/
theorem Effect.of_commit (effect : Effect l next (.commit id) .done) :
    ∃ parent pending, l.shape id = some ⟨parent, pending, false⟩ ∧
      next.shape id = some ⟨parent, pending, true⟩ := by
  cases effect with
  | quiet silent => exact silent.elim
  | folded before apart after => exact ⟨_, _, before, after⟩
  | merged before after => exact ⟨_, _, before, after⟩

/-- A transaction that a step rolled back is closed after it. -/
theorem Effect.of_rollback (effect : Effect l next (.rollback id) .done) :
    ∃ parent pending, next.shape id = some ⟨parent, pending, true⟩ := by
  cases effect with
  | quiet silent => exact silent.elim
  | discarded before after => exact ⟨_, _, after⟩
  | idle before same => exact ⟨_, _, same ▸ before⟩

/-! ## The durable record -/

theorem Effect.committed_entries (effect : Effect l next step outcome) :
    l.committed.entries <+: next.committed.entries := by
  cases effect with
  | quiet _ _ committed => exact committed ▸ List.prefix_refl _
  | began _ _ _ _ committed => exact committed ▸ List.prefix_refl _
  | split _ _ _ _ committed => exact committed ▸ List.prefix_refl _
  | completed _ _ _ committed => exact committed ▸ List.prefix_refl _
  | folded _ _ _ _ _ committed => exact committed ▸ List.prefix_refl _
  | merged _ _ _ committed => rw [committed]; exact Table.prefix_foldl_putNew _ _
  | discarded _ _ _ committed => exact committed ▸ List.prefix_refl _
  | idle _ same => exact same ▸ List.prefix_refl _

theorem recordFailure_failures (l : Ledger) (key : EntityKey) (failure : StructuralFailure) :
    l.failures.entries <+: (l.recordFailure key failure).failures.entries := by
  simp only [recordFailure, Table.entries_putNew]
  exact List.prefix_append _ _

theorem commit_failures {l next : Ledger} (committed : l.commit id = .ok next) :
    next.failures = l.failures := by
  unfold commit at committed
  split at committed
  · cases committed
  · split at committed
    · cases committed
    · split at committed <;> cases committed
      · rfl
      · rw [release_eq]
        rfl

theorem rollback_committed (l : Ledger) (id : TransactionId) :
    (l.rollback id).committed = l.committed := by
  unfold rollback
  split
  · rfl
  · split
    · rfl
    · simp only [release_eq, change]
      split <;> rfl

theorem rollback_failures (l : Ledger) (id : TransactionId) :
    (l.rollback id).failures = l.failures := by
  unfold rollback
  split
  · rfl
  · split
    · rfl
    · simp only [release_eq, change]
      split <;> rfl

/-- A step that is refused or notes nothing but work in progress records no failure. -/
theorem settled_failures (l : Ledger) (result : Except LedgerError Ledger)
    (same : ∀ next, result = .ok next → next.failures = l.failures) :
    (l.settled result).1.failures = l.failures := by
  cases result with
  | ok next => exact same next rfl
  | error e => rfl

/-- The failure that a step records, if its transaction has been made. -/
def Step.failures : Step → List (EntityKey × StructuralFailure)
  | fail _ key failure | recordFailure key failure => [(key, failure)]
  | _ => []

/-- A record of failures with more of them. An entity keeps the first one. -/
def withFailures (recorded : Table EntityKey StructuralFailure)
    (failed : List (EntityKey × StructuralFailure)) : Table EntityKey StructuralFailure :=
  failed.foldl (fun table e => table.putNew e.1 e.2) recorded

/-- What a step records of failures. -/
theorem take_failures_eq (made : step.target?.all (· < l.transactions.size) = true) :
    (l.take step).1.failures = withFailures l.failures step.failures := by
  rw [take, if_pos made]
  cases step with
  | begin =>
    unfold act begin
    cases l.active <;> rfl
  | savepoint id =>
    simp only [act, savepoint]
    split <;> rfl
  | markInFlight id key =>
    simp only [act, markInFlight]
    split <;> rfl
  | forget id key => rfl
  | complete id key declarations =>
    simp only [act, complete]
    split <;> rfl
  | fail id key failure => rfl
  | recordFailure key failure => rfl
  | commit id => exact settled_failures l _ fun _ => commit_failures
  | rollback id => exact rollback_failures l id

/-- A step leaves the recorded failures or adds one, if its entity has none. -/
theorem take_failures (l : Ledger) (step : Step) :
    l.failures.entries <+: (l.take step).1.failures.entries := by
  by_cases made : step.target?.all (· < l.transactions.size) = true
  · rw [take_failures_eq made]
    exact Table.prefix_foldl_putNew step.failures l.failures
  · have same : (l.take step).1.failures = l.failures := by rw [take, if_neg made]
    exact same ▸ List.prefix_refl _

end Bindings.Ledger
