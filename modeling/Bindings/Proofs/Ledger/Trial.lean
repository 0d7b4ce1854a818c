import Bindings.Proofs.Ledger.Chain
import Bindings.Proofs.Ledger.Durability

/-!
# Savepoints as trials

Work on a savepoint is a trial for the transaction below it. Until the savepoint is committed,
nothing that is done on it, or on savepoints over it, reaches the transaction below, except that
failures are recorded (`Confined.apart`, `entryIn_failing`). Committed, it leaves that transaction
as if what the savepoint held at first had been committed at once and the later steps had been taken
there (`taking_notes`, `commit_trial`).
-/

namespace Bindings

/-- An entry once a failure may have been recorded: only what was not started is failed now. -/
def Entry.failing : Entry → Option StructuralFailure → Entry
  | .notStarted, some failure => .failed failure
  | e, _ => e

theorem Entry.failing_none (e : Entry) : e.failing none = e := by
  cases e <;> rfl

theorem Entry.failing_of_started {e : Entry} (started : e ≠ .notStarted)
    (failure : Option StructuralFailure) : e.failing failure = e := by
  cases e with
  | notStarted => exact absurd rfl started
  | inFlight => rfl
  | committed declarations => rfl
  | failed _ => rfl

/-! ## Overlays -/

/-- A transaction notes each entity once, and what it notes says something. -/
structure Transaction.Telling (x : Transaction) : Prop where
  distinct : x.overlay.keys.Nodup
  noted : ∀ key, x.overlay.get? key ≠ some .notStarted

namespace Transaction.Telling

variable {x y : Transaction}

theorem of_empty (empty : x.overlay = {}) : x.Telling where
  distinct := by simp [empty, Table.keys]
  noted key := by simp [empty]

theorem put (telling : x.Telling) {key : EntityKey} {e : Entry}
    (overlay : y.overlay = x.overlay.put key e) (tells : e ≠ .notStarted) : y.Telling where
  distinct := overlay ▸ Table.nodup_put x.overlay telling.distinct key e
  noted other := by
    rw [overlay, Table.get?_put]
    split
    · exact fun same => tells (Option.some.inj same)
    · exact telling.noted other

theorem erase (telling : x.Telling) (key : EntityKey) (overlay : y.overlay = x.overlay.erase key) :
    y.Telling where
  distinct := by
    rw [overlay]
    exact telling.distinct.sublist (List.filter_sublist.map _)
  noted other := by
    rw [overlay, Table.get?_erase]
    split
    · exact nofun
    · exact telling.noted other

theorem absorb (telling : x.Telling) (above : y.Telling) : (x.absorb y).Telling where
  distinct := Table.nodup_update x.overlay y.overlay telling.distinct
  noted key := by
    rw [Transaction.absorb, Table.get?_update _ _ above.distinct, ne_eq, Option.or_eq_some_iff]
    rintro (new | ⟨_, old⟩)
    · exact above.noted key new
    · exact telling.noted key old

end Transaction.Telling

namespace Ledger

variable {l m next : Ledger} {step : Step} {id base : TransactionId} {x p : Transaction} {key : EntityKey}

/-- All transactions of a ledger are telling. -/
def Telling (l : Ledger) : Prop :=
  ∀ (id : TransactionId) (x : Transaction), l.transactions[id]? = some x → x.Telling

theorem Telling.change (telling : l.Telling) {f : Transaction → Transaction}
    (keeps : ∀ x, x.Telling → (f x).Telling) : (l.change id f).Telling := by
  intro other y found
  rw [Ledger.change, Array.getElem?_modify] at found
  split at found
  · obtain ⟨x, held, rfl⟩ := Option.map_eq_some_iff.mp found
    exact keeps x (telling other x held)
  · exact telling other y found

theorem Telling.push (telling : l.Telling) {x : Transaction} (empty : x.overlay = {})
    (transactions : next.transactions = l.transactions.push x) : next.Telling := by
  intro other y found
  rw [transactions, Array.getElem?_push] at found
  split at found
  · cases found
    exact .of_empty empty
  · exact telling other y found

theorem Telling.commit (telling : l.Telling) (committed : l.commit id = .ok next) : next.Telling := by
  have closes : ∀ {m : Ledger}, m.Telling → (m.close id).Telling :=
    fun told => told.change fun x held => ⟨held.distinct, held.noted⟩
  unfold Ledger.commit at committed
  split at committed
  · cases committed
  · next x found =>
    split at committed
    · cases committed
    · split at committed <;> cases committed
      · exact closes (telling.change fun p held => held.absorb (telling id x found))
      · rw [release_eq]
        exact closes telling

theorem Telling.rollback (telling : l.Telling) : (l.rollback id).Telling := by
  unfold Ledger.rollback
  split
  · exact telling
  · split
    · exact telling
    · simp only [release_eq]
      split <;> exact telling.change fun x held => .of_empty rfl

theorem Telling.settled (telling : l.Telling) {result : Except LedgerError Ledger}
    (told : ∀ next, result = .ok next → next.Telling) : (l.settled result).1.Telling := by
  cases result with
  | ok next => exact told next rfl
  | error e => exact telling

theorem Telling.extended (telling : l.Telling) {result : Except LedgerError (TransactionId × Ledger)}
    (told : ∀ made next, result = .ok (made, next) → next.Telling) : (l.extended result).1.Telling := by
  cases result with
  | ok made => exact told made.1 made.2 rfl
  | error e => exact telling

/-- A step that only an open transaction takes keeps what is told. -/
theorem Telling.guarded (telling : l.Telling) (told : next.Telling) :
    (l.settled (if l.isOpen id then .ok next else .error .closed)).1.Telling := by
  by_cases opened : l.isOpen id = true
  · rw [if_pos opened]
    exact told
  · rw [if_neg opened]
    exact telling

theorem Telling.take (telling : l.Telling) (step : Step) : (l.take step).1.Telling := by
  unfold Ledger.take
  by_cases there : step.target?.all (· < l.transactions.size)
  · rw [if_pos there]
    cases step with
    | begin =>
      refine telling.extended fun made next begun => ?_
      cases busy : l.active with
      | some other =>
        simp only [Ledger.begin, busy] at begun
        cases begun
      | none =>
        simp only [Ledger.begin, busy] at begun
        cases begun
        exact telling.push rfl rfl
    | savepoint id =>
      refine telling.extended fun made next split => ?_
      by_cases opened : l.isOpen id = true
      · rw [Ledger.savepoint, if_pos opened] at split
        cases split
        exact telling.push rfl rfl
      · rw [Ledger.savepoint, if_neg opened] at split
        cases split
    | markInFlight id key =>
      exact telling.guarded (telling.change fun x held => held.put rfl Entry.noConfusion)
    | forget id key => exact telling.change fun x held => held.erase key rfl
    | complete id key declarations =>
      exact telling.guarded (telling.change fun x held => held.put rfl Entry.noConfusion)
    | fail id key failure => exact telling.change fun x held => held.put rfl Entry.noConfusion
    | recordFailure key failure => exact telling
    | commit id => exact telling.settled fun next committed => telling.commit committed
    | rollback id => exact telling.rollback
  · rw [if_neg there]
    exact telling

theorem telling_run (steps : List Step) : (Run.of steps).ledger.Telling := by
  have fold : ∀ r : Run, r.ledger.Telling → (steps.foldl Run.next r).ledger.Telling := by
    induction steps with
    | nil => exact fun r telling => telling
    | cons step steps ih => exact fun r telling => ih (r.next step) (telling.take step)
  exact fold {} fun id x found => nomatch found

theorem Rooted.take (rooted : l.Rooted) (step : Step) : (l.take step).1.Rooted := by
  intro id parent pending closed found
  rcases (take_effect rooted step).before found with ⟨pending, closed, old⟩ | ⟨_, _, _, younger⟩
  · exact rooted id parent pending closed old
  · exact younger parent rfl

theorem Rooted.lower (rooted : l.Rooted) (found : l.transactions[id]? = some x)
    (parent : x.parent = some base) : base < id :=
  rooted id base x.pending x.closed ((shape_eq_some_iff ..).mpr ⟨x, found, by rw [shapeOf, parent]⟩)

/-! ## Several steps -/

/-- The ledger after several steps. -/
def taking (l : Ledger) (steps : List Step) : Ledger := steps.foldl (fun l step => (l.take step).1) l

theorem taking_append (l : Ledger) (steps more : List Step) :
    l.taking (steps ++ more) = (l.taking steps).taking more := List.foldl_append

theorem Rooted.taking (rooted : l.Rooted) (steps : List Step) : (l.taking steps).Rooted := by
  induction steps generalizing l with
  | nil => exact rooted
  | cons step steps ih => exact ih (rooted.take step)

theorem Telling.taking (telling : l.Telling) (steps : List Step) : (l.taking steps).Telling := by
  induction steps generalizing l with
  | nil => exact telling
  | cons step steps ih => exact ih (telling.take step)

/-- Every one of several steps is done. -/
def Does (l : Ledger) : List Step → Prop
  | [] => True
  | step :: steps => (l.take step).2 = .done ∧ (l.take step).1.Does steps

theorem does_append_iff (l : Ledger) (steps more : List Step) :
    l.Does (steps ++ more) ↔ l.Does steps ∧ (l.taking steps).Does more := by
  induction steps generalizing l with
  | nil => simp [Does, taking]
  | cons step steps ih => simp only [List.cons_append, Does, ih, and_assoc]; rfl

/-! ## Failures -/

/-- The first failure of an entity in several steps. -/
def firstFailure (key : EntityKey) (steps : List Step) : Option StructuralFailure :=
  Table.lookupIn key (steps.flatMap Step.failures)

theorem withFailures_append (recorded : Table EntityKey StructuralFailure)
    (failed more : List (EntityKey × StructuralFailure)) :
    withFailures recorded (failed ++ more) = withFailures (withFailures recorded failed) more :=
  List.foldl_append

/-! ## Steps aside -/

/-- A transaction is the given one or a savepoint over it, at any number of removes. -/
inductive Descends (l : Ledger) (base : TransactionId) : TransactionId → Prop
  | self (there : base < l.transactions.size) : Descends l base base
  | onto {id below : TransactionId} {x : Transaction} (found : l.transactions[id]? = some x)
      (parent : x.parent = some below) (lower : Descends l base below) : Descends l base id

theorem Descends.le (rooted : l.Rooted) (descends : l.Descends base id) : base ≤ id := by
  induction descends with
  | self there => exact Nat.le_refl base
  | onto found parent lower ih => exact Nat.le_trans ih (Nat.le_of_lt (rooted.lower found parent))

theorem Descends.there (descends : l.Descends base id) : id < l.transactions.size := by
  cases descends with
  | self there => exact there
  | onto found parent lower => exact (Array.getElem?_eq_some_iff.mp found).1

/-- Each of several steps names the given transaction or a savepoint over it, and none of them
    commits the given transaction. -/
inductive Confined (base : TransactionId) : Ledger → List Step → Prop
  | nil {l : Ledger} : Confined base l []
  | cons {l : Ledger} {step : Step} {steps : List Step} {id : TransactionId}
      (target : step.target? = some id) (descends : l.Descends base id)
      (kept : step = .commit base → (l.take step).2 ≠ .done)
      (later : Confined base (l.take step).1 steps) : Confined base l (step :: steps)

/-- Two ledgers agree on the transactions made before the given one and on what is durable. -/
structure Apart (l : Ledger) (base : TransactionId) (m : Ledger) : Prop where
  older : ∀ i, i < base → m.transactions[i]? = l.transactions[i]?
  committed : m.committed = l.committed

theorem Apart.refl (l : Ledger) (base : TransactionId) : l.Apart base l := ⟨fun _ _ => rfl, rfl⟩

theorem Apart.trans (first : l.Apart base m) (second : m.Apart base next) : l.Apart base next where
  older i low := (second.older i low).trans (first.older i low)
  committed := second.committed.trans first.committed

theorem Apart.of_change (high : base ≤ id) (f : Transaction → Transaction)
    (transactions : m.transactions = (l.change id f).transactions)
    (committed : m.committed = l.committed) : l.Apart base m where
  older i low := by
    have other : id ≠ i := Nat.ne_of_gt (Nat.lt_of_lt_of_le low high)
    simp [transactions, change, Array.getElem?_modify, other]
  committed := committed

theorem Apart.settled {result : Except LedgerError Ledger}
    (apart : ∀ next, result = .ok next → l.Apart base next) : l.Apart base (l.settled result).1 := by
  cases result with
  | ok next => exact apart next rfl
  | error e => exact .refl l base

/-- A savepoint is committed into what descends from the given transaction, unless it is that
    transaction. -/
theorem Apart.commit (rooted : l.Rooted) (descends : l.Descends base id)
    (kept : id = base → ∀ next, l.commit id ≠ .ok next) (committed : l.commit id = .ok next) :
    l.Apart base next := by
  have other : id ≠ base := fun same => kept same next committed
  cases descends with
  | self there => exact absurd rfl other
  | @onto _ below x found parent lower =>
    have low := lower.le rooted
    have high := Nat.le_trans low (Nat.le_of_lt (rooted.lower found parent))
    simp only [Ledger.commit, found, parent] at committed
    split at committed
    · cases committed
    · cases committed
      exact (Apart.of_change low _ rfl rfl).trans (.of_change high _ rfl rfl)

theorem Apart.rollback (high : base ≤ id) : l.Apart base (l.rollback id) := by
  refine ⟨?_, rollback_committed l id⟩
  unfold Ledger.rollback
  split
  · exact fun _ _ => rfl
  · split
    · exact fun _ _ => rfl
    · simp only [release_eq]
      split <;> exact (Apart.of_change high _ rfl rfl).older

/-- A step on a transaction or on a savepoint over it leaves what is below alone, unless it commits
    the transaction. -/
theorem take_apart (rooted : l.Rooted) (target : step.target? = some id)
    (descends : l.Descends base id) (kept : step = .commit base → (l.take step).2 ≠ .done) :
    l.Apart base (l.take step).1 := by
  have made : step.target?.all (· < l.transactions.size) = true := by
    simp [target, descends.there]
  have high := descends.le rooted
  rw [take, if_pos made] at kept ⊢
  cases step with
  | begin => cases target
  | recordFailure key failure => cases target
  | savepoint _ =>
    simp only [act, savepoint]
    split
    · refine ⟨fun i low => ?_, rfl⟩
      have old : i ≠ l.transactions.size :=
        Nat.ne_of_lt (Nat.lt_of_lt_of_le low (Nat.le_of_lt (Nat.lt_of_le_of_lt high descends.there)))
      simp [extended, Array.getElem?_push, old]
    · exact .refl l base
  | markInFlight _ key =>
    cases target
    refine .settled fun next marked => ?_
    simp only [markInFlight] at marked
    split at marked <;> cases marked
    exact .of_change high _ rfl rfl
  | forget _ key =>
    cases target
    exact .of_change high _ rfl rfl
  | complete _ key declarations =>
    cases target
    refine .settled fun next completed => ?_
    simp only [complete] at completed
    split at completed <;> cases completed
    exact .of_change high _ rfl rfl
  | fail _ key failure =>
    cases target
    exact (Apart.of_change (m := l.change id _) high _ rfl rfl).trans ⟨fun _ _ => rfl, rfl⟩
  | commit _ =>
    cases target
    refine .settled fun next committed => .commit rooted descends (fun same other done => ?_) committed
    subst same
    exact kept rfl (by simp [act, Ledger.settled, done])
  | rollback _ =>
    cases target
    exact .rollback high

/-- Steps on a transaction and on savepoints over it, the transaction itself not being committed,
    leave alone all that was made before the transaction and all that is durable, but for the
    failures that they record. -/
theorem Confined.apart {steps : List Step} (confined : Confined base l steps) (rooted : l.Rooted) :
    l.Apart base (l.taking steps) ∧
      (l.taking steps).failures = withFailures l.failures (steps.flatMap Step.failures) := by
  induction confined with
  | nil => exact ⟨.refl _ base, rfl⟩
  | @cons l step steps id target descends kept later ih =>
    obtain ⟨apart, failures⟩ := ih (rooted.take step)
    have made : step.target?.all (· < l.transactions.size) = true := by
      simp [target, descends.there]
    refine ⟨(take_apart rooted target descends kept).trans apart, ?_⟩
    rw [List.flatMap_cons, withFailures_append, ← take_failures_eq made]
    exact failures

/-! ## What a trial tells -/

/-- A transaction under which nothing is noted of an entity knows what is durable. -/
theorem entryIn_unnoted (unnoted : ∀ x ∈ l.chain id, x.overlay.get? key = none) :
    l.entryIn id key = l.entry key := by
  induction id using Nat.strongRecOn with
  | _ id ih =>
    cases found : l.transactions[id]? with
    | none => exact entryIn_of_none found
    | some x =>
      rw [chain_eq found] at unnoted
      rw [entryIn_eq found, unnoted x (by simp), Option.getD_none]
      cases below : x.parent with
      | none => rfl
      | some lower =>
        rw [below] at unnoted
        simp only [under, entryUnder] at unnoted ⊢
        split
        · next younger =>
          rw [if_pos younger] at unnoted
          exact ih lower younger fun y member => unnoted y (List.mem_cons_of_mem x member)
        · rfl

/-- What is durable of an entity once failures have been recorded. -/
theorem entry_failing {failed : List (EntityKey × StructuralFailure)}
    (committed : m.committed = l.committed)
    (failures : m.failures = withFailures l.failures failed) :
    m.entry key = (l.entry key).failing (Table.lookupIn key failed) := by
  simp only [entry, committed, failures, withFailures, Table.get?_foldl_putNew]
  cases l.committed.get? key with
  | some declarations => rfl
  | none =>
    cases l.failures.get? key with
    | some failure => rfl
    | none => cases Table.lookupIn key failed <;> rfl

theorem Telling.chain (telling : l.Telling) (id : TransactionId) : ∀ x ∈ l.chain id, x.Telling := by
  induction id using Nat.strongRecOn with
  | _ id ih =>
    intro y member
    cases found : l.transactions[id]? with
    | none =>
      rw [Ledger.chain, found] at member
      cases member
    | some x =>
      rw [chain_eq found] at member
      rcases List.mem_cons.mp member with rfl | further
      · exact telling id y found
      · cases below : x.parent with
        | none => simp [below, under] at further
        | some lower =>
          simp only [below, under] at further
          split at further
          · next younger => exact ih lower younger y further
          · cases further

/-- A transaction over which a trial has run knows what it knew, but what was not started may have
    failed. -/
theorem entryIn_failing {failed : List (EntityKey × StructuralFailure)} (telling : l.Telling)
    (apart : l.Apart base m) (low : id < base)
    (failures : m.failures = withFailures l.failures failed) :
    m.entryIn id key = (l.entryIn id key).failing (Table.lookupIn key failed) := by
  have older : ∀ i, i ≤ id → m.transactions[i]? = l.transactions[i]? :=
    fun i below => apart.older i (Nat.lt_of_le_of_lt below low)
  by_cases fresh : l.entryIn id key = .notStarted
  · -- nothing on the chain tells of the entity, so it is the durable record that does
    have noted := fun x member => (telling.chain id x member).noted key
    obtain ⟨unnoted, _⟩ := entryIn_notStarted noted fresh
    rw [entryIn_unnoted unnoted, entryIn_unnoted (chain_same older ▸ unnoted)]
    exact entry_failing apart.committed failures
  · have same : l.entryIn id key ≠ .notStarted → m.entryIn id key = l.entryIn id key := by
      refine @entryIn_related l m id (fun e f => e ≠ .notStarted → f = e) (fun _ _ => rfl)
        (fun key started => ?_) (fun i below => congrArg (Option.map _) (older i below)) key
      rw [entry_failing apart.committed failures, Entry.failing_of_started started]
    rw [same fresh, Entry.failing_of_started fresh]

/-- What lies below a transaction, once failures have been recorded. -/
theorem entryUnder_failing {failed : List (EntityKey × StructuralFailure)} (telling : l.Telling)
    (apart : l.Apart base m)
    (failures : m.failures = withFailures l.failures failed)
    (parent : Option TransactionId) (key : EntityKey) :
    m.entryUnder base parent key =
      (l.entryUnder base parent key).failing (Table.lookupIn key failed) := by
  cases parent with
  | none => exact entry_failing apart.committed failures
  | some below =>
    simp only [entryUnder]
    split
    · next low => exact entryIn_failing telling apart low failures
    · exact entry_failing apart.committed failures

/-! ## Notes -/

/-- What is noted of an entity in a transaction. -/
inductive Note
  | markInFlight (key : EntityKey)
  | complete (key : EntityKey) (declarations : List Declaration)
  | fail (key : EntityKey) (failure : StructuralFailure)

namespace Note

/-- The step that takes a note in the given transaction. -/
def on (id : TransactionId) : Note → Step
  | markInFlight key => .markInFlight id key
  | complete key declarations => .complete id key declarations
  | fail key failure => .fail id key failure

/-- What a note says of its entity. -/
def written : Note → EntityKey × Entry
  | markInFlight key => (key, .inFlight)
  | complete key declarations => (key, .committed declarations)
  | fail key failure => (key, .failed failure)

/-- The completion that a note stands for. -/
def completions : Note → List Completion
  | complete key declarations => [(key, declarations)]
  | _ => []

/-- The failure that is recorded with a note. -/
def failures (note : Note) : List (EntityKey × StructuralFailure) := (note.on 0).failures

/-- A transaction with one more note. -/
def write (note : Note) (x : Transaction) : Transaction :=
  { x with
    overlay := x.overlay.put note.written.1 note.written.2
    pending := x.pending ++ note.completions }

end Note

/-- What is said last of an entity in several notes. -/
def lastNote (key : EntityKey) (notes : List Note) : Option Entry :=
  Table.lookupIn key (notes.map Note.written).reverse

theorem lastNote_cons (key : EntityKey) (note : Note) (notes : List Note) :
    lastNote key (note :: notes) =
      (lastNote key notes).or (if note.written.1 = key then some note.written.2 else none) := by
  rw [lastNote, List.map_cons, List.reverse_cons, Table.lookupIn_append]
  rfl

theorem Note.write_eq (note : Note) : note.write = fun x => { x with
    overlay := x.overlay.put note.written.1 note.written.2
    pending := x.pending ++ note.completions } := rfl

theorem take_note (opened : l.isOpen id = true) (note : Note) :
    l.take (note.on id) = ({ l.change id note.write with
      failures := withFailures l.failures note.failures }, .done) := by
  have made : id < l.transactions.size := by
    obtain ⟨x, found, _⟩ := (isOpen_iff l id).mp opened
    exact (Array.getElem?_eq_some_iff.mp found).1
  have reached : l.take (note.on id) = l.act (note.on id) := by
    cases note <;> simp [take, Note.on, Step.target?, made]
  rw [reached, Note.write_eq]
  cases note with
  | markInFlight key =>
    simp only [act, Note.on, settled, markInFlight, opened, if_true, Note.completions, List.append_nil]
    rfl
  | complete key declarations =>
    simp only [act, Note.on, settled, complete, opened, if_true]
    rfl
  | fail key failure =>
    simp only [act, Note.on, Note.completions, List.append_nil]
    rfl

/-- What notes in an open transaction make of a ledger. -/
structure Noted (l : Ledger) (id : TransactionId) (notes : List Note) (m : Ledger) : Prop where
  opened : m.isOpen id = true
  parent : m.transactions[id]?.map (·.parent) = l.transactions[id]?.map (·.parent)
  others : ∀ i, i ≠ id → m.transactions[i]? = l.transactions[i]?
  entry : ∀ key, m.entryIn id key = (lastNote key notes).getD (l.entryIn id key)
  pending : m.pendingOf id = l.pendingOf id ++ notes.flatMap Note.completions
  failures : m.failures = withFailures l.failures (notes.flatMap Note.failures)

theorem Noted.one (telling : l.Telling) (opened : l.isOpen id = true) (note : Note) :
    l.Noted id [note] (l.take (note.on id)).1 := by
  obtain ⟨x, found, isOpened⟩ := (isOpen_iff l id).mp opened
  rw [take_note opened]
  obtain ⟨m, made⟩ : ∃ m, m = { l.change id note.write with
    failures := withFailures l.failures note.failures } := ⟨_, rfl⟩
  have transactions : m.transactions = (l.change id note.write).transactions := by rw [made]
  have committed : m.committed = l.committed := by rw [made]; rfl
  have failures : m.failures = withFailures l.failures note.failures := by rw [made]
  have changed : m.transactions[id]? = some (note.write x) := by
    rw [transactions, getElem?_change, found]
    rfl
  have silent : ∀ key, note.written.1 ≠ key → Table.lookupIn key note.failures = none := by
    intro key other
    cases note with
    | markInFlight _ => rfl
    | complete _ _ => rfl
    | fail _ failure => exact if_neg other
  rw [← made]
  refine ⟨(isOpen_iff m id).mpr ⟨_, changed, isOpened⟩, ?_, fun i other => ?_, fun key => ?_, ?_, ?_⟩
  · rw [changed, found]
    rfl
  · simp [transactions, change, Array.getElem?_modify, Ne.symm other]
  · have under := entryUnder_failing telling
      (.of_change (Nat.le_refl id) note.write transactions committed) failures x.parent key
    have overlay : (note.write x).overlay.get? key =
        if note.written.1 = key then some note.written.2 else x.overlay.get? key :=
      Table.get?_put x.overlay note.written.1 key note.written.2
    rw [entryIn_eq changed, entryIn_eq found, overlay, lastNote_cons]
    split
    · rfl
    · next other =>
      rw [silent key other, Entry.failing_none] at under
      change _ = (x.overlay.get? key).getD _
      rw [← under]
      rfl
  · simp [pendingOf, changed, found, Note.write]
  · simp [failures]

theorem Noted.cons {note : Note} {notes : List Note} (first : l.Noted id [note] m)
    (more : m.Noted id notes next) : l.Noted id (note :: notes) next where
  opened := more.opened
  parent := more.parent.trans first.parent
  others i other := (more.others i other).trans (first.others i other)
  entry key := by
    rw [more.entry, first.entry, lastNote_cons, lastNote_cons]
    cases lastNote key notes <;> rfl
  pending := by
    rw [more.pending, first.pending, List.append_assoc]
    simp
  failures := by
    rw [more.failures, first.failures, ← withFailures_append]
    simp

theorem Noted.nil (opened : l.isOpen id = true) : l.Noted id [] l where
  opened := opened
  parent := rfl
  others _ _ := rfl
  entry _ := rfl
  pending := (List.append_nil _).symm
  failures := rfl

/-- Notes in an open transaction are all taken, and the last one on an entity is what the transaction
    knows of it. -/
theorem taking_notes (telling : l.Telling) (opened : l.isOpen id = true) (notes : List Note) :
    l.Does (notes.map (·.on id)) ∧ l.Noted id notes (l.taking (notes.map (·.on id))) := by
  induction notes generalizing l with
  | nil => exact ⟨trivial, .nil opened⟩
  | cons note notes ih =>
    have first := Noted.one telling opened note
    obtain ⟨done, noted⟩ := ih (telling.take _) first.opened
    refine ⟨⟨?_, done⟩, first.cons noted⟩
    rw [take_note opened]

/-! ## Committed trials -/

theorem pendingOf_eq (found : l.transactions[id]? = some x) : l.pendingOf id = x.pending := by
  rw [pendingOf, found]
  rfl

/-- A savepoint that is committed over an open transaction: that transaction knows what the savepoint
    knew and has completed what the savepoint had. -/
theorem take_commit (rooted : l.Rooted) (telling : l.Telling) (found : l.transactions[id]? = some x)
    (above : x.parent = some base) (unclosed : x.closed = false) (opened : l.isOpen base = true) :
    (l.take (.commit id)).2 = .done ∧ (l.take (.commit id)).1.isOpen base = true ∧
      (∀ key, (l.take (.commit id)).1.entryIn base key = l.entryIn id key) ∧
      (l.take (.commit id)).1.pendingOf base = l.pendingOf base ++ l.pendingOf id ∧
      (l.take (.commit id)).1.failures = l.failures := by
  have younger := rooted.lower found above
  obtain ⟨p, foundP, openedP⟩ := (isOpen_iff l base).mp opened
  obtain ⟨m, committed, folds⟩ := commit_savepoint found unclosed above (Nat.ne_of_gt younger)
  have absorbed := folds.below x p found foundP
  have taken : l.take (.commit id) = (m, .done) := by
    have made : id < l.transactions.size := (Array.getElem?_eq_some_iff.mp found).1
    simp [take, Step.target?, made, act, committed, settled]
  rw [taken]
  refine ⟨rfl, (isOpen_iff m base).mpr ⟨_, absorbed, openedP⟩, fun key => ?_, ?_, folds.failures⟩
  · exact folds.entryIn younger found above foundP (telling id x found).distinct key
  · rw [pendingOf_eq absorbed, pendingOf_eq foundP, pendingOf_eq found]
    rfl

/-- Two ledgers are the same for a transaction: in what it has completed, in what it knows, and in
    what has failed at all. -/
structure SameFor (id : TransactionId) (l m : Ledger) : Prop where
  pending : l.pendingOf id = m.pendingOf id
  entry : ∀ key, l.entryIn id key = m.entryIn id key
  failures : l.failures = m.failures

theorem SameFor.trans (first : SameFor id l m) (second : SameFor id m next) : SameFor id l next where
  pending := first.pending.trans second.pending
  entry key := (first.entry key).trans (second.entry key)
  failures := first.failures.trans second.failures

/-- Ledgers that are the same for a transaction stay so when the same notes are taken in it. -/
theorem SameFor.noted {n : Ledger} {notes : List Note} (same : SameFor id l m)
    (left : l.Noted id notes next) (right : m.Noted id notes n) : SameFor id next n where
  pending := by rw [left.pending, right.pending, same.pending]
  entry key := by rw [left.entry, right.entry, same.entry]
  failures := by rw [left.failures, right.failures, same.failures]

/-- Notes in an open savepoint, which is then committed. -/
theorem commit_trial (rooted : l.Rooted) (telling : l.Telling) (found : l.transactions[id]? = some x)
    (above : x.parent = some base) (unclosed : x.closed = false) (opened : l.isOpen base = true)
    (notes : List Note) :
    l.Does (notes.map (·.on id) ++ [.commit id]) ∧
      l.Does (.commit id :: notes.map (·.on base)) ∧
      SameFor base (l.taking (notes.map (·.on id) ++ [.commit id]))
        (l.taking (.commit id :: notes.map (·.on base))) := by
  have openedX : l.isOpen id = true := (isOpen_iff l id).mpr ⟨x, found, unclosed⟩
  have apart : base ≠ id := Nat.ne_of_lt (rooted.lower found above)
  -- the notes first and then the commit
  obtain ⟨doneX, notedX⟩ := taking_notes telling openedX notes
  obtain ⟨y, foundY, parentY⟩ : ∃ y, (l.taking (notes.map (·.on id))).transactions[id]? = some y ∧
      y.parent = some base := by
    have parent := notedX.parent
    rw [found, Option.map_some, above] at parent
    exact Option.map_eq_some_iff.mp parent
  obtain ⟨z, foundZ, unclosedZ⟩ := (isOpen_iff _ id).mp notedX.opened
  obtain rfl := Option.some.inj (foundY.symm.trans foundZ)
  have openedP : (l.taking (notes.map (·.on id))).isOpen base = true := by
    rwa [isOpen, notedX.others base apart]
  have pendingP : (l.taking (notes.map (·.on id))).pendingOf base = l.pendingOf base := by
    rw [pendingOf, pendingOf, notedX.others base apart]
  obtain ⟨doneC, _, entryC, pendingC, failuresC⟩ := take_commit (rooted.taking _) (telling.taking _)
    foundY parentY unclosedZ openedP
  -- the commit first and then the notes
  obtain ⟨doneF, openedF, entryF, pendingF, failuresF⟩ :=
    take_commit rooted telling found above unclosed opened
  obtain ⟨doneP, notedP⟩ := taking_notes (telling.take _) openedF notes
  refine ⟨(does_append_iff ..).mpr ⟨doneX, doneC, trivial⟩, ⟨doneF, doneP⟩, ?_⟩
  rw [taking_append]
  refine ⟨?_, fun key => ?_, ?_⟩
  · calc ((l.taking (notes.map (·.on id))).take (.commit id)).1.pendingOf base
        = l.pendingOf base ++ (l.pendingOf id ++ notes.flatMap Note.completions) := by
          rw [pendingC, pendingP, notedX.pending]
      _ = ((l.take (.commit id)).1.taking (notes.map (·.on base))).pendingOf base := by
          rw [notedP.pending, pendingF, List.append_assoc]
  · calc ((l.taking (notes.map (·.on id))).take (.commit id)).1.entryIn base key
        = (lastNote key notes).getD (l.entryIn id key) := by rw [entryC, notedX.entry]
      _ = ((l.take (.commit id)).1.taking (notes.map (·.on base))).entryIn base key := by
          rw [notedP.entry, entryF]
  · calc ((l.taking (notes.map (·.on id))).take (.commit id)).1.failures
        = withFailures l.failures (notes.flatMap Note.failures) := by rw [failuresC, notedX.failures]
      _ = ((l.take (.commit id)).1.taking (notes.map (·.on base))).failures := by
          rw [notedP.failures, failuresF]

/-- A savepoint that has completed nothing and knows what the transaction below it knows. -/
def Idle (l : Ledger) (base id : TransactionId) : Prop :=
  l.pendingOf id = [] ∧ ∀ key, l.entryIn id key = l.entryIn base key

/-- A savepoint that has just been made is idle. -/
theorem idle_savepoint (made : l.savepoint base = .ok (id, m)) : m.Idle base id := by
  unfold savepoint at made
  split at made
  · next opened =>
    obtain ⟨x, found, _⟩ := (isOpen_iff l base).mp opened
    have there : base < l.transactions.size := (Array.getElem?_eq_some_iff.mp found).1
    cases made
    refine ⟨by simp [pendingOf], fun key => (entryIn_savepoint there).trans ?_⟩
    refine entryIn_same (l := { l with transactions := l.transactions.push { parent := some base } })
      (m := l) rfl rfl (fun i low => ?_) key
    have old : i ≠ l.transactions.size := Nat.ne_of_lt (Nat.lt_of_le_of_lt low there)
    simp [overlayOf, Array.getElem?_push, old]
  · cases made

/-- A savepoint is a trial for the open transaction below it, whatever has been done before. Steps on
    the savepoint and on savepoints over it, as long as it is not committed itself, with or without
    its rollback at the end, leave the transaction what it has completed and what it knows, and leave
    the durable declarations, except that what was not started has failed if one of the steps failed
    it. Notes in the savepoint, if it is open, and then its commit leave the transaction the same, in
    what it has completed, what it knows and what has failed, as the commit at once and then the same
    notes in the transaction; and the same as those notes alone, if the savepoint was idle. -/
theorem savepoint_trial (history : List Step) {outer id : TransactionId} {x : Transaction}
    (opened : (Run.of history).ledger.isOpen outer = true)
    (found : (Run.of history).ledger.transactions[id]? = some x) (above : x.parent = some outer) :
    (∀ steps, Confined id (Run.of history).ledger steps →
      ((Run.of history).ledger.taking steps).pendingOf outer =
        (Run.of history).ledger.pendingOf outer ∧
      ((Run.of history).ledger.taking steps).committed = (Run.of history).ledger.committed ∧
      ∀ key, ((Run.of history).ledger.taking steps).entryIn outer key =
        ((Run.of history).ledger.entryIn outer key).failing (firstFailure key steps)) ∧
    (x.closed = false → ∀ notes : List Note,
      (Run.of history).ledger.Does (notes.map (·.on id) ++ [.commit id]) ∧
      (Run.of history).ledger.Does (.commit id :: notes.map (·.on outer)) ∧
      SameFor outer ((Run.of history).ledger.taking (notes.map (·.on id) ++ [.commit id]))
        ((Run.of history).ledger.taking (.commit id :: notes.map (·.on outer))) ∧
      ((Run.of history).ledger.Idle outer id →
        (Run.of history).ledger.Does (notes.map (·.on outer)) ∧
        SameFor outer ((Run.of history).ledger.taking (notes.map (·.on id) ++ [.commit id]))
          ((Run.of history).ledger.taking (notes.map (·.on outer))))) := by
  have rooted := (tracked_run history).rooted
  have telling := telling_run history
  have lower := rooted.lower found above
  refine ⟨fun steps confined => ?_, fun unclosed notes => ?_⟩
  · obtain ⟨apart, failures⟩ := confined.apart rooted
    refine ⟨?_, apart.committed, fun key => entryIn_failing telling apart lower failures⟩
    rw [pendingOf, pendingOf, apart.older outer lower]
  · obtain ⟨doneNotes, doneCommit, same⟩ :=
      commit_trial rooted telling found above unclosed opened notes
    refine ⟨doneNotes, doneCommit, same, fun idle => ?_⟩
    obtain ⟨doneP, notedP⟩ := taking_notes telling opened notes
    obtain ⟨_, openedF, entryF, pendingF, failuresF⟩ :=
      take_commit rooted telling found above unclosed opened
    obtain ⟨_, notedF⟩ := taking_notes (telling.take _) openedF notes
    have unchanged : SameFor outer ((Run.of history).ledger.take (.commit id)).1
        (Run.of history).ledger :=
      { pending := by rw [pendingF, idle.1, List.append_nil]
        entry := fun key => (entryF key).trans (idle.2 key)
        failures := failuresF }
    exact ⟨doneP, same.trans (unchanged.noted notedF notedP)⟩

/-- A savepoint in which one entity is completed is a trial: rolled back, it is as if nothing had
    been done but for the failure of another one, and committed, as if the entity had been completed
    below it. -/
theorem savepoint_trial_once :
    ((Run.of [.begin, .savepoint 0]).ledger.isOpen 0 = true ∧
      (Run.of [.begin, .savepoint 0]).ledger.transactions[1]?.map (·.parent) = some (some 0)) ∧
    Confined 1 (Run.of [.begin, .savepoint 0]).ledger
      [.fail 1 ⟨.type, ⟨"Ns", "A"⟩, false⟩ ⟨.emptySignature, none⟩, .rollback 1] ∧
    ((Run.of [.begin, .savepoint 0]).ledger.taking
      [.fail 1 ⟨.type, ⟨"Ns", "A"⟩, false⟩ ⟨.emptySignature, none⟩, .rollback 1]).entryIn 0
        ⟨.type, ⟨"Ns", "A"⟩, false⟩ = .failed ⟨.emptySignature, none⟩ ∧
    SameFor 0
      ((Run.of [.begin, .savepoint 0]).ledger.taking
        ([Note.complete ⟨.type, ⟨"Ns", "B"⟩, false⟩ []].map (·.on 1) ++ [.commit 1]))
      ((Run.of [.begin, .savepoint 0]).ledger.taking
        ([Note.complete ⟨.type, ⟨"Ns", "B"⟩, false⟩ []].map (·.on 0))) := by
  have made : (Run.of [.begin, .savepoint 0]).ledger.transactions[1]? = some { parent := some 0 } :=
    rfl
  have confined : Confined 1 (Run.of [.begin, .savepoint 0]).ledger
      [.fail 1 ⟨.type, ⟨"Ns", "A"⟩, false⟩ ⟨.emptySignature, none⟩, .rollback 1] := by
    refine .cons rfl (.self (by decide)) nofun (.cons rfl (.self (by decide)) nofun .nil)
  have idle : (Run.of [.begin, .savepoint 0]).ledger.Idle 0 1 :=
    idle_savepoint (l := (Run.of [.begin]).ledger) rfl
  have fresh : (Run.of [.begin, .savepoint 0]).ledger.entryIn 0 ⟨.type, ⟨"Ns", "A"⟩, false⟩ =
      .notStarted := entryIn_eq (t := {}) rfl
  obtain ⟨aside, through⟩ := savepoint_trial [.begin, .savepoint 0] rfl made rfl
  refine ⟨⟨rfl, rfl⟩, confined, ?_, ((through rfl _).2.2.2 idle).2⟩
  rw [(aside _ confined).2.2, fresh]
  simp [firstFailure, Step.failures, Table.lookupIn, Entry.failing]

/-- A savepoint brings with it what it held before: the entity completed first is completed below it
    after the commit, and the same notes taken below it alone do not tell of it. -/
theorem commit_carries_earlier :
    let l := (Run.of [.begin, .savepoint 0, .complete 1 ⟨.type, ⟨"Ns", "A"⟩, false⟩ []]).ledger
    let notes := [Note.complete ⟨.type, ⟨"Ns", "B"⟩, false⟩ []]
    (l.isOpen 0 = true ∧ l.isOpen 1 = true ∧ l.transactions[1]?.map (·.parent) = some (some 0)) ∧
    ((l.taking (notes.map (·.on 1) ++ [.commit 1])).pendingOf 0).map (·.1.name.name) = ["A", "B"] ∧
    ((l.taking (notes.map (·.on 0))).pendingOf 0).map (·.1.name.name) = ["B"] ∧
    ¬ SameFor 0 (l.taking (notes.map (·.on 1) ++ [.commit 1])) (l.taking (notes.map (·.on 0))) := by
  refine ⟨⟨rfl, rfl, rfl⟩, rfl, rfl, fun same => ?_⟩
  have pending := congrArg (List.map (·.1.name.name)) same.pending
  exact absurd pending (by decide)

end Ledger
end Bindings
