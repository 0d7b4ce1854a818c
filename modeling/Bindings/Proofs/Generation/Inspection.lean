import Bindings.Proofs.Generation.Outcome
import Bindings.Proofs.Ledger.Chain

/-!
# Generation with inspections

A ledger can be inspected at each point of a run: before and after each production, each producer,
each savepoint and each transaction, so that there is at most one step of the ledger from one
inspection to the next. The ledger is orderly at all of them, so the run is not told from one in
which an inspection raises an alarm.
-/

namespace Bindings

variable {env : Environment} {α β : Type} {s t u : State} {id : TransactionId}

/-! ## Inspections -/

open Classical in
/-- Raises an alarm unless the ledger is orderly. -/
noncomputable def inspect (alarm : Failure) : Gen Unit := do
  if (← get).ledger.Orderly then return else throw alarm

/-- Inspects the ledger before and after a computation, whether it fails or not. -/
noncomputable def inspecting (alarm : Failure) (body : Gen α) : Gen α := do
  inspect alarm
  let result ← Gen.attempt body
  inspect alarm
  match result with
  | .ok a => return a
  | .error e => throw e

theorem inspect_eq (orderly : s.ledger.Orderly) (alarm : Failure) : inspect alarm env s = .ok () s := by
  unfold inspect
  rw [Gen.get_bind, if_pos orderly]
  rfl

theorem inspecting_eq {body : Gen α} (alarm : Failure) (orderly : s.ledger.Orderly)
    (leads : Gen.Leads env s body (fun _ t => t.ledger.Orderly) fun t => t.ledger.Orderly) :
    inspecting alarm body env s = body env s := by
  unfold inspecting
  rw [Gen.bind_eq, inspect_eq orderly]
  dsimp only
  rw [Gen.bind_eq, Gen.attempt_eq]
  unfold Gen.Leads at leads
  cases ended : body env s with
  | ok a t =>
    rw [ended] at leads
    dsimp only
    rw [Gen.bind_eq, inspect_eq leads]
    rfl
  | error e t =>
    rw [ended] at leads
    dsimp only
    rw [Gen.bind_eq, inspect_eq leads]
    rfl

/-- The links to chains of at most the given number of entities, where each production and each
    producer is inspected. -/
noncomputable def Links.inspected (alarm : Failure) : Nat → Links
  | 0 => Links.upTo 0
  | depth + 1 =>
    let inner := Links.inspected alarm depth
    { demand := fun e => inspecting alarm (produce e.key (inspecting alarm (declarationsOf inner e)))
      functionPointer := expandDelegate inner }

/-! ## Tidy transactions -/

/-- A chain is orderly, and what has not been started is not noted on it. -/
structure Ledger.Laid (durable : Table EntityKey (List Declaration)) (chain : List Transaction) : Prop
    extends OrderlyChain durable chain where
  noted : ∀ x ∈ chain, ∀ key, x.overlay.get? key ≠ some .notStarted

theorem Ledger.Laid.cons {durable : Table EntityKey (List Declaration)} {below : List Transaction}
    {x : Transaction} (laid : Laid durable below) (fits : x.Fits durable below) :
    Laid durable (x :: below) where
  toOrderlyChain := laid.toOrderlyChain.cons fits
  noted y member := by
    rcases List.mem_cons.mp member with rfl | further
    · exact fits.noted
    · exact laid.noted y further

/-- The current transaction is the newest open one, it fits over those below it, and the chains of
    all others are orderly. -/
structure Tidy (id : TransactionId) (s : State) : Prop extends s.In id where
  newest : ∀ i, s.ledger.isOpen i = true → i ≤ id
  older : ∀ i, s.ledger.isOpen i = true → i < id → Ledger.Laid s.ledger.committed (s.ledger.chain i)
  below : ∀ x, s.ledger.transactions[id]? = some x →
    Ledger.Laid s.ledger.committed (s.ledger.under id x.parent)
  fits : ∀ x, s.ledger.transactions[id]? = some x →
    x.Fits s.ledger.committed (s.ledger.under id x.parent)

theorem Tidy.laid (tidy : Tidy id s) {i : TransactionId} (opened : s.ledger.isOpen i = true) :
    Ledger.Laid s.ledger.committed (s.ledger.chain i) := by
  rcases Nat.lt_or_eq_of_le (tidy.newest i opened) with lower | rfl
  · exact tidy.older i opened lower
  · obtain ⟨x, found, _⟩ := tidy.toIn.found
    rw [Ledger.chain_eq found]
    exact (tidy.below x found).cons (tidy.fits x found)

theorem Tidy.orderly (tidy : Tidy id s) : s.ledger.Orderly :=
  fun _ opened => (tidy.laid opened).toOrderlyChain

/-- The current transaction stays tidy when it alone changes, still fits, and none is opened. -/
theorem Tidy.follow (tidy : Tidy id s) (current : t.current = s.current)
    (committed : t.ledger.committed = s.ledger.committed)
    (newest : ∀ i, t.ledger.isOpen i = true → i ≤ id)
    (older : ∀ i, i < id → t.ledger.transactions[i]? = s.ledger.transactions[i]?)
    (here : ∀ x, s.ledger.transactions[id]? = some x →
      x.Fits s.ledger.committed (s.ledger.under id x.parent) →
        ∃ y, t.ledger.transactions[id]? = some y ∧ y.parent = x.parent ∧ y.closed = x.closed ∧
          y.Fits s.ledger.committed (s.ledger.under id x.parent)) : Tidy id t := by
  obtain ⟨x, found, opened⟩ := tidy.toIn.found
  obtain ⟨y, foundT, parent, closed, fits⟩ := here x found (tidy.fits x found)
  have under : t.ledger.under id y.parent = s.ledger.under id x.parent := by
    rw [parent]
    exact Ledger.under_same older _
  have only : ∀ z, t.ledger.transactions[id]? = some z → z = y :=
    fun z foundZ => Option.some.inj (foundZ.symm.trans foundT)
  refine {
    current := current.trans tidy.current
    opened := (Ledger.isOpen_iff _ id).mpr ⟨y, foundT, closed.trans opened⟩
    newest
    older := fun i opened lower => ?_
    below := fun z foundZ => ?_
    fits := fun z foundZ => ?_ }
  · rw [committed, Ledger.chain_same fun j low => older j (Nat.lt_of_le_of_lt low lower)]
    refine tidy.older i ?_ lower
    rwa [Ledger.isOpen, older i lower] at opened
  · rw [only z foundZ, committed, under]
    exact tidy.below x found
  · rw [only z foundZ, committed, under]
    exact fits

/-! ## Frames -/

/-- A computation has changed at most the current transaction and what is remembered. What is being
    produced in the transaction still is. -/
structure Frames (id : TransactionId) (s t : State) : Prop where
  current : t.current = s.current
  committed : t.ledger.committed = s.ledger.committed
  others : ∀ i, i ≠ id → t.ledger.transactions[i]? = s.ledger.transactions[i]?
  here : ∀ x, s.ledger.transactions[id]? = some x → ∃ y, t.ledger.transactions[id]? = some y ∧
    y.parent = x.parent ∧ y.closed = x.closed ∧
      ∀ key, x.overlay.get? key = some .inFlight → y.overlay.get? key = some .inFlight

theorem Frames.same (current : t.current = s.current) (ledger : t.ledger = s.ledger) :
    Frames id s t where
  current := current
  committed := by rw [ledger]
  others _ _ := by rw [ledger]
  here x found := ⟨x, by rw [ledger, found], rfl, rfl, fun _ h => h⟩

theorem Frames.trans (first : Frames id s t) (second : Frames id t u) : Frames id s u where
  current := second.current.trans first.current
  committed := second.committed.trans first.committed
  others i other := (second.others i other).trans (first.others i other)
  here x found := by
    obtain ⟨y, foundT, parent, closed, flying⟩ := first.here x found
    obtain ⟨z, foundU, parent', closed', flying'⟩ := second.here y foundT
    exact ⟨z, foundU, parent'.trans parent, closed'.trans closed, fun key h => flying' key (flying key h)⟩

/-- A computation has left the current transaction tidy. -/
structure Stays (id : TransactionId) (s t : State) : Prop extends Frames id s t where
  tidy : Tidy id t

/-- A state in which an entity has been noted in the current transaction, and else only failures. -/
structure Rewrites (id : TransactionId) (f : Transaction → Transaction) (s t : State) : Prop where
  current : t.current = s.current
  committed : t.ledger.committed = s.ledger.committed
  transactions : t.ledger.transactions = s.ledger.transactions.modify id f

/-- What a note on an entity does to a transaction. -/
structure Transaction.Notes (key : EntityKey) (f : Transaction → Transaction) : Prop where
  parent : ∀ x, (f x).parent = x.parent
  closed : ∀ x, (f x).closed = x.closed
  others : ∀ x other, key ≠ other → (f x).overlay.get? other = x.overlay.get? other
  noted : ∀ x, (f x).overlay.get? key ≠ some .notStarted
  pending : ∀ x, (f x).pending = x.pending ∧
      (∀ declarations, (f x).overlay.get? key ≠ some (.committed declarations)) ∨
    ∃ declarations, (f x).pending = x.pending ++ [(key, declarations)] ∧
      (f x).overlay.get? key = some (.committed declarations)

section
variable {key : EntityKey} {f g : Transaction → Transaction}

/-- A note on an entity that is not complete on the chain leaves the transaction tidy. -/
theorem Tidy.note (tidy : Tidy id s) (notes : Transaction.Notes key f) (rewrites : Rewrites id f s t)
    (unproduced : ∀ x, s.ledger.transactions[id]? = some x →
      ∀ declarations, x.overlay.get? key ≠ some (.committed declarations))
    (free : ∀ x, s.ledger.transactions[id]? = some x →
      key ∉ (s.ledger.under id x.parent).flatMap Transaction.completedKeys ∧
        s.ledger.committed.get? key = none) : Tidy id t := by
  have others : ∀ i, i ≠ id → t.ledger.transactions[i]? = s.ledger.transactions[i]? := by
    intro i other
    rw [rewrites.transactions, Array.getElem?_modify, if_neg (Ne.symm other)]
  refine tidy.follow rewrites.current rewrites.committed (fun i opened => ?_)
    (fun i lower => others i (Nat.ne_of_lt lower)) fun x found fits => ?_
  · by_cases same : i = id
    · exact Nat.le_of_eq same
    · rw [Ledger.isOpen, others i same] at opened
      exact tidy.newest i opened
  · refine ⟨f x, ?_, notes.parent x, notes.closed x, ?_⟩
    · rw [rewrites.transactions, Array.getElem?_modify, if_pos rfl, found]
      rfl
    · exact fits.note (unproduced x found) (free x found) (notes.others x) (notes.noted x)
        (notes.pending x)

/-- An entity that has not been started is noted. -/
theorem Tidy.start (tidy : Tidy id s) (fresh : s.entry key = .notStarted)
    (notes : Transaction.Notes key f) (rewrites : Rewrites id f s t) : Stays id s t := by
  have noted : ∀ x ∈ s.ledger.chain id, x.overlay.get? key ≠ some .notStarted :=
    fun x member => (tidy.laid tidy.opened).noted x member key
  have atId : s.ledger.entryIn id key = .notStarted := by
    rwa [State.entry, tidy.current] at fresh
  obtain ⟨unnoted, durable⟩ := Ledger.entryIn_notStarted noted atId
  have here : ∀ x, s.ledger.transactions[id]? = some x → x.overlay.get? key = none := by
    intro x found
    exact unnoted x (by rw [Ledger.chain_eq found]; simp)
  refine {
    current := rewrites.current
    committed := rewrites.committed
    others := fun i other => ?_
    here := fun x found => ⟨f x, ?_, notes.parent x, notes.closed x, fun other flying => ?_⟩
    tidy := tidy.note notes rewrites (fun x found declarations held => ?_)
      fun x found => ⟨fun member => ?_, durable⟩ }
  · rw [rewrites.transactions, Array.getElem?_modify, if_neg (Ne.symm other)]
  · rw [rewrites.transactions, Array.getElem?_modify, if_pos rfl, found]
    rfl
  · have apart : key ≠ other := by
      rintro rfl
      rw [here x found] at flying
      cases flying
    rw [notes.others x other apart, flying]
  · rw [here x found] at held
    cases held
  · obtain ⟨y, lower, completed⟩ := List.mem_flatMap.mp member
    obtain ⟨declarations, held⟩ := ((tidy.below x found).exact y lower).noted completed
    rw [unnoted y (by rw [Ledger.chain_eq found]; exact List.mem_cons_of_mem x lower)] at held
    cases held

/-- How the production of an entity ended is noted. -/
theorem Stays.finish (fresh : s.entry key = .notStarted) (tidy : Tidy id s)
    (stays : Stays id (s.marked id key) t) (notes : Transaction.Notes key g)
    (rewrites : Rewrites id g t u) : Stays id s u := by
  obtain ⟨x, found, _⟩ := tidy.toIn.found
  have marked : (s.marked id key).ledger.transactions[id]? = some (x.mark key) := by
    rw [State.marked, State.change, Ledger.getElem?_change, found]
    rfl
  obtain ⟨y, foundT, parent, closed, flying⟩ := stays.here _ marked
  have mine : y.overlay.get? key = some .inFlight :=
    flying key ((Table.get?_put x.overlay key key .inFlight).trans (if_pos rfl))
  have only : ∀ z, t.ledger.transactions[id]? = some z → z = y :=
    fun z foundZ => Option.some.inj (foundZ.symm.trans foundT)
  refine {
    current := rewrites.current.trans stays.current
    committed := rewrites.committed.trans stays.committed
    others := fun i other => ?_
    here := fun z foundS => ⟨g y, ?_, ?_, ?_, fun other flies => ?_⟩
    tidy := stays.tidy.note notes rewrites (fun z foundZ declarations held => ?_) fun z foundZ => ?_ }
  · rw [rewrites.transactions, Array.getElem?_modify, if_neg (Ne.symm other), stays.others i other]
    rw [State.marked, State.change, Ledger.change, Array.getElem?_modify, if_neg (Ne.symm other)]
  · rw [rewrites.transactions, Array.getElem?_modify, if_pos rfl, foundT]
    rfl
  · obtain rfl := Option.some.inj (foundS.symm.trans found)
    exact (notes.parent y).trans parent
  · obtain rfl := Option.some.inj (foundS.symm.trans found)
    exact (notes.closed y).trans closed
  · obtain rfl := Option.some.inj (foundS.symm.trans found)
    have apart : key ≠ other := by
      rintro rfl
      have under : s.entry key = .inFlight := by
        rw [State.entry, tidy.current]
        dsimp only
        rw [Ledger.entryIn_eq found, flies]
        rfl
      rw [fresh] at under
      cases under
    rw [notes.others y other apart]
    exact flying other ((Table.get?_put_of_ne z.overlay .inFlight apart).trans flies)
  · rw [only z foundZ, mine] at held
    cases held
  · rw [only z foundZ]
    exact (stays.tidy.fits y foundT).apart key (by simp [mine])

end

/-! ## Computations that stay tidy -/

/-- A computation leaves the current transaction tidy, whether it fails or not, and another one is not
    told from it. -/
def Tidies (env : Environment) (x y : Gen α) : Prop :=
  ∀ id s, Tidy id s → y env s = x env s ∧ Gen.Leads env s x (fun _ => Stays id s) (Stays id s)

theorem Stays.same (tidy : Tidy id s) (current : t.current = s.current) (ledger : t.ledger = s.ledger) :
    Stays id s t where
  toFrames := .same current ledger
  tidy := by
    refine tidy.follow current (by rw [ledger]) (fun i opened => ?_) (fun i _ => by rw [ledger])
      fun x found fits => ⟨x, by rw [ledger, found], rfl, rfl, fits⟩
    rw [ledger] at opened
    exact tidy.newest i opened

theorem Stays.trans (first : Stays id s t) (second : Stays id t u) : Stays id s u where
  toFrames := first.toFrames.trans second.toFrames
  tidy := second.tidy

namespace Tidies
variable {x y : Gen α}

theorem secluded (secluded : Gen.Secluded env x) : Tidies env x x := by
  intro id s tidy
  obtain ⟨result, m, _, ends⟩ := secluded s.memory
  have stays : Stays id s (s.remember m) := .same tidy rfl rfl
  rw [Gen.Leads, ends s rfl]
  refine ⟨rfl, ?_⟩
  cases result <;> exact stays

theorem bind {f g : α → Gen β} (first : Tidies env x y) (rest : ∀ a, Tidies env (f a) (g a)) :
    Tidies env (x >>= f) (y >>= g) := by
  intro id s tidy
  obtain ⟨alike, leads⟩ := first id s tidy
  unfold Gen.Leads at leads ⊢
  rw [Gen.bind_eq, Gen.bind_eq, alike]
  cases ended : x env s with
  | error e t =>
    rw [ended] at leads
    exact ⟨rfl, leads⟩
  | ok a t =>
    rw [ended] at leads
    obtain ⟨alike, later⟩ := rest a id t leads.tidy
    exact ⟨alike, later.imp (fun _ _ stays => leads.trans stays) fun _ stays => leads.trans stays⟩

theorem congr {u v : Gen α} (left : ∀ s, x env s = u env s) (right : ∀ s, y env s = v env s)
    (tidies : Tidies env u v) : Tidies env x y := by
  intro id s tidy
  unfold Gen.Leads
  rw [left, right]
  exact tidies id s tidy

/-- No inspection of a computation that leaves the transaction tidy raises an alarm. -/
theorem inspecting (tidies : Tidies env x y) (alarm : Failure) :
    Tidies env x (inspecting alarm y) := by
  intro id s tidy
  obtain ⟨alike, leads⟩ := tidies id s tidy
  refine ⟨?_, leads⟩
  rw [inspecting_eq alarm tidy.orderly, alike]
  unfold Gen.Leads at leads ⊢
  rw [alike]
  cases ended : x env s with
  | error e t =>
    rw [ended] at leads
    exact leads.tidy.orderly
  | ok a t =>
    rw [ended] at leads
    exact leads.tidy.orderly

/-- Which delegates are being expanded does not matter. -/
theorem expansion (tidies : Tidies env x y) (name : String) :
    Tidies env (inExpansion name x) (inExpansion name y) := by
  intro id s tidy
  unfold Gen.Leads
  rw [inExpansion_eq, inExpansion_eq]
  split
  · exact Tidies.secluded (.fault (.selfReferringDelegate name)) id s tidy
  · have inside : Stays id s { s with expanding := name :: s.expanding } := .same tidy rfl rfl
    obtain ⟨alike, leads⟩ := tidies id _ inside.tidy
    unfold Gen.Leads at leads
    rw [Gen.ensuring_eq, Gen.ensuring_eq, alike]
    refine ⟨rfl, ?_⟩
    cases ended : x env { s with expanding := name :: s.expanding } with
    | error e t =>
      rw [ended] at leads
      exact inside.trans (leads.trans (.same leads.tidy rfl rfl))
    | ok a t =>
      rw [ended] at leads
      exact inside.trans (leads.trans (.same leads.tidy rfl rfl))

end Tidies

/-! ## Productions -/

section
variable {key : EntityKey}

theorem notes_mark (key : EntityKey) : Transaction.Notes key (Transaction.mark key) where
  parent _ := rfl
  closed _ := rfl
  others x _ apart := Table.get?_put_of_ne x.overlay .inFlight apart
  noted x := by simp [Transaction.mark]
  pending x := .inl ⟨rfl, by simp [Transaction.mark]⟩

theorem notes_finish (key : EntityKey) (declarations : List Declaration) :
    Transaction.Notes key (Transaction.finish key declarations) where
  parent _ := rfl
  closed _ := rfl
  others x _ apart := Table.get?_put_of_ne x.overlay _ apart
  noted x := by simp [Transaction.finish]
  pending x := .inr ⟨declarations, rfl, by simp [Transaction.finish]⟩

theorem notes_fail (key : EntityKey) (failure : StructuralFailure) :
    Transaction.Notes key fun x => { x with overlay := x.overlay.put key (.failed failure) } where
  parent _ := rfl
  closed _ := rfl
  others x _ apart := Table.get?_put_of_ne x.overlay _ apart
  noted x := by simp
  pending x := .inl ⟨rfl, by simp⟩

theorem notes_forget (key : EntityKey) :
    Transaction.Notes key fun x => { x with overlay := x.overlay.erase key } where
  parent _ := rfl
  closed _ := rfl
  others x _ apart := by simp [Table.get?_erase, apart]
  noted x := by simp [Table.get?_erase]
  pending x := .inl ⟨rfl, by simp [Table.get?_erase]⟩

theorem Tidies.produce {x y : Gen (List Declaration)} (tidies : Tidies env x y) (key : EntityKey) :
    Tidies env (produce key x) (produce key y) := by
  intro id s tidy
  unfold Gen.Leads
  rw [produce_eq tidy.toIn, produce_eq tidy.toIn]
  cases known : s.entry key with
  | committed declarations => exact ⟨rfl, .same tidy rfl rfl⟩
  | inFlight => exact ⟨rfl, .same tidy rfl rfl⟩
  | failed failure => exact ⟨rfl, .same tidy rfl rfl⟩
  | notStarted =>
    dsimp only
    split
    · exact ⟨rfl, tidy.start known (notes_finish key []) ⟨rfl, rfl, rfl⟩⟩
    · have marked : Stays id s (s.marked id key) := tidy.start known (notes_mark key) ⟨rfl, rfl, rfl⟩
      obtain ⟨alike, leads⟩ := tidies id _ marked.tidy
      unfold Gen.Leads at leads
      rw [alike]
      refine ⟨rfl, ?_⟩
      cases ended : x env (s.marked id key) with
      | ok declarations t =>
        rw [ended] at leads
        simp only [leads.tidy.toIn.complete_eq]
        exact .finish known tidy leads (notes_finish key declarations) ⟨rfl, rfl, rfl⟩
      | error e t =>
        rw [ended] at leads
        cases e with
        | structural failure => exact .finish known tidy leads (notes_fail key _) ⟨rfl, rfl, rfl⟩
        | platformMismatch | input | cancelled | ledger | badLimit | depthExceeded =>
          exact .finish known tidy leads (notes_forget key) ⟨rfl, rfl, rfl⟩

end

/-- Computations that leave transactions tidy, compared with what is inspected. -/
def Comparison.tidy (env : Environment) : Comparison env :=
  .ofSecluded (Tidies env) .congr .secluded .bind

/-- The links of a session, compared with links on which all is inspected. -/
theorem inspected_linked (alarm : Failure) (depth : Nat) :
    (Comparison.tidy env).Linked (Links.upTo depth) (Links.inspected alarm depth) := by
  induction depth with
  | zero => exact ⟨fun _ _ => .secluded (.throw .depthExceeded), fun _ _ => .secluded (.throw .depthExceeded)⟩
  | succ depth ih =>
    refine ⟨fun e asked => ?_, fun t _ => ?_⟩
    · have made : Tidies env (declarationsOf (Links.upTo depth) e) _ := declarationsOf_matches ih asked
      exact ((made.inspecting alarm).produce e.key).inspecting alarm
    · have written : Tidies env (delegateType (Links.upTo depth) t) _ := delegateType_matches ih t
      exact written.expansion t.full

end Bindings
