import Bindings.Proofs.Generation.Entities
import Bindings.Proofs.Ledger.Reading

/-!
# Production

Producing an entity grows the state by completions that are accounted for, or fails and keeps
it. Links to chains of any length do so, by induction on the length.
-/

namespace Bindings
open Bindings.Metadata

variable {env : Environment} {D : Discipline env} {s t u : State}

/-! ## Notes in the current transaction -/

/-- A state after a change of one transaction. -/
def State.change (s : State) (id : TransactionId) (f : Transaction → Transaction) : State :=
  { s with ledger := s.ledger.change id f }

/-- A change of the current transaction that leaves its standing keeps all else. -/
theorem Keeps.change {id : TransactionId} (current : s.current = some id)
    {f : Transaction → Transaction} (standing : ∀ x, (f x).parent = x.parent ∧ (f x).closed = x.closed) :
    Keeps s (s.change id f) where
  current := rfl
  active := rfl
  committed := rfl
  failures := List.prefix_refl _
  size := by simp [State.change, Ledger.change]
  others other _ different := by
    have apart : id ≠ other := by
      rintro rfl
      exact different current
    simp [State.change, Ledger.change, Array.getElem?_modify, apart]
  standing other _ := by
    simp only [State.standing, State.change, Ledger.change, Array.getElem?_modify]
    split
    · rw [Option.map_map]
      refine congrArg (Option.map · _) (funext fun x => ?_)
      simp [standing x]
    · rfl
  closed other x beyond found := by
    rw [Array.getElem?_eq_none (by simpa [State.change, Ledger.change] using beyond)] at found
    cases found
  expanding := rfl
  conforms _ _ h := h
  judges _ _ h := h
  unasked _ := rfl

/-- What is remembered stays true whatever becomes of the ledger. -/
theorem Discipline.Safe.moved (safe : D.Safe s) (ledger : Ledger) (current : Option TransactionId) :
    D.Safe { s with ledger, current } where
  calm := safe.calm.alike rfl
  backed := safe.backed
  answers := safe.answers

theorem Discipline.Safe.onLedger (safe : D.Safe s) (ledger : Ledger) : D.Safe { s with ledger } :=
  safe.moved ledger s.current

/-- What is known after an entry has been written into the overlay of the current transaction. -/
theorem State.entry_change {id : TransactionId} (current : s.current = some id)
    (there : id < s.ledger.transactions.size) {key : EntityKey} {e : Entry}
    {f : Transaction → Transaction} (parent : ∀ x, (f x).parent = x.parent)
    (overlay : ∀ x, (f x).overlay = x.overlay.put key e) (other : EntityKey) :
    (s.change id f).entry other = if key = other then e else s.entry other := by
  have found := Array.getElem?_eq_getElem there
  simp only [State.entry, State.change, current]
  exact Ledger.entryIn_note found (parent _) (overlay _)

/-- What the current transaction has completed after completions have been added to it. -/
theorem State.pending_change {id : TransactionId} (current : s.current = some id)
    (there : id < s.ledger.transactions.size) {more : List Completion}
    {f : Transaction → Transaction} (pending : ∀ x, (f x).pending = x.pending ++ more) :
    (s.change id f).pending = s.pending ++ more := by
  have found := Array.getElem?_eq_getElem there
  simp only [State.pending, State.change, current, Ledger.pendingOf, Ledger.getElem?_change, found,
    Option.map_some, Option.getD_some, pending]

/-- An entry that is written for an entity in the current transaction. -/
structure Notes (key : EntityKey) (e : Entry) (more : List Completion) (s t : State) : Prop where
  kept : Keeps s t
  entry : ∀ other, t.entry other = if key = other then e else s.entry other
  pending : t.pending = s.pending ++ more

theorem Notes.carries {key : EntityKey} {e : Entry} {more : List Completion}
    (notes : Notes key e more s t) (known : e.isKnown = true) : Carries s t where
  knows other h := by
    unfold State.Knows
    rw [notes.entry]
    split
    · exact known
    · exact h
  conforms := notes.kept.conforms
  judges := notes.kept.judges

/-- Writing an entry into the overlay of the current transaction. -/
theorem notes_change {id : TransactionId} (current : s.current = some id)
    (there : id < s.ledger.transactions.size) (sound : D.Sound s) {key : EntityKey} {e : Entry}
    {more : List Completion} {f : Transaction → Transaction}
    (writes : ∀ x, f x = { x with overlay := x.overlay.put key e, pending := x.pending ++ more }) :
    D.Sound (s.change id f) ∧ Notes key e more s (s.change id f) := by
  obtain ⟨x, found⟩ : ∃ x, s.ledger.transactions[id]? = some x := ⟨_, Array.getElem?_eq_getElem there⟩
  have standing : ∀ x, (f x).parent = x.parent ∧ (f x).closed = x.closed := by
    intro x
    simp [writes x]
  have changed : (s.change id f).ledger.transactions[id]? = some (f x) := by
    simp [State.change, Ledger.change, Array.getElem?_modify, found]
  refine ⟨⟨sound.toSafe.onLedger _, fun other y is foundY => ?_⟩, .change current standing,
    s.entry_change current there (fun x => (standing x).1) fun x => by rw [writes x],
    s.pending_change current there fun x => by rw [writes x]⟩
  have same : other = id := Option.some.inj (is.symm.trans current)
  subst same
  rw [changed] at foundY
  obtain rfl := Option.some.inj foundY
  rw [writes x]
  exact Table.nodup_put _ (sound.distinct other x current found) key e

/-! ## Steps of the ledger -/

theorem Gen.onLedger_eq {α : Type} (step : Ledger → Except LedgerError (α × Ledger)) (s : State) :
    Gen.onLedger step env s = match step s.ledger with
      | .ok (a, ledger) => .ok a { s with ledger }
      | .error e => .error (.ledger e) s := by
  have begun : (get : Gen State) env s = .ok s s := rfl
  unfold Gen.onLedger
  rw [Gen.bind_eq, begun]
  cases stepped : step s.ledger <;> simp only [stepped] <;> rfl

theorem Gen.stepLedger_eq (step : Ledger → Except LedgerError Ledger) (s : State) :
    Gen.stepLedger step env s = match step s.ledger with
      | .ok ledger => .ok () { s with ledger }
      | .error e => .error (.ledger e) s := by
  rw [Gen.stepLedger, Gen.onLedger_eq]
  cases step s.ledger <;> rfl

theorem currentTransaction_eq (s : State) :
    currentTransaction env s = match s.current with
      | some id => .ok id s
      | none => .error (.ledger .noTransaction) s := by
  have begun : (get : Gen State) env s = .ok s s := rfl
  unfold currentTransaction
  rw [Gen.bind_eq, begun]
  cases current : s.current <;> simp only [current] <;> rfl

theorem Gen.Leads.onLedger {α : Type} {step : Ledger → Except LedgerError (α × Ledger)}
    {Q : α → State → Prop} {failed : State → Prop}
    (onOk : ∀ a l, step s.ledger = .ok (a, l) → Q a { s with ledger := l }) (onFailed : failed s) :
    Gen.Leads env s (Gen.onLedger step) Q failed := by
  rw [Gen.Leads, Gen.onLedger_eq]
  cases stepped : step s.ledger with
  | error e => exact onFailed
  | ok made => exact onOk made.1 made.2 stepped

theorem currentTransaction_leads {Q : TransactionId → State → Prop} {failed : State → Prop}
    (onOk : ∀ id, s.current = some id → Q id s) (onFailed : failed s) :
    Gen.Leads env s currentTransaction Q failed := by
  rw [Gen.Leads, currentTransaction_eq]
  cases current : s.current with
  | none => exact onFailed
  | some id => exact onOk id current

theorem Discipline.Ends.current {α : Type} {f : TransactionId → Gen α} {Q : α → State → Prop}
    (sound : D.Sound s) (rest : ∀ id, s.current = some id → D.Ends s (f id) Q) :
    D.Ends s (currentTransaction >>= f) Q := by
  refine Gen.Leads.bind (Q := fun id t => t = s ∧ s.current = some id)
    (currentTransaction_leads (fun id current => ⟨rfl, current⟩) ⟨sound.toSafe, .refl s⟩) ?_
  rintro id _ ⟨rfl, current⟩
  exact rest id current

theorem isOpen_bound {l : Ledger} {id : TransactionId} (opened : l.isOpen id = true) :
    id < l.transactions.size := by
  obtain ⟨x, found, _⟩ := (Ledger.isOpen_iff l id).mp opened
  exact (Array.getElem?_eq_some_iff.mp found).1

theorem markInFlight_leads {id : TransactionId} (current : s.current = some id) (sound : D.Sound s)
    (key : EntityKey) :
    Gen.Leads env s (Gen.stepLedger (·.markInFlight id key))
      (fun _ t => D.Sound t ∧ Notes key .inFlight [] s t) (fun t => t = s) := by
  rw [Gen.Leads, Gen.stepLedger_eq, Ledger.markInFlight]
  by_cases opened : s.ledger.isOpen id = true
  · rw [if_pos opened]
    exact notes_change current (isOpen_bound opened) sound fun x => by simp
  · rw [if_neg opened]

theorem complete_leads {id : TransactionId} (current : s.current = some id) (sound : D.Sound s)
    (key : EntityKey) (declarations : List Declaration) :
    Gen.Leads env s (Gen.stepLedger (·.complete id key declarations))
      (fun _ t => D.Sound t ∧ Notes key (.committed declarations) [(key, declarations)] s t)
      (fun t => t = s) := by
  rw [Gen.Leads, Gen.stepLedger_eq, Ledger.complete]
  by_cases opened : s.ledger.isOpen id = true
  · rw [if_pos opened]
    exact notes_change current (isOpen_bound opened) sound fun x => rfl
  · rw [if_neg opened]

theorem Keeps.recordFailure (s : State) (key : EntityKey) (failure : StructuralFailure) :
    Keeps s { s with ledger := s.ledger.recordFailure key failure } :=
  { Keeps.refl s with
    failures := Ledger.recordFailure_failures s.ledger key failure }

/-! ## One entity -/

/-- An entity that was completed after a state in which it had not been started. -/
theorem grows_complete {key : EntityKey} {declarations : List Declaration}
    {more : List Completion} (fresh : s.entry key = .notStarted) (kept : Keeps s u)
    (inFlight : ∀ other, other ≠ key → (u.entry other = .inFlight ↔ s.entry other = .inFlight))
    (produced : ∀ other ds, other ≠ key → s.entry other = .committed ds →
      u.entry other = .committed ds)
    (pending : u.pending = s.pending ++ more) (accounted : ∀ c ∈ more, D.Accounts t c)
    (new : ∀ other ds, other ≠ key → u.entry other = .committed ds →
      s.entry other = .committed ds ∨ (other, ds) ∈ more)
    (notes : Notes key (.committed declarations) [(key, declarations)] u t)
    (last : D.Accounts t (key, declarations)) : D.Grows s t where
  toKeeps := kept.trans notes.kept
  inFlight other := by
    rw [notes.entry]
    split
    · next same =>
      subst same
      rw [fresh]
      exact iff_of_false nofun nofun
    · next apart => exact inFlight other (Ne.symm apart)
  produced other ds found := by
    have apart : other ≠ key := by
      rintro rfl
      rw [fresh] at found
      cases found
    rw [notes.entry, if_neg (Ne.symm apart)]
    exact produced other ds apart found
  added := by
    refine ⟨more ++ [(key, declarations)], ?_, fun c member => ?_, fun other ds found => ?_⟩
    · rw [notes.pending, pending, List.append_assoc]
    · rcases List.mem_append.mp member with old | here
      · exact accounted c old
      · rw [List.mem_singleton.mp here]
        exact last
    · rw [notes.entry] at found
      split at found
      · next same =>
        subst same
        cases found
        exact .inr (by simp)
      · next apart =>
        exact (new other ds (Ne.symm apart) found).imp_right (List.mem_append_left _)

/-- An entity was marked, produced, and then completed. -/
theorem grows_produced {e : Entity} {declarations : List Declaration} {v : State}
    (fresh : s.entry e.key = .notStarted) (marked : Notes e.key .inFlight [] s t)
    (grown : D.Grows t u)
    (notes : Notes e.key (.committed declarations) [(e.key, declarations)] u v)
    (asked : D.Asks u e) (covers : D.Covers u e declarations) : D.Grows s v := by
  have others : ∀ other, other ≠ e.key → t.entry other = s.entry other := by
    intro other apart
    rw [marked.entry, if_neg (Ne.symm apart)]
  have later : Carries u v := notes.carries rfl
  obtain ⟨more, pending, accounted, new⟩ := grown.added
  refine grows_complete fresh (marked.kept.trans grown.toKeeps) (fun other apart => ?_)
    (fun other ds apart found => ?_) ?_ (fun c member => (accounted c member).carries later)
    (fun other ds apart found => ?_) notes (.inr ⟨e, rfl, asked.carries later, covers.carries later⟩)
  · rw [grown.inFlight, others other apart]
  · exact grown.produced other ds ((others other apart).trans found)
  · rw [pending, marked.pending, List.append_nil]
  · exact (new other ds found).imp_left fun before => (others other apart).symm.trans before

/-- How a producer ended is noted. A failure is noted too, and handed on. -/
theorem settleEntity_fails {id : TransactionId} (current : s.current = some id) (safe : D.Safe s)
    (key : EntityKey) (e : Failure) :
    Gen.Leads env s (settleEntity id key (.error e)) (fun _ _ => False)
      (fun t => D.Safe t ∧ Keeps s t) := by
  unfold settleEntity
  split
  · next same => cases same
  · next failure _ =>
    refine ⟨safe.onLedger _, ?_⟩
    refine (Keeps.change current (f := fun x =>
      { x with overlay := x.overlay.put key (.failed (failure.attributedTo key)) })
      fun x => ⟨rfl, rfl⟩).trans ?_
    exact .recordFailure (s.change id _) key (failure.attributedTo key)
  · exact ⟨safe.onLedger _, Keeps.change current (f := fun x =>
      { x with overlay := x.overlay.erase key }) fun x => ⟨rfl, rfl⟩⟩

theorem produce_ends (sound : D.Sound s) {e : Entity} (asked : D.Asks s e)
    {producer : Gen (List Declaration)}
    (makes : ∀ t, D.Sound t → D.Asks t e → t.Knows e.key →
      D.Ends t producer fun declarations u => D.Covers u e declarations) :
    D.Ends s (produce e.key producer) fun _ t => t.Knows e.key := by
  unfold produce
  refine .current sound fun id current => .get ?_
  have atId : s.ledger.entryIn id e.key = s.entry e.key := by simp only [State.entry, current]
  rw [atId]
  split
  · next declarations found =>
    exact .pure sound ((s.knows_iff e.key).mpr (.inr ⟨declarations, found⟩))
  · next found => exact .pure sound ((s.knows_iff e.key).mpr (.inl found))
  · exact .throw sound.toSafe _
  · next fresh =>
    refine .read ?_
    split
    · next elsewhere =>
      refine (complete_leads current sound e.key []).imp ?_ ?_
      · rintro _ t ⟨soundT, notes⟩
        refine ⟨soundT, ?_, ?_⟩
        · exact grows_complete fresh (.refl s) (fun _ _ => Iff.rfl) (fun _ _ _ h => h)
            (List.append_nil _).symm (by simp) (fun _ _ _ h => .inl h) notes (.inl ⟨elsewhere, rfl⟩)
        · exact (t.knows_iff e.key).mpr (.inr ⟨[], by rw [notes.entry, if_pos rfl]⟩)
      · rintro t rfl
        exact ⟨sound.toSafe, .refl t⟩
    · refine Gen.Leads.bind ((markInFlight_leads current sound e.key).imp (fun _ _ h => h) ?_) ?_
      · rintro t rfl
        exact ⟨sound.toSafe, .refl t⟩
      · rintro _ t ⟨soundT, marked⟩
        have known : t.Knows e.key := (t.knows_iff e.key).mpr (.inl (by rw [marked.entry, if_pos rfl]))
        have made := makes t soundT (asked.carries (marked.carries rfl)) known
        have currentT : t.current = some id := marked.kept.current.trans current
        refine .attempt (Gen.Leads.imp made ?_ ?_)
        · rintro declarations u ⟨soundU, grown, covers⟩
          have currentU : u.current = some id := grown.current.trans currentT
          refine (complete_leads currentU soundU e.key declarations).imp ?_ ?_
          · rintro _ v ⟨soundV, notes⟩
            exact ⟨soundV, grows_produced fresh marked grown notes (asked.carries
              ((marked.carries rfl).trans grown.carries)) covers,
              (v.knows_iff e.key).mpr (.inr ⟨declarations, by rw [notes.entry, if_pos rfl]⟩)⟩
          · rintro v rfl
            exact ⟨soundU.toSafe, marked.kept.trans grown.toKeeps⟩
        · rintro u ⟨safe, kept⟩ failure
          refine (settleEntity_fails (kept.current.trans currentT) safe e.key failure).imp
            (fun _ _ h => h.elim) ?_
          rintro v ⟨safe, keptV⟩
          exact ⟨safe, (marked.kept.trans kept).trans keptV⟩

/-! ## Delegates -/

theorem flat_delegateSignature {d : TypeDefinition} (listed : D.Listed (.type d)) :
    D.Flat (delegateSignature d).1 ∧ ∀ p ∈ (delegateSignature d).2, D.Flat p.type := by
  unfold delegateSignature
  split
  · next shape => exact flat_delegate listed shape
  · exact ⟨D.flat_primitive _, by simp⟩

/-- The delegates that are being expanded are put back as they were. -/
theorem Keeps.expanding_back {expanding : List String} (kept : Keeps { s with expanding } t) :
    Keeps s { t with expanding := s.expanding } :=
  { kept with expanding := rfl }

theorem Discipline.Grows.expanding_back {expanding : List String}
    (grown : D.Grows { s with expanding } t) : D.Grows s { t with expanding := s.expanding } where
  toKeeps := grown.toKeeps.expanding_back
  inFlight := grown.inFlight
  produced := grown.produced
  added := by
    obtain ⟨more, pending, accounted, new⟩ := grown.added
    have same : Carries t { t with expanding := s.expanding } := ⟨fun _ h => h, fun _ _ h => h, fun _ _ h => h⟩
    exact ⟨more, pending, fun c member => (accounted c member).carries same, new⟩

theorem Discipline.Safe.expanding (safe : D.Safe s) (expanding : List String) :
    D.Safe { s with expanding } where
  calm := safe.calm.alike rfl
  backed := safe.backed
  answers := safe.answers

theorem expandDelegate_ends {links : Links} (linked : LinksSound D links) (sound : D.Sound s)
    {d : TypeDefinition} (listed : D.Listed (.type d)) :
    D.Ends s (expandDelegate links d) (D.Good false) := by
  unfold expandDelegate
  refine .get ?_
  split
  · exact .fault sound.toSafe _
  · next fresh =>
    obtain ⟨flatReturns, flatParams⟩ := flat_delegateSignature listed
    have inside : D.Sound { s with expanding := d.full :: s.expanding } :=
      { toSafe := sound.toSafe.expanding _, distinct := sound.distinct }
    have restored : ∀ t : State, t.expanding = d.full :: s.expanding →
        t.expanding.filter (· ≠ d.full) = s.expanding := by
      intro t same
      rw [same, List.filter_cons_of_neg (by simp), List.filter_eq_self]
      intro other member
      have apart : other ≠ d.full := by
        rintro rfl
        exact fresh (by simpa using member)
      simpa using apart
    have written : D.Ends { s with expanding := d.full :: s.expanding } (do
        let params ← (delegateSignature d).2.mapM fun p =>
          return (← project links p.type .raw p.usage).type
        let returns ← project links (delegateSignature d).1 .raw {}
        return .functionPointer params returns.type) (D.Good false) := by
      refine .bind (.mapM _ (R := fun _ type t => D.Good false type t)
        (fun _ type t u later good => D.good_carries good later)
        (fun p member t sound _ => .bind (project_ends linked sound (flatParams p member) .raw p.usage)
          fun result u sound _ projected => .pure sound projected.styled.1) inside)
        fun params t sound _ good => ?_
      refine .bind (project_ends linked sound flatReturns .raw {}) fun returns u sound grown projected =>
        .pure sound (D.good_functionPointer (fun type member => ?_) projected.styled.1)
      obtain ⟨_, _, good⟩ := good type member
      exact D.good_carries good grown.carries
    refine Gen.Leads.modify (.ensuring (Gen.Leads.imp written ?_ ?_))
    · rintro type t ⟨sound, grown, good⟩
      rw [restored t grown.expanding]
      exact ⟨{ toSafe := sound.toSafe.expanding _, distinct := sound.distinct },
        grown.expanding_back, D.good_carries good ⟨fun _ h => h, fun _ _ h => h, fun _ _ h => h⟩⟩
    · rintro t ⟨safe, kept⟩
      rw [restored t kept.expanding]
      exact ⟨safe.expanding _, kept.expanding_back⟩

/-! ## Tying the links -/

/-- Links to chains of any length do what is asked of them. -/
theorem upTo_sound (D : Discipline env) (depth : Nat) : LinksSound D (Links.upTo depth) := by
  induction depth with
  | zero => exact ⟨fun _ _ sound _ => .throw sound.toSafe _, fun _ _ sound _ => .throw sound.toSafe _⟩
  | succ depth ih =>
    refine ⟨fun s e sound asked => ?_, fun s d sound listed => ?_⟩
    · exact produce_ends sound asked fun t sound asked known => declarationsOf_ends ih sound asked known
    · exact expandDelegate_ends ih sound listed

end Bindings
