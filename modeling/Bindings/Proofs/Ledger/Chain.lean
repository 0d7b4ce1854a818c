import Bindings.Proofs.Ledger.Closing

/-!
# Chains of transactions

A transaction lies over another one or over the durable record. In an orderly ledger no entity is
completed twice on the way from an open transaction down to the durable record, and each overlay
holds as committed exactly what its transaction has completed.
-/

namespace Bindings

/-! ## One transaction -/

namespace Transaction

/-- The keys of what a transaction has completed. -/
def completedKeys (x : Transaction) : List EntityKey := x.pending.map (·.1)

/-- A transaction has completed exactly what its overlay holds as committed. -/
def Exact (x : Transaction) : Prop :=
  ∀ key declarations, (key, declarations) ∈ x.pending ↔
    x.overlay.get? key = some (.committed declarations)

/-- A transaction fits over others: what it notes is neither completed in them nor durable. -/
structure Fits (durable : Table EntityKey (List Declaration)) (below : List Transaction)
    (x : Transaction) : Prop where
  exact : x.Exact
  distinct : x.completedKeys.Nodup
  noted : ∀ key, x.overlay.get? key ≠ some .notStarted
  apart : ∀ key, x.overlay.get? key ≠ none →
    key ∉ below.flatMap completedKeys ∧ durable.get? key = none

variable {durable : Table EntityKey (List Declaration)} {below : List Transaction} {x y : Transaction}
  {key : EntityKey}

theorem mem_completedKeys : key ∈ x.completedKeys ↔ ∃ declarations, (key, declarations) ∈ x.pending := by
  simp [completedKeys]

theorem Exact.noted (exact : x.Exact) (member : key ∈ x.completedKeys) :
    ∃ declarations, x.overlay.get? key = some (.committed declarations) := by
  obtain ⟨declarations, held⟩ := mem_completedKeys.mp member
  exact ⟨declarations, (exact key declarations).mp held⟩

/-- A new transaction fits over all others. -/
theorem Fits.new (parent : Option TransactionId) : Fits durable below { parent } where
  exact _ _ := ⟨nofun, nofun⟩
  distinct := .nil
  noted _ := nofun
  apart _ noted := absurd rfl noted

/-- A transaction still fits when it has noted something on an entity that neither it nor any other
    has completed: that it is complete now, or anything else. -/
theorem Fits.note (fits : x.Fits durable below)
    (unproduced : ∀ declarations, x.overlay.get? key ≠ some (.committed declarations))
    (free : key ∉ below.flatMap completedKeys ∧ durable.get? key = none)
    (others : ∀ other, key ≠ other → y.overlay.get? other = x.overlay.get? other)
    (noted : y.overlay.get? key ≠ some .notStarted)
    (pending : y.pending = x.pending ∧
        (∀ declarations, y.overlay.get? key ≠ some (.committed declarations)) ∨
      ∃ declarations, y.pending = x.pending ++ [(key, declarations)] ∧
        y.overlay.get? key = some (.committed declarations)) : y.Fits durable below where
  exact other declarations := by
    by_cases same : key = other
    · subst same
      have absent : (key, declarations) ∉ x.pending :=
        fun member => unproduced declarations ((fits.exact key declarations).mp member)
      rcases pending with ⟨same, still⟩ | ⟨made, same, now⟩
      · rw [same]
        exact iff_of_false absent (still declarations)
      · rw [same, now]
        simp [absent, eq_comm]
    · have apart : ∀ made, (other, declarations) ≠ (key, made) :=
        fun made => fun eq => same (congrArg Prod.fst eq).symm
      rw [others other same, ← fits.exact other declarations]
      rcases pending with ⟨same, _⟩ | ⟨made, same, _⟩
      · rw [same]
      · simp [same, apart made]
  distinct := by
    rcases pending with ⟨same, _⟩ | ⟨made, same, _⟩
    · rw [completedKeys, same]
      exact fits.distinct
    · rw [completedKeys, same, List.map_append, List.nodup_append]
      refine ⟨fits.distinct, by simp, fun a member b single eq => ?_⟩
      obtain rfl : b = key := by simpa using single
      obtain ⟨declarations, held⟩ := fits.exact.noted (eq ▸ member)
      exact unproduced declarations held
  noted other := by
    by_cases same : key = other
    · exact same ▸ noted
    · rw [others other same]
      exact fits.noted other
  apart other held := by
    by_cases same : key = other
    · exact same ▸ free
    · rw [others other same] at held
      exact fits.apart other held

/-- A transaction that takes over what a savepoint on it holds still fits. -/
theorem Fits.absorb (fits : x.Fits durable below) (above : y.Fits durable (x :: below))
    (distinct : y.overlay.keys.Nodup) : (x.absorb y).Fits durable below := by
  have overlay : ∀ key, (x.absorb y).overlay.get? key =
      (y.overlay.get? key).or (x.overlay.get? key) := by
    intro key
    exact Table.get?_update _ _ distinct key
  have unnoted : ∀ key, key ∈ x.completedKeys → y.overlay.get? key = none := by
    intro key member
    cases held : y.overlay.get? key with
    | none => rfl
    | some e =>
      have unfinished := (above.apart key (by simp [held])).1
      exact absurd (List.mem_flatMap.mpr ⟨x, by simp, member⟩) unfinished
  refine ⟨fun key declarations => ?_, ?_, fun key => ?_, fun key held => ?_⟩
  · rw [overlay, Option.or_eq_some_iff, ← above.exact key declarations, ← fits.exact key declarations]
    change _ ∈ x.pending ++ y.pending ↔ _
    rw [List.mem_append]
    refine ⟨fun member => member.elim (fun old => .inr ⟨?_, old⟩) .inl, ?_⟩
    · exact unnoted key (mem_completedKeys.mpr ⟨declarations, old⟩)
    · rintro (new | ⟨_, old⟩)
      · exact .inr new
      · exact .inl old
  · change ((x.pending ++ y.pending).map (·.1)).Nodup
    rw [List.map_append, List.nodup_append]
    refine ⟨fits.distinct, above.distinct, ?_⟩
    rintro key old _ new rfl
    obtain ⟨declarations, held⟩ := above.exact.noted new
    rw [unnoted key old] at held
    cases held
  · rw [overlay, ne_eq, Option.or_eq_some_iff]
    rintro (new | ⟨_, old⟩)
    · exact above.noted key new
    · exact fits.noted key old
  · rw [overlay] at held
    cases new : y.overlay.get? key with
    | none =>
      rw [new, Option.none_or] at held
      exact fits.apart key held
    | some e =>
      obtain ⟨unfinished, fresh⟩ := above.apart key (by simp [new])
      refine ⟨fun member => unfinished ?_, fresh⟩
      rw [List.flatMap_cons]
      exact List.mem_append_right _ member

end Transaction

namespace Ledger

variable {l m : Ledger} {id : TransactionId} {t : Transaction}

/-! ## Chains -/

/-- A transaction and those below it, the highest first. -/
def chain (l : Ledger) (id : TransactionId) : List Transaction :=
  match l.transactions[id]? with
  | none => []
  | some t => t :: match t.parent with
    | some below => if below < id then l.chain below else []
    | none => []
termination_by id

/-- What lies below a transaction. -/
def under (l : Ledger) (id : TransactionId) (parent : Option TransactionId) : List Transaction :=
  match parent with
  | some below => if below < id then l.chain below else []
  | none => []

theorem chain_eq (found : l.transactions[id]? = some t) : l.chain id = t :: l.under id t.parent := by
  rw [chain, found]
  rfl

/-- A chain changes only where a transaction on it changes. -/
theorem chain_same (same : ∀ i, i ≤ id → m.transactions[i]? = l.transactions[i]?) :
    m.chain id = l.chain id := by
  induction id using Nat.strongRecOn with
  | _ id ih =>
    have here := same id (Nat.le_refl id)
    cases found : l.transactions[id]? with
    | none => rw [chain, chain, here, found]
    | some t =>
      rw [chain_eq found, chain_eq (here.trans found)]
      refine congrArg (t :: ·) ?_
      cases t.parent with
      | none => rfl
      | some below =>
        simp only [under]
        split
        · next lower => exact ih below lower fun i low => same i (Nat.le_trans low (Nat.le_of_lt lower))
        · rfl

theorem under_same (same : ∀ i, i < id → m.transactions[i]? = l.transactions[i]?)
    (parent : Option TransactionId) : m.under id parent = l.under id parent := by
  cases parent with
  | none => rfl
  | some below =>
    simp only [under]
    split
    · next lower => exact chain_same fun i low => same i (Nat.lt_of_le_of_lt low lower)
    · rfl

/-- What has not been started is noted nowhere on the chain and is not durable. -/
theorem entryIn_notStarted {key : EntityKey}
    (noted : ∀ x ∈ l.chain id, x.overlay.get? key ≠ some .notStarted)
    (fresh : l.entryIn id key = .notStarted) :
    (∀ x ∈ l.chain id, x.overlay.get? key = none) ∧ l.committed.get? key = none := by
  have durable : l.entry key = .notStarted → l.committed.get? key = none := by
    intro fresh
    cases found : l.committed.get? key with
    | none => rfl
    | some declarations => simp [entry, found] at fresh
  induction id using Nat.strongRecOn with
  | _ id ih =>
    cases found : l.transactions[id]? with
    | none =>
      rw [entryIn_of_none found] at fresh
      rw [chain, found]
      exact ⟨by simp, durable fresh⟩
    | some t =>
      rw [chain_eq found] at noted ⊢
      rw [entryIn_eq found] at fresh
      have here : t.overlay.get? key = none := by
        cases held : t.overlay.get? key with
        | none => rfl
        | some e =>
          rw [held, Option.getD_some] at fresh
          exact absurd (held.trans (congrArg some fresh)) (noted t (by simp))
      rw [here, Option.getD_none] at fresh
      have lower : (∀ x ∈ l.under id t.parent, x.overlay.get? key = none) ∧
          l.committed.get? key = none := by
        have noted : ∀ x ∈ l.under id t.parent, x.overlay.get? key ≠ some .notStarted :=
          fun x member => noted x (List.mem_cons_of_mem _ member)
        cases below : t.parent with
        | none =>
          rw [below] at fresh
          exact ⟨by simp [under], durable fresh⟩
        | some below' =>
          rw [below] at noted fresh
          simp only [under, entryUnder] at noted fresh ⊢
          split at fresh
          · next lower =>
            rw [if_pos lower] at noted ⊢
            exact ih below' lower noted fresh
          · next high =>
            rw [if_neg high]
            exact ⟨by simp, durable fresh⟩
      refine ⟨fun x member => ?_, lower.2⟩
      rcases List.mem_cons.mp member with rfl | further
      · exact here
      · exact lower.1 x further

/-! ## Order -/

/-- A chain over the durable record is orderly: no entity is complete twice on it, none is durable
    already, and each overlay holds as committed what its transaction has completed. -/
structure OrderlyChain (durable : Table EntityKey (List Declaration)) (chain : List Transaction) :
    Prop where
  exact : ∀ x ∈ chain, x.Exact
  distinct : (chain.flatMap Transaction.completedKeys).Nodup
  fresh : ∀ key ∈ chain.flatMap Transaction.completedKeys, durable.get? key = none

/-- The chains of all open transactions are orderly. -/
def Orderly (l : Ledger) : Prop := ∀ id, l.isOpen id = true → OrderlyChain l.committed (l.chain id)

section
variable {durable : Table EntityKey (List Declaration)} {below : List Transaction} {x : Transaction}

theorem OrderlyChain.nil : OrderlyChain durable [] where
  exact := by simp
  distinct := .nil
  fresh := by simp

theorem OrderlyChain.cons (orderly : OrderlyChain durable below) (fits : x.Fits durable below) :
    OrderlyChain durable (x :: below) where
  exact y member := by
    rcases List.mem_cons.mp member with rfl | further
    · exact fits.exact
    · exact orderly.exact y further
  distinct := by
    rw [List.flatMap_cons, List.nodup_append]
    refine ⟨fits.distinct, orderly.distinct, ?_⟩
    rintro key here _ further rfl
    obtain ⟨declarations, held⟩ := fits.exact.noted here
    exact (fits.apart key (by simp [held])).1 further
  fresh key member := by
    rw [List.flatMap_cons, List.mem_append] at member
    rcases member with here | further
    · obtain ⟨declarations, held⟩ := fits.exact.noted here
      exact (fits.apart key (by simp [held])).2
    · exact orderly.fresh key further

end

end Ledger
end Bindings
