import Bindings.Proofs.Generation.Outcome

/-!
# Computations in different transactions

What a computation does depends on the transaction that it runs in only through what is known in
it. In two transactions that know the same, and are alike in all else, it ends in the same way:
both know the same after it, or both have recorded the same failures.
-/

namespace Bindings

variable {env : Environment} {α β : Type} {s t u v : State} {id other : TransactionId}

/-! ## States that mirror each other -/

/-- Two states agree on what outlasts their transactions. -/
structure Agrees (s t : State) : Prop where
  failures : t.ledger.failures = s.ledger.failures
  expanding : t.expanding = s.expanding
  memory : t.memory = s.memory

/-- Two states agree, and their open transactions know the same and have completed the same. -/
structure Mirrors (id other : TransactionId) (s t : State) : Prop extends Agrees s t where
  inside : s.In id
  opposite : t.In other
  entry : ∀ key, t.entry key = s.entry key
  pending : t.pending = s.pending

/-- Two computations have ended in the same way. -/
def EndAlike (id other : TransactionId) :
    EStateM.Result Failure State α → EStateM.Result Failure State α → Prop
  | .ok a t, .ok b u => a = b ∧ Mirrors id other t u
  | .error e t, .error f u => e = f ∧ Agrees t u
  | _, _ => False

/-- Two computations end in the same way in transactions that mirror each other. -/
def Mirrored (env : Environment) (x y : Gen α) : Prop :=
  ∀ id other s t, Mirrors id other s t → EndAlike id other (x env s) (y env t)

theorem Mirrors.remember (mirrors : Mirrors id other s t) (m : Memory) :
    Mirrors id other (s.remember m) (t.remember m) where
  failures := mirrors.failures
  expanding := mirrors.expanding
  memory := rfl
  inside := ⟨mirrors.inside.current, mirrors.inside.opened⟩
  opposite := ⟨mirrors.opposite.current, mirrors.opposite.opened⟩
  entry := mirrors.entry
  pending := mirrors.pending

theorem Mirrors.expand (mirrors : Mirrors id other s t) (expanding : List String) :
    Mirrors id other { s with expanding } { t with expanding } where
  failures := mirrors.failures
  expanding := rfl
  memory := mirrors.memory
  inside := ⟨mirrors.inside.current, mirrors.inside.opened⟩
  opposite := ⟨mirrors.opposite.current, mirrors.opposite.opened⟩
  entry := mirrors.entry
  pending := mirrors.pending

/-! ## Laws -/

theorem Mirrored.secluded {x : Gen α} (secluded : Gen.Secluded env x) : Mirrored env x x := by
  intro id other s t mirrors
  obtain ⟨result, m, _, ends⟩ := secluded s.memory
  rw [ends s rfl, ends t mirrors.memory]
  have after := mirrors.remember m
  cases result with
  | ok a => exact ⟨rfl, after⟩
  | error e => exact ⟨rfl, after.toAgrees⟩

theorem Mirrored.bind {x y : Gen α} {f g : α → Gen β} (first : Mirrored env x y)
    (rest : ∀ a, Mirrored env (f a) (g a)) : Mirrored env (x >>= f) (y >>= g) := by
  intro id other s t mirrors
  have alike := first id other s t mirrors
  rw [Gen.bind_eq, Gen.bind_eq]
  cases ended : x env s with
  | ok a u =>
    cases opposite : y env t with
    | ok b v =>
      rw [ended, opposite] at alike
      obtain ⟨rfl, after⟩ := alike
      exact rest a id other u v after
    | error e v =>
      rw [ended, opposite] at alike
      exact alike.elim
  | error e u =>
    cases opposite : y env t with
    | ok b v =>
      rw [ended, opposite] at alike
      exact alike.elim
    | error f v =>
      rw [ended, opposite] at alike
      exact alike

theorem Mirrored.ensuring {x y : Gen α} (mirrored : Mirrored env x y) (name : String)
    (mirrors : Mirrors id other s t) :
    EndAlike id other
      (Gen.ensuring x (fun s => { s with expanding := s.expanding.filter (· ≠ name) }) env s)
      (Gen.ensuring y (fun s => { s with expanding := s.expanding.filter (· ≠ name) }) env t) := by
  have alike := mirrored id other s t mirrors
  rw [Gen.ensuring_eq, Gen.ensuring_eq]
  cases ended : x env s with
  | ok a u =>
    cases opposite : y env t with
    | ok b v =>
      rw [ended, opposite] at alike
      obtain ⟨same, after⟩ := alike
      refine ⟨same, ?_⟩
      rw [after.expanding]
      exact after.expand _
    | error e v =>
      rw [ended, opposite] at alike
      exact alike.elim
  | error e u =>
    cases opposite : y env t with
    | ok b v =>
      rw [ended, opposite] at alike
      exact alike.elim
    | error f v =>
      rw [ended, opposite] at alike
      obtain ⟨same, after⟩ := alike
      exact ⟨same, after.failures, congrArg (List.filter (· ≠ name)) after.expanding, after.memory⟩

theorem Mirrored.expansion {x y : Gen α} (name : String) (mirrored : Mirrored env x y) :
    Mirrored env (inExpansion name x) (inExpansion name y) := by
  intro id other s t mirrors
  rw [inExpansion_eq, inExpansion_eq, mirrors.expanding]
  split
  · exact Mirrored.secluded (.fault (.selfReferringDelegate name)) id other s t mirrors
  · exact mirrored.ensuring name (mirrors.expand _)

/-! ## Production -/

theorem Mirrors.marked (mirrors : Mirrors id other s t) (key : EntityKey) :
    Mirrors id other (s.marked id key) (t.marked other key) where
  failures := mirrors.failures
  expanding := mirrors.expanding
  memory := mirrors.memory
  inside := mirrors.inside.marked key
  opposite := mirrors.opposite.marked key
  entry k := by rw [marked_entry mirrors.opposite, marked_entry mirrors.inside, mirrors.entry]
  pending := by
    rw [marked_pending mirrors.opposite, marked_pending mirrors.inside, mirrors.pending]

theorem Mirrors.completed (mirrors : Mirrors id other s t) (key : EntityKey)
    (declarations : List Declaration) :
    Mirrors id other (s.completed id key declarations) (t.completed other key declarations) where
  failures := mirrors.failures
  expanding := mirrors.expanding
  memory := mirrors.memory
  inside := mirrors.inside.completed key declarations
  opposite := mirrors.opposite.completed key declarations
  entry k := by rw [completed_entry mirrors.opposite, completed_entry mirrors.inside, mirrors.entry]
  pending := by
    rw [completed_pending mirrors.opposite, completed_pending mirrors.inside, mirrors.pending]

theorem Mirrored.produce {x y : Gen (List Declaration)} (mirrored : Mirrored env x y)
    (key : EntityKey) : Mirrored env (produce key x) (produce key y) := by
  intro id other s t mirrors
  rw [produce_eq mirrors.inside, produce_eq mirrors.opposite, mirrors.entry]
  cases s.entry key with
  | committed | inFlight => exact ⟨rfl, mirrors⟩
  | failed failure => exact ⟨rfl, mirrors.toAgrees⟩
  | notStarted =>
    dsimp only
    split
    · exact ⟨rfl, mirrors.completed key []⟩
    · have alike := mirrored id other _ _ (mirrors.marked key)
      cases ended : x env (s.marked id key) with
      | ok declarations u =>
        cases opposite : y env (t.marked other key) with
        | ok found v =>
          rw [ended, opposite] at alike
          obtain ⟨rfl, after⟩ := alike
          simp only [after.inside.complete_eq, after.opposite.complete_eq]
          exact ⟨rfl, after.completed key declarations⟩
        | error e v =>
          rw [ended, opposite] at alike
          exact alike.elim
      | error e u =>
        cases opposite : y env (t.marked other key) with
        | ok found v =>
          rw [ended, opposite] at alike
          exact alike.elim
        | error f v =>
          rw [ended, opposite] at alike
          obtain ⟨rfl, after⟩ := alike
          cases e with
          | structural failure =>
            refine ⟨rfl, ?_, after.expanding, after.memory⟩
            exact congrArg (Table.putNew · key (failure.attributedTo key)) after.failures
          | platformMismatch | input | cancelled | ledger | badLimit | depthExceeded =>
            exact ⟨rfl, after.failures, after.expanding, after.memory⟩

theorem Mirrored.congr {x y u v : Gen α} (left : ∀ s, x env s = u env s)
    (right : ∀ s, y env s = v env s) (mirrored : Mirrored env u v) : Mirrored env x y := by
  intro id other s t mirrors
  rw [left, right]
  exact mirrored id other s t mirrors

/-- Computations that end in the same way in transactions that mirror each other. -/
def Comparison.mirrored (env : Environment) : Comparison env :=
  .ofSecluded (Mirrored env) .congr .secluded .bind

/-- What the links of a session lead to ends in the same way in transactions that mirror each
    other. -/
theorem mirrored_linked (depth : Nat) :
    (Comparison.mirrored env).Linked (Links.upTo depth) (Links.upTo depth) := by
  have linked : (Comparison.mirrored env).Linked (Links.upTo depth)
      (Links.around (fun _ body => body) depth) := by
    refine around_linked (.mirrored env) .depthExceeded (fun key _ _ mirrored => ?_)
      (fun name _ _ mirrored => mirrored.expansion name) depth
    exact Mirrored.produce mirrored key
  rwa [around_nothing] at linked

end Bindings
