import Bindings.Proofs.Generation.Source

/-!
# What a producer asks for

A computation on links asks for an entity if it goes another way once that entity is barred. Whatever
a computation that gives a result has asked for is known in the end.
-/

namespace Bindings
open Bindings.Metadata

variable {env : Environment} {α β : Type} {s t : State} {id : TransactionId} {U : Upkeep env}

/-! ## Asking -/

open Classical in
/-- Links on which an alarm is raised where an entity is asked for. -/
noncomputable def Links.barring (alarm : Failure) (e : Entity) (links : Links) : Links :=
  { links with demand := fun other => if other = e then throw alarm else links.demand other }

theorem barring_demand {alarm : Failure} {e other : Entity} {links : Links} (apart : other ≠ e) :
    (links.barring alarm e).demand other = links.demand other := if_neg apart

/-- What is made on links asks for an entity in a state: it ends in another way if that is barred. -/
def AsksFor (env : Environment) (s : State) (links : Links) (make : Links → Gen α) (e : Entity) : Prop :=
  ∃ alarm, make (links.barring alarm e) env s ≠ make links env s

/-! ## What has been asked for is known -/

/-- One computation has another one, that gives a result, know of a key in the end, unless both are
    the same. -/
structure Heeds (U : Upkeep env) (key : EntityKey) (x y : Gen α) : Prop where
  traces : Traces U (fun _ => True) x
  knows : ∀ {id s a t}, s.In id → U.Holds s → y env s ≠ x env s → x env s = .ok a t → t.Knows key

section
variable {key : EntityKey} {x y : Gen α}

/-- Where both are the same nothing needs to be known. -/
theorem Heeds.same (traces : Traces U (fun _ => True) x) : Heeds U key x x where
  traces := traces
  knows _ _ differs _ := absurd rfl differs

theorem Heeds.congr {u v : Gen α} (left : ∀ s, x env s = u env s) (right : ∀ s, y env s = v env s)
    (heeds : Heeds U key u v) : Heeds U key x y where
  traces := heeds.traces.congr left
  knows inside holds differs ended := by
    rw [left, right] at differs
    exact heeds.knows inside holds differs (left _ ▸ ended)

theorem Heeds.bind {f g : α → Gen β} (first : Heeds U key x y) (rest : ∀ a, Heeds U key (f a) (g a)) :
    Heeds U key (x >>= f) (y >>= g) where
  traces := .bind first.traces fun a _ => (rest a).traces
  knows := by
    intro id s b u inside holds differs ended
    obtain ⟨a, t, firstEnded, later⟩ := Gen.bind_ok ended
    obtain ⟨insideT, holdsT, _⟩ := first.traces.ended inside holds firstEnded
    by_cases same : y env s = x env s
    · refine (rest a).knows insideT holdsT (fun alike => differs ?_) later
      rw [Gen.bind_eq, Gen.bind_eq, same, firstEnded]
      exact alike
    · exact (rest a).traces.carries insideT holdsT later _ (first.knows inside holds same firstEnded)

/-- A question that is known to have a good answer is asked first. -/
theorem Heeds.asking {P : α → Prop} {f g : α → Gen β} (traces : Traces U P x)
    (rest : ∀ a, P a → Heeds U key (f a) (g a)) : Heeds U key (x >>= f) (x >>= g) where
  traces := .bind traces fun a known => (rest a known).traces
  knows := by
    intro id s b u inside holds differs ended
    obtain ⟨a, t, firstEnded, later⟩ := Gen.bind_ok ended
    obtain ⟨insideT, holdsT, known⟩ := traces.ended inside holds firstEnded
    refine (rest a known).knows insideT holdsT (fun alike => differs ?_) later
    rw [Gen.bind_eq, Gen.bind_eq, firstEnded]
    exact alike

end

section
variable (consistent : env.index.Consistent)
include consistent

/-- Computations that know in the end what others have been barred from. -/
def Comparison.heeding (U : Upkeep env) (key : EntityKey) : Comparison env :=
  .offered consistent (Heeds U key)
    .congr
    (fun _ => .same (.pure trivial))
    (fun _ => .same (.throw _))
    .bind
    (fun chosen => .same (.conforming chosen))
    (fun chosen => .same (.managed chosen))
    (fun name _ _ rest =>
      .asking (.asking (guardedHandle?_secluded name) (guardedHandle?_recalling name) (U.handle name)) rest)

theorem barring_linked (U : Upkeep env) (alarm : Failure) (e : Entity) (depth : Nat) :
    (Comparison.heeding consistent U e.key).Linked (Links.upTo depth)
      ((Links.upTo depth).barring alarm e) := by
  have traced := traced_linked consistent U depth
  refine ⟨fun other offered => ⟨traced.demand other offered, ?_⟩,
    fun t chosen => .same (traced.functionPointer t chosen)⟩
  intro id s _ t inside holds differs ended
  by_cases own : other = e
  · subst own
    cases depth with
    | zero => cases ended
    | succ depth =>
      exact produce_known (declarationsOf_runs .cancelled depth other) inside ended
  · rw [barring_demand own] at differs
    exact absurd rfl differs

end
end Bindings
