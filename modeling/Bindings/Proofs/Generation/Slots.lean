import Bindings.Proofs.Generation.BaseChain

/-!
# Slots along a base chain

The base chain of an interface goes through the base chain of each of its bases, although the search
for cycles begins with another name. So the slot methods of a base come first among those of the
interface.
-/

namespace Bindings
open Bindings.Metadata

variable {env : Environment} {t base : TypeDefinition} {chain : List TypeDefinition} {s u : State}

/-! ## Base chains of bases -/

/-- A climb that may go higher, and has met less on the way, comes to the same end. -/
theorem climb_weaken {depth more : Nat} {seen less : List String} (ends : climb depth seen t env s = .ok chain u)
    (higher : depth ≤ more) (fewer : ∀ name ∈ less, name ∈ seen) :
    ∀ v, climb more less t env v = .ok chain v := by
  induction depth generalizing more seen less t chain s u with
  | zero => cases ends
  | succ depth ih =>
    obtain ⟨more, rfl⟩ : ∃ m, more = m + 1 := ⟨more - 1, by omega⟩
    intro v
    -- The same step is taken, since a base that was not met among more was not met among fewer.
    unfold climb
    obtain ⟨none, rfl⟩ | ⟨_, _, base, rest, first, means, shape, unmet, rfl, _, _, onward⟩ :=
      climb_cases ends
    · rw [none]
      rfl
    · have unmet : ¬ less.contains base.full = true := by
        intro met
        exact unmet (fewer _ (by simpa using met))
      have onward : climb more (base.full :: less) base env v = .ok rest v := by
        refine ih onward (by omega) (fun name member => ?_) v
        rcases List.mem_cons.mp member with rfl | before
        · exact List.mem_cons_self
        · exact List.mem_cons_of_mem _ (fewer name before)
      rw [first]
      dsimp only
      rw [Gen.bind_eq, means v]
      dsimp only
      rw [if_neg (by simp [shape]), if_neg unmet, Gen.bind_eq, onward]
      rfl

/-- A climb goes on from each base that it comes to. -/
theorem climb_onward {depth : Nat} {seen : List String} {near far : List TypeDefinition}
    (ends : climb depth seen t env s = .ok (near ++ base :: far) u) :
    ∃ less met, less ≤ depth ∧ base.full ∈ met ∧ ∃ v w, climb less met base env v = .ok far w := by
  induction depth generalizing seen t near s u with
  | zero => cases ends
  | succ depth ih =>
    obtain ⟨_, nothing⟩ | ⟨_, _, first, rest, _, _, _, _, same, v, w, onward⟩ := climb_cases ends
    · cases near <;> cases nothing
    · cases near with
      | nil =>
        obtain ⟨rfl, rfl⟩ := List.cons.inj same
        exact ⟨depth, _, by omega, List.mem_cons_self, v, w, onward⟩
      | cons _ near =>
        obtain ⟨_, rfl⟩ := List.cons.inj same
        obtain ⟨less, met, lower, held, further⟩ := ih onward
        exact ⟨less, met, by omega, held, further⟩

/-- What comes before a base in a base chain is the base chain of the base. -/
theorem baseChain_front {front back : List TypeDefinition}
    (found : baseChain t env s = .ok (front ++ base :: back) u) (v : State) :
    baseChain base env v = .ok front v := by
  unfold baseChain at found ⊢
  rw [Gen.read_bind] at found ⊢
  obtain ⟨line, w, climbed, same⟩ := Gen.bind_ok found
  obtain rfl : line = back.reverse ++ base :: front.reverse := by
    rw [← List.reverse_reverse line, (Gen.pure_ok same).1]
    simp
  obtain ⟨less, met, lower, held, _, _, onward⟩ := climb_onward climbed
  have begun : ∀ name ∈ [base.full], name ∈ met := by simpa using held
  rw [Gen.bind_eq, climb_weaken onward lower begun v]
  dsimp only
  rw [List.reverse_reverse]
  rfl

/-! ## Slot methods of bases -/

/-- The methods of the interfaces of a chain with their owners, those of the root first. -/
def chainMethods (chain : List TypeDefinition) : List (TypeDefinition × Method) :=
  chain.flatMap fun owner => owner.methods.map (owner, ·)

/-- The methods along a longer chain begin with those along a shorter one. -/
theorem chainMethods_prefix {chain more : List TypeDefinition} (front : chain <+: more) :
    chainMethods chain <+: chainMethods more := by
  obtain ⟨back, rfl⟩ := front
  exact ⟨chainMethods back, List.flatMap_append.symm⟩

/-- The slot methods of an interface are those along its base chain, and then its own. -/
theorem slotMethods_eq (found : baseChain t env s = .ok chain u) (v : State) :
    slotMethods t env v = .ok (chainMethods (chain ++ [t])) v := by
  have always := ((baseChain_fixed t).everywhere found).2
  unfold slotMethods
  rw [Gen.bind_eq, always]
  rfl

end Bindings
