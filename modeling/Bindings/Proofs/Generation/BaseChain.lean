import Bindings.Proofs.Generation.Memory

/-!
# Base chains

The line of first bases as a relation, and when an interface reaches the universal base. What
derives from an interface by the line reaches what the interface reaches.
-/

namespace Bindings
open Bindings.Metadata

variable {env : Environment}

/-! ## The line of first bases -/

/-- The first base of an interface, the first base of that, and so on. -/
inductive Climbs (env : Environment) : TypeDefinition → List TypeDefinition → Prop
  | root {t : TypeDefinition} (none : t.bases = []) : Climbs env t []
  | step {t base : TypeDefinition} {reference : QualifiedName} {more : List QualifiedName}
      {rest : List TypeDefinition} (first : t.bases = reference :: more)
      (means : Means env reference base) (shape : base.isInterface = true)
      (onward : Climbs env base rest) : Climbs env t (base :: rest)

/-- There is one line only. -/
theorem Climbs.unique {t : TypeDefinition} {chain other : List TypeDefinition}
    (climbs : Climbs env t chain) (another : Climbs env t other) : chain = other := by
  induction climbs generalizing other with
  | root none =>
    cases another with
    | root _ => rfl
    | step first _ _ _ =>
      rw [none] at first
      cases first
  | step first means shape onward ih =>
    cases another with
    | root none =>
      rw [none] at first
      cases first
    | step first' means' shape' onward' =>
      rw [first] at first'
      obtain ⟨rfl, rfl⟩ := List.cons.inj first'
      obtain ⟨same, _⟩ := EStateM.Result.ok.inj ((means {}).symm.trans (means' {}))
      obtain rfl := Option.some.inj same
      rw [ih onward']

/-- Each base is an interface that a reference means. -/
theorem Climbs.mem {t : TypeDefinition} {chain : List TypeDefinition} (climbs : Climbs env t chain) :
    ∀ base ∈ chain, (∃ reference, Means env reference base) ∧ base.isInterface = true := by
  induction climbs with
  | root none => simp
  | step first means shape onward ih =>
    intro other member
    rcases List.mem_cons.mp member with rfl | later
    · exact ⟨⟨_, means⟩, shape⟩
    · exact ih other later

/-- The line of a base is the rest of the line, so it has the same root. -/
theorem Climbs.onward {t : TypeDefinition} {chain : List TypeDefinition} (climbs : Climbs env t chain) :
    ∀ base ∈ chain, ∃ rest, Climbs env base rest ∧ (base :: rest).getLast? = chain.getLast? := by
  induction climbs with
  | root none => simp
  | @step t base reference more rest first means shape onward ih =>
    intro other member
    rcases List.mem_cons.mp member with rfl | later
    · exact ⟨rest, onward, rfl⟩
    · obtain ⟨further, climbs, same⟩ := ih other later
      refine ⟨further, climbs, same.trans ?_⟩
      cases rest with
      | nil => cases later
      | cons first others => rw [List.getLast?_cons_cons]

/-- A climb that succeeds is at the root, or goes on from the first base to ones that it has not met. -/
theorem climb_cases {depth : Nat} {seen : List String} {t : TypeDefinition} {chain : List TypeDefinition}
    {s u : State} (ends : climb (depth + 1) seen t env s = .ok chain u) :
    (t.bases = [] ∧ chain = []) ∨ ∃ reference more base rest, t.bases = reference :: more ∧
      Means env reference base ∧ base.isInterface = true ∧ base.full ∉ seen ∧ chain = base :: rest ∧
      ∃ v w, climb depth (base.full :: seen) base env v = .ok rest w := by
  unfold climb at ends
  cases first : t.bases with
  | nil =>
    simp only [first] at ends
    exact .inl ⟨rfl, (Gen.pure_ok ends).1.symm⟩
  | cons reference more =>
    simp only [first] at ends
    obtain ⟨answer, v, found, ends⟩ := Gen.bind_ok ends
    have means := ((resolve_steady reference).everywhere found).2
    cases answer with
    | none => cases ends
    | some base =>
      dsimp only at ends
      by_cases shape : base.isInterface = true
      · by_cases met : seen.contains base.full = true
        · rw [if_neg (by simp [shape]), if_pos met] at ends
          cases ends
        · rw [if_neg (by simp [shape]), if_neg met] at ends
          obtain ⟨rest, w, further, ends⟩ := Gen.bind_ok ends
          obtain ⟨rfl, _⟩ := Gen.pure_ok ends
          exact .inr ⟨reference, more, base, rest, rfl, means, shape, by simpa using met, rfl, v, w, further⟩
      · rw [if_pos (by simp [shape])] at ends
        cases ends

/-- A climb that succeeds goes along the line. -/
theorem climb_ok {depth : Nat} {seen : List String} {t : TypeDefinition} {chain : List TypeDefinition}
    {s u : State} (ends : climb depth seen t env s = .ok chain u) : Climbs env t chain := by
  induction depth generalizing seen t chain s u with
  | zero => cases ends
  | succ depth ih =>
    obtain ⟨none, rfl⟩ | ⟨_, _, _, _, first, means, shape, _, rfl, _, _, further⟩ := climb_cases ends
    · exact .root none
    · exact .step first means shape (ih further)

/-- The base chain is the line with the root first. -/
theorem baseChain_ok {t : TypeDefinition} {chain : List TypeDefinition} {s u : State}
    (ends : baseChain t env s = .ok chain u) : Climbs env t chain.reverse := by
  unfold baseChain at ends
  obtain ⟨_, _, begun, ends⟩ := Gen.bind_ok ends
  obtain ⟨line, _, climbed, ends⟩ := Gen.bind_ok ends
  obtain ⟨rfl, _⟩ := Gen.pure_ok ends
  obtain ⟨rfl, rfl⟩ := EStateM.Result.ok.inj begun
  rw [List.reverse_reverse]
  exact climb_ok climbed

/-! ## The universal base -/

/-- An interface is the universal base, or its line ends with that. -/
def Reaches (env : Environment) (t : TypeDefinition) : Prop :=
  t.name = env.substitutions.universalBase ∨
    ∃ chain root, Climbs env t chain ∧ chain.getLast? = some root ∧
      root.name = env.substitutions.universalBase

theorem reachesUniversalBase_ok {t : TypeDefinition} {answer : Bool} {s u : State}
    (ends : reachesUniversalBase t env s = .ok answer u) : answer = true ↔ Reaches env t := by
  unfold reachesUniversalBase at ends
  obtain ⟨_, _, begun, ends⟩ := Gen.bind_ok ends
  obtain ⟨rfl, rfl⟩ := EStateM.Result.ok.inj begun
  dsimp only at ends
  by_cases itself : t.name = env.substitutions.universalBase
  · rw [if_pos itself] at ends
    obtain ⟨rfl, _⟩ := Gen.pure_ok ends
    exact iff_of_true rfl (.inl itself)
  · rw [if_neg itself] at ends
    obtain ⟨chain, _, found, ends⟩ := Gen.bind_ok ends
    have climbs := baseChain_ok found
    cases chain with
    | nil =>
      obtain ⟨rfl, _⟩ := Gen.pure_ok ends
      refine iff_of_false nofun ?_
      rintro (same | ⟨line, root, other, last, _⟩)
      · exact itself same
      · obtain rfl := climbs.unique other
        cases last
    | cons root more =>
      obtain ⟨rfl, _⟩ := Gen.pure_ok ends
      have last : (root :: more).reverse.getLast? = some root := by simp
      rw [decide_eq_true_iff]
      constructor
      · exact fun universal => .inr ⟨_, root, climbs, last, universal⟩
      · rintro (same | ⟨line, other, another, lastLine, universal⟩)
        · exact absurd same itself
        · obtain rfl := climbs.unique another
          obtain rfl := Option.some.inj (last.symm.trans lastLine)
          exact universal

/-- A base of a conforming interface conforms, unless only the interface itself is the universal
    base. -/
theorem Climbs.reaches {t : TypeDefinition} {chain : List TypeDefinition} (climbs : Climbs env t chain)
    (reaches : Reaches env t) (other : t.name ≠ env.substitutions.universalBase) :
    ∀ base ∈ chain, Reaches env base := by
  intro base member
  obtain ⟨line, root, climbsLine, last, universal⟩ := reaches.resolve_left other
  obtain rfl := climbs.unique climbsLine
  obtain ⟨rest, onward, same⟩ := climbs.onward base member
  rw [last] at same
  cases rest with
  | nil =>
    obtain rfl := Option.some.inj same
    exact .inl universal
  | cons first more =>
    rw [List.getLast?_cons_cons] at same
    exact .inr ⟨first :: more, root, onward, same, universal⟩

end Bindings
