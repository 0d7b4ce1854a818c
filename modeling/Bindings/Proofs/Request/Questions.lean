import Bindings.Proofs.Generation.Settling
import Bindings.Proofs.Request.Record

/-!
# Questions about types

Whether a type is managed, asked about one type after the other. Each answer tells whether the
type needs marshaling, and does not depend on what was asked before.
-/

namespace Bindings
open Bindings.Metadata

variable {env : Environment}

/-- In a new session each answer is that of the reference: with marshaling, the types that need it
    are managed. No answer fails, and none depends on those before it. Two types with one full name
    share what is remembered of them, so those involved have names of their own. -/
theorem managed_iff_needs {roots : List Markup.Element} (built : Index.ofDocuments roots = .ok env.index)
    (queries : List (TypeDefinition × Bool))
    (chosen : ∀ q ∈ queries, env.index.Chooses env.options.platformName? q.1)
    (answers : ∀ t, Involved env queries t → Answerable env t)
    (apart : ∀ t u, Involved env queries t → Involved env queries u → t.full = u.full →
      t.space = u.space) :
    ∃ given s, ask queries env {} = .ok given s ∧ given.length = queries.length ∧
      ∀ p ∈ queries.zip given, p.2 = true ↔ p.1.2 = true ∧ NeedsMarshaling env p.1.1 := by
  have ground := Involved.ground built chosen answers apart
  obtain ⟨given, s, ended, right⟩ := (Settled.init.questions ground fun q member => .asked member).returns
  exact ⟨given, s, ended, right⟩

/-! ## Questions on documents -/

/-- The variants of a type that apply. -/
def Environment.variants (env : Environment) (n : QualifiedName) : List TypeDefinition :=
  ((env.index.membersIn n.space).typesOf n.name).filter
    fun t => applies env.options.platformName? t.architectures

/-- Questions about the types with some names. -/
def Environment.queries (env : Environment) (names : List (QualifiedName × Bool)) :
    List (TypeDefinition × Bool) :=
  names.flatMap fun n => (env.variants n.1).map (·, n.2)

/-- A name has one variant that applies. -/
def Environment.Single (env : Environment) (n : QualifiedName) : Prop :=
  (env.variants n).length = 1 ∧ ∀ t ∈ env.variants n, t.space = n.space ∧ t.name = n.name

instance (env : Environment) (n : QualifiedName) : Decidable (env.Single n) :=
  inferInstanceAs (Decidable (_ ∧ _))

theorem chooses_of_single {names : List (QualifiedName × Bool)} (single : ∀ n ∈ names, env.Single n.1) :
    ∀ q ∈ env.queries names, env.index.Chooses env.options.platformName? q.1 := by
  intro q member
  obtain ⟨n, named, inside⟩ := List.mem_flatMap.mp member
  obtain ⟨t, there, rfl⟩ := List.mem_map.mp inside
  obtain ⟨length, called⟩ := single n named
  obtain ⟨only, alone⟩ := List.length_eq_one_iff.mp length
  rw [alone, List.mem_singleton] at there
  obtain ⟨space, name⟩ := called t (by rw [alone, there]; simp)
  unfold Index.Chooses
  rw [space, name, there]
  exact alone

/-- What is involved is among all types. -/
theorem involved_mem {roots : List Markup.Element} (built : Index.ofDocuments roots = .ok env.index)
    {names : List (QualifiedName × Bool)} (single : ∀ n ∈ names, env.Single n.1)
    {t : TypeDefinition} (involved : Involved env (env.queries names) t) : t ∈ env.types :=
  mem_types (involved.chooses built (chooses_of_single single))

/-- The answers in a new session. -/
def answersOf (env : Environment) (queries : List (TypeDefinition × Bool)) : Option (List Bool) :=
  match ask queries env {} with
  | .ok given _ => some given
  | .error .. => none

theorem answersOf_eq_some_iff {queries : List (TypeDefinition × Bool)} {given : List Bool} :
    answersOf env queries = some given ↔ ∃ s, ask queries env {} = .ok given s := by
  unfold answersOf
  cases ask queries env {} <;> simp

/-- Two structs that hold each other, one of which holds a delegate, and one that points to them. -/
def loopDocument : Markup.Element :=
  oneNamespace "Ns" [
    ⟨"struct", [("name", "LEFT")], "", [⟨"field", [("name", "right"), ("type", "RIGHT")], "", []⟩]⟩,
    ⟨"struct", [("name", "RIGHT")], "",
      [⟨"field", [("name", "left"), ("type", "LEFT[2]")], "", []⟩,
        ⟨"field", [("name", "call"), ("type", "CALL")], "", []⟩]⟩,
    ⟨"struct", [("name", "PLAIN")], "", [⟨"field", [("name", "left"), ("type", "LEFT*")], "", []⟩]⟩,
    ⟨"delegate", [("name", "CALL"), ("returns", "void")], "", []⟩]

/-- The types of the document, one of them both with marshaling and without. -/
def loopNames : List (QualifiedName × Bool) :=
  [(⟨"Ns", "RIGHT"⟩, true), (⟨"Ns", "LEFT"⟩, true), (⟨"Ns", "LEFT"⟩, false), (⟨"Ns", "PLAIN"⟩, true)]

/-- The structs that hold each other are both managed, and the struct that points to them is not. -/
theorem managed_iff_needs_loop :
    let env := Environment.reading [loopDocument]
    let queries := env.queries loopNames
    answersOf env queries = some [true, true, false, false] ∧
      ∀ p ∈ queries.zip [true, true, false, false],
        p.2 = true ↔ p.1.2 = true ∧ NeedsMarshaling env p.1.1 := by
  intro env queries
  have built : Index.ofDocuments [loopDocument] = .ok env.index := reading_built (by decide +kernel)
  have single : ∀ n ∈ loopNames, env.Single n.1 := by decide +kernel
  have answerable : ∀ t ∈ env.types, Answerable env t := by decide +kernel
  have spaces : ∀ t ∈ env.types, ∀ u ∈ env.types, t.full = u.full → t.space = u.space := by
    decide +kernel
  obtain ⟨given, s, ended, right⟩ := managed_iff_needs built queries (chooses_of_single single)
    (fun t involved => answerable t (involved_mem built single involved))
    (fun t u first second => spaces t (involved_mem built single first) u
      (involved_mem built single second))
  have computed : answersOf env queries = some [true, true, false, false] := by decide +kernel
  obtain ⟨_, same⟩ := answersOf_eq_some_iff.mp computed
  rw [ended] at same
  cases same
  exact ⟨computed, right.2⟩

/-- Two structs whose full name is "A.B.C", of which only one holds a delegate. -/
def homonymDocuments : List Markup.Element := [
  oneNamespace "A" [
    ⟨"delegate", [("name", "D"), ("returns", "void")], "", []⟩,
    ⟨"struct", [("name", "B.C")], "", [⟨"field", [("name", "call"), ("type", "D")], "", []⟩]⟩],
  oneNamespace "A.B" [
    ⟨"struct", [("name", "C")], "", [⟨"field", [("name", "x"), ("type", "i4")], "", []⟩]⟩]]

/-- The names of both. -/
def homonyms : List (QualifiedName × Bool) := [(⟨"A", "B.C"⟩, true), (⟨"A.B", "C"⟩, true)]

/-- A struct without fields that could hold a type. -/
def IsBare (t : TypeDefinition) : Prop :=
  t.isDelegate = false ∧ t.isInterface = false ∧
    ∀ r ∈ t.record?, ∀ f ∈ r.fields, heldReference? f.type = none

instance (t : TypeDefinition) : Decidable (IsBare t) := inferInstanceAs (Decidable (_ ∧ _))

theorem not_needsMarshaling_of_isBare {t : TypeDefinition} (bare : IsBare t) :
    ¬NeedsMarshaling env t := by
  obtain ⟨delegate, interface, fields⟩ := bare
  rintro (marshaled | ⟨⟨r, struct, f, member, reference, held, _⟩, _⟩)
  · simp [IsMarshaled, delegate, interface] at marshaled
  · have none := fields r (by simp [TypeDefinition.record?, struct.1]) f member
    rw [held] at none
    cases none

/-- Of two types with one full name, the second gets the answer that the first one got, and not the
    one that it gets when it is asked about alone. -/
theorem homonyms_share :
    let env := Environment.reading homonymDocuments
    Index.ofDocuments homonymDocuments = .ok env.index ∧
      (∀ q ∈ env.queries homonyms, env.index.Chooses env.options.platformName? q.1) ∧
      (∀ t, Involved env (env.queries homonyms) t → Answerable env t) ∧
      ∃ first second, env.queries homonyms = [(first, true), (second, true)] ∧
        answersOf env [(first, true), (second, true)] = some [true, true] ∧
        answersOf env [(second, true)] = some [false] ∧ ¬NeedsMarshaling env second := by
  intro env
  have built : Index.ofDocuments homonymDocuments = .ok env.index := reading_built (by decide +kernel)
  have single : ∀ n ∈ homonyms, env.Single n.1 := by decide +kernel
  have answerable : ∀ t ∈ env.types, Answerable env t := by decide +kernel
  refine ⟨built, chooses_of_single single,
    fun t involved => answerable t (involved_mem built single involved), ?_⟩
  have flags : (env.queries homonyms).map (·.2) = [true, true] := by decide +kernel
  obtain ⟨⟨first, _⟩, rest, two, rfl, flags⟩ := List.map_eq_cons_iff.mp flags
  obtain ⟨⟨second, _⟩, last, rfl, rfl, none⟩ := List.map_eq_cons_iff.mp flags
  obtain rfl := List.map_eq_nil_iff.mp none
  have both : answersOf env (env.queries homonyms) = some [true, true] := by decide +kernel
  have alone : answersOf env ((env.queries homonyms).drop 1) = some [false] := by decide +kernel
  have bare : ∀ q ∈ (env.queries homonyms).drop 1, IsBare q.1 := by decide +kernel
  rw [two] at both alone bare
  exact ⟨first, second, two, both, alone, not_needsMarshaling_of_isBare (bare (second, true) (by simp))⟩

end Bindings
