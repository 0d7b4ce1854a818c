import Bindings.Generation.Managed
import Bindings.Proofs.Generation.BaseChain
import Bindings.Proofs.Generation.Choice

/-!
# Types that need marshaling

Which types a struct holds in place, and which types need marshaling: delegates, conforming
interfaces, and structs that hold a type that needs it, at any depth.
-/

namespace Bindings
open Bindings.Metadata

variable {env : Environment} {t u : TypeDefinition}

/-! ## The reference -/

/-- A type is a struct without an explicit layout. -/
def IsPlainStruct (t : TypeDefinition) (r : Record) : Prop :=
  t.shape = .record r ∧ r.isUnion = false ∧ r.explicitLayout = false

/-- A native type is that of a value of a type, or of an array with such elements. -/
def Contains (env : Environment) (type : NativeType) (u : TypeDefinition) : Prop :=
  ∃ reference, heldReference? type = some reference ∧ Means env reference u

/-- A struct without an explicit layout holds a type in a field. -/
def HoldsInPlace (env : Environment) (t u : TypeDefinition) : Prop :=
  ∃ r, IsPlainStruct t r ∧ ∃ f ∈ r.fields, Contains env f.type u

/-- A type is marshaled in itself, whatever it holds. -/
def IsMarshaled (env : Environment) (t : TypeDefinition) : Prop :=
  t.isDelegate = true ∨ t.isInterface = true ∧ Reaches env t

/-- A type needs marshaling: a chain of types, each held by the one before it, ends with one that
    is marshaled. -/
inductive NeedsMarshaling (env : Environment) : TypeDefinition → Prop
  | itself {t : TypeDefinition} (marshaled : IsMarshaled env t) : NeedsMarshaling env t
  | held {t u : TypeDefinition} (holds : HoldsInPlace env t u) (needs : NeedsMarshaling env u) :
    NeedsMarshaling env t

/-- An interface that needs marshaling does so itself. -/
theorem NeedsMarshaling.reaches {d : TypeDefinition} (needs : NeedsMarshaling env d)
    {bases : List QualifiedName} {methods : List Method} {guid : Option String}
    (shape : d.shape = .interface bases methods guid) : Reaches env d := by
  cases needs with
  | itself marshaled =>
    rcases marshaled with delegate | ⟨_, reaches⟩
    · simp [TypeDefinition.isDelegate, shape] at delegate
    · exact reaches
  | held holds _ =>
    obtain ⟨_, struct, _⟩ := holds
    cases shape.symm.trans struct.1

/-! ## What is involved -/

/-- A type is asked about, or held in place by one that is involved. -/
inductive Involved (env : Environment) (asked : List (TypeDefinition × Bool)) : TypeDefinition → Prop
  | asked {q : TypeDefinition × Bool} (member : q ∈ asked) : Involved env asked q.1
  | held {t u : TypeDefinition} (involved : Involved env asked t) (holds : HoldsInPlace env t u) :
    Involved env asked u

/-- A computation gives a result in a new session. -/
def Gen.succeeds {α : Type} (env : Environment) (x : Gen α) : Bool :=
  match x env {} with
  | .ok .. => true
  | .error .. => false

/-- What gives the same in all states gives a result in all of them, if in one. -/
theorem Gen.Constant.always {α : Type} {Fine : Failure → Prop} {x : Gen α}
    (steady : Gen.Constant Fine env x)
    (succeeds : Gen.succeeds env x = true) : ∃ a, ∀ s, x env s = .ok a s := by
  obtain ⟨outcome, _, always⟩ := steady
  unfold Gen.succeeds at succeeds
  rw [always {}] at succeeds
  cases outcome with
  | error e => cases succeeds
  | ok a => exact ⟨a, always⟩

/-- Looking for the types that a struct holds does not fail, and neither does following the bases
    of an interface. -/
structure Answerable (env : Environment) (t : TypeDefinition) : Prop where
  fields : ∀ r ∈ t.record?, r.explicitLayout = false → ∀ f ∈ r.fields,
    ∀ reference ∈ heldReference? f.type, Gen.succeeds env (resolve reference) = true
  bases : t.isInterface = true → Gen.succeeds env (reachesUniversalBase t) = true

instance (env : Environment) (t : TypeDefinition) : Decidable (Answerable env t) :=
  decidable_of_iff ((∀ r ∈ t.record?, r.explicitLayout = false → ∀ f ∈ r.fields,
      ∀ reference ∈ heldReference? f.type, Gen.succeeds env (resolve reference) = true) ∧
      (t.isInterface = true → Gen.succeeds env (reachesUniversalBase t) = true))
    ⟨fun ⟨fields, bases⟩ => ⟨fields, bases⟩, fun ⟨fields, bases⟩ => ⟨fields, bases⟩⟩

theorem Answerable.resolves (answers : Answerable env t) {r : Record} (struct : IsPlainStruct t r)
    {f : Field} (member : f ∈ r.fields) {reference : QualifiedName}
    (held : heldReference? f.type = some reference) :
    ∃ found, ∀ s, resolve reference env s = .ok found s :=
  (resolve_steady reference).always
    (answers.fields r (by simp [TypeDefinition.record?, struct.1]) struct.2.2 f member reference held)

theorem Answerable.reaches (answers : Answerable env t) (interface : t.isInterface = true) :
    ∃ answer, ∀ s, reachesUniversalBase t env s = .ok answer s :=
  (reachesUniversalBase_fixed t).always (answers.bases interface)

/-- Types among which the analysis stays: what they hold is among them, and they have full names of
    their own, no more than there are types. -/
structure Terrain (env : Environment) (among : TypeDefinition → Prop) : Prop where
  held : ∀ t u, among t → HoldsInPlace env t u → among u
  plain : ∀ t r, among t → t.shape = .record r → r.explicitLayout = false → IsPlainStruct t r
  alone : ∀ t u, among t → among u → t.full = u.full → t = u
  names : ∃ names : List String, names.length ≤ env.typeCount ∧ ∀ t, among t → t.full ∈ names

/-- Among the types among which the analysis stays, some are clear: they hold only clear ones. -/
structure Clearing (env : Environment) (among clear : TypeDefinition → Prop) : Prop extends
    Terrain env among where
  inside : ∀ t, clear t → among t
  heldClear : ∀ t u, clear t → HoldsInPlace env t u → clear u

/-- All types among which the analysis stays may be taken as clear. -/
theorem Terrain.clearing {among : TypeDefinition → Prop} (terrain : Terrain env among) :
    Clearing env among among where
  toTerrain := terrain
  inside _ h := h
  heldClear := terrain.held

/-- Types among which the analysis stays, and for which there are answers. -/
structure Ground (env : Environment) (among : TypeDefinition → Prop) : Prop extends
    Terrain env among where
  answerable : ∀ t, among t → Answerable env t

section
variable {roots : List Markup.Element} (built : Index.ofDocuments roots = .ok env.index)
include built

/-- The analysis stays among types that are chosen, if what they hold is among them and their full
    names tell them apart. -/
theorem terrain_of_chooses {among : TypeDefinition → Prop}
    (chosen : ∀ t, among t → env.index.Chooses env.options.platformName? t)
    (held : ∀ t u, among t → HoldsInPlace env t u → among u)
    (apart : ∀ t u, among t → among u → t.full = u.full → t.space = u.space) : Terrain env among where
  held := held
  plain t r inside shape layout := by
    have member := (Index.ofDocuments_consistent built).held (chosen t inside)
    refine ⟨shape, ?_, layout⟩
    cases union : r.isUnion with
    | false => rfl
    | true =>
      rw [Index.ofDocuments_layout built member shape union] at layout
      cases layout
  alone t u inside other full := by
    have space := apart t u inside other full
    refine (chosen t inside).eq (chosen u other) space ?_
    rw [TypeDefinition.full, TypeDefinition.full, dotted, dotted, space] at full
    exact (String.append_right_inj _).mp full
  names := by
    have same : (env.types.map (·.full)).length = env.typeCount := by
      rw [List.length_map, typeCount_eq]
    exact ⟨_, Nat.le_of_eq same, fun t inside => List.mem_map_of_mem (mem_types (chosen t inside))⟩

variable {asked : List (TypeDefinition × Bool)}
  (chosen : ∀ q ∈ asked, env.index.Chooses env.options.platformName? q.1)
include chosen

theorem Involved.chooses (involved : Involved env asked t) :
    env.index.Chooses env.options.platformName? t := by
  cases involved with
  | asked member => exact chosen _ member
  | held _ holds =>
    obtain ⟨_, _, _, _, _, _, means⟩ := holds
    exact (means.chooses (Index.ofDocuments_consistent built)).1

/-- The analysis stays among the types that are involved, if their full names tell them apart. -/
theorem Involved.ground (answers : ∀ t, Involved env asked t → Answerable env t)
    (apart : ∀ t u, Involved env asked t → Involved env asked u → t.full = u.full →
      t.space = u.space) : Ground env (Involved env asked) where
  toTerrain := terrain_of_chooses built (fun _ involved => involved.chooses built chosen)
    (fun _ _ involved holds => .held involved holds) apart
  answerable := answers

end
end Bindings
