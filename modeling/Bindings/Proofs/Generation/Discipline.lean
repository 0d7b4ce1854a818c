import Bindings.Proofs.Generation.Growth
import Bindings.Proofs.Metadata.Reading
import Bindings.Request.Sweep

/-!
# Disciplines

What the types in declarations may be is told by a discipline: which types are good at a place
of either style, and what is known of the definitions that they come from. One walk through the
generator shows for all disciplines at once that each declaration fits the entity it is made
for.
-/

namespace Bindings
open Bindings.Metadata

/-! ## Entities -/

/-- The name of the declaration that an entity with this key has. -/
def EntityKey.declares (key : EntityKey) : QualifiedName :=
  ⟨key.name.space, variantName key.name.name key.unmanaged⟩

/-- The name that a declaration introduces, behind its namespace. -/
def Declaration.declares (d : Declaration) : QualifiedName := ⟨d.space, d.name⟩

variable {env : Environment}

/-- A variant of a type of its own may be asked for: marshaling is on, and the type is a managed
    struct or a conforming interface. -/
def State.Doubles (env : Environment) (s : State) (t : TypeDefinition) : Prop :=
  env.options.allowMarshaling = true ∧
    ((∃ r, t.shape = .record r) ∧ s.Judges t true ∨ t.isInterface = true ∧ s.Conforms t true)

/-- An interface is declared as a table of methods. -/
def State.Tabled (env : Environment) (s : State) (t : TypeDefinition) (unmanaged : Bool) : Prop :=
  unmanaged = true ∨ env.options.allowMarshaling = false ∨ s.Conforms t false

/-- The fields of a record are not marshaled. -/
def State.Unmarshaled (env : Environment) (s : State) (t : TypeDefinition) (r : Record)
    (unmanaged : Bool) : Prop :=
  r.explicitLayout = true ∨ unmanaged = true ∨ env.options.allowMarshaling = false ∨ s.Judges t false

/-- The declaration of an entity can be named in a place of a style. Without marshaling these are
    the declarations that hold no marshaled values. -/
def Entity.Lays (env : Environment) (s : State) (marshaling : Bool) : Entity → Prop
  | .template _ | .inlineArray .. => True
  | .guardedHandle _ => marshaling = true
  | .function _ | .constant _ => False
  | .type t unmanaged =>
    match t.shape with
    | .enum .. => True
    | .record r => marshaling = true ∨ s.Unmarshaled env t r unmanaged
    | .interface .. => marshaling = true ∨ s.Tabled env t unmanaged
    | .delegate .. => marshaling = true

/-! ## Candidates and references -/

/-- A name of the metadata means a definition on the chosen platform. -/
def Means (env : Environment) (reference : QualifiedName) (t : TypeDefinition) : Prop :=
  ∀ s, resolve reference env s = .ok (some t) s

/-- The candidates that requests choose definitions from. -/
inductive Offers (env : Environment) : Candidate → Prop
  | named {name : String} {groups : List Candidate} {c : Candidate} {s : State}
      (found : exactGroups name env s = .ok groups s) (member : c ∈ groups) : Offers env c
  | inNamespace {space : String} {members : Members} {c : Candidate}
      (found : (space, members) ∈ env.index.namespaces.entries)
      (member : c ∈ namespaceCandidates env.options space members) : Offers env c
  | inModule {module : String} {c : Candidate}
      (member : c ∈ moduleCandidates env.options (env.index.functionsInModule module)) :
      Offers env c
  | withPrefix {start : String} {c : Candidate}
      (member : c ∈ byFullName ((env.index.constantsWithPrefix start).map .constant)) :
      Offers env c

/-! ## Disciplines -/

/-- What is asked of types in declarations. `Good` tells which types may stand in a place with
    marshaling or without it, and the rest what is known of definitions, of handles, of the
    answers on interfaces, and of the shape of native types. -/
structure Discipline (env : Environment) where
  Good : Bool → TargetType → State → Prop
  Listed : Definition → Prop
  Backed : GuardedHandle → Prop
  Answers : String → Bool → Prop
  Flat : NativeType → Prop
  good_carries : ∀ {marshaling type s t}, Good marshaling type s → Carries s t → Good marshaling type t
  good_weaken : ∀ {type s}, Good false type s → Good true type s
  good_word : ∀ marshaling name s, Good marshaling (.word name) s
  good_pointer : ∀ {marshaling type s}, Good marshaling (.pointer type) s ↔ Good marshaling type s
  good_functionPointer : ∀ {marshaling params returns s}, (∀ p ∈ params, Good false p s) →
    Good false returns s → Good marshaling (.functionPointer params returns) s
  good_array : ∀ {type s}, Good true type s → Good true (.array type) s
  good_span : ∀ {type isReadonly s}, Good true type s → Good true (.span type isReadonly) s
  good_nullable : ∀ {type s}, Good true type s → Good true (.nullable type) s
  good_replacement : ∀ {name type}, env.substitutions.types.get? name = some type →
    ∀ marshaling s, Good marshaling type s
  good_entity : ∀ {e : Entity} {marshaling s}, s.Knows e.key → e.Lays env s marshaling →
    (∀ t unmanaged, e = .type t unmanaged → Listed (.type t)) →
    Good marshaling (.named e.key.declares) s
  listed_means : ∀ {reference t}, Means env reference t → Listed (.type t)
  listed_chosen : ∀ {c d}, Offers env c →
    select (·.architectures) c.2 env.options.platformName? c.1 = .ok d → Listed d
  listed_release : ∀ {name f}, select (·.architectures) (env.index.findFunctions name)
    env.options.platformName? name = .ok f → Listed (.function f)
  listed_flat : ∀ {d}, Listed d → ∀ type ∈ d.signatures, Flat type
  flat_primitive : ∀ code, Flat (.primitive code)
  flat_pointer : ∀ {type isConst}, Flat (.pointer type isConst) → Flat type
  flat_array : ∀ {type lengths}, Flat (.array type lengths) → Flat type
  flat_params : ∀ {params returns}, Flat (.function params returns) → ∀ p ∈ params, Flat p
  flat_returns : ∀ {params returns}, Flat (.function params returns) → Flat returns
  flat_nested : ∀ {type lengths}, Flat (.array type lengths) → type.isArray = true →
    ∀ {target s}, Good true target s → Good false target s
  backed_built : ∀ {name handle s}, buildHandle name env s = .ok (some handle) s → Backed handle
  answers_reached : ∀ {t answer}, Listed (.type t) →
    (∀ s, reachesUniversalBase t env s = .ok answer s) → Answers t.full answer

namespace Discipline
variable (D : Discipline env)

/-- An entity may be asked for. -/
def Asks (s : State) : Entity → Prop
  | .function f => D.Listed (.function f)
  | .type t unmanaged => D.Listed (.type t) ∧ (unmanaged = true → s.Doubles env t)
  | .constant c => D.Listed (.constant c)
  | .template _ => True
  | .guardedHandle handle => D.Backed handle
  | .inlineArray _ element _ _ => D.Good false element s

/-- A type with its marshaling fits a place of a style. -/
def Styled (s : State) (marshaling : Bool) (type : TargetType) (marshalAs : Option MarshalAs) : Prop :=
  D.Good marshaling type s ∧ (marshaling = false → marshalAs = none)

end Discipline

/-- A discipline that asks for nothing. -/
def Discipline.any (env : Environment) : Discipline env where
  Good _ _ _ := True
  Listed _ := True
  Backed _ := True
  Answers _ _ := True
  Flat _ := True
  good_carries _ _ := trivial
  good_weaken _ := trivial
  good_word _ _ _ := trivial
  good_pointer := Iff.rfl
  good_functionPointer _ _ := trivial
  good_array _ := trivial
  good_span _ := trivial
  good_nullable _ := trivial
  good_replacement _ _ _ := trivial
  good_entity _ _ _ := trivial
  listed_means _ := trivial
  listed_chosen _ _ := trivial
  listed_release _ := trivial
  listed_flat _ _ _ := trivial
  flat_primitive _ := trivial
  flat_pointer _ := trivial
  flat_array _ := trivial
  flat_params _ _ _ := trivial
  flat_returns _ := trivial
  flat_nested _ _ _ _ _ := trivial
  backed_built _ := trivial
  answers_reached _ _ := trivial

end Bindings
