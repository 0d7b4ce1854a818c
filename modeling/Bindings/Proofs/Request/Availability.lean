import Bindings.Proofs.Request.Closure
import Bindings.Proofs.Request.Source

/-!
# Names that are available

Entities whose full names are available are left out, and nothing else is. So a name in a durable
declaration is declared or available, but for the unmanaged variant of a type: whether it is left out
depends on the full name of the type, while declarations refer to it by a name of its own.
-/

namespace Bindings
open Bindings.Metadata

variable {env : Environment}

/-- What a name stands for beside a durable record. -/
inductive Ledger.Resolves (env : Environment) (l : Ledger) (n : QualifiedName) : Prop
  | declared {d : Declaration} (member : d ∈ l.declarations) (named : d.declares = n)
  | available (elsewhere : env.available.contains n.full = true)
  /-- The variant was left out, since the type is available. -/
  | variant {key : EntityKey} (unmanaged : key.unmanaged = true) (named : key.declares = n)
      (leftOut : l.committed.get? key = some []) (elsewhere : env.available.contains key.name.full = true)

/-- A durable record has all but what is available, and what its declarations name. -/
structure Ledger.Supplied (env : Environment) (l : Ledger) : Prop where
  leftOut : ∀ key declarations, l.committed.get? key = some declarations →
    (declarations = [] ↔ env.available.contains key.name.full = true)
  names : ∀ d ∈ l.declarations, ∀ type ∈ d.types, ∀ n, type.Mentions env.substitutions.Brings n →
    n.space ≠ "" → l.Resolves env n

section
variable (consistent : env.index.Consistent) (requests : List PublicRequest)
include consistent

/-- An entity is left out if and only if its full name is available. -/
theorem session_leftOut {key : EntityKey} {declarations : List Declaration}
    (durable : (env.session requests).ledger.committed.get? key = some declarations) :
    declarations = [] ↔ env.available.contains key.name.full = true := by
  have safe : (Upkeep.backing env).Holds {} := ⟨⟨rfl, rfl, rfl⟩, nofun, nofun⟩
  cases session_sourced consistent safe requests durable with
  | elsewhere available nothing => exact iff_of_true nothing available
  | produced missing _ _ =>
    -- it belongs to an entity that it covers, so it cannot be empty
    rcases session_accounted (.any env) requests _ (Table.mem_of_lookupIn durable) with
      ⟨available, _⟩ | ⟨_, _, _, covers⟩
    · rw [missing] at available
      cases available
    · obtain ⟨_, member, _⟩ := covers.named
      simp only [missing, List.ne_nil_of_mem member, Bool.false_eq_true]

/-- A known entity is declared under its name, or it was left out. -/
theorem known_resolves {key : EntityKey} (known : (env.session requests).Knows key) :
    (env.session requests).ledger.Resolves env key.declares := by
  obtain ⟨declarations, durable, accounts⟩ := session_durable (.named consistent) requests known
  rcases accounts with ⟨elsewhere, nothing⟩ | ⟨e, same, _, covers⟩
  · cases unmanaged : key.unmanaged with
    | true =>
      obtain rfl : declarations = [] := nothing
      exact .variant unmanaged rfl durable elsewhere
    | false =>
      have named : key.declares = key.name := by rw [EntityKey.declares, unmanaged, variantName]; rfl
      exact .available (named ▸ elsewhere)
  · obtain ⟨d, inside, named⟩ := covers.named
    have own : e.key = key := same
    exact .declared (mem_declarations.mpr ⟨_, Table.mem_of_lookupIn durable, inside⟩) (own ▸ named)

end

/-- A struct that needs marshaling, and another one with a pointer to it. -/
def variantDocument : Markup.Element :=
  oneNamespace "Ns" [
    ⟨"delegate", [("name", "D"), ("returns", "void")], "", []⟩,
    ⟨"struct", [("name", "S")], "", [⟨"field", [("name", "call"), ("type", "D")], "", []⟩]⟩,
    ⟨"struct", [("name", "T")], "", [⟨"field", [("name", "p"), ("type", "S*")], "", []⟩]⟩]

/-- Between the requests of a session whatever a durable declaration names is declared or available,
    or it is the unmanaged variant of a type that is available. -/
theorem session_supplied (env : Environment) (roots : List Markup.Element)
    (built : Index.ofDocuments roots = .ok env.index) (requests : List PublicRequest) :
    (env.session requests).ledger.Supplied env where
  leftOut _ _ durable := session_leftOut (Index.ofDocuments_consistent built) requests durable
  names _ member type place n mentions space := by
    have consistent := Index.ofDocuments_consistent built
    obtain ⟨e, _, fits⟩ := session_fits (.named consistent) requests member
    obtain ⟨key, known, rfl⟩ := fits_types fits type place n mentions space
    exact known_resolves consistent requests known

/-- A session on the document in which the struct that needs marshaling is available. -/
def availableVariant : Environment :=
  { Environment.reading [variantDocument] with available := ["Ns.S"] }

/-- The session has all but what is available. -/
theorem session_supplied_variant :
    Index.ofDocuments [variantDocument] = .ok availableVariant.index ∧
      (availableVariant.session [.byName "T"]).ledger.Supplied availableVariant :=
  have built : Index.ofDocuments [variantDocument] = .ok availableVariant.index :=
    reading_built (by decide +kernel)
  ⟨built, session_supplied _ [variantDocument] built [.byName "T"]⟩

/-- The standard substitutions bring in one type. -/
theorem brings_standard {type : TargetType} (brings : Substitutions.standard.Brings type) :
    type = .named ⟨"System", "Guid"⟩ := by
  induction brings with
  | entry held =>
    simp only [Substitutions.standard, List.mem_cons, List.not_mem_nil, Prod.mk.injEq] at held
    rcases held with ⟨_, same⟩ | ⟨_, same⟩ | none
    · exact same
    · exact same
    · cases none
  | element _ ih => cases ih

/-- The name of the type that a pointer points to. -/
def TargetType.target? : TargetType → Option QualifiedName
  | .pointer (.named n) => some n
  | _ => none

theorem target?_eq_some_iff {type : TargetType} {n : QualifiedName} :
    type.target? = some n ↔ type = .pointer (.named n) := by
  unfold TargetType.target?
  split <;> simp_all

/-- A durable struct points to a variant that is neither declared nor available. -/
theorem session_lacks_variant :
    let l := (availableVariant.session [.byName "T"]).ledger
    let n : QualifiedName := ⟨"Ns", "S_unmanaged"⟩
    Index.ofDocuments [variantDocument] = .ok availableVariant.index ∧
      (∃ d ∈ l.declarations, ∃ type ∈ d.types,
        type.Mentions availableVariant.substitutions.Brings n ∧ n.space ≠ "") ∧
      (∀ d ∈ l.declarations, d.declares ≠ n) ∧
      availableVariant.available.contains n.full = false := by
  intro l n
  have pointer : ∃ d ∈ l.declarations, ∃ type ∈ d.types, type.target? = some n := by decide +kernel
  refine ⟨reading_built (by decide +kernel), ?_, by decide +kernel, by decide +kernel⟩
  obtain ⟨d, member, type, place, points⟩ := pointer
  obtain rfl := target?_eq_some_iff.mp points
  refine ⟨d, member, _, place, .pointer (fun brought => ?_) (.named fun brought => ?_), by decide⟩
  · cases brings_standard brought
  · exact absurd (TargetType.named.inj (brings_standard brought)) (by decide)

end Bindings
