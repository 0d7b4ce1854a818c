import Bindings.Proofs.Generation.Ends
import Bindings.Proofs.Metadata.Selection

/-!
# What is chosen from candidates

Whichever way a request comes to a definition, it is one of the index, and a type is the variant
that every reference to it means.
-/

namespace Bindings
open Bindings.Metadata

variable {env : Environment}

/-! ## Groups -/

/-- The group of a type among the members of its name in its namespace. -/
theorem filter_groupKey_named {members : Members} {name : String} {t : TypeDefinition}
    (alike : ∀ u ∈ members.typesOf name, u.space = t.space ∧ u.name = t.name) :
    (members.named name).filter (groupKey · = groupKey (.type t)) =
      (members.typesOf name).map .type := by
  have functions : ((members.functionsOf name).map Definition.function).filter
      (groupKey · = groupKey (.type t)) = [] := by
    simp [List.filter_eq_nil_iff, groupKey]
  have constants : ((members.constantsOf name).map Definition.constant).filter
      (groupKey · = groupKey (.type t)) = [] := by
    simp [List.filter_eq_nil_iff, groupKey]
  have types : ((members.typesOf name).map Definition.type).filter (groupKey · = groupKey (.type t)) =
      (members.typesOf name).map .type := by
    rw [List.filter_eq_self]
    intro d member
    obtain ⟨u, there, rfl⟩ := List.mem_map.mp member
    obtain ⟨space, name⟩ := alike u there
    simp [groupKey, Definition.space, Definition.name, space, name]
  unfold Members.named
  rw [List.filter_append, List.filter_append, ← Members.functionsOf, ← Members.typesOf,
    ← Members.constantsOf, functions, types, constants]
  simp

/-- The types among the definitions of a name that are in the group of a type. -/
theorem filter_groupKey_ofName {definitions : List Definition} {t : TypeDefinition}
    (named : ∀ d ∈ definitions, d.name = t.name) :
    definitions.filter (groupKey · = groupKey (.type t)) =
      ((within t.space definitions).filterMap (·.type?)).map .type := by
  induction definitions with
  | nil => rfl
  | cons d rest ih =>
    have name := named d (by simp)
    have later := ih fun other member => named other (List.mem_cons_of_mem d member)
    by_cases here : d.space = t.space <;> cases d <;>
      simp_all [within, groupKey, Definition.space, Definition.name, Definition.type?]

/-! ## Candidates -/

/-- The groups of a name are those of all that is found for it. -/
theorem exactGroups_ok {name : String} {groups : List Candidate} {s t : State}
    (found : exactGroups name env s = .ok groups t) : ∀ c ∈ groups,
      ∃ entry ∈ (grouped (env.index.lookup name)).entries, c.2 = entry.2 := by
  intro c member
  unfold exactGroups at found
  rw [Gen.bind_eq] at found
  change (if _ then _ else _ : Gen (List Candidate)) env s = _ at found
  split at found
  · cases found
  · obtain ⟨rfl, _⟩ := EStateM.Result.ok.inj found
    obtain ⟨entry, there, rfl⟩ := List.mem_map.mp member
    exact ⟨entry, there, rfl⟩

theorem mem_inKeyOrder {ν : Type} {table : Table String ν} {e : String × ν} :
    e ∈ inKeyOrder table ↔ e ∈ table.entries := by
  rw [inKeyOrder, List.mem_mergeSort]

/-- Candidates by full name hold some of the definitions. -/
theorem mem_of_byFullName {definitions : List Definition} {c : Candidate}
    (member : c ∈ byFullName definitions) : ∀ d ∈ c.2, d ∈ definitions := by
  intro d inside
  rw [Table.foldl_push_groups Definition.full definitions c (mem_inKeyOrder.mp member)] at inside
  exact (List.mem_filter.mp inside).1

theorem resolve_eq (reference : QualifiedName) (s : State) :
    resolve reference env s = match env.index.resolve reference with
      | [] => .ok none s
      | v :: rest =>
        match select TypeDefinition.architectures (v :: rest) env.options.platformName?
            reference.full with
        | .ok t => .ok (some t) s
        | .error e => .error (.ofSelection e) s := by
  have begun : (read : Gen Environment) env s = .ok env s := rfl
  unfold resolve
  rw [Gen.bind_eq, begun]
  cases variants : env.index.resolve reference with
  | nil =>
    simp only [variants]
    rfl
  | cons v rest =>
    simp only [variants]
    cases chosen : select TypeDefinition.architectures (v :: rest) env.options.platformName?
        reference.full <;> rfl

/-- What a reference means is chosen from all that it may mean. -/
theorem resolve_ok {reference : QualifiedName} {t : TypeDefinition} {s u : State}
    (found : resolve reference env s = .ok (some t) u) :
    select TypeDefinition.architectures (env.index.resolve reference) env.options.platformName?
      reference.full = .ok t := by
  rw [resolve_eq] at found
  cases variants : env.index.resolve reference with
  | nil => simp [variants] at found
  | cons v rest =>
    simp only [variants] at found
    cases chosen : select TypeDefinition.architectures (v :: rest) env.options.platformName?
        reference.full with
    | ok w =>
      simp only [chosen, EStateM.Result.ok.injEq, Option.some.injEq] at found
      rw [found.1]
    | error e => simp [chosen] at found

section
variable (consistent : env.index.Consistent)
include consistent

theorem membersIn_of_mem {space : String} {members : Members}
    (found : (space, members) ∈ env.index.namespaces.entries) :
    env.index.membersIn space = members := by
  have there := Table.get?_of_mem consistent.spaces found
  simp only at there
  rw [Index.membersIn, there]
  rfl

/-- The candidates of a namespace are, under its full name, all definitions of one sort and name in it. -/
theorem mem_namespaceCandidates {space : String} {members : Members}
    (found : (space, members) ∈ env.index.namespaces.entries) {c : Candidate}
    (member : c ∈ namespaceCandidates env.options space members) :
    ∃ name, c.1 = dotted space name ∧
      (c.2 = ((env.index.membersIn space).functionsOf name).map .function ∨
        c.2 = ((env.index.membersIn space).typesOf name).map .type ∨
        c.2 = ((env.index.membersIn space).constantsOf name).map .constant) := by
  have distinct := consistent.distinct _ found
  rw [membersIn_of_mem consistent found]
  rcases List.mem_append.mp member with first | constants
  · rcases List.mem_append.mp first with functions | types
    · obtain ⟨⟨name, variants⟩, there, rfl⟩ := List.mem_map.mp functions
      have held := Table.get?_of_mem distinct.functions (mem_inKeyOrder.mp (List.mem_filter.mp there).1)
      exact ⟨name, rfl, .inl (by simp [Members.functionsOf, held])⟩
    · obtain ⟨⟨name, variants⟩, there, rfl⟩ := List.mem_map.mp types
      have held := Table.get?_of_mem distinct.types (mem_inKeyOrder.mp there)
      exact ⟨name, rfl, .inr (.inl (by simp [Members.typesOf, held]))⟩
  · obtain ⟨⟨name, variants⟩, there, rfl⟩ := List.mem_map.mp constants
    have held := Table.get?_of_mem distinct.constants (mem_inKeyOrder.mp there)
    exact ⟨name, rfl, .inr (.inr (by simp [Members.constantsOf, held]))⟩

/-- All variants of a candidate are definitions of the index. -/
theorem Offers.held {c : Candidate} (offers : Offers env c) :
    ∀ d ∈ c.2, d ∈ env.index.ofName d.name := by
  intro d inside
  cases offers with
  | @named name groups _ s found member =>
    obtain ⟨entry, there, same⟩ := exactGroups_ok found c member
    rw [same, Table.foldl_push_groups groupKey _ entry there] at inside
    exact consistent.lookup (List.mem_filter.mp inside).1
  | @inNamespace space members _ found member =>
    obtain ⟨name, -, functions | types | constants⟩ := mem_namespaceCandidates consistent found member
    · rw [functions] at inside
      obtain ⟨f, there, rfl⟩ := List.mem_map.mp inside
      obtain ⟨held, _, named⟩ := consistent.mem_functionsOf_iff.mp there
      rwa [Definition.name, named]
    · rw [types] at inside
      obtain ⟨t, there, rfl⟩ := List.mem_map.mp inside
      obtain ⟨held, _, named⟩ := consistent.mem_typesOf_iff.mp there
      rwa [Definition.name, named]
    · rw [constants] at inside
      obtain ⟨k, there, rfl⟩ := List.mem_map.mp inside
      obtain ⟨held, _, named⟩ := consistent.mem_constantsOf_iff.mp there
      rwa [Definition.name, named]
  | @inModule module _ member =>
    obtain ⟨f, there, rfl⟩ := List.mem_map.mp
      (mem_of_byFullName (List.mem_filter.mp member).1 d inside)
    unfold Index.functionsInModule at there
    cases found : env.index.byModule.get? (moduleName module) with
    | none =>
      rw [found] at there
      cases there
    | some functions =>
      rw [found] at there
      exact consistent.modules _ (Table.mem_of_lookupIn found) f there
  | withPrefix member =>
    obtain ⟨k, there, rfl⟩ := List.mem_map.mp (mem_of_byFullName member d inside)
    obtain ⟨members, held, inMembers⟩ := List.mem_flatMap.mp there
    obtain ⟨⟨name, constants⟩, kept, among⟩ := List.mem_flatMap.mp inMembers
    obtain ⟨⟨space, _⟩, found, rfl⟩ := List.mem_map.mp held
    have value := Table.get?_of_mem (consistent.distinct _ found).constants (List.mem_filter.mp kept).1
    have own : k ∈ (env.index.membersIn space).constantsOf name := by
      rw [membersIn_of_mem consistent found, Members.constantsOf, value]
      exact among
    obtain ⟨known, _, named⟩ := consistent.mem_constantsOf_iff.mp own
    rwa [Definition.name, named]

/-- The types that are found for a name, of the name and the namespace of one of them. -/
theorem lookup_types {name : String} {t : TypeDefinition} (member : .type t ∈ env.index.lookup name) :
    (env.index.lookup name).filter (groupKey · = groupKey (.type t)) =
      ((env.index.membersIn t.space).typesOf t.name).map .type := by
  unfold Index.lookup at member ⊢
  cases found : env.index.byName.get? name with
  | some definitions =>
    rw [found] at member
    have same : definitions = env.index.ofName name := by rw [Index.ofName, found]; rfl
    have own : t.name = name := consistent.named name (.type t) (same ▸ member)
    rw [consistent.types, own, ← same]
    refine filter_groupKey_ofName fun d inside => ?_
    rw [own]
    exact consistent.named name d (same ▸ inside)
  | none =>
    rw [found] at member
    dsimp only at member ⊢
    split at member
    · cases member
    · next qualified =>
      rw [if_neg qualified]
      split at member
      · next members there =>
        have same : env.index.membersIn (Text.cutLast '.' name).1 = members := by
          rw [Index.membersIn, there]
          rfl
        have held : t ∈ members.typesOf (Text.cutLast '.' name).2 := by
          simpa [Members.named, Members.typesOf] using member
        rw [← same] at held ⊢
        obtain ⟨_, space, own⟩ := consistent.mem_typesOf_iff.mp held
        rw [space, own]
        refine filter_groupKey_named fun u inside => ?_
        obtain ⟨_, spaceU, ownU⟩ := consistent.mem_typesOf_iff.mp inside
        exact ⟨spaceU.trans space.symm, ownU.trans own.symm⟩
      · cases member

/-- A candidate that holds a type holds all variants of the type. -/
theorem Offers.types {c : Candidate} (offers : Offers env c) {t : TypeDefinition}
    (member : .type t ∈ c.2) : c.2 = ((env.index.membersIn t.space).typesOf t.name).map .type := by
  cases offers with
  | @named name groups _ s found among =>
    obtain ⟨entry, there, same⟩ := exactGroups_ok found c among
    have group := Table.foldl_push_groups groupKey _ entry there
    rw [same, group] at member
    obtain ⟨inside, key⟩ := List.mem_filter.mp member
    have key : groupKey (.type t) = entry.1 := of_decide_eq_true key
    rw [same, group, ← key]
    exact lookup_types consistent inside
  | @inNamespace space members _ found among =>
    obtain ⟨name, -, functions | types | constants⟩ := mem_namespaceCandidates consistent found among
    · rw [functions] at member
      obtain ⟨_, _, same⟩ := List.mem_map.mp member
      cases same
    · rw [types] at member ⊢
      obtain ⟨u, there, same⟩ := List.mem_map.mp member
      obtain rfl := Definition.type.inj same
      obtain ⟨_, space, own⟩ := consistent.mem_typesOf_iff.mp there
      rw [space, own]
    · rw [constants] at member
      obtain ⟨_, _, same⟩ := List.mem_map.mp member
      cases same
  | inModule among =>
    obtain ⟨_, _, same⟩ := List.mem_map.mp
      (mem_of_byFullName (List.mem_filter.mp among).1 _ member)
    cases same
  | withPrefix among =>
    obtain ⟨_, _, same⟩ := List.mem_map.mp (mem_of_byFullName among _ member)
    cases same

/-- A type that is chosen from a candidate is the variant that all references to it mean. -/
theorem Offers.chooses {c : Candidate} (offers : Offers env c) {t : TypeDefinition}
    (chosen : select (·.architectures) c.2 env.options.platformName? c.1 = .ok (.type t)) :
    env.index.Chooses env.options.platformName? t := by
  have same := offers.types consistent (mem_of_select chosen).1
  have only := select_eq_ok_iff.mp chosen
  rw [same, List.filter_map] at only
  obtain ⟨u, single, alike⟩ := List.map_eq_singleton_iff.mp only
  obtain rfl := Definition.type.inj alike
  exact single

/-- A type that a reference means is the variant that all references to it mean. -/
theorem Means.chooses {reference : QualifiedName} {t : TypeDefinition} (means : Means env reference t) :
    env.index.Chooses env.options.platformName? t ∧ .type t ∈ env.index.ofName t.name := by
  have chosen := resolve_ok (means {})
  have member := (mem_of_select chosen).1
  have all := consistent.resolve member
  refine ⟨?_, (consistent.mem_typesOf_iff.mp (all ▸ member)).1⟩
  rw [Index.Chooses, ← all]
  exact select_eq_ok_iff.mp chosen

end

/-! ## All definitions -/

/-- The variants of all functions. -/
def Environment.functions (env : Environment) : List Function :=
  env.index.namespaces.values.flatMap fun m => m.functions.values.flatten

/-- The variants of all types. -/
def Environment.types (env : Environment) : List TypeDefinition :=
  env.index.namespaces.values.flatMap fun m => m.types.values.flatten

/-- The variants of all constants. -/
def Environment.constants (env : Environment) : List Constant :=
  env.index.namespaces.values.flatMap fun m => m.constants.values.flatten

theorem typeCount_eq (env : Environment) : env.typeCount = env.types.length := rfl

/-- What a namespace holds under a name is among all that namespaces hold. -/
theorem mem_held {α : Type} (table : Members → Table String (List α)) {space name : String} {a : α}
    (empty : (table {}).get? name = none)
    (member : a ∈ ((table (env.index.membersIn space)).get? name).getD []) :
    a ∈ env.index.namespaces.values.flatMap fun m => (table m).values.flatten := by
  unfold Index.membersIn at member
  cases found : env.index.namespaces.get? space with
  | none => simp [found, empty] at member
  | some members =>
    rw [found, Option.getD_some] at member
    cases held : (table members).get? name with
    | none => simp [held] at member
    | some variants =>
      rw [held, Option.getD_some] at member
      refine List.mem_flatMap.mpr ⟨members, ?_, List.mem_flatten.mpr ⟨variants, ?_, member⟩⟩
      · exact List.mem_map.mpr ⟨_, Table.mem_of_lookupIn found, rfl⟩
      · exact List.mem_map.mpr ⟨_, Table.mem_of_lookupIn held, rfl⟩

/-- A chosen type is one of those that are counted. -/
theorem mem_types {t : TypeDefinition} (chooses : env.index.Chooses env.options.platformName? t) :
    t ∈ env.types := by
  have only : t ∈ [t] := by simp
  rw [← chooses] at only
  exact mem_held (·.types) rfl (List.mem_filter.mp only).1

section
variable (consistent : env.index.Consistent)
include consistent

theorem mem_functions {f : Function} (member : .function f ∈ env.index.ofName f.name) :
    f ∈ env.functions :=
  mem_held (·.functions) rfl (consistent.mem_functionsOf_iff.mpr ⟨member, rfl, rfl⟩)

theorem mem_constants {c : Constant} (member : .constant c ∈ env.index.ofName c.name) :
    c ∈ env.constants :=
  mem_held (·.constants) rfl (consistent.mem_constantsOf_iff.mpr ⟨member, rfl, rfl⟩)

end
end Bindings
