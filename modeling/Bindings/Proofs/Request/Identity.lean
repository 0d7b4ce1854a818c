import Bindings.Proofs.Generation.Offered
import Bindings.Proofs.Request.Record

/-!
# Entities by their keys

Whichever way generation comes to a type, a constant, a template or a handle, its key tells which one
it is: what is found for one name holds all variants of a definition, and one of them applies.
-/

namespace Bindings
open Bindings.Metadata

variable {env : Environment}

/-- The release function that a name finds. -/
def Environment.releaseOf (env : Environment) (name : String) : Except SelectionError Function :=
  select (·.architectures) (env.index.findFunctions name) env.options.platformName? name

/-- The handle that the release function of a name backs. -/
def backed? (env : Environment) (name : String) : Option GuardedHandle :=
  match buildHandle name env {} with
  | .ok found _ => found
  | .error .. => none

theorem backed?_eq_some {name : String} {handle : GuardedHandle} (found : backed? env name = some handle) :
    Builds env name handle := by
  unfold backed? at found
  split at found
  · next built =>
    subst found
    exact ((buildHandle_steady name).everywhere built).2
  · cases found

/-! ## All variants are found together -/

/-- What a namespace holds by a name are the definitions of that name in it. -/
theorem Metadata.Index.Consistent.mem_named_iff {index : Index} (consistent : index.Consistent)
    {space name : String} {d : Definition} :
    d ∈ (index.membersIn space).named name ↔ d ∈ index.ofName name ∧ d.space = space ∧ d.name = name := by
  have parts : d ∈ (index.membersIn space).named name ↔
      d ∈ ((index.membersIn space).functionsOf name).map Definition.function ∨
      d ∈ ((index.membersIn space).typesOf name).map Definition.type ∨
      d ∈ ((index.membersIn space).constantsOf name).map Definition.constant := by
    simp only [Members.named, Members.functionsOf, Members.typesOf, Members.constantsOf, List.mem_append,
      or_assoc]
  rw [parts]
  cases d with
  | function f => simp [consistent.mem_functionsOf_iff, Definition.space, Definition.name]
  | type t => simp [consistent.mem_typesOf_iff, Definition.space, Definition.name]
  | constant c => simp [consistent.mem_constantsOf_iff, Definition.space, Definition.name]

section
variable (consistent : env.index.Consistent)
include consistent

/-- A name that finds a definition finds all of its name and namespace. -/
theorem mem_lookup_of_alike {name : String} {d e : Definition} (member : d ∈ env.index.lookup name)
    (held : e ∈ env.index.ofName e.name) (space : e.space = d.space) (own : e.name = d.name) :
    e ∈ env.index.lookup name := by
  unfold Index.lookup at member ⊢
  cases found : env.index.byName.get? name with
  | some definitions =>
    rw [found] at member
    have same : definitions = env.index.ofName name := by rw [Index.ofName, found]; rfl
    have named : d.name = name := consistent.named name d (same ▸ member)
    rw [own, named, ← same] at held
    exact held
  | none =>
    rw [found] at member
    dsimp only at member ⊢
    split at member
    · cases member
    · next qualified =>
      rw [if_neg qualified]
      split at member
      · next members there =>
        have same : env.index.membersIn (Text.cutLast '.' name).1 = members := by
          rw [Index.membersIn, there]
          rfl
        rw [← same] at member ⊢
        obtain ⟨_, spaceD, nameD⟩ := consistent.mem_named_iff.mp member
        have named := own.trans nameD
        exact consistent.mem_named_iff.mpr ⟨named ▸ held, space.trans spaceD, named⟩
      · cases member

/-- A prefix that finds a constant finds all of its name and namespace. -/
theorem mem_withPrefix_of_alike {start : String} {k other : Constant}
    (member : k ∈ env.index.constantsWithPrefix start)
    (held : .constant other ∈ env.index.ofName other.name) (space : other.space = k.space)
    (own : other.name = k.name) : other ∈ env.index.constantsWithPrefix start := by
  obtain ⟨members, heldIn, inMembers⟩ := List.mem_flatMap.mp member
  obtain ⟨⟨name, constants⟩, kept, among⟩ := List.mem_flatMap.mp inMembers
  refine List.mem_flatMap.mpr ⟨members, heldIn, List.mem_flatMap.mpr ⟨(name, constants), kept, ?_⟩⟩
  obtain ⟨⟨spaceK, _⟩, found, rfl⟩ := List.mem_map.mp heldIn
  have value := Table.get?_of_mem (consistent.distinct _ found).constants (List.mem_filter.mp kept).1
  have constantsOf : constants = (env.index.membersIn spaceK).constantsOf name := by
    rw [membersIn_of_mem consistent found, Members.constantsOf, value]
    rfl
  have among : k ∈ constants := among
  change other ∈ constants
  rw [constantsOf] at among ⊢
  obtain ⟨_, spaceOf, nameOf⟩ := consistent.mem_constantsOf_iff.mp among
  have named := own.trans nameOf
  exact consistent.mem_constantsOf_iff.mpr ⟨named ▸ held, space.trans spaceOf, named⟩

/-- A candidate that holds a constant holds all of its name and namespace. -/
theorem Offers.constants {c : Candidate} (offers : Offers env c) {k other : Constant}
    (member : .constant k ∈ c.2) (held : .constant other ∈ env.index.ofName other.name)
    (space : other.space = k.space) (own : other.name = k.name) : .constant other ∈ c.2 := by
  cases offers with
  | @named name groups _ s found among =>
    obtain ⟨entry, there, same⟩ := exactGroups_ok found c among
    have group := Table.foldl_push_groups groupKey _ entry there
    rw [same, group] at member ⊢
    obtain ⟨inside, key⟩ := List.mem_filter.mp member
    refine List.mem_filter.mpr ⟨mem_lookup_of_alike consistent inside held space own, ?_⟩
    have alike : groupKey (.constant other) = groupKey (.constant k) := by
      simp only [groupKey, Definition.space, Definition.name, space, own]
    rw [alike]
    exact key
  | @inNamespace spaceC members _ found among =>
    obtain ⟨name, -, functions | types | constants⟩ := mem_namespaceCandidates consistent found among
    · rw [functions] at member
      obtain ⟨_, _, same⟩ := List.mem_map.mp member
      cases same
    · rw [types] at member
      obtain ⟨_, _, same⟩ := List.mem_map.mp member
      cases same
    · rw [constants] at member ⊢
      obtain ⟨k, there, same⟩ := List.mem_map.mp member
      obtain rfl := Definition.constant.inj same
      obtain ⟨_, spaceK, nameK⟩ := consistent.mem_constantsOf_iff.mp there
      have named := own.trans nameK
      exact List.mem_map_of_mem
        (consistent.mem_constantsOf_iff.mpr ⟨named ▸ held, space.trans spaceK, named⟩)
  | inModule among =>
    obtain ⟨_, _, same⟩ := List.mem_map.mp
      (mem_of_byFullName (List.mem_filter.mp among).1 _ member)
    cases same
  | @withPrefix start _ among =>
    have group := Table.foldl_push_groups Definition.full
      ((env.index.constantsWithPrefix start).map .constant) c (mem_inKeyOrder.mp among)
    rw [group] at member ⊢
    obtain ⟨inside, key⟩ := List.mem_filter.mp member
    obtain ⟨k', there, same⟩ := List.mem_map.mp inside
    obtain rfl := Definition.constant.inj same
    have alike : Definition.full (.constant other) = Definition.full (.constant k') := by
      simp only [Definition.full, Definition.space, Definition.name, space, own]
    refine List.mem_filter.mpr ⟨List.mem_map_of_mem ?_, by rw [alike]; exact key⟩
    exact mem_withPrefix_of_alike consistent there held space own

/-- A function that is released by any name is told by its own name and namespace. -/
theorem release_eq {name other : String} {f g : Function}
    (first : select (·.architectures) (env.index.findFunctions name) env.options.platformName? name = .ok f)
    (second : select (·.architectures) (env.index.findFunctions other) env.options.platformName? other =
      .ok g) (space : f.space = g.space) (own : f.name = g.name) : f = g := by
  obtain ⟨memberF, fitsF⟩ := mem_of_select first
  obtain ⟨memberG, _⟩ := mem_of_select second
  obtain ⟨_, foundF, sameF⟩ := List.mem_filterMap.mp memberF
  obtain ⟨_, foundG, sameG⟩ := List.mem_filterMap.mp memberG
  obtain rfl := Definition.function?_eq_some_iff.mp sameF
  obtain rfl := Definition.function?_eq_some_iff.mp sameG
  have inside : .function f ∈ env.index.lookup other :=
    mem_lookup_of_alike consistent foundG (consistent.lookup foundF) space own
  exact eq_of_select second (List.mem_filterMap.mpr ⟨_, inside, rfl⟩) fitsF

/-! ## One entity for a key -/

omit consistent in
/-- A handle that a name finds is made of the function that the name finds. -/
theorem Builds.releaseOf {name : String} {handle : GuardedHandle} (builds : Builds env name handle) :
    ∃ release, env.releaseOf name = .ok release ∧ handle.Owned release ∧
      ∀ s, handleOfRelease release env s = .ok (some handle) s := by
  obtain ⟨release, chosen, made⟩ := buildHandle_ok (builds {})
  have leads : Gen.Leads env {} (handleOfRelease release) _ _ := handleOfRelease_leads release
  rw [Gen.Leads, made] at leads
  refine ⟨release, chosen, (leads handle rfl).1, fun s => ?_⟩
  obtain ⟨other, chosenAgain, madeAgain⟩ := buildHandle_ok (builds s)
  cases chosen.symm.trans chosenAgain
  exact madeAgain

/-- A handle that a release function backs is told by its own name and namespace. -/
theorem GuardedHandle.Backed.eq {first second : GuardedHandle} (backed : first.Backed env)
    (other : second.Backed env) (space : first.space = second.space) (name : first.name = second.name) :
    first = second := by
  obtain ⟨_, builds⟩ := backed
  obtain ⟨_, buildsOther⟩ := other
  obtain ⟨release, chosen, owned, made⟩ := Builds.releaseOf builds
  obtain ⟨releaseOther, chosenOther, ownedOther, madeOther⟩ := Builds.releaseOf buildsOther
  have spaces : release.space = releaseOther.space := by rw [← owned.space, space, ownedOther.space]
  have names : release.name = releaseOther.name := by
    rw [owned.name, ownedOther.name] at name
    exact (String.append_left_inj _).mp name
  obtain rfl := release_eq consistent chosen chosenOther spaces names
  exact Option.some.inj (EStateM.Result.ok.inj ((made {}).symm.trans (madeOther {}))).1

/-- A constant that generation comes to is told by its name and namespace. -/
theorem Entity.Offered.constant_eq {k other : Constant} (offered : Entity.Offered env (.constant k))
    (offeredOther : Entity.Offered env (.constant other)) (space : k.space = other.space)
    (name : k.name = other.name) : k = other := by
  obtain ⟨c, offers, chosen⟩ := offered.constant_chosen
  obtain ⟨_, offersOther, chosenOther⟩ := offeredOther.constant_chosen
  obtain ⟨member, _⟩ := mem_of_select chosen
  obtain ⟨memberOther, fitsOther⟩ := mem_of_select chosenOther
  have held := offersOther.held consistent _ memberOther
  have inside := offers.constants consistent member held space.symm name.symm
  exact (Definition.constant.inj (eq_of_select chosen inside fitsOther)).symm

omit consistent in
/-- A template of a catalog is found by its own name. -/
theorem Catalog.name_of_get? {templates : List Template} {name : String} {t : Template}
    (found : (Catalog.ofTemplates templates).get? name = some t) : t.name = name := by
  have kept : ∀ (templates : List Template) (table : Catalog),
      (∀ name t, table.get? name = some t → t.name = name) → ∀ name t,
        ((templates.map fun t => (t.name, t)).foldl (fun table e => table.put e.1 e.2) table).get? name =
          some t → t.name = name := by
    intro templates
    induction templates with
    | nil => exact fun _ h => h
    | cons first rest ih =>
      intro table own
      refine ih (table.put first.name first) fun name t found => ?_
      rw [Table.get?_put] at found
      split at found
      · next same => exact Option.some.inj found ▸ same
      · exact own name t found
  exact kept templates {} (fun _ _ found => by cases found) name t found

/-- The sorts of entities that their keys tell apart: all that are read from the metadata or from the
    catalog, but for functions. -/
def EntityKind.Telling (kind : EntityKind) : Prop := kind ≠ .function ∧ kind ≠ .inlineArray

instance (kind : EntityKind) : Decidable kind.Telling := inferInstanceAs (Decidable (_ ∧ _))

/-- Types, constants, templates and handles that generation comes to are told by their keys. -/
theorem Entity.Offered.eq_of_key {templates : List Template}
    (catalog : env.templates = Catalog.ofTemplates templates) {e other : Entity} (offered : e.Offered env)
    (offeredOther : other.Offered env) (same : e.key = other.key) (tells : e.key.kind.Telling) :
    e = other := by
  cases e with
  | function f => exact absurd rfl tells.1
  | inlineArray name element length isChar => exact absurd rfl tells.2
  | type t unmanaged =>
    obtain ⟨u, rfl, space, name⟩ := Entity.eq_type same.symm
    rw [(offered.chooses consistent).eq (offeredOther.chooses consistent) space.symm name.symm]
  | constant k =>
    cases other with
    | constant k' =>
      simp only [Entity.key, EntityKey.mk.injEq, QualifiedName.mk.injEq, true_and, and_true] at same
      rw [offered.constant_eq consistent offeredOther same.1 same.2]
    | template t =>
      simp only [Entity.key, EntityKey.mk.injEq] at same
      cases kind : t.kind <;> rw [kind] at same <;> cases same.1
    | function | type | guardedHandle | inlineArray => simp [Entity.key] at same
  | guardedHandle handle =>
    cases other with
    | guardedHandle handle' =>
      simp only [Entity.key, EntityKey.mk.injEq, QualifiedName.mk.injEq, true_and, and_true] at same
      rw [offered.handle_backed.eq consistent offeredOther.handle_backed same.1 same.2]
    | template t =>
      simp only [Entity.key, EntityKey.mk.injEq] at same
      cases kind : t.kind <;> rw [kind] at same <;> cases same.1
    | function | type | constant | inlineArray => simp [Entity.key] at same
  | template t =>
    obtain ⟨u, rfl⟩ := Entity.eq_template same.symm
    obtain ⟨_, held⟩ := offered.template_held
    obtain ⟨_, heldOther⟩ := offeredOther.template_held
    simp only [Entity.key, EntityKey.mk.injEq, QualifiedName.mk.injEq, and_true] at same
    rw [catalog] at held heldOther
    obtain rfl := Catalog.name_of_get? held
    obtain rfl := Catalog.name_of_get? heldOther
    rw [same.2.2, heldOther] at held
    rw [Option.some.inj held]

end
end Bindings
