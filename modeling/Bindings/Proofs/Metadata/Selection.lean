import Bindings.Metadata.Variant
import Bindings.Proofs.Metadata.Index

/-!
# Which variant is meant

However a type is found, by a reference, by its name or in its namespace, the same variant of it
is chosen on a platform.
-/

namespace Bindings.Metadata

/-! ## Selections -/

/-- A selection that succeeds gives the only variant that applies. -/
theorem select_eq_ok_iff {α : Type} {architecturesOf : α → List String} {variants : List α}
    {platform : Option String} {name : String} {a : α} :
    select architecturesOf variants platform name = .ok a ↔
      variants.filter (fun v => applies platform (architecturesOf v)) = [a] := by
  unfold select
  split
  · next empty =>
    rw [List.isEmpty_iff.mp empty]
    exact iff_of_false nofun nofun
  · split
    · next none =>
      rw [none]
      exact iff_of_false nofun nofun
    · next v single =>
      rw [single]
      simp
    · next matching none several =>
      refine iff_of_false nofun ?_
      intro single
      exact several a single

theorem mem_of_select {α : Type} {architecturesOf : α → List String} {variants : List α}
    {platform : Option String} {name : String} {a : α}
    (chosen : select architecturesOf variants platform name = .ok a) :
    a ∈ variants ∧ applies platform (architecturesOf a) = true := by
  have member : a ∈ variants.filter fun v => applies platform (architecturesOf v) := by
    rw [select_eq_ok_iff.mp chosen]
    simp
  exact List.mem_filter.mp member

/-- A variant that applies is the one that a selection gives. -/
theorem eq_of_select {α : Type} {architecturesOf : α → List String} {variants : List α}
    {platform : Option String} {name : String} {a b : α}
    (chosen : select architecturesOf variants platform name = .ok a) (member : b ∈ variants)
    (fits : applies platform (architecturesOf b) = true) : b = a := by
  have inside : b ∈ variants.filter fun v => applies platform (architecturesOf v) :=
    List.mem_filter.mpr ⟨member, fits⟩
  rw [select_eq_ok_iff.mp chosen] at inside
  exact List.mem_singleton.mp inside

/-- A selection among variants of which one applies gives this one, unless several apply. -/
theorem select_of_applies {α : Type} {architecturesOf : α → List String} {variants : List α}
    {platform : Option String} {a : α} (name : String) (member : a ∈ variants)
    (fits : applies platform (architecturesOf a) = true) :
    select architecturesOf variants platform name = .ok a ∨ ∃ n, 2 ≤ n ∧
      select architecturesOf variants platform name = .error (.fault (.ambiguousVariants n name)) := by
  have inside : a ∈ variants.filter fun v => applies platform (architecturesOf v) :=
    List.mem_filter.mpr ⟨member, fits⟩
  have some : variants.isEmpty = false := by
    cases variants with
    | nil => cases member
    | cons => rfl
  unfold select
  rw [if_neg (by simp [some])]
  split
  · next none =>
    rw [none] at inside
    cases inside
  · next v single =>
    rw [single] at inside
    exact .inl (by rw [List.mem_singleton.mp inside])
  · next matching none several =>
    refine .inr ⟨_, ?_, rfl⟩
    cases found : variants.filter fun v => applies platform (architecturesOf v) with
    | nil => exact absurd found none
    | cons v rest =>
      cases rest with
      | nil => exact absurd found (several v)
      | cons w rest => exact Nat.le_add_left 2 _

/-- The type is the variant that is chosen on a platform among those of its name in its
    namespace. -/
def Index.Chooses (index : Index) (platform : Option String) (t : TypeDefinition) : Prop :=
  ((index.membersIn t.space).typesOf t.name).filter (fun u => applies platform u.architectures) = [t]

theorem Index.Chooses.eq {index : Index} {platform : Option String} {t u : TypeDefinition}
    (first : index.Chooses platform t) (second : index.Chooses platform u) (space : t.space = u.space)
    (name : t.name = u.name) : t = u := by
  unfold Chooses at first second
  rw [space, name, second] at first
  exact (List.cons.inj first).1.symm

theorem Definition.type?_eq_some_iff {d : Definition} {t : TypeDefinition} :
    d.type? = some t ↔ d = .type t := by
  cases d <;> simp [type?]

theorem Definition.function?_eq_some_iff {d : Definition} {f : Function} :
    d.function? = some f ↔ d = .function f := by
  cases d <;> simp [function?]

theorem Definition.constant?_eq_some_iff {d : Definition} {c : Constant} :
    d.constant? = some c ↔ d = .constant c := by
  cases d <;> simp [constant?]

theorem mem_within {space : String} {definitions : List Definition} {d : Definition} :
    d ∈ within space definitions ↔ d ∈ definitions ∧ d.space = space := by
  simp [within]

namespace Index

variable {index : Index}

/-! ## Types of a name -/

/-- The types among definitions of a name and a namespace. -/
theorem Consistent.mem_typesOf_iff (consistent : index.Consistent) {space name : String}
    {t : TypeDefinition} :
    t ∈ (index.membersIn space).typesOf name ↔
      .type t ∈ index.ofName name ∧ t.space = space ∧ t.name = name := by
  rw [consistent.types, List.mem_filterMap]
  simp only [mem_within, Definition.type?_eq_some_iff]
  constructor
  · rintro ⟨_, ⟨held, here⟩, rfl⟩
    exact ⟨held, here, consistent.named name _ held⟩
  · rintro ⟨held, here, _⟩
    exact ⟨.type t, ⟨held, here⟩, rfl⟩

/-- A type that is chosen is one of its name. -/
theorem Consistent.held (consistent : index.Consistent) {platform : Option String} {t : TypeDefinition}
    (chooses : index.Chooses platform t) : .type t ∈ index.ofName t.name := by
  have member : t ∈ ((index.membersIn t.space).typesOf t.name).filter
      fun u => applies platform u.architectures := by
    rw [chooses]
    exact List.mem_singleton.mpr rfl
  exact (consistent.mem_typesOf_iff.mp (List.mem_filter.mp member).1).1

theorem Consistent.mem_functionsOf_iff (consistent : index.Consistent) {space name : String}
    {f : Function} :
    f ∈ (index.membersIn space).functionsOf name ↔
      .function f ∈ index.ofName name ∧ f.space = space ∧ f.name = name := by
  rw [consistent.functions, List.mem_filterMap]
  simp only [mem_within, Definition.function?_eq_some_iff]
  constructor
  · rintro ⟨_, ⟨held, here⟩, rfl⟩
    exact ⟨held, here, consistent.named name _ held⟩
  · rintro ⟨held, here, _⟩
    exact ⟨.function f, ⟨held, here⟩, rfl⟩

theorem Consistent.mem_constantsOf_iff (consistent : index.Consistent) {space name : String}
    {c : Constant} :
    c ∈ (index.membersIn space).constantsOf name ↔
      .constant c ∈ index.ofName name ∧ c.space = space ∧ c.name = name := by
  rw [consistent.constants, List.mem_filterMap]
  simp only [mem_within, Definition.constant?_eq_some_iff]
  constructor
  · rintro ⟨_, ⟨held, here⟩, rfl⟩
    exact ⟨held, here, consistent.named name _ held⟩
  · rintro ⟨held, here, _⟩
    exact ⟨.constant c, ⟨held, here⟩, rfl⟩

/-- Types that all belong to a namespace are those within it. -/
theorem filterMap_within {space : String} {definitions : List Definition}
    (alike : ∀ t, .type t ∈ definitions → t.space = space) :
    (within space definitions).filterMap (·.type?) = definitions.filterMap (·.type?) := by
  induction definitions with
  | nil => rfl
  | cons d rest ih =>
    have later := ih fun t member => alike t (List.mem_cons_of_mem d member)
    rw [within] at later ⊢
    by_cases here : d.space = space
    · rw [List.filter_cons_of_pos (by simpa using here), List.filterMap_cons, List.filterMap_cons, later]
    · rw [List.filter_cons_of_neg (by simpa using here), later, List.filterMap_cons]
      cases d with
      | type t => exact absurd (alike t (by simp)) here
      | function f => rfl
      | constant c => rfl

/-- What a reference means are all types of one name in one namespace. -/
theorem Consistent.resolve (consistent : index.Consistent) {reference : QualifiedName}
    {t : TypeDefinition} (member : t ∈ index.resolve reference) :
    index.resolve reference = (index.membersIn t.space).typesOf t.name := by
  unfold Index.resolve at member ⊢
  cases found : (index.namespaces.get? reference.space).bind (·.types.get? reference.name) with
  | some variants =>
    have same : (index.membersIn reference.space).typesOf reference.name = variants := by
      unfold membersIn Members.typesOf
      cases there : index.namespaces.get? reference.space with
      | none => simp [there] at found
      | some members =>
        rw [there, Option.bind_some] at found
        simp [found]
    simp only [found] at member ⊢
    rw [← same] at member
    obtain ⟨_, space, name⟩ := consistent.mem_typesOf_iff.mp member
    rw [space, name, same]
  | none =>
    simp only [found] at member ⊢
    split at member
    · next single =>
      -- all types of the name belong to one namespace
      have alike : ∀ u ∈ ((index.byName.get? reference.name).getD []).filterMap (·.type?),
          u.space = t.space := by
        intro u there
        obtain ⟨space, only⟩ := List.length_eq_one_iff.mp single
        have inside : ∀ v ∈ ((index.byName.get? reference.name).getD []).filterMap (·.type?),
            v.space = space := by
          intro v held
          have kept := List.mem_eraseDups.mpr (List.mem_map_of_mem (f := (·.space)) held)
          rw [only] at kept
          exact List.mem_singleton.mp kept
        rw [inside u there, inside t member]
      rw [if_pos single]
      obtain ⟨_, held, same⟩ := List.mem_filterMap.mp member
      obtain rfl := Definition.type?_eq_some_iff.mp same
      have name : t.name = reference.name := consistent.named reference.name _ held
      rw [name, consistent.types]
      refine (filterMap_within fun u inside => ?_).symm
      exact alike u (List.mem_filterMap.mpr ⟨_, inside, rfl⟩)
    · cases member

/-! ## Names -/

/-- What is found for a name are definitions of the index with this name, or with its parts. -/
theorem Consistent.lookup_cases (consistent : index.Consistent) {name : String} {d : Definition}
    (member : d ∈ index.lookup name) : d ∈ index.ofName d.name ∧
      (d.name = name ∨ d.space ≠ "" ∧ Text.cutLast '.' name = (d.space, d.name)) := by
  unfold Index.lookup at member
  cases found : index.byName.get? name with
  | some definitions =>
    rw [found] at member
    have held : d ∈ index.ofName name := by rwa [ofName, found]
    have own := consistent.named name d held
    exact ⟨own.symm ▸ held, .inl own⟩
  | none =>
    rw [found] at member
    dsimp only at member
    split at member
    · cases member
    · next some =>
      have parts : ∀ d : Definition, d ∈ index.ofName (Text.cutLast '.' name).2 →
          d.space = (Text.cutLast '.' name).1 → d ∈ index.ofName d.name ∧
            (d.name = name ∨ d.space ≠ "" ∧ Text.cutLast '.' name = (d.space, d.name)) := by
        intro d held space
        have own := consistent.named _ d held
        exact ⟨own.symm ▸ held, .inr ⟨space ▸ some, by rw [space, own]⟩⟩
      split at member
      · next members there =>
        have same : members = index.membersIn (Text.cutLast '.' name).1 := by rw [membersIn, there]; rfl
        rw [same] at member
        rcases List.mem_append.mp member with first | constants
        · rcases List.mem_append.mp first with functions | types
          · obtain ⟨f, inside, rfl⟩ := List.mem_map.mp functions
            obtain ⟨held, space, _⟩ := consistent.mem_functionsOf_iff.mp inside
            exact parts _ held space
          · obtain ⟨t, inside, rfl⟩ := List.mem_map.mp types
            obtain ⟨held, space, _⟩ := consistent.mem_typesOf_iff.mp inside
            exact parts _ held space
        · obtain ⟨c, inside, rfl⟩ := List.mem_map.mp constants
          obtain ⟨held, space, _⟩ := consistent.mem_constantsOf_iff.mp inside
          exact parts _ held space
      · cases member

theorem Consistent.lookup (consistent : index.Consistent) {name : String} {d : Definition}
    (member : d ∈ index.lookup name) : d ∈ index.ofName d.name :=
  (consistent.lookup_cases member).1

/-- Definitions of the index are found by their simple name. -/
theorem mem_lookup {d : Definition} (member : d ∈ index.ofName d.name) : d ∈ index.lookup d.name := by
  unfold ofName at member
  unfold Index.lookup
  cases found : index.byName.get? d.name with
  | some definitions => rwa [found] at member
  | none => simp [found] at member

/-- A function that is found by any name is found by its simple name. -/
theorem Consistent.release (consistent : index.Consistent) {platform : Option String}
    {name label other : String} {f g : Function}
    (first : select (·.architectures) (index.findFunctions name) platform label = .ok f)
    (second : select (·.architectures) (index.findFunctions f.name) platform other = .ok g) :
    f = g := by
  obtain ⟨member, fits⟩ := mem_of_select first
  obtain ⟨_, held, same⟩ := List.mem_filterMap.mp member
  obtain rfl := Definition.function?_eq_some_iff.mp same
  have found : .function f ∈ index.lookup f.name := mem_lookup (consistent.lookup held)
  exact eq_of_select second (List.mem_filterMap.mpr ⟨_, found, rfl⟩) fits

end Index
end Bindings.Metadata
