import Bindings.Metadata.Index
import Bindings.Proofs.Metadata.Reading
import Bindings.Proofs.Table

/-!
# The index is consistent

The tables of an index tell the same: what a namespace holds under a name are the definitions of
that name that belong to the namespace, in the order of the documents. All of them were read from
an element, so their types are flat.
-/

namespace Bindings.Metadata

/-! ## Definitions of a name -/

namespace Members

/-- The functions of a name. -/
def functionsOf (m : Members) (name : String) : List Function := (m.functions.get? name).getD []

/-- The types of a name. -/
def typesOf (m : Members) (name : String) : List TypeDefinition := (m.types.get? name).getD []

/-- The constants of a name. -/
def constantsOf (m : Members) (name : String) : List Constant := (m.constants.get? name).getD []

/-- Each name has one entry in each table. -/
structure Distinct (m : Members) : Prop where
  functions : m.functions.keys.Nodup
  types : m.types.keys.Nodup
  constants : m.constants.keys.Nodup

end Members

namespace Index

/-- The definitions of a simple name, in document order. -/
def ofName (index : Index) (name : String) : List Definition := (index.byName.get? name).getD []

/-- The definitions of a namespace; one that is not there has none. -/
def membersIn (index : Index) (space : String) : Members := (index.namespaces.get? space).getD {}

end Index

/-- The constant that a definition is, if it is one. -/
def Definition.constant? : Definition → Option Constant
  | .constant c => some c
  | _ => none

/-- The definitions among several that belong to a namespace. -/
def within (space : String) (definitions : List Definition) : List Definition :=
  definitions.filter (·.space = space)

/-- The tables of an index agree. -/
structure Index.Consistent (index : Index) : Prop where
  named : ∀ name, ∀ d ∈ index.ofName name, d.name = name
  flat : ∀ name, ∀ d ∈ index.ofName name, ∀ type ∈ d.signatures, type.Flat
  functions : ∀ space name, (index.membersIn space).functionsOf name =
    (within space (index.ofName name)).filterMap (·.function?)
  types : ∀ space name, (index.membersIn space).typesOf name =
    (within space (index.ofName name)).filterMap (·.type?)
  constants : ∀ space name, (index.membersIn space).constantsOf name =
    (within space (index.ofName name)).filterMap (·.constant?)
  modules : ∀ entry ∈ index.byModule.entries, ∀ f ∈ entry.2, .function f ∈ index.ofName f.name
  spaces : index.namespaces.keys.Nodup
  distinct : ∀ entry ∈ index.namespaces.entries, entry.2.Distinct

/-! ## One more definition -/

theorem Members.functionsOf_add (m : Members) (d : Definition) (name : String) :
    (m.add d).functionsOf name =
      m.functionsOf name ++ (if d.name = name then [d] else []).filterMap (·.function?) := by
  by_cases same : d.name = name <;> cases d <;>
    simp_all [functionsOf, add, Definition.name, Definition.function?, Table.getD_push]

theorem Members.typesOf_add (m : Members) (d : Definition) (name : String) :
    (m.add d).typesOf name =
      m.typesOf name ++ (if d.name = name then [d] else []).filterMap (·.type?) := by
  by_cases same : d.name = name <;> cases d <;>
    simp_all [typesOf, add, Definition.name, Definition.type?, Table.getD_push]

theorem Members.constantsOf_add (m : Members) (d : Definition) (name : String) :
    (m.add d).constantsOf name =
      m.constantsOf name ++ (if d.name = name then [d] else []).filterMap (·.constant?) := by
  by_cases same : d.name = name <;> cases d <;>
    simp_all [constantsOf, add, Definition.name, Definition.constant?, Table.getD_push]

theorem Members.Distinct.add {m : Members} (distinct : m.Distinct) (d : Definition) :
    (m.add d).Distinct := by
  cases d with
  | function f => exact ⟨Table.nodup_put _ distinct.functions _ _, distinct.types, distinct.constants⟩
  | type t => exact ⟨distinct.functions, Table.nodup_put _ distinct.types _ _, distinct.constants⟩
  | constant c => exact ⟨distinct.functions, distinct.types, Table.nodup_put _ distinct.constants _ _⟩

theorem Members.Distinct.empty : Members.Distinct {} :=
  ⟨List.nodup_nil, List.nodup_nil, List.nodup_nil⟩

namespace Index

variable {index : Index}

theorem ofName_add (index : Index) (d : Definition) (name : String) :
    (index.add d).ofName name = index.ofName name ++ if d.name = name then [d] else [] :=
  Table.getD_push _ _ _ _

theorem membersIn_add (index : Index) (d : Definition) (space : String) :
    (index.add d).membersIn space =
      if d.space = space then (index.membersIn space).add d else index.membersIn space := by
  unfold membersIn add
  rw [Table.get?_put]
  split
  · next same => rw [same]; rfl
  · rfl

/-- What a definition adds to a namespace. -/
theorem within_added (d : Definition) (space name : String) :
    within space (if d.name = name then [d] else []) =
      if d.space = space then (if d.name = name then [d] else []) else [] := by
  by_cases here : d.space = space <;> by_cases same : d.name = name <;> simp [within, here, same]

theorem Consistent.add (consistent : index.Consistent) {d : Definition}
    (flat : ∀ type ∈ d.signatures, type.Flat) : (index.add d).Consistent where
  named name other member := by
    rw [ofName_add] at member
    rcases List.mem_append.mp member with old | new
    · exact consistent.named name other old
    · split at new
      · next same => rw [List.mem_singleton.mp new, same]
      · cases new
  flat name other member := by
    rw [ofName_add] at member
    rcases List.mem_append.mp member with old | new
    · exact consistent.flat name other old
    · split at new
      · rwa [List.mem_singleton.mp new]
      · cases new
  functions space name := by
    rw [membersIn_add, ofName_add, within, List.filter_append, List.filterMap_append, ← within, ← within,
      ← consistent.functions, within_added]
    split
    · exact Members.functionsOf_add _ d name
    · simp
  types space name := by
    rw [membersIn_add, ofName_add, within, List.filter_append, List.filterMap_append, ← within, ← within,
      ← consistent.types, within_added]
    split
    · exact Members.typesOf_add _ d name
    · simp
  constants space name := by
    rw [membersIn_add, ofName_add, within, List.filter_append, List.filterMap_append, ← within, ← within,
      ← consistent.constants, within_added]
    split
    · exact Members.constantsOf_add _ d name
    · simp
  modules entry member f held := by
    rw [ofName_add, List.mem_append]
    cases d with
    | function g =>
      rcases Table.mem_push member f held with ⟨_, rfl⟩ | ⟨old, there, _, inside⟩
      · exact .inr (by simp [Definition.name])
      · exact .inl (consistent.modules old there f inside)
    | type t => exact .inl (consistent.modules entry member f held)
    | constant c => exact .inl (consistent.modules entry member f held)
  spaces := Table.nodup_put _ consistent.spaces _ _
  distinct entry member := by
    rcases Table.mem_putIn member with old | rfl
    · exact consistent.distinct entry old
    · cases found : index.namespaces.get? d.space with
      | none => exact Members.Distinct.empty.add d
      | some members => exact (consistent.distinct _ (Table.mem_of_lookupIn found)).add d

/-! ## Documents -/

theorem Consistent.empty : Index.Consistent {} where
  named _ _ member := by cases member
  flat _ _ member := by cases member
  functions _ _ := rfl
  types _ _ := rfl
  constants _ _ := rfl
  modules _ member := by cases member
  spaces := List.nodup_nil
  distinct _ member := by cases member

theorem membersIn_addNamespace (index : Index) (space other : String) :
    (index.addNamespace space).membersIn other = index.membersIn other := by
  unfold membersIn addNamespace
  rw [Table.get?_putNew]
  split
  · next same =>
    subst same
    cases index.namespaces.get? space <;> rfl
  · rfl

theorem Consistent.addNamespace (consistent : index.Consistent) (space : String) :
    (index.addNamespace space).Consistent where
  named := consistent.named
  flat := consistent.flat
  functions other name := by
    rw [membersIn_addNamespace]
    exact consistent.functions other name
  types other name := by
    rw [membersIn_addNamespace]
    exact consistent.types other name
  constants other name := by
    rw [membersIn_addNamespace]
    exact consistent.constants other name
  modules := consistent.modules
  spaces := Table.nodup_putNew _ consistent.spaces _ _
  distinct entry member := by
    simp only [Index.addNamespace, Table.entries_putNew] at member
    rcases List.mem_append.mp member with old | new
    · exact consistent.distinct entry old
    · split at new
      · cases new
      · rw [List.mem_singleton.mp new]
        exact .empty

/-- What each step of a fold keeps holds at its end. -/
theorem foldlM_keeps {σ α : Type} {P : σ → Prop} {f : σ → α → Except Fault σ}
    (step : ∀ s a t, P s → f s a = .ok t → P t) (xs : List α) {s t : σ} (start : P s)
    (ends : xs.foldlM f s = .ok t) : P t := by
  induction xs generalizing s with
  | nil =>
    rw [List.foldlM_nil] at ends
    exact Except.ok.inj ends ▸ start
  | cons a xs ih =>
    rw [List.foldlM_cons] at ends
    cases next : f s a with
    | error e =>
      rw [next] at ends
      cases ends
    | ok u =>
      rw [next] at ends
      exact ih (step s a u start next) ends

theorem Consistent.addElement (consistent : index.Consistent) {e : Markup.Element} {next : Index}
    (added : index.addNamespaceElement e = .ok next) : next.Consistent := by
  unfold addNamespaceElement at added
  cases named : required e "name" with
  | error fault =>
    rw [named] at added
    cases added
  | ok space =>
    rw [named] at added
    refine foldlM_keeps (P := Consistent) (fun index child next consistent stepped => ?_) e.children
      (consistent.addNamespace space) added
    cases read : Definition.read space child with
    | error fault =>
      rw [read] at stepped
      cases stepped
    | ok d =>
      rw [read] at stepped
      obtain rfl := Except.ok.inj stepped
      exact consistent.add (Definition.read_flat read)

/-- The index of documents is consistent. -/
theorem ofDocuments_consistent {roots : List Markup.Element} (built : ofDocuments roots = .ok index) :
    index.Consistent := by
  refine foldlM_keeps (P := Consistent) (fun index root next consistent stepped => ?_) roots .empty built
  unfold addDocument at stepped
  split at stepped
  · exact foldlM_keeps (P := Consistent) (fun _ _ _ consistent added => consistent.addElement added) _
      consistent stepped
  · cases stepped

/-- What holds of each definition that is read holds of all that an index of documents has. -/
theorem ofDocuments_holds {P : Definition → Prop}
    (reads : ∀ space e d, Definition.read space e = .ok d → P d) {roots : List Markup.Element}
    (built : ofDocuments roots = .ok index) : ∀ name, ∀ d ∈ index.ofName name, P d := by
  have addElement : ∀ (index : Index) e next, (∀ name, ∀ d ∈ index.ofName name, P d) →
      index.addNamespaceElement e = .ok next → ∀ name, ∀ d ∈ next.ofName name, P d := by
    intro index e next holds added
    unfold addNamespaceElement at added
    obtain ⟨space, _, added⟩ := bind_eq_ok added
    have start : ∀ name, ∀ d ∈ (index.addNamespace space).ofName name, P d := holds
    refine foldlM_keeps (P := fun index : Index => ∀ name, ∀ d ∈ index.ofName name, P d)
      (fun index child next holds stepped => ?_) e.children start added
    obtain ⟨d, read, stepped⟩ := bind_eq_ok stepped
    obtain rfl := Except.ok.inj stepped
    intro name other member
    rw [ofName_add] at member
    rcases List.mem_append.mp member with old | new
    · exact holds name other old
    · split at new
      · exact List.mem_singleton.mp new ▸ reads space child d read
      · cases new
  refine foldlM_keeps (P := fun index : Index => ∀ name, ∀ d ∈ index.ofName name, P d)
    (fun index root next holds stepped => ?_) roots (fun _ _ member => by cases member) built
  unfold addDocument at stepped
  split at stepped
  · exact foldlM_keeps (P := fun index : Index => ∀ name, ∀ d ∈ index.ofName name, P d)
      addElement _ holds stepped
  · cases stepped

/-- A union has an explicit layout. -/
theorem ofDocuments_layout {roots : List Markup.Element} (built : ofDocuments roots = .ok index)
    {t : TypeDefinition} {r : Record} (member : .type t ∈ index.ofName t.name)
    (shape : t.shape = .record r) (isUnion : r.isUnion = true) : r.explicitLayout = true :=
  ofDocuments_holds (fun _ _ _ => Definition.read_layout) built t.name _ member t r rfl shape isUnion

end Index
end Bindings.Metadata
