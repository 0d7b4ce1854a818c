import Bindings.Proofs.Request.Atomic

/-!
# The durable record

The declarations that are durable between the requests of a session, and the entities they were
made for.
-/

namespace Bindings
open Bindings.Metadata

variable {env : Environment} {D : Discipline env} {s : State}

/-! ## Sorts of declarations -/

/-- A true interface. -/
def Declaration.interface? : Declaration → Option InterfaceDecl
  | .interface i => some i
  | _ => none

/-- A table of methods. -/
def Declaration.vtable? : Declaration → Option VtableStructDecl
  | .vtable v => some v
  | _ => none

/-- The true interfaces among the durable declarations. -/
def Ledger.interfaces (l : Ledger) : List InterfaceDecl := l.declarations.filterMap (·.interface?)

/-- The tables of methods among the durable declarations. -/
def Ledger.vtables (l : Ledger) : List VtableStructDecl := l.declarations.filterMap (·.vtable?)

theorem interface?_eq_some_iff {d : Declaration} {i : InterfaceDecl} :
    d.interface? = some i ↔ d = .interface i := by
  cases d <;> simp [Declaration.interface?]

theorem vtable?_eq_some_iff {d : Declaration} {v : VtableStructDecl} :
    d.vtable? = some v ↔ d = .vtable v := by
  cases d <;> simp [Declaration.vtable?]

@[simp] theorem mem_interfaces {l : Ledger} {i : InterfaceDecl} :
    i ∈ l.interfaces ↔ .interface i ∈ l.declarations := by
  simp [Ledger.interfaces, List.mem_filterMap, interface?_eq_some_iff]

@[simp] theorem mem_vtables {l : Ledger} {v : VtableStructDecl} :
    v ∈ l.vtables ↔ .vtable v ∈ l.declarations := by
  simp [Ledger.vtables, List.mem_filterMap, vtable?_eq_some_iff]

theorem mem_declarations {l : Ledger} {d : Declaration} :
    d ∈ l.declarations ↔ ∃ c ∈ l.committed.entries, d ∈ c.2 := by
  rw [Ledger.declarations, List.mem_flatten]
  constructor
  · rintro ⟨_, held, member⟩
    obtain ⟨c, there, rfl⟩ := List.mem_map.mp held
    exact ⟨c, there, member⟩
  · rintro ⟨c, there, member⟩
    exact ⟨c.2, List.mem_map_of_mem there, member⟩

/-! ## Types in declarations -/

/-- The types in a declaration. That of the field in the class of a handle is written as the
    metadata has it, and is not among them. -/
def Declaration.types : Declaration → List TargetType
  | .entryPoint e => e.returnType :: e.params.map (·.type)
  | .overload o => o.raw.returnType :: (o.raw.params.map (·.type) ++ o.types)
  | .struct d => d.fields.map (·.type)
  | .enum d => [d.baseType]
  | .delegate d => d.returnType :: d.params.map (·.type)
  | .constant d => [d.type]
  | .interface d => d.methods.flatMap fun m => m.returnType :: m.params.map (·.type)
  | .vtable d => d.fields.map (·.type) ++ d.slots.map (·.functionType)
      ++ d.methods.flatMap fun m => m.returnType :: m.call.functionType :: m.params.map (·.type)
  | .inlineArray d => d.elementType :: d.members.flatMap fun m => m.returns :: m.params.map (·.type)
  | .guardedHandle .. | .template _ => []

/-- The helper type of an inline array is good, and so are its elements and what is made of them. -/
theorem inlineArray_types {name : String} {element : TargetType} {length : Int} {isChar : Bool}
    {visibility : Visibility} (good : D.Good false element s)
    (known : s.Knows (Entity.inlineArray name element length isChar).key) :
    ∀ type ∈ (Declaration.inlineArray (inlineArrayDecl visibility name element length isChar)).types,
      D.Good true type s := by
  have elements := D.good_weaken good
  have helper : D.Good true (.named ⟨inlineArraySpace, name⟩) s := D.good_entity known trivial nofun
  have members : ∀ m ∈ (inlineArrayDecl visibility name element length isChar).members,
      D.Good true m.returns s ∧ ∀ p ∈ m.params, D.Good true p.type s := by
    cases isChar <;> simp [inlineArrayDecl, inlineArrayMembers, textMembers, TargetType.int,
      TargetType.void, TargetType.bool, TargetType.string, D.good_word, D.good_span elements,
      elements, helper]
  intro type member
  rcases List.mem_cons.mp member with rfl | among
  · exact elements
  · obtain ⟨m, there, inside⟩ := List.mem_flatMap.mp among
    rcases List.mem_cons.mp inside with rfl | param
    · exact (members m there).1
    · obtain ⟨p, own, rfl⟩ := List.mem_map.mp param
      exact (members m there).2 p own

/-- All types in a declaration that fits its entity are good. -/
theorem fits_types {e : Entity} {d : Declaration} (fits : D.Fits s e d) :
    ∀ type ∈ d.types, D.Good true type s := by
  have styledParams : ∀ {marshaling : Bool} {params : List ParamDecl},
      (∀ p ∈ params, D.Styled s marshaling p.type p.marshalAs) →
      ∀ type ∈ params.map (·.type), D.Good true type s := by
    intro marshaling params styled type member
    obtain ⟨p, there, rfl⟩ := List.mem_map.mp member
    exact Discipline.good_true (styled p there).1
  have functionTypes : ∀ {f : Function} {raw : EntryPoint}, D.FitsFunction s f raw →
      ∀ type ∈ raw.returnType :: raw.params.map (·.type), D.Good true type s := by
    intro f raw fits type member
    rcases List.mem_cons.mp member with rfl | among
    · exact Discipline.good_true fits.returns.1
    · exact styledParams fits.params type among
  intro type member
  cases fits with
  | entryPoint fits => exact functionTypes fits type member
  | overload fits types =>
    rcases List.mem_cons.mp member with rfl | among
    · exact functionTypes fits _ (by simp)
    · rcases List.mem_append.mp among with raw | own
      · exact functionTypes fits type (List.mem_cons_of_mem _ raw)
      · exact types type own
  | struct shape fits =>
    obtain ⟨f, there, rfl⟩ := List.mem_map.mp member
    rcases fits.fields with ⟨_, styled⟩ | ⟨_, styled⟩
    · exact (styled f there).1
    · exact Discipline.good_true (styled f there).1
  | enum shape name space good =>
    rw [List.mem_singleton.mp member]
    exact D.good_weaken good
  | delegate shape name space params returns =>
    rcases List.mem_cons.mp member with rfl | among
    · exact Discipline.good_true returns
    · exact styledParams params type among
  | interface shape fits =>
    obtain ⟨m, there, among⟩ := List.mem_flatMap.mp member
    rcases List.mem_cons.mp among with rfl | param
    · exact (fits.methods m there).returns.1
    · exact styledParams (fits.methods m there).params type param
  | vtable fits =>
    rcases List.mem_append.mp member with first | methods
    · rcases List.mem_append.mp first with fields | slots
      · obtain ⟨f, there, rfl⟩ := List.mem_map.mp fields
        exact D.good_weaken (fits.fields f there).1
      · obtain ⟨slot, there, rfl⟩ := List.mem_map.mp slots
        exact D.good_weaken (fits.slots slot there)
    · obtain ⟨m, there, among⟩ := List.mem_flatMap.mp methods
      rcases List.mem_cons.mp among with rfl | among
      · exact D.good_weaken (fits.methods m there).1
      · rcases List.mem_cons.mp among with rfl | param
        · exact D.good_weaken (fits.methods m there).2
        · exact styledParams (fits.params m there) type param
  | constant name space good =>
    rw [List.mem_singleton.mp member]
    exact D.good_weaken good
  | template => cases member
  | guardedHandle chosen known => cases member
  | inlineArray good known => exact inlineArray_types good known type member

/-! ## Entities -/

/-- All that is durable in a session is accounted for. -/
theorem session_accounted (D : Discipline env) (requests : List PublicRequest) :
    ∀ c ∈ (env.session requests).ledger.committed.entries, D.Accounts (env.session requests) c := by
  intro c member
  rcases (session_advances D requests).added c member with old | accounted
  · cases old
  · exact accounted

/-- With nothing available all that is durable in a session belongs to an entity that was asked for,
    and covers it. -/
theorem session_accounts (D : Discipline env) (alone : env.available = [])
    (requests : List PublicRequest) :
    ∀ c ∈ (env.session requests).ledger.committed.entries,
      ∃ e : Entity, e.key = c.1 ∧ D.Asks (env.session requests) e ∧
        D.Covers (env.session requests) e c.2 := by
  intro c member
  rcases session_accounted D requests c member with elsewhere | accounted
  · rw [alone] at elsewhere
    cases elsewhere.1
  · exact accounted

/-- A durable declaration fits an entity that was asked for. -/
theorem session_fits (D : Discipline env) (requests : List PublicRequest) {d : Declaration}
    (member : d ∈ (env.session requests).ledger.declarations) :
    ∃ e : Entity, D.Asks (env.session requests) e ∧ D.Fits (env.session requests) e d := by
  obtain ⟨c, there, inside⟩ := mem_declarations.mp member
  rcases session_accounted D requests c there with elsewhere | ⟨e, _, asked, covers⟩
  · rw [elsewhere.2] at inside
    cases inside
  · exact ⟨e, asked, covers.fits d inside⟩

/-- What is known between requests is durable and accounted for. -/
theorem session_durable (D : Discipline env) (requests : List PublicRequest) {key : EntityKey}
    (known : (env.session requests).Knows key) : ∃ declarations,
      (env.session requests).ledger.committed.get? key = some declarations ∧
        D.Accounts (env.session requests) (key, declarations) := by
  obtain ⟨declarations, found⟩ := ((session_advances D requests).rest.knows_iff key).mp known
  exact ⟨declarations, found, session_accounted D requests _ (Table.mem_of_lookupIn found)⟩

/-- What is known between requests is durable, and with nothing available it belongs to an entity that
    was asked for. -/
theorem session_known (D : Discipline env) (alone : env.available = []) (requests : List PublicRequest)
    {key : EntityKey} (known : (env.session requests).Knows key) :
    ∃ (e : Entity) (declarations : List Declaration), e.key = key ∧
      (key, declarations) ∈ (env.session requests).ledger.committed.entries ∧
      D.Asks (env.session requests) e ∧ D.Covers (env.session requests) e declarations := by
  obtain ⟨declarations, found, _⟩ := session_durable D requests known
  have there := Table.mem_of_lookupIn found
  obtain ⟨e, same, asked, covers⟩ := session_accounts D alone requests _ there
  exact ⟨e, declarations, same, there, asked, covers⟩

/-- An entity with the key of a type is a type of that name. -/
theorem Entity.eq_type {e : Entity} {t : TypeDefinition} {unmanaged : Bool}
    (same : e.key = (Entity.type t unmanaged).key) :
    ∃ u, e = .type u unmanaged ∧ u.space = t.space ∧ u.name = t.name := by
  cases e with
  | type u own =>
    simp only [Entity.key, EntityKey.mk.injEq, QualifiedName.mk.injEq, true_and] at same
    exact ⟨u, by rw [same.2], same.1⟩
  | template template =>
    simp only [Entity.key, EntityKey.mk.injEq] at same
    cases kind : template.kind <;> rw [kind] at same <;> cases same.1
  | function f => simp [Entity.key] at same
  | constant c => simp [Entity.key] at same
  | guardedHandle h => simp [Entity.key] at same
  | inlineArray name element length isChar => simp [Entity.key] at same

/-- An entity with the key of a guarded handle is a guarded handle of the same name. -/
theorem Entity.eq_guardedHandle {e : Entity} {handle : GuardedHandle}
    (same : e.key = (Entity.guardedHandle handle).key) :
    ∃ other, e = .guardedHandle other ∧ other.space = handle.space ∧ other.name = handle.name := by
  cases e with
  | guardedHandle other =>
    simp only [Entity.key, EntityKey.mk.injEq, QualifiedName.mk.injEq, true_and, and_true] at same
    exact ⟨other, rfl, same⟩
  | template template =>
    simp only [Entity.key, EntityKey.mk.injEq] at same
    cases kind : template.kind <;> rw [kind] at same <;> cases same.1
  | function | type | constant | inlineArray => simp [Entity.key] at same

/-- An entity with the key of a template is a template. -/
theorem Entity.eq_template {e : Entity} {template : Template}
    (same : e.key = (Entity.template template).key) : ∃ other, e = .template other := by
  have kind : template.kind.entityKind = .special ∨ template.kind.entityKind = .inlineFunction := by
    cases template.kind with
    | special => exact .inl rfl
    | inlineFunction => exact .inr rfl
  cases e with
  | template other => exact ⟨other, rfl⟩
  | type | function | constant | guardedHandle | inlineArray =>
    simp only [Entity.key, EntityKey.mk.injEq] at same
    rw [← same.1] at kind
    rcases kind with other | other <;> cases other

/-- An entity with the key of an inline array is an inline array. -/
theorem Entity.eq_inlineArray {e : Entity} {name : String} {element : TargetType} {length : Int}
    {isChar : Bool} (same : e.key = (Entity.inlineArray name element length isChar).key) :
    ∃ name element length isChar, e = .inlineArray name element length isChar := by
  cases e with
  | inlineArray name element length isChar => exact ⟨name, element, length, isChar, rfl⟩
  | template template =>
    simp only [Entity.key, EntityKey.mk.injEq] at same
    cases kind : template.kind <;> rw [kind] at same <;> cases same.1
  | type | function | constant | guardedHandle => simp [Entity.key] at same

/-! ## Sessions on documents -/

/-- An element for an interface. -/
def interfaceElement (name : String) (bases : List (String × String)) : Markup.Element :=
  ⟨"interface", ("name", name) :: bases, "", []⟩

/-- The type that a reference means. -/
def meant? (env : Environment) (reference : QualifiedName) : Option TypeDefinition :=
  match resolve reference env {} with
  | .ok found _ => found
  | .error .. => none

theorem meant?_eq_some {reference : QualifiedName} {d : TypeDefinition} (found : meant? env reference = some d) :
    Means env reference d := by
  unfold meant? at found
  split at found
  · next resolved =>
    subst found
    exact ((resolve_steady reference).everywhere resolved).2
  · cases found

end Bindings
