import Bindings.Proofs.Generation.Discipline

/-!
# Declarations that fit

What the declarations of each sort of entity are like under a discipline: the types at their
places are good for the style of the place, and what decided the style is known.
-/

namespace Bindings
open Bindings.Metadata

/-! ## Types in overloads -/

/-- The types that an argument is cast to. -/
def CallArgument.types : CallArgument → List TargetType
  | localValue _ _ cast | lengthOf _ cast | handleValue _ cast => [cast]
  | pass _ | addressOfLocal .. => []

/-- The types in a statement. -/
def Statement.types : Statement → List TargetType
  | rawCall _ arguments _ => arguments.flatMap (·.types)
  | _ => []

/-- The types that an overload adds to those of its entry point. -/
def Overload.types (o : Overload) : List TargetType :=
  o.returnType :: (o.params.map (·.type) ++ o.transforms.filterMap (·.newType)
    ++ o.body.flatMap (·.types))

/-! ## Fitting -/

variable {env : Environment} (D : Discipline env) (s : State)

namespace Discipline

/-- An entry point fits its function. -/
structure FitsFunction (f : Function) (raw : EntryPoint) : Prop where
  name : raw.name = f.name
  space : raw.space = f.space
  params : ∀ p ∈ raw.params, D.Styled s env.options.allowMarshaling p.type p.marshalAs
  returns : D.Styled s env.options.allowMarshaling raw.returnType raw.returnMarshal

/-- A struct fits a record in one of its variants, with its fields in one style. -/
structure FitsRecord (t : TypeDefinition) (r : Record) (unmanaged : Bool) (d : StructDecl) : Prop where
  name : d.name = variantName t.name unmanaged
  space : d.space = t.space
  layout : d.explicitLayout = r.explicitLayout
  fields : ((env.options.allowMarshaling = true ∧ unmanaged = false ∧ r.explicitLayout = false ∧
      s.Judges t true) ∧ ∀ f ∈ d.fields, D.Styled s true f.type f.marshalAs) ∨
    (s.Unmarshaled env t r unmanaged ∧ ∀ f ∈ d.fields, D.Styled s false f.type f.marshalAs)

/-- A method of a true interface fits. -/
structure FitsMethod (m : InterfaceMethodDecl) : Prop where
  params : ∀ p ∈ m.params, D.Styled s true p.type p.marshalAs
  returns : D.Styled s true m.returnType m.returnMarshal

/-- A true interface fits a conforming interface, and its bases are those of the chain. -/
structure FitsInterface (t : TypeDefinition) (d : InterfaceDecl) : Prop where
  name : d.name = t.name
  space : d.space = t.space
  marshaling : env.options.allowMarshaling = true
  conforms : s.Conforms t true
  methods : ∀ m ∈ d.methods, D.FitsMethod s m
  bases : ∃ chain, (∀ s, baseChain t env s = .ok chain s) ∧
    d.bases = (chain.filter (·.name ≠ env.substitutions.universalBase)).map (·.full) ∧
    ∀ base ∈ chain, base.name ≠ env.substitutions.universalBase →
      s.Knows (Entity.type base false).key

/-- A table of methods fits an interface. -/
structure FitsTable (t : TypeDefinition) (unmanaged : Bool) (d : VtableStructDecl) : Prop where
  name : d.name = variantName t.name unmanaged
  space : d.space = t.space
  isInterface : t.isInterface = true
  tabled : s.Tabled env t unmanaged
  fields : ∀ f ∈ d.fields, D.Styled s false f.type f.marshalAs
  slots : ∀ slot ∈ d.slots, D.Good false slot.functionType s
  params : ∀ m ∈ d.methods, ∀ p ∈ m.params, D.Styled s false p.type p.marshalAs
  methods : ∀ m ∈ d.methods, D.Good false m.returnType s ∧ D.Good false m.call.functionType s

/-- A declaration fits the entity that it is made for. -/
inductive Fits : Entity → Declaration → Prop
  | entryPoint {f : Function} {raw : EntryPoint} (fits : D.FitsFunction s f raw) :
      Fits (.function f) (.entryPoint raw)
  | overload {f : Function} {o : Overload} (fits : D.FitsFunction s f o.raw)
      (types : ∀ type ∈ o.types, D.Good true type s) : Fits (.function f) (.overload o)
  | struct {t : TypeDefinition} {r : Record} {unmanaged : Bool} {d : StructDecl}
      (shape : t.shape = .record r) (fits : D.FitsRecord s t r unmanaged d) :
      Fits (.type t unmanaged) (.struct d)
  | enum {t : TypeDefinition} {d : EnumDecl} {base : String} {members : List (String × Int)}
      {isFlags : Bool} (shape : t.shape = .enum base members isFlags) (name : d.name = t.name)
      (space : d.space = t.space) (type : D.Good false d.baseType s) :
      Fits (.type t false) (.enum d)
  | delegate {t : TypeDefinition} {d : DelegateDecl} (shape : t.isDelegate = true)
      (name : d.name = t.name) (space : d.space = t.space)
      (params : ∀ p ∈ d.params, D.Styled s env.options.allowMarshaling p.type p.marshalAs)
      (returns : D.Good env.options.allowMarshaling d.returnType s) :
      Fits (.type t false) (.delegate d)
  | interface {t : TypeDefinition} {d : InterfaceDecl} (shape : t.isInterface = true)
      (fits : D.FitsInterface s t d) : Fits (.type t false) (.interface d)
  | vtable {t : TypeDefinition} {unmanaged : Bool} {d : VtableStructDecl}
      (fits : D.FitsTable s t unmanaged d) : Fits (.type t unmanaged) (.vtable d)
  | constant {c : Constant} {d : ConstantDecl} (name : d.name = c.name) (space : d.space = c.space)
      (type : D.Good false d.type s) : Fits (.constant c) (.constant d)
  | template {t : Template} : Fits (.template t) (.template t)
  | guardedHandle {handle : GuardedHandle} {visibility : Visibility} {release : Function}
      (chosen : select (·.architectures) (env.index.findFunctions handle.releaseFunction)
        env.options.platformName? handle.releaseFunction = .ok release)
      (known : s.Knows (Entity.function release).key) :
      Fits (.guardedHandle handle) (.guardedHandle handle visibility)
  | inlineArray {name : String} {element : TargetType} {length : Int} {isChar : Bool}
      {visibility : Visibility} (type : D.Good false element s)
      (known : s.Knows (Entity.inlineArray name element length isChar).key) :
      Fits (.inlineArray name element length isChar)
        (.inlineArray (inlineArrayDecl visibility name element length isChar))

/-- Declarations of an entity fit it, and one of them has its name. -/
structure Covers (e : Entity) (declarations : List Declaration) : Prop where
  fits : ∀ d ∈ declarations, D.Fits s e d
  named : ∃ d ∈ declarations, d.declares = e.key.declares

/-- A completion is that of an entity that was asked for, with declarations that cover it; one
    that is defined elsewhere has none. -/
def Accounts (c : Completion) : Prop :=
  (env.available.contains c.1.name.full = true ∧ c.2 = []) ∨
    ∃ e : Entity, e.key = c.1 ∧ D.Asks s e ∧ D.Covers s e c.2

/-! ## In later states -/

variable {D s} {t : State}

theorem Styled.carries {marshaling : Bool} {type : TargetType} {marshalAs : Option MarshalAs}
    (styled : D.Styled s marshaling type marshalAs) (later : Carries s t) :
    D.Styled t marshaling type marshalAs :=
  ⟨D.good_carries styled.1 later, styled.2⟩

theorem Asks.carries {e : Entity} (asked : D.Asks s e) (later : Carries s t) : D.Asks t e := by
  cases e with
  | function f => exact asked
  | type d unmanaged =>
    refine ⟨asked.1, fun own => ?_⟩
    obtain ⟨marshaling, ⟨record, managed⟩ | ⟨isInterface, conforms⟩⟩ := asked.2 own
    · exact ⟨marshaling, .inl ⟨record, later.judges _ _ managed⟩⟩
    · exact ⟨marshaling, .inr ⟨isInterface, later.conforms _ _ conforms⟩⟩
  | constant c => exact asked
  | template template => exact asked
  | guardedHandle handle => exact asked
  | inlineArray name element length isChar => exact D.good_carries asked later

theorem tabled_carries {d : TypeDefinition} {unmanaged : Bool} (tabled : s.Tabled env d unmanaged)
    (later : Carries s t) : t.Tabled env d unmanaged :=
  tabled.imp_right fun rest => rest.imp_right (later.conforms _ _)

theorem unmarshaled_carries {d : TypeDefinition} {r : Record} {unmanaged : Bool}
    (raw : s.Unmarshaled env d r unmanaged) (later : Carries s t) :
    t.Unmarshaled env d r unmanaged :=
  raw.imp_right fun rest => rest.imp_right fun rest => rest.imp_right (later.judges _ _)

theorem FitsFunction.carries {f : Function} {raw : EntryPoint} (fits : D.FitsFunction s f raw)
    (later : Carries s t) : D.FitsFunction t f raw where
  name := fits.name
  space := fits.space
  params p member := (fits.params p member).carries later
  returns := fits.returns.carries later

theorem FitsRecord.carries {d : TypeDefinition} {r : Record} {unmanaged : Bool} {decl : StructDecl}
    (fits : D.FitsRecord s d r unmanaged decl) (later : Carries s t) :
    D.FitsRecord t d r unmanaged decl where
  name := fits.name
  space := fits.space
  layout := fits.layout
  fields := by
    rcases fits.fields with ⟨⟨marshaling, own, implicit, managed⟩, styled⟩ | ⟨raw, styled⟩
    · exact .inl ⟨⟨marshaling, own, implicit, later.judges _ _ managed⟩,
        fun f member => (styled f member).carries later⟩
    · exact .inr ⟨unmarshaled_carries raw later, fun f member => (styled f member).carries later⟩

theorem FitsInterface.carries {d : TypeDefinition} {decl : InterfaceDecl}
    (fits : D.FitsInterface s d decl) (later : Carries s t) : D.FitsInterface t d decl where
  name := fits.name
  space := fits.space
  marshaling := fits.marshaling
  conforms := later.conforms _ _ fits.conforms
  methods m member :=
    { params := fun p place => ((fits.methods m member).params p place).carries later
      returns := (fits.methods m member).returns.carries later }
  bases := by
    obtain ⟨chain, climbed, same, known⟩ := fits.bases
    exact ⟨chain, climbed, same, fun base member other => later.knows _ (known base member other)⟩

theorem FitsTable.carries {d : TypeDefinition} {unmanaged : Bool} {decl : VtableStructDecl}
    (fits : D.FitsTable s d unmanaged decl) (later : Carries s t) : D.FitsTable t d unmanaged decl where
  name := fits.name
  space := fits.space
  isInterface := fits.isInterface
  tabled := tabled_carries fits.tabled later
  fields f member := (fits.fields f member).carries later
  slots slot member := D.good_carries (fits.slots slot member) later
  params m member p place := (fits.params m member p place).carries later
  methods m member := ⟨D.good_carries (fits.methods m member).1 later,
    D.good_carries (fits.methods m member).2 later⟩

theorem Fits.carries {e : Entity} {d : Declaration} (fits : D.Fits s e d) (later : Carries s t) :
    D.Fits t e d := by
  cases fits with
  | entryPoint fits => exact .entryPoint (fits.carries later)
  | overload fits types =>
    exact .overload (fits.carries later) fun type member => D.good_carries (types type member) later
  | struct shape fits => exact .struct shape (fits.carries later)
  | enum shape name space type => exact .enum shape name space (D.good_carries type later)
  | delegate shape name space params returns =>
    exact .delegate shape name space (fun p member => (params p member).carries later)
      (D.good_carries returns later)
  | interface shape fits => exact .interface shape (fits.carries later)
  | vtable fits => exact .vtable (fits.carries later)
  | constant name space type => exact .constant name space (D.good_carries type later)
  | template => exact .template
  | guardedHandle chosen known => exact .guardedHandle chosen (later.knows _ known)
  | inlineArray type known => exact .inlineArray (D.good_carries type later) (later.knows _ known)

theorem Covers.carries {e : Entity} {declarations : List Declaration}
    (covers : D.Covers s e declarations) (later : Carries s t) : D.Covers t e declarations where
  fits d member := (covers.fits d member).carries later
  named := covers.named

theorem Covers.single {e : Entity} {d : Declaration} (fits : D.Fits s e d)
    (named : d.declares = e.key.declares) : D.Covers s e [d] where
  fits other member := by
    obtain rfl := List.mem_singleton.mp member
    exact fits
  named := ⟨d, List.mem_singleton.mpr rfl, named⟩

theorem Accounts.carries {c : Completion} (accounts : D.Accounts s c) (later : Carries s t) :
    D.Accounts t c := by
  rcases accounts with elsewhere | ⟨e, key, asked, covers⟩
  · exact .inl elsewhere
  · exact .inr ⟨e, key, asked.carries later, covers.carries later⟩

end Discipline
end Bindings
