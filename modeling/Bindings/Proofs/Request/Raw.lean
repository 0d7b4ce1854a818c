import Bindings.Proofs.Overload.Assembly
import Bindings.Proofs.Generation.Choice
import Bindings.Proofs.Generation.Handle
import Bindings.Proofs.Generation.Verdict
import Bindings.Proofs.Request.Record

/-!
# Raw declarations

With the standard substitutions, what is laid out in memory as it is holds no marshaled values
at any depth: the fields of structs that are not managed, the slots of tables of methods, function
pointers, constants and the elements of inline arrays.
-/

namespace Bindings
open Bindings.Metadata

variable {env : Environment} {s t : State}

/-! ## Names while declarations are made -/

/-- A name is a word, that of identifiers, or that of a known entity without marshaled values. -/
def State.Holds (env : Environment) (s : State) (n : QualifiedName) : Prop :=
  n.space = "" ∨ n = guidName ∨ ∃ e : Entity, s.Knows e.key ∧ e.Lays env s false ∧
    (∀ t unmanaged, e = .type t unmanaged → env.index.Chooses env.options.platformName? t) ∧
    e.key.declares = n

theorem Entity.Lays.carries {e : Entity} {marshaling : Bool} (lays : e.Lays env s marshaling)
    (later : Carries s t) : e.Lays env t marshaling := by
  cases e with
  | type d unmanaged =>
    simp only [Entity.Lays] at lays ⊢
    cases shape : d.shape with
    | enum base members isFlags => trivial
    | record r =>
      simp only [shape] at lays
      exact lays.imp_right fun raw => Discipline.unmarshaled_carries raw later
    | interface bases methods guid =>
      simp only [shape] at lays
      exact lays.imp_right fun tabled => Discipline.tabled_carries tabled later
    | delegate returns params =>
      simp only [shape] at lays
      exact lays
  | function f => exact lays
  | constant c => exact lays
  | template template => exact lays
  | guardedHandle h => exact lays
  | inlineArray name element length isChar => exact lays

theorem State.Holds.carries {n : QualifiedName} (holds : s.Holds env n) (later : Carries s t) :
    t.Holds env n := by
  rcases holds with word | guid | ⟨e, known, lays, chooses, named⟩
  · exact .inl word
  · exact .inr (.inl guid)
  · exact .inr (.inr ⟨e, later.knows _ known, lays.carries later, chooses, named⟩)

/-! ## The discipline -/

/-- A type may stand in a place: with marshaling its function pointers are raw, and without it the
    type itself. -/
def State.Suits (env : Environment) (marshaling : Bool) (type : TargetType) (s : State) : Prop :=
  match marshaling with
  | false => type.Raw (s.Holds env)
  | true => ∀ params returns, TargetType.Within (.functionPointer params returns) type →
      TargetType.Raw (s.Holds env) (.functionPointer params returns)

theorem suits_true {type : TargetType} (raw : type.Raw (s.Holds env)) : s.Suits env true type :=
  fun _ _ inner => raw.within inner

theorem suits_of_raw {type : TargetType} (raw : type.Raw (s.Holds env)) (marshaling : Bool) :
    s.Suits env marshaling type := by
  cases marshaling with
  | false => exact raw
  | true => exact suits_true raw

/-- The discipline by which what is not marshaled is raw. -/
def Discipline.raw (consistent : env.index.Consistent) (standard : env.substitutions = .standard) :
    Discipline env where
  Good := State.Suits env
  Listed d := (∀ t, d = .type t → env.index.Chooses env.options.platformName? t) ∧
    ∀ type ∈ d.signatures, type.Flat
  Backed handle := handle.fieldType.Callless
  Answers _ _ := True
  Flat := NativeType.Flat
  good_carries := by
    intro marshaling type s t suits later
    cases marshaling with
    | false => exact TargetType.Raw.imp suits fun n holds => holds.carries later
    | true => exact fun params returns inner => (suits params returns inner).imp fun n holds => holds.carries later
  good_weaken := suits_true
  good_word marshaling name s := suits_of_raw (.named (.inl rfl)) marshaling
  good_pointer := by
    intro marshaling type s
    cases marshaling with
    | false =>
      constructor
      · intro raw
        cases raw with
        | pointer inner => exact inner
      · exact .pointer
    | true =>
      constructor
      · exact fun suits params returns inner => suits params returns (.pointer inner)
      · intro suits params returns inner
        cases inner with
        | pointer inner => exact suits params returns inner
  good_functionPointer := by
    intro marshaling params returns s inputs output
    exact suits_of_raw (.functionPointer inputs output) marshaling
  good_array := by
    intro type s suits params returns inner
    cases inner with
    | array inner => exact suits params returns inner
  good_span := by
    intro type isReadonly s suits params returns inner
    cases inner with
    | span inner => exact suits params returns inner
  good_nullable := by
    intro type s suits params returns inner
    cases inner with
    | nullable inner => exact suits params returns inner
  good_replacement := by
    intro name type found marshaling s
    rw [standard] at found
    obtain rfl := standard_replacement found
    exact suits_of_raw (.named (.inr (.inl rfl))) marshaling
  good_entity := by
    intro e marshaling s known lays listed
    cases marshaling with
    | false =>
      exact .named (.inr (.inr ⟨e, known, lays, fun t own same => (listed t own same).1 t rfl, rfl⟩))
    | true => exact nofun
  listed_means := by
    intro reference t means
    obtain ⟨chooses, held⟩ := means.chooses consistent
    refine ⟨?_, consistent.flat _ _ held⟩
    rintro _ ⟨⟩
    exact chooses
  listed_chosen := by
    intro c d offers chosen
    refine ⟨?_, consistent.flat _ _ (offers.held consistent d (mem_of_select chosen).1)⟩
    rintro t rfl
    exact offers.chooses consistent chosen
  listed_release := by
    intro name f chosen
    refine ⟨nofun, ?_⟩
    obtain ⟨_, held, same⟩ := List.mem_filterMap.mp (mem_of_select chosen).1
    obtain rfl := Definition.function?_eq_some_iff.mp same
    exact consistent.flat _ _ (consistent.lookup held)
  listed_flat listed := listed.2
  flat_primitive := .primitive
  flat_pointer := by
    intro type isConst flat
    cases flat with
    | pointer inner => exact inner
  flat_array := by
    intro type lengths flat
    cases flat with
    | array inner _ => exact inner
  flat_params := by
    intro params returns flat
    cases flat with
    | function inputs _ => exact inputs
  flat_returns := by
    intro params returns flat
    cases flat with
    | function _ output => exact output
  flat_nested := by
    intro type lengths flat nested target s suits
    cases flat with
    | array _ single =>
      rw [single] at nested
      cases nested
  backed_built := by
    intro name handle s built
    have leads : Gen.Leads env s (buildHandle name) _ _ := buildHandle_leads name
    rw [Gen.Leads, built] at leads
    exact (leads handle rfl).2
  answers_reached _ _ := trivial

/-! ## Durable declarations without marshaled values -/

/-- The analysis finds that a type is managed, with the option of the session. -/
def State.Manages (env : Environment) (s : State) (t : TypeDefinition) : Prop :=
  ∃ u, isManagedType t env.options.allowMarshaling env s = .ok true u

/-- A durable struct holds no marshaled values: its layout is explicit, or it is the unmanaged
    variant, or its type is not managed. -/
def StructDecl.Blittable (env : Environment) (s : State) (key : EntityKey) (d : StructDecl) : Prop :=
  d.explicitLayout = true ∨ key.unmanaged = true ∨
    ∃ t, env.index.Chooses env.options.platformName? t ∧ (Entity.type t false).key = key ∧
      ¬ s.Manages env t

/-- A durable declaration can be named in a raw type. -/
def Declaration.Blittable (env : Environment) (s : State) (key : EntityKey) : Declaration → Prop
  | .enum _ | .template _ | .inlineArray _ | .vtable _ => True
  | .struct d => d.Blittable env s key
  | .entryPoint _ | .overload _ | .delegate _ | .interface _ | .constant _ | .guardedHandle .. => False

/-- A name is a word, that of identifiers, or that of a durable declaration without marshaled
    values. -/
def State.Blittable (env : Environment) (s : State) (n : QualifiedName) : Prop :=
  n.space = "" ∨ n = guidName ∨
    ∃ c ∈ s.ledger.committed.entries, ∃ d ∈ c.2, d.declares = n ∧ d.Blittable env s c.1

/-- Without marshaling the analysis finds no type managed, and what it remembers it answers. -/
structure State.Answering (s : State) : Prop where
  calm : s.Calm
  unmarshaling : Unmarshaling s

theorem State.Answering.spares (answering : s.Answering) (off : env.options.allowMarshaling = false)
    (d : TypeDefinition) : ¬ s.Manages env d := by
  rintro ⟨u, managed⟩
  have leads : Gen.Leads env s (isManagedType d false) _ _ :=
    isManagedType_unmarshaled answering.unmarshaling d
  rw [off] at managed
  rw [Gen.Leads, managed] at leads
  cases leads

theorem State.Answering.manages_iff (answering : s.Answering) (on : env.options.allowMarshaling = true)
    {d : TypeDefinition} {verdict : Bool} (judged : s.Judges d verdict) :
    s.Manages env d ↔ verdict = true := by
  rw [State.Manages, on, isManagedType_known answering.calm judged]
  constructor
  · rintro ⟨v, same⟩
    exact (EStateM.Result.ok.inj same).1
  · rintro rfl
    exact ⟨s, rfl⟩

section
variable {D : Discipline env} (answering : s.Answering)
include answering

/-- What can be named without marshaling has declarations without marshaled values. -/
theorem Discipline.Fits.blittable {d : Declaration} {t : TypeDefinition} {unmanaged : Bool}
    (fits : D.Fits s (.type t unmanaged) d) (lays : (Entity.type t unmanaged).Lays env s false)
    (chooses : env.index.Chooses env.options.platformName? t) :
    d.Blittable env s (Entity.type t unmanaged).key := by
  simp only [Entity.Lays] at lays
  cases fits with
  | @struct _ r _ d shape fits =>
    simp only [shape, Bool.false_eq_true, false_or] at lays
    cases unmanaged with
    | true => exact .inr (.inl rfl)
    | false =>
      rcases lays with explicit | own | off | judged
      · exact .inl (fits.layout.trans explicit)
      · cases own
      · exact .inr (.inr ⟨t, chooses, rfl, answering.spares off t⟩)
      · refine .inr (.inr ⟨t, chooses, rfl, fun managed => ?_⟩)
        cases on : env.options.allowMarshaling with
        | false => exact answering.spares on t managed
        | true => exact Bool.noConfusion ((answering.manages_iff on judged).mp managed)
  | enum shape name space type => trivial
  | vtable fits => trivial
  | delegate shape name space params returns =>
    unfold TypeDefinition.isDelegate at shape
    cases own : t.shape with
    | delegate => simp [own] at lays
    | record | enum | interface => simp [own] at shape
  | interface shape fits =>
    unfold TypeDefinition.isInterface at shape
    cases own : t.shape with
    | record | enum | delegate => simp [own] at shape
    | interface =>
      simp only [own, Bool.false_eq_true, false_or] at lays
      rcases lays with own | off | fails
      · cases own
      · rw [fits.marshaling] at off
        cases off
      · have conforms := fits.conforms
        rw [State.Conforms] at conforms fails
        rw [conforms] at fails
        cases fails

/-- The fields of a struct without marshaled values are not marshaled. -/
theorem Discipline.FitsRecord.blittable {d : StructDecl} {t : TypeDefinition} {r : Record}
    {unmanaged : Bool} (fits : D.FitsRecord s t r unmanaged d)
    (chooses : env.index.Chooses env.options.platformName? t)
    (blittable : d.Blittable env s (Entity.type t unmanaged).key) :
    ∀ f ∈ d.fields, D.Styled s false f.type f.marshalAs := by
  rcases fits.fields with ⟨⟨marshaling, own, implicit, managed⟩, _⟩ | ⟨_, styled⟩
  · rcases blittable with explicit | unmanaged | ⟨u, chosen, same, spared⟩
    · rw [fits.layout, implicit] at explicit
      cases explicit
    · rw [Entity.key, own] at unmanaged
      cases unmanaged
    · simp only [Entity.key, EntityKey.mk.injEq, QualifiedName.mk.injEq, true_and] at same
      obtain rfl := chosen.eq chooses same.1.1 same.1.2
      exact absurd ((answering.manages_iff marshaling managed).mpr rfl) spared
  · exact styled

end

/-! ## Without marshaling -/

/-- The places of values in functions, delegates, structs and tables of methods: the types with how
    the values are marshaled. -/
def Declaration.places : Declaration → List (TargetType × Option MarshalAs)
  | .entryPoint e => (e.returnType, e.returnMarshal) :: e.params.map fun p => (p.type, p.marshalAs)
  | .delegate d => (d.returnType, none) :: d.params.map fun p => (p.type, p.marshalAs)
  | .struct d => d.fields.map fun f => (f.type, f.marshalAs)
  | .vtable d => (d.fields.map fun f => (f.type, f.marshalAs))
      ++ (d.slots.map fun slot => (slot.functionType, none))
      ++ d.methods.flatMap fun m => (m.returnType, none) :: (m.call.functionType, none) ::
        m.params.map fun p => (p.type, p.marshalAs)
  | .overload _ | .enum _ | .interface _ | .constant _ | .guardedHandle .. | .template _
  | .inlineArray _ => []

/-- With marshaling off no value in these places is marshaled. -/
theorem Discipline.Fits.places {D : Discipline env} (off : env.options.allowMarshaling = false)
    {e : Entity} {d : Declaration} (fits : D.Fits s e d) :
    ∀ place ∈ d.places, D.Styled s false place.1 place.2 := by
  have params : ∀ {marshaling : Bool} {params : List ParamDecl}, marshaling = false →
      (∀ p ∈ params, D.Styled s marshaling p.type p.marshalAs) →
      ∀ place ∈ params.map fun p => (p.type, p.marshalAs), D.Styled s false place.1 place.2 := by
    rintro _ params rfl styled place member
    obtain ⟨p, there, rfl⟩ := List.mem_map.mp member
    exact styled p there
  intro place member
  cases fits with
  | entryPoint fits =>
    rcases List.mem_cons.mp member with rfl | among
    · exact off ▸ fits.returns
    · exact params off fits.params place among
  | struct shape fits =>
    obtain ⟨f, there, rfl⟩ := List.mem_map.mp member
    rcases fits.fields with ⟨⟨on, _⟩, _⟩ | ⟨_, styled⟩
    · rw [off] at on
      cases on
    · exact styled f there
  | delegate shape name space inputs output =>
    rcases List.mem_cons.mp member with rfl | among
    · exact ⟨off ▸ output, fun _ => rfl⟩
    · exact params off inputs place among
  | vtable fits =>
    rcases List.mem_append.mp member with first | methods
    · rcases List.mem_append.mp first with fields | slots
      · obtain ⟨f, there, rfl⟩ := List.mem_map.mp fields
        exact fits.fields f there
      · obtain ⟨slot, there, rfl⟩ := List.mem_map.mp slots
        exact ⟨fits.slots slot there, fun _ => rfl⟩
    · obtain ⟨m, there, among⟩ := List.mem_flatMap.mp methods
      rcases List.mem_cons.mp among with rfl | among
      · exact ⟨(fits.methods m there).1, fun _ => rfl⟩
      · rcases List.mem_cons.mp among with rfl | among
        · exact ⟨(fits.methods m there).2, fun _ => rfl⟩
        · exact params rfl (fits.params m there) place among
  | overload | enum | interface | constant | template | guardedHandle | inlineArray => cases member

/-! ## The durable record -/

/-- What is laid out as it is holds no marshaled values, and the variants of types that hold them
    are declared only where they do. -/
structure State.Unmixed (env : Environment) (s : State) : Prop where
  fields : ∀ c ∈ s.ledger.committed.entries, ∀ d, .struct d ∈ c.2 → d.Blittable env s c.1 →
    ∀ f ∈ d.fields, f.type.Raw (s.Blittable env) ∧ f.marshalAs = none
  slots : ∀ v, .vtable v ∈ s.ledger.declarations → ∀ slot ∈ v.slots,
    slot.functionType.Raw (s.Blittable env)
  functionPointers : ∀ d ∈ s.ledger.declarations, ∀ type ∈ d.types, ∀ params returns,
    TargetType.Within (.functionPointer params returns) type →
      TargetType.Raw (s.Blittable env) (.functionPointer params returns)
  handles : ∀ h visibility, .guardedHandle h visibility ∈ s.ledger.declarations → h.fieldType.Callless
  constants : ∀ d, .constant d ∈ s.ledger.declarations → d.type.Raw (s.Blittable env)
  elements : ∀ d, .inlineArray d ∈ s.ledger.declarations → d.elementType.Raw (s.Blittable env)
  variants : ∀ key ∈ s.ledger.committedKeys, key.unmanaged = true →
    env.options.allowMarshaling = true ∧ ∃ t, (Entity.type t true).key = key ∧
      env.index.Chooses env.options.platformName? t ∧
        ((∃ r, t.shape = .record r) ∧ s.Manages env t ∨
          t.isInterface = true ∧ ∃ u, isConforming t env s = .ok true u)
  unmarshaled : env.options.allowMarshaling = false → s.ledger.interfaces = [] ∧
    ∀ d ∈ s.ledger.declarations, ∀ place ∈ d.places, place.1.Raw (s.Blittable env) ∧ place.2 = none

section
variable (alone : env.available = []) (consistent : env.index.Consistent)
  (standard : env.substitutions = .standard) (requests : List PublicRequest)

theorem session_answering : (env.session requests).Answering := by
  have advances := session_advances (Discipline.any env) requests
  refine ⟨advances.safe.calm, ⟨fun name => ?_, fun e member => ?_⟩⟩
  · rw [advances.unasked name]
    exact nofun
  · rw [advances.safe.calm.dependents] at member
    cases member

include alone consistent standard

/-- What is known without marshaled values is durable so. -/
theorem holds_blittable {n : QualifiedName} (holds : (env.session requests).Holds env n) :
    (env.session requests).Blittable env n := by
  rcases holds with word | guid | ⟨e, known, lays, chooses, rfl⟩
  · exact .inl word
  · exact .inr (.inl guid)
  · obtain ⟨e', declarations, same, there, asked, covers⟩ :=
      session_known (.raw consistent standard) alone requests known
    obtain ⟨d, inside, named⟩ := covers.named
    rw [same] at named
    refine .inr (.inr ⟨_, there, d, inside, named, ?_⟩)
    have fits := covers.fits d inside
    cases e with
    | type t unmanaged =>
      obtain ⟨u, rfl, space, name⟩ := Entity.eq_type same
      obtain rfl := (asked.1.1 u rfl).eq (chooses t unmanaged rfl) space name
      exact fits.blittable (session_answering requests) lays (chooses u unmanaged rfl)
    | template template =>
      obtain ⟨other, rfl⟩ := Entity.eq_template same
      cases fits
      trivial
    | inlineArray name element length isChar =>
      obtain ⟨_, _, _, _, rfl⟩ := Entity.eq_inlineArray same
      cases fits
      trivial
    | function f => cases lays
    | constant c => cases lays
    | guardedHandle h => cases lays

theorem raw_blittable {type : TargetType} (raw : type.Raw ((env.session requests).Holds env)) :
    type.Raw ((env.session requests).Blittable env) :=
  raw.imp fun _ => holds_blittable alone consistent standard requests

/-- The fields of a durable struct without marshaled values are raw. -/
theorem session_fields {c : Completion} (there : c ∈ (env.session requests).ledger.committed.entries)
    {d : StructDecl} (inside : .struct d ∈ c.2)
    (blittable : d.Blittable env (env.session requests) c.1) :
    ∀ f ∈ d.fields, f.type.Raw ((env.session requests).Blittable env) ∧ f.marshalAs = none := by
  intro f member
  obtain ⟨e, key, asked, covers⟩ := session_accounts (.raw consistent standard) alone requests c there
  rw [← key] at blittable
  cases covers.fits _ inside with
  | @struct t r unmanaged _ shape fits =>
    have styled := fits.blittable (session_answering requests) (asked.1.1 t rfl) blittable f member
    exact ⟨raw_blittable alone consistent standard requests styled.1, styled.2 rfl⟩

/-- An unmanaged variant is durable only of a managed struct or a conforming interface. -/
theorem session_variants {key : EntityKey} (member : key ∈ (env.session requests).ledger.committedKeys)
    (unmanaged : key.unmanaged = true) :
    env.options.allowMarshaling = true ∧ ∃ t, (Entity.type t true).key = key ∧
      env.index.Chooses env.options.platformName? t ∧
        ((∃ r, t.shape = .record r) ∧ (env.session requests).Manages env t ∨ t.isInterface = true ∧
          ∃ u, isConforming t env (env.session requests) = .ok true u) := by
  obtain ⟨c, there, rfl⟩ := List.mem_map.mp member
  obtain ⟨e, key, asked, covers⟩ := session_accounts (.raw consistent standard) alone requests c there
  rw [← key] at unmanaged
  cases e with
  | type t own =>
    obtain rfl : own = true := unmanaged
    have chooses := asked.1.1 t rfl
    obtain ⟨on, ⟨record, judged⟩ | ⟨isInterface, conforms⟩⟩ := asked.2 rfl
    · have manages := ((session_answering requests).manages_iff on judged).mpr rfl
      exact ⟨on, t, key, chooses, .inl ⟨record, manages⟩⟩
    · exact ⟨on, t, key, chooses, .inr ⟨isInterface, _, isConforming_known conforms⟩⟩
  | function | constant | template | guardedHandle | inlineArray => cases unmanaged

/-- With marshaling off there are no true interfaces, and no value is marshaled. -/
theorem session_unmarshaled (off : env.options.allowMarshaling = false) :
    (env.session requests).ledger.interfaces = [] ∧
      ∀ d ∈ (env.session requests).ledger.declarations, ∀ place ∈ d.places,
        place.1.Raw ((env.session requests).Blittable env) ∧ place.2 = none := by
  refine ⟨List.eq_nil_iff_forall_not_mem.mpr fun i member => ?_, fun d member place there => ?_⟩
  · obtain ⟨e, asked, fits⟩ :=
      session_fits (.raw consistent standard) requests (mem_interfaces.mp member)
    cases fits with
    | interface shape fits =>
      have on := fits.marshaling
      rw [off] at on
      cases on
  · obtain ⟨e, asked, fits⟩ := session_fits (.raw consistent standard) requests member
    have styled := fits.places off place there
    exact ⟨raw_blittable alone consistent standard requests styled.1, styled.2 rfl⟩

theorem unmixed_of_consistent : (env.session requests).Unmixed env := by
  have fitting := fun {d} => session_fits (d := d) (.raw consistent standard) requests
  have durable : ∀ {type : TargetType}, type.Raw ((env.session requests).Holds env) →
      type.Raw ((env.session requests).Blittable env) :=
    raw_blittable alone consistent standard requests
  constructor
  case fields => exact fun c there d => session_fields alone consistent standard requests there
  case slots =>
    intro v member slot there
    obtain ⟨e, asked, fits⟩ := fitting member
    cases fits with
    | vtable fits => exact durable (fits.slots slot there)
  case functionPointers =>
    intro d member type place params returns inner
    obtain ⟨e, asked, fits⟩ := fitting member
    exact durable (fits_types fits type place params returns inner)
  case handles =>
    intro h visibility member
    obtain ⟨e, asked, fits⟩ := fitting member
    cases fits with
    | guardedHandle chosen known => exact asked
  case constants =>
    intro d member
    obtain ⟨e, asked, fits⟩ := fitting member
    cases fits with
    | constant name space type => exact durable type
  case elements =>
    intro d member
    obtain ⟨e, asked, fits⟩ := fitting member
    cases fits with
    | inlineArray type known => exact durable type
  case variants => exact fun key => session_variants alone consistent standard requests
  case unmarshaled => exact session_unmarshaled alone consistent standard requests

end

/-- A struct that holds a delegate and a pointer to such a struct, and a function that takes one. -/
def callbackDocument : Markup.Element :=
  oneNamespace "Ns" [
    ⟨"delegate", [("name", "CALLBACK"), ("returns", "bool")], "", []⟩,
    ⟨"struct", [("name", "DATA")], "",
      [⟨"field", [("name", "call"), ("type", "CALLBACK")], "", []⟩,
        ⟨"field", [("name", "next"), ("type", "DATA*")], "", []⟩]⟩,
    ⟨"function", [("name", "Visit"), ("module", "thing")], "",
      [⟨"param", [("name", "data"), ("type", "DATA*")], "", []⟩]⟩]

/-- Between the requests of a session with the standard substitutions, what is laid out as it is
    holds no marshaled values. -/
theorem session_unmixed (env : Environment) (alone : env.available = [])
    (standard : env.substitutions = .standard) (roots : List Markup.Element)
    (built : Index.ofDocuments roots = .ok env.index) (requests : List PublicRequest) :
    (env.session requests).Unmixed env :=
  unmixed_of_consistent alone (Index.ofDocuments_consistent built) standard requests

/-- Of the struct both variants are declared. -/
theorem session_unmixed_callback :
    Index.ofDocuments [callbackDocument] = .ok (Environment.reading [callbackDocument]).index ∧
      ((Environment.reading [callbackDocument]).session [.byName "Visit"]).Unmixed
        (Environment.reading [callbackDocument]) ∧
      ⟨.type, ⟨"Ns", "DATA"⟩, true⟩ ∈
        ((Environment.reading [callbackDocument]).session [.byName "Visit"]).ledger.committedKeys :=
  have built := reading_built (by decide +kernel)
  ⟨built, session_unmixed _ rfl rfl [callbackDocument] built [.byName "Visit"], by decide +kernel⟩

end Bindings
