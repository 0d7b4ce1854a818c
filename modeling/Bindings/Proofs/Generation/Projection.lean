import Bindings.Proofs.Generation.Analysis

/-!
# Projected types

Whatever native type is projected for whatever place, the target type is good for the style of
the place, once all that it names has been asked for. Without marshaling no marshaling is noted,
and an element of an array in a field that needs none is good without it.
-/

namespace Bindings
open Bindings.Metadata

variable {env : Environment} {D : Discipline env} {s t : State}

/-! ## Links -/

/-- The links to further entities do what is asked of them. -/
structure LinksSound (D : Discipline env) (links : Links) : Prop where
  demand : ∀ s e, D.Sound s → D.Asks s e → D.Ends s (links.demand e) fun _ t => t.Knows e.key
  functionPointer : ∀ s d, D.Sound s → D.Listed (.type d) →
    D.Ends s (links.functionPointer d) (D.Good false)

theorem Discipline.good_any {type : TargetType} (good : D.Good false type s) (marshaling : Bool) :
    D.Good marshaling type s := by
  cases marshaling with
  | false => exact good
  | true => exact D.good_weaken good

theorem Discipline.good_true {type : TargetType} {marshaling : Bool}
    (good : D.Good marshaling type s) : D.Good true type s := by
  cases marshaling with
  | false => exact D.good_weaken good
  | true => exact good

theorem resolve_ends (sound : D.Sound s) (reference : QualifiedName) :
    D.Ends s (resolve reference) fun found _ => ∀ d, found = some d → Means env reference d :=
  .steady (resolve_steady reference) sound fun _ always _ same u => same ▸ always u

theorem delegateOf_ends (sound : D.Sound s) (type : NativeType) :
    D.Ends s (delegateOf type) fun found _ => ∀ d, found = some d → D.Listed (.type d) := by
  unfold delegateOf
  split
  · refine .bind (resolve_ends sound _) fun found t sound _ means => .pure sound fun _ same => ?_
    exact D.listed_means (means _ (Option.filter_eq_some_iff.mp same).1)
  · exact .nothing sound

/-! ## Results -/

/-- A projection fits a place of a style. Once `plain` holds it fits a place without marshaling,
    unless it notes a marshaling. -/
structure Projected (D : Discipline env) (marshaling : Bool) (plain : State → Prop) (p : Projection)
    (t : State) : Prop where
  styled : D.Styled t marshaling p.type p.marshalAs
  lowered : p.marshalAs = none → ∀ u, Carries t u → plain u → D.Good false p.type u

/-- A type that is good without marshaling fits everywhere. -/
theorem Projected.raw {marshaling : Bool} {plain : State → Prop} {p : Projection}
    (good : D.Good false p.type t) (none : p.marshalAs = none) : Projected D marshaling plain p t where
  styled := ⟨D.good_any good marshaling, fun _ => none⟩
  lowered _ _ later _ := D.good_carries good later

theorem Projected.carries {marshaling : Bool} {plain : State → Prop} {p : Projection}
    (projected : Projected D marshaling plain p s) (later : Carries s t) :
    Projected D marshaling plain p t where
  styled := projected.styled.carries later
  lowered none u after holds := projected.lowered none u (later.trans after) holds

theorem Projected.imp {marshaling : Bool} {plain other : State → Prop} {p : Projection}
    (projected : Projected D marshaling plain p s) (implies : ∀ u, other u → plain u) :
    Projected D marshaling other p s where
  styled := projected.styled
  lowered none u after holds := projected.lowered none u after (implies u holds)

/-! ## Named types -/

theorem lays_record {d : TypeDefinition} {r : Record} {marshaling unmanaged : Bool}
    (shape : d.shape = .record r) (holds : marshaling = true ∨ s.Unmarshaled env d r unmanaged) :
    (Entity.type d unmanaged).Lays env s marshaling := by
  simpa only [Entity.Lays, shape] using holds

theorem lays_interface {d : TypeDefinition} {marshaling unmanaged : Bool}
    (shape : d.isInterface = true) (holds : marshaling = true ∨ s.Tabled env d unmanaged) :
    (Entity.type d unmanaged).Lays env s marshaling := by
  unfold TypeDefinition.isInterface at shape
  split at shape
  · next found => simpa only [Entity.Lays, found] using holds
  · cases shape

theorem good_variant {d : TypeDefinition} {marshaling unmanaged : Bool}
    (listed : D.Listed (.type d)) (known : s.Knows (Entity.type d unmanaged).key)
    (lays : (Entity.type d unmanaged).Lays env s marshaling) :
    D.Good marshaling (variantType d unmanaged) s :=
  D.good_entity known lays fun _ _ same => by
    cases same
    exact listed

theorem good_template {template : Template} {marshaling : Bool}
    (known : s.Knows (Entity.template template).key) :
    D.Good marshaling (.named ⟨template.space, template.name⟩) s :=
  D.good_entity known trivial nofun

theorem needsUnmanagedVariant_ends (sound : D.Sound s) {d : TypeDefinition}
    (listed : D.Listed (.type d)) (context : Context) :
    D.Ends s (needsUnmanagedVariant d context) fun unmanaged t =>
      (unmanaged = true → env.options.allowMarshaling = true ∧ t.Judges d true) ∧
      (unmanaged = false → context.allowMarshaling = true ∨ env.options.allowMarshaling = false ∨
        t.Judges d false) ∧
      (context.allowMarshaling = true → unmanaged = false) := by
  unfold needsUnmanagedVariant
  refine .read ?_
  split
  · next asked =>
    simp only [Bool.and_eq_true, Bool.not_eq_true'] at asked
    refine (isManagedType_ends sound listed).imp fun verdict t _ judged => ⟨?_, ?_, ?_⟩
    · rintro rfl
      exact ⟨asked.1, judged⟩
    · rintro rfl
      exact .inr (.inr judged)
    · intro marshaling
      rw [asked.2] at marshaling
      cases marshaling
  · next asked =>
    refine .pure sound ⟨nofun, fun _ => ?_, fun _ => rfl⟩
    simp only [Bool.and_eq_true, Bool.not_eq_true', not_and, Bool.not_eq_false] at asked
    cases marshaling : env.options.allowMarshaling with
    | false => exact .inr (.inl rfl)
    | true => exact .inl (asked marshaling)

section
variable {links : Links} (linked : LinksSound D links)
include linked

theorem projectInterface_ends (sound : D.Sound s) {d : TypeDefinition} (listed : D.Listed (.type d))
    (shape : d.isInterface = true) (context : Context) (plain : State → Prop) :
    D.Ends s (projectInterface links d context) (Projected D context.allowMarshaling plain) := by
  unfold projectInterface
  refine .bind (isConforming_ends sound listed) fun conforming t sound _ conforms => ?_
  split
  · next marshaled =>
    simp only [Bool.and_eq_true] at marshaled
    refine .bind (linked.demand t (.type d false) sound ⟨listed, nofun⟩) fun _ u sound _ known => ?_
    refine .pure sound ⟨⟨?_, fun raw => ?_⟩, nofun⟩
    · rw [marshaled.1]
      exact good_variant listed known (lays_interface shape (.inl rfl))
    · rw [marshaled.1] at raw
      cases raw
  · refine .read ?_
    dsimp only
    obtain ⟨unmanaged, same⟩ : ∃ unmanaged, unmanaged = (env.options.allowMarshaling && conforming) :=
      ⟨_, rfl⟩
    rw [← same]
    have asked : D.Asks t (.type d unmanaged) := by
      refine ⟨listed, fun own => ?_⟩
      rw [own] at same
      have both : env.options.allowMarshaling = true ∧ conforming = true := by
        simpa using same.symm
      exact ⟨both.1, .inr ⟨shape, both.2 ▸ conforms⟩⟩
    refine .bind (linked.demand t _ sound asked) fun _ u sound grown known => .pure sound ?_
    refine .raw (D.good_pointer.mpr (good_variant listed known (lays_interface shape (.inr ?_)))) rfl
    cases unmanaged with
    | true => exact .inl rfl
    | false =>
      have either := Bool.and_eq_false_iff.mp same.symm
      refine .inr (either.imp_right ?_)
      rintro rfl
      exact grown.conforms d false conforms

theorem projectDefinition_ends (sound : D.Sound s) {d : TypeDefinition}
    (listed : D.Listed (.type d)) (context : Context) :
    D.Ends s (projectDefinition links d context)
      (Projected D context.allowMarshaling fun t => t.Judges d false) := by
  unfold projectDefinition
  split
  · next shape =>
    refine .bind (linked.demand s (.type d false) sound ⟨listed, nofun⟩) fun _ t sound _ known => ?_
    exact .pure sound (.raw (good_variant listed known (by simp only [Entity.Lays, shape])) rfl)
  · next r shape =>
    refine .bind (needsUnmanagedVariant_ends sound listed context) fun unmanaged t sound _ needs => ?_
    obtain ⟨needed, unneeded, marshaled⟩ := needs
    have asked : D.Asks t (.type d unmanaged) :=
      ⟨listed, fun own => ⟨(needed own).1, .inl ⟨⟨r, shape⟩, (needed own).2⟩⟩⟩
    refine .bind (linked.demand t _ sound asked) fun _ u sound grown known => .pure sound ?_
    refine ⟨⟨good_variant listed known (lays_record shape ?_), fun _ => rfl⟩,
      fun _ v later plain => ?_⟩
    · cases unmanaged with
      | true => exact .inr (.inr (.inl rfl))
      | false =>
        exact (unneeded rfl).imp_right fun rest =>
          .inr (.inr (rest.imp_right (grown.judges d false)))
    · exact good_variant listed (later.knows _ known)
        (lays_record shape (.inr (.inr (.inr (.inr plain)))))
  · next shape =>
    exact projectInterface_ends linked sound listed (by simp [TypeDefinition.isInterface, shape])
      context _
  · next shape =>
    split
    · next marshaling =>
      refine .bind (linked.demand s (.type d false) sound ⟨listed, nofun⟩) fun _ t sound _ known => ?_
      refine .pure sound ⟨⟨?_, fun raw => ?_⟩, nofun⟩
      · exact good_variant listed known (by simp only [Entity.Lays, shape, marshaling])
      · rw [marshaling] at raw
        cases raw
    · exact .bind (linked.functionPointer s d sound listed) fun _ t sound _ good =>
        .pure sound (.raw good rfl)

theorem projectUnknown_ends (sound : D.Sound s) (reference : QualifiedName) (marshaling : Bool)
    (plain : State → Prop) :
    D.Ends s (projectUnknown links reference) (Projected D marshaling plain) := by
  unfold projectUnknown
  refine .read ?_
  split
  · next template _ =>
    split
    · refine .bind (linked.demand s (.template template) sound trivial) fun _ t sound _ known => ?_
      exact .pure sound (.raw (good_template known) rfl)
    · exact .fault sound.toSafe _
  · exact .fault sound.toSafe _

theorem special_ends (sound : D.Sound s) (name : String) :
    D.Ends s (links.special name) fun template t => t.Knows (Entity.template template).key := by
  unfold Links.special
  refine .read ?_
  split
  · exact .fault sound.toSafe _
  · next template _ =>
    exact .bind (linked.demand s (.template template) sound trivial) fun _ t sound _ known =>
      .pure sound known

theorem projectName_ends (sound : D.Sound s) (reference : QualifiedName) (context : Context)
    (usage : Usage) :
    D.Ends s (projectName links reference context usage)
      (Projected D context.allowMarshaling (Plain env (.handle reference))) := by
  unfold projectName
  refine .read ?_
  dsimp only
  split
  · next type found => exact .pure sound (.raw (D.good_replacement found false s) rfl)
  · split
    · exact .bind (special_ends linked sound _) fun template t sound _ known =>
        .pure sound (.raw (good_template known) rfl)
    · refine .bind (resolve_ends sound reference) fun found t sound _ means => ?_
      split
      · next d =>
        have meant := means d rfl
        exact (projectDefinition_ends linked sound (D.listed_means meant) context).imp
          fun p u _ projected => projected.imp fun _ plain => plain reference d rfl meant
      · exact projectUnknown_ends linked sound reference _ _

/-! ## Pointers -/

theorem projectReferred_ends (sound : D.Sound s) (target : NativeType) (context : Context)
    (usage : Usage) {element : Projection}
    (styled : D.Styled s context.allowMarshaling element.type element.marshalAs) :
    D.Ends s (projectReferred links target context usage element) fun p t =>
      D.Styled t context.allowMarshaling p.type p.marshalAs := by
  unfold projectReferred
  dsimp only
  split
  · next marshaling _ =>
    rw [marshaling] at styled ⊢
    exact .pure sound ⟨D.good_array styled.1, nofun⟩
  · split
    · refine .read ?_
      split
      · exact .pure sound ⟨D.good_word _ _ s, fun _ => rfl⟩
      · exact .pure sound styled
    · refine .bind (delegateOf_ends sound target) fun found t sound grown listed => ?_
      split
      · next delegate =>
        exact .bind (linked.functionPointer t delegate sound (listed delegate rfl))
          fun _ u sound _ good => .pure sound ⟨D.good_any good _, fun _ => rfl⟩
      · split
        · next marshaling =>
          rw [marshaling] at styled ⊢
          exact .pure sound ⟨D.good_array (D.good_carries styled.1 grown.carries), nofun⟩
        · exact .pure sound ⟨D.good_pointer.mpr (D.good_carries styled.1 grown.carries),
            fun _ => rfl⟩

theorem projectPointer_ends (sound : D.Sound s) (target : NativeType) (context : Context)
    (usage : Usage) {element : Projection}
    (styled : D.Styled s context.allowMarshaling element.type element.marshalAs) :
    D.Ends s (projectPointer links target context usage element) fun p t =>
      D.Styled t context.allowMarshaling p.type p.marshalAs := by
  have rest : ∀ (managed : Bool) t, D.Sound t → D.Grows s t → D.Ends t (do
      if element.marshalAs.isSome || managed
          || (context.preferInOutRef && !usage.isOptional && isValuePrimitive target) then
        projectReferred links target context usage element
      else if context.allowMarshaling && usage.isComOutPtr then
        return { type := .object, marshalAs := some { kind := .unknown } }
      else return { type := .pointer element.type }) fun p t =>
        D.Styled t context.allowMarshaling p.type p.marshalAs := by
    intro managed t sound grown
    have styled := styled.carries grown.carries
    split
    · exact projectReferred_ends linked sound target context usage styled
    · split
      · next asked =>
        simp only [Bool.and_eq_true] at asked
        refine .pure sound ⟨D.good_word _ _ t, fun raw => ?_⟩
        rw [asked.1] at raw
        cases raw
      · exact .pure sound ⟨D.good_pointer.mpr styled.1, fun _ => rfl⟩
  unfold projectPointer
  dsimp only
  split
  · exact .bind (isManaged_ends sound target) fun managed t sound grown _ => rest managed t sound grown
  · exact .bind (.pure sound (Q := fun _ _ => True) trivial) fun managed t sound grown _ =>
      rest managed t sound grown

/-! ## Arrays -/

theorem inlineArray_ends (sound : D.Sound s) {element : TargetType} (good : D.Good false element s)
    (length : Int) (isChar : Bool) :
    D.Ends s (links.inlineArray element length isChar) (D.Good false) := by
  unfold Links.inlineArray
  refine .bind (.steady (isAmbiguousElement_steady element) sound (Q := fun _ _ => True)
    fun _ _ => trivial) fun ambiguous t sound grown _ => ?_
  refine .bind (linked.demand t (.inlineArray _ element length isChar) sound
    (D.good_carries good grown.carries)) fun _ u sound _ known => .pure sound ?_
  exact D.good_entity known trivial nofun

/-- What makes the projection of a native type good without marshaling, if it notes none: the type
    stands in a field with no length beside it, is not itself an array, and holds no managed
    type. -/
def Lowers (env : Environment) (type : NativeType) (context : Context) (usage : Usage) (s : State) :
    Prop :=
  type.isArray = false ∧ context.isField = true ∧ usage.extent = none ∧ Plain env type s

/-- The elements of a fixed array that becomes a helper are good without marshaling. -/
theorem projectFixedField_ends (sound : D.Sound s) {elementType : NativeType} (length : Int)
    {context : Context} {element : Projection} (inField : context.isField = true)
    (nested : elementType.isArray = true →
      ∀ {target s}, D.Good true target s → D.Good false target s)
    (projected : Projected D context.allowMarshaling (Lowers env elementType context {}) element s)
    (plain : State → Prop) :
    D.Ends s (projectFixedField links elementType length context element)
      (Projected D context.allowMarshaling plain) := by
  have rest : ∀ (managed : Bool) t, D.Sound t → D.Grows s t →
      (context.allowMarshaling = true → managed = false → Plain env elementType t) →
      D.Ends t (do
        if context.allowMarshaling && (managed || element.marshalAs.isSome) then
          return {
            type := .array element.type
            marshalAs := some { kind := .byValArray, arraySubType := element.marshalAs.map (·.kind)
                                sizeConst := some length } }
        else return { type := ← links.inlineArray element.type length (isCharType elementType) })
        (Projected D context.allowMarshaling plain) := by
    intro managed t sound grown isPlain
    have projected := projected.carries grown.carries
    split
    · next marshaled =>
      simp only [Bool.and_eq_true] at marshaled
      rw [marshaled.1] at projected ⊢
      exact .pure sound ⟨⟨D.good_array projected.styled.1, nofun⟩, nofun⟩
    · next unmarshaled =>
      have good : D.Good false element.type t := by
        cases marshaling : context.allowMarshaling with
        | false => exact marshaling ▸ projected.styled.1
        | true =>
          simp only [marshaling, Bool.true_and, Bool.or_eq_true, not_or, Bool.not_eq_true,
            Option.isSome_eq_false_iff, Option.isNone_iff_eq_none] at unmarshaled
          by_cases array : elementType.isArray = true
          · exact nested array (marshaling ▸ projected.styled.1)
          · exact projected.lowered unmarshaled.2 t (.refl t)
              ⟨by simpa using array, inField, rfl, isPlain marshaling unmarshaled.1⟩
      exact .bind (inlineArray_ends linked sound good length _) fun type u sound _ good =>
        .pure sound (.raw good rfl)
  unfold projectFixedField
  dsimp only
  split
  · exact .bind (isManaged_ends sound elementType) fun managed t sound grown isPlain =>
      rest managed t sound grown fun _ => isPlain
  · next raw =>
    exact .bind (.pure sound (Q := fun _ _ => True) trivial) fun managed t sound grown _ =>
      rest managed t sound grown fun marshaling => absurd marshaling raw

omit linked in
theorem projectPassedArray_styled (length : Option Int) {context : Context} (usage : Usage)
    {element : Projection} (styled : D.Styled s context.allowMarshaling element.type element.marshalAs) :
    D.Styled s context.allowMarshaling (projectPassedArray length context usage element).type
      (projectPassedArray length context usage element).marshalAs := by
  unfold projectPassedArray
  split
  · exact ⟨D.good_pointer.mpr styled.1, fun _ => rfl⟩
  · split
    · next asked =>
      simp only [Bool.and_eq_true] at asked
      rw [asked.1] at styled ⊢
      exact ⟨D.good_array styled.1, nofun⟩
    · exact ⟨D.good_pointer.mpr styled.1, fun _ => rfl⟩

end

/-! ## All types -/

theorem pointerContext_marshaling {context : Context} {usage : Usage}
    (marshaling : (pointerContext context usage).allowMarshaling = true) :
    context.allowMarshaling = true ∧ ¬ (context.isField = true ∧ usage.extent = none) := by
  unfold pointerContext at marshaling
  split at marshaling
  · cases marshaling
  · next outside =>
    simp only [marshaling, Bool.true_and, Bool.and_eq_true, Option.isNone_iff_eq_none] at outside
    exact ⟨marshaling, outside⟩

theorem projectAll_ends {links : Links} {s : State} (sound : D.Sound s) {types : List NativeType}
    (each : ∀ type ∈ types, ∀ {s}, D.Sound s →
      D.Ends s (project links type .raw {}) fun result t => D.Good false result.type t) :
    D.Ends s (projectAll links types) fun targets t => ∀ target ∈ targets, D.Good false target t := by
  induction types generalizing s with
  | nil =>
    unfold projectAll
    exact .pure sound (by simp)
  | cons type rest ih =>
    unfold projectAll
    refine .bind (each type (by simp) sound) fun first t sound _ projected => ?_
    refine .bind (ih sound fun other member => each other (List.mem_cons_of_mem type member))
      fun others u sound grown good => ?_
    refine .pure sound fun target member => ?_
    rcases List.mem_cons.mp member with rfl | later
    · exact D.good_carries projected grown.carries
    · exact good target later

theorem project_ends {links : Links} (linked : LinksSound D links) {s : State} (sound : D.Sound s)
    {type : NativeType} (flat : D.Flat type) (context : Context) (usage : Usage) :
    D.Ends s (project links type context usage)
      (Projected D context.allowMarshaling (Lowers env type context usage)) :=
  match type with
  | .primitive code => by
    unfold project
    split
    · exact .pure sound (.raw (D.good_word _ _ s) rfl)
    · exact .fault sound.toSafe _
  | .pointer target isConst => by
    unfold project
    dsimp only
    refine .bind (project_ends linked sound (D.flat_pointer flat) _ _) fun element t sound _ projected => ?_
    refine (projectPointer_ends linked sound target (pointerContext context usage) usage
      projected.styled).imp fun p u _ styled => ?_
    cases raw : (pointerContext context usage).allowMarshaling with
    | false =>
      rw [raw] at styled
      exact .raw styled.1 (styled.2 rfl)
    | true =>
      obtain ⟨marshaling, outside⟩ := pointerContext_marshaling raw
      rw [raw] at styled
      rw [marshaling]
      exact ⟨styled, fun _ _ _ lowers => absurd ⟨lowers.2.1, lowers.2.2.1⟩ outside⟩
  | .array elementType lengths => by
    unfold project
    dsimp only
    split
    · next inField _ =>
      refine .bind (project_ends linked sound (D.flat_array flat) _ {}) fun element t sound _ projected => ?_
      exact projectFixedField_ends linked sound _ inField (D.flat_nested flat)
        (projected.imp fun _ lowers => lowers) _
    · refine .bind (project_ends linked sound (D.flat_array flat) _ {}) fun element t sound _ projected => ?_
      exact .pure sound ⟨projectPassedArray_styled _ usage projected.styled, fun _ _ _ lowers =>
        nomatch lowers.1⟩
  | .handle reference => by
    unfold project
    exact (projectName_ends linked sound reference context usage).imp fun p t _ projected =>
      projected.imp fun _ lowers => lowers.2.2.2
  | .function params returns => by
    unfold project
    refine .bind (projectAll_ends sound fun type member s sound =>
      (project_ends linked sound (D.flat_params flat type member) .raw {}).imp
        fun _ _ _ projected => projected.styled.1) fun params t sound _ good => ?_
    refine .bind (project_ends linked sound (D.flat_returns flat) .raw {})
      fun returns u sound grown projected =>
        .pure sound (.raw (D.good_functionPointer (fun p member => ?_) projected.styled.1) rfl)
    exact D.good_carries (good p member) grown.carries
termination_by type

end Bindings
