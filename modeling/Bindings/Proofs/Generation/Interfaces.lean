import Bindings.Proofs.Generation.Declarations

/-!
# Declarations of interfaces

An interface is declared as a true interface, with a declaration asked for of each of its bases,
or as a table of methods whose types need no marshaling.
-/

namespace Bindings
open Bindings.Metadata

variable {env : Environment} {D : Discipline env} {s t : State}

/-! ## Base chains -/

/-- Each base in a chain is an interface that a name of the metadata means. -/
theorem climb_means {depth : Nat} {seen : List String} {d : TypeDefinition} :
    Gen.Leads env s (climb depth seen d) (fun chain t => t = s ∧ ∀ base ∈ chain,
      base.isInterface = true ∧ ∃ reference, Means env reference base) (fun t => t = s) := by
  induction depth generalizing seen d with
  | zero => exact rfl
  | succ depth ih =>
    unfold climb
    split
    · exact ⟨rfl, by simp⟩
    · next reference _ _ =>
      refine .bind (.steady (resolve_steady reference) (Q := fun found t => t = s ∧
        ∀ u, resolve reference env u = .ok found u) (fun _ always => ⟨rfl, always⟩) rfl) ?_
      rintro found t ⟨rfl, always⟩
      split
      · exact rfl
      · next base =>
        split
        · exact rfl
        · next shape =>
          split
          · exact rfl
          · refine .bind ih ?_
            rintro chain u ⟨rfl, each⟩
            refine ⟨rfl, fun other member => ?_⟩
            rcases List.mem_cons.mp member with rfl | later
            · exact ⟨by simpa using shape, reference, always⟩
            · exact each other later

theorem baseChain_ends (sound : D.Sound s) (d : TypeDefinition) :
    D.Ends s (baseChain d) fun chain _ => (∀ u, baseChain d env u = .ok chain u) ∧
      ∀ base ∈ chain, base.isInterface = true ∧ D.Listed (.type base) := by
  refine .steady (baseChain_fixed d) sound fun chain always => ⟨always, ?_⟩
  have climbed : Gen.Leads env s (baseChain d) (fun chain _ => ∀ base ∈ chain,
      base.isInterface = true ∧ ∃ reference, Means env reference base) fun _ => True := by
    unfold baseChain
    refine .read (.bind (climb_means.imp (fun _ _ h => h) fun _ _ => trivial) ?_)
    rintro chain t ⟨_, each⟩ base member
    exact each base (List.mem_reverse.mp member)
  rw [Gen.Leads, always s] at climbed
  intro base member
  obtain ⟨shape, reference, means⟩ := climbed base member
  exact ⟨shape, D.listed_means means⟩

section
variable {links : Links} (linked : LinksSound D links)
include linked

/-! ## True interfaces -/

theorem interfaceMethod_ends (sound : D.Sound s) {owner : TypeDefinition}
    (listed : D.Listed (.type owner)) {m : Method} (member : m ∈ owner.methods) {context : Context}
    (marshaling : context.allowMarshaling = true) (isInherited : Bool) :
    D.Ends s (interfaceMethod links context owner m isInherited) fun decl t => D.FitsMethod t decl := by
  obtain ⟨flatReturns, flatParams⟩ := flat_method listed member
  obtain ⟨flatRest, flatTarget⟩ := flat_splitResult flatParams
  have finish : ∀ (params : List Param) (preserveSig : Bool), (∀ p ∈ params, D.Flat p.type) →
      ∀ (result : Projection) t, D.Sound t → D.Styled t true result.type result.marshalAs →
      D.Ends t (do
        let params ← params.mapM (paramDecl links context)
        return ({ name := m.name, params, returnType := result.type
                  returnMarshal := result.marshalAs, preserveSig, isInherited } :
          InterfaceMethodDecl)) fun decl u => D.FitsMethod u decl := by
    intro params preserveSig flat result t sound styled
    refine .bind (paramDecls_ends linked sound flat context) fun decls u sound grown each => ?_
    rw [marshaling] at each
    exact .pure sound ⟨each, styled.carries grown.carries⟩
  unfold interfaceMethod
  refine .bind (.steady (preservesReturnCode_steady owner m) sound (Q := fun _ _ => True)
    fun _ _ => trivial) fun preserved t sound _ _ => ?_
  split
  · cases splitted : splitResult m.params with
    | mk rest target =>
      rw [splitted] at flatRest flatTarget
      dsimp only
      split
      · next target =>
        refine .bind (project_ends linked sound (flatTarget target rfl) context {})
          fun result u sound _ projected => finish rest false flatRest result u sound ?_
        exact marshaling ▸ projected.styled
      · exact .bind (.pure sound (Q := fun result u => D.Styled u true result.type result.marshalAs)
          ⟨D.good_word _ _ t, nofun⟩) fun result u sound _ styled =>
            finish rest false flatRest result u sound styled
  · refine .bind (project_ends linked sound flatReturns context {})
      fun result u sound _ projected => finish m.params true flatParams result u sound ?_
    exact marshaling ▸ projected.styled

omit linked in
theorem ownedMethods_owned {chain : List TypeDefinition} {d : TypeDefinition}
    {entry : TypeDefinition × Method × Bool} (member : entry ∈ ownedMethods chain d) :
    (entry.1 ∈ chain ∨ entry.1 = d) ∧ entry.2.1 ∈ entry.1.methods := by
  rcases List.mem_append.mp member with inherited | own
  · obtain ⟨owner, there, held⟩ := List.mem_flatMap.mp inherited
    obtain ⟨m, has, rfl⟩ := List.mem_map.mp held
    exact ⟨.inl there, has⟩
  · obtain ⟨m, has, rfl⟩ := List.mem_map.mp own
    exact ⟨.inr rfl, has⟩

theorem interfaceDecl_ends (sound : D.Sound s) {d : TypeDefinition} (listed : D.Listed (.type d))
    (marshaling : env.options.allowMarshaling = true) (conforms : s.Conforms d true) :
    D.Ends s (interfaceDecl links d) fun decl t => D.FitsInterface t d decl := by
  unfold interfaceDecl
  refine .read ?_
  dsimp only
  refine .bind (baseChain_ends sound d) fun chain t sound grown ⟨always, each⟩ => ?_
  have conforms := grown.conforms d true conforms
  refine .bind (Discipline.Ends.forM _ (R := fun base u => u.Knows (Entity.type base false).key)
    (fun base u v later known => later.knows _ known) (fun base member u sound _ => ?_) sound)
    fun _ u sound grown known => ?_
  · have there := (List.mem_filter.mp member).1
    exact linked.demand u (.type base false) sound ⟨(each base there).2, nofun⟩
  · have conforms := grown.conforms d true conforms
    refine .bind (Discipline.Ends.mapM _ (R := fun _ (m : InterfaceMethodDecl) v => D.FitsMethod v m)
      (fun _ m v w later fits => ?_) (fun entry member v sound _ => ?_) sound)
      fun methods v sound grown fits => ?_
    · exact ⟨fun p place => (fits.params p place).carries later, fits.returns.carries later⟩
    · obtain ⟨owner, m, isInherited⟩ := entry
      obtain ⟨from', has⟩ := ownedMethods_owned (List.mem_filter.mp member).1
      refine interfaceMethod_ends linked sound ?_ has rfl isInherited
      rcases from' with inherited | rfl
      · exact (each owner inherited).2
      · exact listed
    · refine .read (.docs (.pure sound ?_))
      refine ⟨rfl, rfl, marshaling, grown.conforms d true conforms, fun m member => ?_, ?_⟩
      · obtain ⟨_, _, fits⟩ := fits m member
        exact fits
      · refine ⟨chain, always, rfl, fun base member other => grown.carries.knows _ (known base ?_)⟩
        exact List.mem_filter.mpr ⟨member, by simpa using other⟩

/-! ## Tables of methods -/

theorem vtableEntry_ends (sound : D.Sound s) {owner : TypeDefinition}
    (listed : D.Listed (.type owner)) {m : Method} (member : m ∈ owner.methods) {self : TargetType}
    (good : D.Good false self s) (index : Nat) :
    D.Ends s (vtableEntry links self index owner m) fun entry t =>
      D.Good false entry.1.functionType t ∧
      (∀ p ∈ entry.2.params, D.Styled t false p.type p.marshalAs) ∧
      D.Good false entry.2.returnType t ∧ D.Good false entry.2.call.functionType t := by
  obtain ⟨flatReturns, flatParams⟩ := flat_method listed member
  unfold vtableEntry
  refine .bind (paramDecls_ends linked sound flatParams .raw) fun params t sound grown styled => ?_
  refine .bind (project_ends linked sound flatReturns .raw {}) fun result u sound grown' projected => ?_
  have styled : ∀ p ∈ params, D.Styled u false p.type p.marshalAs :=
    fun p place => (styled p place).carries grown'.carries
  have goodType : D.Good false (.functionPointer (self :: params.map (·.type)) result.type) u := by
    refine D.good_functionPointer (fun type there => ?_) projected.styled.1
    rcases List.mem_cons.mp there with rfl | there
    · exact D.good_carries good (grown.carries.trans grown'.carries)
    · obtain ⟨p, place, rfl⟩ := List.mem_map.mp there
      exact (styled p place).1
  exact .pure sound ⟨goodType, styled, projected.styled.1, goodType⟩

theorem vtableDecl_ends (sound : D.Sound s) {d : TypeDefinition} (listed : D.Listed (.type d))
    (shape : d.isInterface = true) {unmanaged : Bool} (tabled : s.Tabled env d unmanaged)
    (known : s.Knows (Entity.type d unmanaged).key) :
    D.Ends s (vtableDecl links d (variantName d.name unmanaged)) fun decl t =>
      D.FitsTable t d unmanaged decl := by
  have self : D.Good false (.pointer (variantType d unmanaged)) s :=
    D.good_pointer.mpr (good_variant listed known (lays_interface shape (.inr tabled)))
  unfold vtableDecl slotMethods
  dsimp only
  refine .bind (.bind (baseChain_ends sound d) fun chain t sound grown ⟨_, each⟩ =>
    .pure sound (Q := fun (methods : List (TypeDefinition × Method)) _ => ∀ entry ∈ methods,
      D.Listed (.type entry.1) ∧ entry.2 ∈ entry.1.methods) ?_) fun methods t sound grown each => ?_
  · intro entry member
    obtain ⟨owner, there, held⟩ := List.mem_flatMap.mp member
    obtain ⟨m, has, rfl⟩ := List.mem_map.mp held
    refine ⟨?_, has⟩
    rcases List.mem_append.mp there with inherited | own
    · exact (each owner inherited).2
    · rw [List.mem_singleton.mp own]
      exact listed
  · refine .bind (Discipline.Ends.mapM _ (R := fun _ (entry : VtableSlot × ForwardingMethodDecl) u =>
        D.Good false entry.1.functionType u ∧
        (∀ p ∈ entry.2.params, D.Styled u false p.type p.marshalAs) ∧
        D.Good false entry.2.returnType u ∧ D.Good false entry.2.call.functionType u)
      (fun _ entry u v later fits => ?_) (fun entry member u sound grown' => ?_) sound)
      fun entries u sound grown' fits => ?_
    · exact ⟨D.good_carries fits.1 later, fun p place => (fits.2.1 p place).carries later,
        D.good_carries fits.2.2.1 later, D.good_carries fits.2.2.2 later⟩
    · obtain ⟨⟨owner, m⟩, index⟩ := entry
      obtain ⟨listed, has⟩ := each (owner, m) (List.fst_mem_of_mem_zipIdx member)
      exact vtableEntry_ends linked sound listed has
        (D.good_carries self (grown.carries.trans grown'.carries)) index
    · have fits : ∀ entry ∈ entries, D.Good false entry.1.functionType u ∧
          (∀ p ∈ entry.2.params, D.Styled u false p.type p.marshalAs) ∧
          D.Good false entry.2.returnType u ∧ D.Good false entry.2.call.functionType u := by
        intro entry member
        obtain ⟨_, _, fits⟩ := fits entry member
        exact fits
      refine .read (.docs (.pure sound {
        name := rfl, space := rfl, isInterface := shape
        tabled := Discipline.tabled_carries tabled (grown.carries.trans grown'.carries)
        fields := fun f member => ?_
        slots := fun slot member => ?_
        params := fun m member p place => ?_
        methods := fun m member => ?_ }))
      · rw [List.mem_singleton.mp member]
        exact ⟨D.good_pointer.mpr (D.good_pointer.mpr (D.good_word _ _ u)), fun _ => rfl⟩
      · obtain ⟨entry, there, rfl⟩ := List.mem_map.mp member
        exact (fits entry there).1
      · obtain ⟨entry, there, rfl⟩ := List.mem_map.mp member
        exact (fits entry there).2.1 p place
      · obtain ⟨entry, there, rfl⟩ := List.mem_map.mp member
        exact (fits entry there).2.2

theorem projectedInterface_ends (sound : D.Sound s) {d : TypeDefinition}
    (listed : D.Listed (.type d)) (shape : d.isInterface = true) {unmanaged : Bool}
    (known : s.Knows (Entity.type d unmanaged).key) {context : Context}
    (same : context.allowMarshaling = (env.options.allowMarshaling && !unmanaged)) :
    D.Ends s (projectedInterface links d context (variantName d.name unmanaged)) fun decl t =>
      D.Covers t (.type d unmanaged) [decl] := by
  have table : ∀ t, D.Sound t → D.Grows s t → t.Tabled env d unmanaged → D.Ends t (do
      return Declaration.vtable (← vtableDecl links d (variantName d.name unmanaged)))
        fun decl u => D.Covers u (.type d unmanaged) [decl] := by
    intro t sound grown tabled
    refine .bind (vtableDecl_ends linked sound listed shape tabled (grown.carries.knows _ known))
      fun decl u sound _ fits => .pure sound (.single (.vtable fits) ?_)
    rw [Declaration.declares, Declaration.name, Declaration.space, fits.name, fits.space]
    rfl
  unfold projectedInterface
  dsimp only
  split
  · next marshaling =>
    rw [marshaling] at same
    simp only [Bool.true_eq, Bool.and_eq_true, Bool.not_eq_true'] at same
    obtain ⟨allowed, rfl⟩ := same
    refine .bind (isConforming_ends sound listed) fun conforming t sound grown conforms => ?_
    split
    · next conforming =>
      subst conforming
      refine .bind (interfaceDecl_ends linked sound listed allowed conforms) fun decl u sound _ fits =>
        .pure sound (.single (.interface shape fits) ?_)
      rw [Declaration.declares, Declaration.name, Declaration.space, fits.name, fits.space]
      rfl
    · next other =>
      refine table t sound grown (.inr (.inr ?_))
      rw [Bool.not_eq_true] at other
      exact other ▸ conforms
  · next raw =>
    refine .bind (.pure sound (Q := fun conforming _ => conforming = false) rfl)
      fun conforming t sound grown is => ?_
    subst is
    refine table t sound grown ?_
    rw [Bool.not_eq_true] at raw
    rw [raw] at same
    rcases Bool.and_eq_false_iff.mp same.symm with off | own
    · exact .inr (.inl off)
    · exact .inl (by simpa using own)

end

end Bindings
