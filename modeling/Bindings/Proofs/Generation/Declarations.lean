import Bindings.Proofs.Generation.Overload

/-!
# Declarations of entities

The declarations that are made for an entity cover it: they fit it, and one of them has its
name.
-/

namespace Bindings
open Bindings.Metadata

variable {env : Environment} {D : Discipline env} {s t : State}

/-! ## Reading the session -/

section
variable {α : Type} {Q : α → State → Prop}

theorem Discipline.Ends.standardContext {f : Context → Gen α}
    (rest : D.Ends s (f { allowMarshaling := env.options.allowMarshaling }) Q) :
    D.Ends s (standardContext >>= f) Q := rest

theorem Discipline.Ends.docs {name : String} {f : Option String → Gen α}
    (rest : D.Ends s (f (env.docs.get? name)) Q) : D.Ends s (Gen.docs name >>= f) Q := rest

theorem Discipline.Ends.platform {f : Option String → Gen α}
    (rest : D.Ends s (f env.options.platformName?) Q) : D.Ends s (Gen.platform >>= f) Q := rest

theorem Discipline.Ends.ofSelection {r : Except SelectionError α} (sound : D.Sound s)
    (chosen : ∀ a, r = .ok a → Q a s) : D.Ends s (Gen.ofSelection r) Q := by
  cases r with
  | ok a => exact .pure sound (chosen a rfl)
  | error e => exact .throw sound.toSafe _

end

/-! ## Signatures -/

theorem flat_method {owner : TypeDefinition} (listed : D.Listed (.type owner)) {m : Method}
    (member : m ∈ owner.methods) :
    D.Flat m.returns ∧ ∀ p ∈ m.params, D.Flat p.type := by
  have each : ∀ type ∈ m.returns :: m.params.map (·.type), D.Flat type := by
    intro type there
    refine D.listed_flat listed type ?_
    unfold TypeDefinition.methods at member
    split at member
    · next shape =>
      simp only [Definition.signatures, TypeDefinition.signatures, shape]
      exact List.mem_flatMap.mpr ⟨m, member, there⟩
    · cases member
  exact ⟨each m.returns (by simp), fun p held => each p.type (by simp; exact .inr ⟨p, held, rfl⟩)⟩

theorem flat_field {d : TypeDefinition} (listed : D.Listed (.type d)) {r : Record}
    (shape : d.shape = .record r) {f : Field} (member : f ∈ r.fields) : D.Flat f.type := by
  refine D.listed_flat listed f.type ?_
  simp only [Definition.signatures, TypeDefinition.signatures, shape]
  exact List.mem_map_of_mem member

theorem flat_delegate {d : TypeDefinition} (listed : D.Listed (.type d)) {returns : NativeType}
    {params : List Param} (shape : d.shape = .delegate returns params) :
    D.Flat returns ∧ ∀ p ∈ params, D.Flat p.type := by
  have each : ∀ type ∈ returns :: params.map (·.type), D.Flat type := by
    intro type there
    refine D.listed_flat listed type ?_
    simpa only [Definition.signatures, TypeDefinition.signatures, shape] using there
  exact ⟨each returns (by simp), fun p held => each p.type (by simp; exact .inr ⟨p, held, rfl⟩)⟩

theorem flat_splitResult {params : List Param} (flat : ∀ p ∈ params, D.Flat p.type) :
    (∀ p ∈ (splitResult params).1, D.Flat p.type) ∧
      ∀ target, (splitResult params).2 = some target → D.Flat target := by
  unfold splitResult
  split
  · next target found =>
    refine ⟨fun p member => flat p (List.dropLast_subset _ member), fun other same => ?_⟩
    obtain rfl := Option.some.inj same
    obtain ⟨p, last, is⟩ := Option.bind_eq_some_iff.mp found
    have flatP := flat p (List.mem_of_getLast? last)
    unfold resultTarget? at is
    split at is
    · next pointed =>
      split at is
      · obtain rfl := Option.some.inj is
        rw [pointed] at flatP
        exact D.flat_pointer flatP
      · cases is
    · cases is
  · exact ⟨flat, nofun⟩

section
variable {links : Links} (linked : LinksSound D links)
include linked

/-! ## Parameters -/

theorem paramDecl_ends (sound : D.Sound s) {p : Param} (flat : D.Flat p.type) (context : Context) :
    D.Ends s (paramDecl links context p) fun d t =>
      D.Styled t context.allowMarshaling d.type d.marshalAs := by
  unfold paramDecl
  split
  · exact .fault sound.toSafe _
  · exact .bind (project_ends linked sound flat context p.usage) fun result t sound _ projected =>
      .pure sound projected.styled

theorem paramDecls_ends (sound : D.Sound s) {params : List Param}
    (flat : ∀ p ∈ params, D.Flat p.type) (context : Context) :
    D.Ends s (params.mapM (paramDecl links context)) fun decls t => ∀ d ∈ decls,
      D.Styled t context.allowMarshaling d.type d.marshalAs := by
  refine (Discipline.Ends.mapM params (R := fun _ (d : ParamDecl) t =>
      D.Styled t context.allowMarshaling d.type d.marshalAs)
    (fun _ d t u later styled => styled.carries later)
    (fun p member t sound _ => paramDecl_ends linked sound (flat p member) context) sound).imp ?_
  intro decls t _ each d member
  obtain ⟨_, _, styled⟩ := each d member
  exact styled

/-! ## Functions -/

theorem entryPoint_ends (sound : D.Sound s) {f : Function} (listed : D.Listed (.function f)) :
    D.Ends s (entryPoint links f) fun raw t => D.FitsFunction t f raw ∧
      (Declaration.entryPoint raw).declares = (Entity.function f).key.declares := by
  have flatReturns : D.Flat f.returns := D.listed_flat listed _ (by simp [Definition.signatures])
  have flatParams : ∀ p ∈ f.params, D.Flat p.type := fun p member =>
    D.listed_flat listed _ (by simp [Definition.signatures]; exact .inr ⟨p, member, rfl⟩)
  unfold entryPoint
  refine .read (.standardContext ?_)
  refine .bind (project_ends linked sound flatReturns _ {}) fun returns t sound _ projected => ?_
  refine .bind (paramDecls_ends linked sound flatParams _) fun params u sound grown styled => ?_
  exact .docs (.pure sound ⟨⟨rfl, rfl, styled, projected.styled.carries grown.carries⟩, rfl⟩)

theorem functionDecls_ends (sound : D.Sound s) {f : Function} (listed : D.Listed (.function f)) :
    D.Ends s (functionDecls links f) fun ds t => D.Covers t (.function f) ds := by
  unfold functionDecls
  refine .bind (entryPoint_ends linked sound listed) fun raw u sound _ ⟨fits, declares⟩ => ?_
  refine .bind (overload?_ends linked sound fits) fun found v sound grown overloads => ?_
  have fits := fits.carries grown.carries
  cases found with
  | none =>
    refine .pure sound ⟨fun d member => ?_, _, List.mem_singleton_self _, declares⟩
    obtain rfl := List.mem_singleton.mp member
    exact .entryPoint fits
  | some overload =>
    refine .pure sound ⟨fun d member => ?_, _, List.mem_cons_self, declares⟩
    simp only [List.mem_cons, List.not_mem_nil, or_false] at member
    rcases member with rfl | rfl
    · exact .entryPoint fits
    · exact overloads overload rfl

/-! ## Structs -/

omit linked in
theorem marshalsFields_ends (sound : D.Sound s) {d : TypeDefinition} (listed : D.Listed (.type d))
    (r : Record) (unmanaged : Bool) :
    D.Ends s (marshalsFields d r unmanaged) fun marshaled t =>
      (marshaled = true → env.options.allowMarshaling = true ∧ unmanaged = false ∧
        r.explicitLayout = false ∧ t.Judges d true) ∧
      (marshaled = false → t.Unmarshaled env d r unmanaged) := by
  unfold marshalsFields
  refine .read ?_
  split
  · next asked =>
    simp only [Bool.and_eq_true, Bool.not_eq_true'] at asked
    obtain ⟨⟨marshaling, own⟩, implicit⟩ := asked
    refine (isManagedType_ends sound listed).imp fun verdict t _ judged => ⟨?_, ?_⟩
    · rintro rfl
      exact ⟨marshaling, own, implicit, judged⟩
    · rintro rfl
      exact .inr (.inr (.inr judged))
  · next unasked =>
    refine .pure sound ⟨nofun, fun _ => ?_⟩
    cases marshaling : env.options.allowMarshaling with
    | false => exact .inr (.inr (.inl marshaling))
    | true =>
      cases own : unmanaged with
      | true => exact .inr (.inl rfl)
      | false =>
        rw [marshaling, own] at unasked
        exact .inl (by simpa using unasked)

theorem structDecl_ends (sound : D.Sound s) {d : TypeDefinition} (listed : D.Listed (.type d))
    {r : Record} (shape : d.shape = .record r) (unmanaged : Bool) :
    D.Ends s (structDecl links d r unmanaged) fun decl t => D.FitsRecord t d r unmanaged decl := by
  unfold structDecl
  refine .bind (marshalsFields_ends sound listed r unmanaged) fun marshaled t sound _ style => ?_
  dsimp only
  refine .bind (Discipline.Ends.mapM r.fields (R := fun _ (f : FieldDecl) u =>
      D.Styled u marshaled f.type f.marshalAs)
    (fun _ f u v later styled => styled.carries later)
    (fun f member u sound _ => ?_) sound) fun fields u sound grown each => ?_
  · unfold fieldDecl
    exact .bind (project_ends linked sound (flat_field listed shape member) _ _)
      fun result v sound _ projected => .pure sound projected.styled
  · refine .read (.docs (.pure sound ⟨rfl, rfl, rfl, ?_⟩))
    have styled : ∀ f ∈ fields, D.Styled u marshaled f.type f.marshalAs := by
      intro f member
      obtain ⟨_, _, styled⟩ := each f member
      exact styled
    cases marshaled with
    | true =>
      obtain ⟨marshaling, own, implicit, judged⟩ := style.1 rfl
      exact .inl ⟨⟨marshaling, own, implicit, grown.judges d true judged⟩, styled⟩
    | false => exact .inr ⟨Discipline.unmarshaled_carries (style.2 rfl) grown.carries, styled⟩

/-! ## Delegates, enums and constants -/

theorem delegateDecl_ends (sound : D.Sound s) {d : TypeDefinition} (listed : D.Listed (.type d))
    {returns : NativeType} {params : List Param} (shape : d.shape = .delegate returns params) :
    D.Ends s (delegateDecl links d returns params) fun decl t =>
      D.Fits t (.type d false) (.delegate decl) := by
  obtain ⟨flatReturns, flatParams⟩ := flat_delegate listed shape
  unfold delegateDecl
  refine .standardContext ?_
  refine .bind (project_ends linked sound flatReturns _ {}) fun result t sound _ projected => ?_
  refine .bind (paramDecls_ends linked sound flatParams _) fun decls u sound grown styled => ?_
  refine .read (.docs (.pure sound ?_))
  exact .delegate (by simp [TypeDefinition.isDelegate, shape]) rfl rfl styled
    (D.good_carries projected.styled.1 grown.carries)

omit linked in
theorem enumDecl_ends (sound : D.Sound s) {d : TypeDefinition} {base : String}
    {members : List (String × Int)} {isFlags : Bool} (shape : d.shape = .enum base members isFlags) :
    D.Ends s (enumDecl d base members isFlags) fun decl t =>
      D.Fits t (.type d false) (.enum decl) := by
  unfold enumDecl
  exact .read (.docs (.pure sound (.enum shape rfl rfl (D.good_word _ _ s))))

theorem constantDecl_ends (sound : D.Sound s) {c : Constant} (listed : D.Listed (.constant c)) :
    D.Ends s (constantDecl links c) fun decl t => D.Fits t (.constant c) (.constant decl) := by
  have flat : D.Flat c.type := D.listed_flat listed _ (by simp [Definition.signatures])
  unfold constantDecl
  split
  · exact .fault sound.toSafe _
  · split
    · refine .bind (.pure sound (Q := D.Good false) (D.good_word _ _ s)) fun type t sound _ good => ?_
      dsimp only
      split
      · exact .fault sound.toSafe _
      · exact .read (.docs (.pure sound (.constant rfl rfl good)))
    · refine .bind (Q := D.Good false) (.bind (project_ends linked sound flat .raw {})
        fun p t sound _ projected => .pure sound projected.styled.1) fun type t sound _ good => ?_
      dsimp only
      split
      · exact .fault sound.toSafe _
      · exact .read (.docs (.pure sound (.constant rfl rfl good)))

end

end Bindings
