import Bindings.Proofs.Generation.Interfaces

/-!
# Entities covered

For each sort of entity, the declarations that are made for it once it has been asked for cover
it, whatever further entities the links have to bring in.
-/

namespace Bindings
open Bindings.Metadata

variable {env : Environment} {D : Discipline env} {s t : State}

/-! ## Names -/

theorem groupsOf_ends (sound : D.Sound s) (name : String) :
    D.Ends s (groupsOf name) fun groups _ => ∀ c ∈ groups, Offers env c :=
  .steady (groupsOf_constant name) sound fun _ always => groupsOf_offers (always s)

section
variable {links : Links} (linked : LinksSound D links)
include linked

theorem candidate_ends (sound : D.Sound s) {c : Candidate}
    (listed : ∀ d, select (·.architectures) c.2 env.options.platformName? c.1 = .ok d → D.Listed d) :
    D.Ends s (links.candidate c) fun _ _ => True := by
  unfold Links.candidate
  refine .platform (.bind (.ofSelection sound (Q := fun chosen _ => D.Listed chosen)
    listed) fun chosen t sound _ listed => ?_)
  refine (linked.demand t (.ofDefinition chosen) sound ?_).imp fun _ _ _ _ => trivial
  cases chosen with
  | function f => exact listed
  | type d => exact ⟨listed, nofun⟩
  | constant c => exact listed

theorem name_ends (sound : D.Sound s) (name : String) :
    D.Ends s (links.name name) fun _ _ => True := by
  unfold Links.name
  refine .bind (groupsOf_ends sound name) fun groups t sound _ offered => ?_
  split
  · refine .read ?_
    split
    · exact .pure sound trivial
    · next template _ =>
      exact .bind (linked.demand t (.template template) sound trivial) fun _ u sound _ _ =>
        .pure sound trivial
  · refine .bind (Discipline.Ends.forM groups (R := fun _ _ => True) (fun _ _ _ _ _ => trivial)
      (fun c member u sound _ => candidate_ends linked sound fun _ => D.listed_chosen (offered c member))
      sound)
      fun _ u sound _ _ => .pure sound trivial

/-! ## Types -/

theorem typeDecl_ends (sound : D.Sound s) {d : TypeDefinition} {unmanaged : Bool}
    (asked : D.Asks s (.type d unmanaged)) (known : s.Knows (Entity.type d unmanaged).key) :
    D.Ends s (typeDecl links d unmanaged) fun decl t => D.Covers t (.type d unmanaged) [decl] := by
  obtain ⟨listed, doubled⟩ := asked
  -- only records and interfaces have a second variant
  have plain : (∀ r, d.shape ≠ .record r) → d.isInterface = false → unmanaged = false := by
    intro noRecord noInterface
    cases unmanaged with
    | false => rfl
    | true =>
      rcases (doubled rfl).2 with ⟨⟨r, shape⟩, _⟩ | ⟨shape, _⟩
      · exact absurd shape (noRecord r)
      · rw [noInterface] at shape
        cases shape
  unfold typeDecl
  split
  · next r shape =>
    refine .bind (structDecl_ends linked sound listed shape unmanaged) fun decl t sound _ fits =>
      .pure sound (.single (.struct shape fits) ?_)
    rw [Declaration.declares, Declaration.name, Declaration.space, fits.name, fits.space]
    rfl
  · next base members isFlags shape =>
    obtain rfl := plain (by simp [shape]) (by simp [TypeDefinition.isInterface, shape])
    refine .bind (enumDecl_ends sound shape) fun decl t sound _ fits => .pure sound (.single fits ?_)
    cases fits with
    | enum _ name space _ =>
      rw [Declaration.declares, Declaration.name, Declaration.space, name, space]
      rfl
  · next shape =>
    refine .read ?_
    exact projectedInterface_ends linked sound listed (by simp [TypeDefinition.isInterface, shape])
      known rfl
  · next returns params shape =>
    obtain rfl := plain (by simp [shape]) (by simp [TypeDefinition.isInterface, shape])
    refine .bind (delegateDecl_ends linked sound listed shape) fun decl t sound _ fits =>
      .pure sound (.single fits ?_)
    cases fits with
    | delegate _ name space _ _ =>
      rw [Declaration.declares, Declaration.name, Declaration.space, name, space]
      rfl

/-! ## Handles and templates -/

theorem guardedHandleDecl_ends (sound : D.Sound s) (handle : GuardedHandle) :
    D.Ends s (guardedHandleDecl links handle) fun decl t =>
      D.Covers t (.guardedHandle handle) [decl] := by
  unfold guardedHandleDecl
  refine .read (.platform (.bind (.ofSelection sound (Q := fun release _ =>
    select (·.architectures) (env.index.findFunctions handle.releaseFunction)
      env.options.platformName? handle.releaseFunction = .ok release) fun _ chosen => chosen)
    fun release t sound _ chosen => ?_))
  refine .bind (linked.demand t (.function release) sound (D.listed_release chosen))
    fun _ u sound _ known => .read (.pure sound (.single (.guardedHandle chosen known) rfl))

theorem requireNames_ends (sound : D.Sound s) (template : Template) :
    D.Ends s (requireNames links template) fun _ _ => True := by
  unfold requireNames
  refine (Discipline.Ends.forM _ (R := fun _ _ => True) (fun _ _ _ _ _ => trivial)
    (fun requirement member t sound _ => ?_) sound).imp fun _ _ _ _ => trivial
  refine .bind (name_ends linked sound requirement) fun found u sound _ _ => ?_
  split
  · exact .pure sound trivial
  · exact .fault sound.toSafe _

/-! ## All entities -/

theorem declarationsOf_ends (sound : D.Sound s) {e : Entity} (asked : D.Asks s e)
    (known : s.Knows e.key) :
    D.Ends s (declarationsOf links e) fun ds t => D.Covers t e ds := by
  unfold declarationsOf
  cases e with
  | function f => exact functionDecls_ends linked sound asked
  | type d unmanaged =>
    exact .bind (typeDecl_ends linked sound asked known) fun decl t sound _ covers =>
      .pure sound covers
  | constant c =>
    refine .bind (constantDecl_ends linked sound asked) fun decl t sound _ fits =>
      .pure sound (.single fits ?_)
    cases fits with
    | constant name space _ =>
      rw [Declaration.declares, Declaration.name, Declaration.space, name, space]
      rfl
  | template template =>
    exact .bind (requireNames_ends linked sound template) fun _ t sound _ _ =>
      .pure sound (.single .template rfl)
  | guardedHandle handle =>
    exact .bind (guardedHandleDecl_ends linked sound handle) fun decl t sound _ covers =>
      .pure sound covers
  | inlineArray name element length isChar =>
    exact .read (.pure sound (.single (.inlineArray asked known) rfl))

end

end Bindings
