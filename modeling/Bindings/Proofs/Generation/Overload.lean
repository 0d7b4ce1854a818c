import Bindings.Proofs.Generation.Passes
import Bindings.Proofs.Generation.Projection

/-!
# Types in overloads

The types that an overload adds are made from those of its entry point, or are guarded handles
that were asked for.
-/

namespace Bindings
open Bindings.Metadata

variable {env : Environment} {D : Discipline env} {s t : State}

/-! ## Outcomes -/

/-- The types in what becomes of a parameter are good, and its statements hold none. -/
structure Discipline.FitsOutcome (D : Discipline env) (s : State) (o : ParamOutcome) : Prop where
  argument : ∀ type ∈ o.argument.types, D.Good true type s
  transform : ∀ change type, o.transform? = some change → change.newType = some type →
    D.Good true type s
  surface : ∀ p, o.surface? = some p → D.Good true p.type s
  statements : ∀ x ∈ o.checks ++ o.before ++ o.after, x.types = []

theorem Discipline.FitsOutcome.carries {o : ParamOutcome} (fits : D.FitsOutcome s o)
    (later : Carries s t) : D.FitsOutcome t o where
  argument type member := D.good_carries (fits.argument type member) later
  transform change type is has := D.good_carries (fits.transform change type is has) later
  surface p is := D.good_carries (fits.surface p is) later
  statements := fits.statements

/-- A parameter that passes through fits. -/
theorem fits_passing {raw : ParamDecl} (good : D.Good true raw.type s) :
    D.FitsOutcome s (.planned (.passing raw)) where
  argument := by simp [ParamOutcome.argument, ParamPlan.passing, CallArgument.types]
  transform := by simp [ParamOutcome.transform?, ParamPlan.passing]
  surface p is := by
    cases is
    exact good
  statements := by simp [ParamOutcome.checks, ParamOutcome.before, ParamOutcome.after, ParamPlan.passing]

/-- A parameter of a new type fits, if its argument is cast to nothing but the type it had. -/
theorem fits_changed {plan : ParamPlan} {raw type : TargetType} {change : ParamTransform}
    (good : D.Good true raw s) (new : D.Good true type s) (argument : ∀ t ∈ plan.argument.types, t = raw)
    (transform : plan.transform = some change) (becomes : change.newType = some type)
    (surface : plan.surface.type = type) (statements : ∀ x ∈ plan.before ++ plan.after, x.types = []) :
    D.FitsOutcome s (.planned plan) where
  argument t member := argument t member ▸ good
  transform other t is has := by
    rw [ParamOutcome.transform?, transform] at is
    cases is
    rw [becomes] at has
    cases has
    exact new
  surface p is := by
    cases is
    rw [surface]
    exact new
  statements := by simpa [ParamOutcome.checks, ParamOutcome.before, ParamOutcome.after] using statements

theorem good_spanElement {type : TargetType} (good : D.Good true type s) :
    D.Good true (spanElement type) s := by
  unfold spanElement
  split
  · split
    · exact D.good_word _ _ s
    · exact D.good_pointer.mp good
  · split
    · exact D.good_word _ _ s
    · exact good

theorem fits_countedSpan {raw : ParamDecl} (good : D.Good true raw.type s) (index : Nat) (p : Param)
    (count : Int) : D.FitsOutcome s (.planned (countedSpanPlan index p raw count)) :=
  fits_changed good (D.good_span (good_spanElement good))
    (by simp [countedSpanPlan, CallArgument.types]) rfl rfl rfl
    (by simp [countedSpanPlan, Statement.types])

theorem fits_fixedSpan {raw : ParamDecl} (good : D.Good true raw.type s) (index : Nat) (p : Param)
    (length : Int) : D.FitsOutcome s (.planned (fixedSpanPlan index p raw length)) :=
  fits_changed good (D.good_span (good_spanElement good))
    (by simp [fixedSpanPlan, CallArgument.types]) rfl rfl rfl
    (by simp [fixedSpanPlan, Statement.types])

theorem fits_handle {raw : ParamDecl} (good : D.Good true raw.type s) {handle : GuardedHandle}
    (wrapper : D.Good true (.named ⟨handle.space, handle.name⟩) s) (index : Nat) (p : Param) :
    D.FitsOutcome s (.planned (handlePlan index p raw handle)) :=
  fits_changed good wrapper (by simp [handlePlan, CallArgument.types]) rfl rfl rfl
    (by simp [handlePlan, Statement.types])

theorem fits_handleOut {raw : ParamDecl} (good : D.Good true raw.type s) {handle : GuardedHandle}
    (wrapper : D.Good true (.named ⟨handle.space, handle.name⟩) s) (index : Nat) (p : Param) :
    D.FitsOutcome s (.planned (handleOutPlan index p handle)) :=
  fits_changed good wrapper (by simp [handleOutPlan, CallArgument.types]) rfl rfl rfl
    (by simp [handleOutPlan, Statement.types])

theorem fits_text {raw : ParamDecl} (good : D.Good true raw.type s) (index : Nat) (p : Param)
    (wide : Bool) : D.FitsOutcome s (.planned (textPlan index p raw wide)) :=
  fits_changed good (D.good_word _ _ s) (by simp [textPlan, CallArgument.types]) rfl rfl rfl
    (by simp [textPlan, Statement.types])

theorem fits_reference {raw : ParamDecl} {element : TargetType} (good : D.Good true raw.type s)
    (new : D.Good true element s) (index : Nat) (p : Param) (modifier : Modifier) :
    D.FitsOutcome s (.planned (referencePlan index p raw element modifier)) :=
  fits_changed good new (by simp [referencePlan, CallArgument.types]) rfl rfl rfl
    (by simp [referencePlan, Statement.types])

theorem fits_nullable {raw : ParamDecl} {element : TargetType} (good : D.Good true raw.type s)
    (new : D.Good true element s) (index : Nat) (p : Param) :
    D.FitsOutcome s (.planned (nullablePlan index p raw element)) :=
  fits_changed good (D.good_nullable new) (by simp [nullablePlan, CallArgument.types]) rfl rfl rfl
    (by simp [nullablePlan, Statement.types])

theorem fits_removed {raw : ParamDecl} (good : D.Good true raw.type s) (function : Function)
    (index : Nat) (p : Param) (spans : List Nat) :
    D.FitsOutcome s (removedParam function index p raw spans) where
  argument := by simpa [removedParam, ParamOutcome.argument, CallArgument.types] using good
  transform change type is has := by
    cases is
    cases has
  surface := by simp [removedParam, ParamOutcome.surface?]
  statements := by
    intro x member
    simp only [removedParam, ParamOutcome.checks, ParamOutcome.before, ParamOutcome.after,
      List.append_nil] at member
    split at member
    · rw [List.mem_singleton.mp member]
      rfl
    · cases member

/-! ## Handles -/

section
variable {links : Links} (linked : LinksSound D links)
include linked

theorem guardedHandle_ends (sound : D.Sound s) (releaseName : String) :
    D.Ends s (links.guardedHandle releaseName) fun found t => ∀ handle, found = some handle →
      D.Good true (.named ⟨handle.space, handle.name⟩) t := by
  unfold Links.guardedHandle
  refine .read ?_
  split
  · exact .nothing sound
  · refine .bind (guardedHandle?_ends sound releaseName) fun found t sound _ backed => ?_
    split
    · exact .nothing sound
    · next handle =>
      refine .bind (linked.demand t (.guardedHandle handle) sound (backed handle rfl))
        fun _ u sound _ known => .pure sound fun other same => ?_
      cases same
      exact D.good_entity known rfl nofun

theorem handleFor_ends (sound : D.Sound s) (type : NativeType) (function : Function) :
    D.Ends s (handleFor links type function) fun found t => ∀ handle, found = some handle →
      D.Good true (.named ⟨handle.space, handle.name⟩) t := by
  unfold handleFor
  split
  · refine .bind (resolve_ends sound _) fun found t sound _ _ => ?_
    split
    · exact .nothing sound
    · refine .read ?_
      split
      · exact .nothing sound
      · split
        · exact .nothing sound
        · exact guardedHandle_ends linked sound _
  · exact .nothing sound

theorem handleIn_ends (sound : D.Sound s) (p : Param) (function : Function) :
    D.Ends s (handleIn links p function) fun found t => ∀ handle, found = some handle →
      D.Good true (.named ⟨handle.space, handle.name⟩) t := by
  unfold handleIn
  split
  · exact .nothing sound
  · exact handleFor_ends linked sound _ _

theorem handleOut_ends (sound : D.Sound s) (p : Param) (raw : ParamDecl) (function : Function) :
    D.Ends s (handleOut links p raw function) fun found t => ∀ handle, found = some handle →
      D.Good true (.named ⟨handle.space, handle.name⟩) t := by
  unfold handleOut
  split
  · split
    · exact handleFor_ends linked sound _ _
    · exact .nothing sound
  · exact .nothing sound

/-! ## Plans -/

omit linked in
theorem planReference_ends (sound : D.Sound s) (index : Nat) (p : Param) {raw : ParamDecl}
    (good : D.Good true raw.type s) :
    D.Ends s (planReference index p raw) fun plan t => ∀ chosen, plan = some chosen →
      D.FitsOutcome t (.planned chosen) := by
  unfold planReference
  split
  · next element _ pointed _ =>
    have new : D.Good true element s := by
      rw [pointed] at good
      exact D.good_pointer.mp good
    refine .bind (.steady (isValueType_steady _) sound (Q := fun _ _ => True)
      fun _ _ => trivial) fun isValue t sound grown _ => ?_
    have good := D.good_carries good grown.carries
    have new := D.good_carries new grown.carries
    split
    · exact .nothing sound
    · split
      · refine .pure sound fun chosen same => ?_
        obtain ⟨modifier, _, rfl⟩ := Option.map_eq_some_iff.mp same
        exact fits_reference good new index p modifier
      · split
        · refine .pure sound fun chosen same => ?_
          obtain rfl := Option.some.inj same
          exact fits_nullable good new index p
        · exact .nothing sound
  · exact .nothing sound

theorem planPlain_ends (sound : D.Sound s) (index : Nat) (p : Param) {raw : ParamDecl}
    (good : D.Good true raw.type s) (function : Function) :
    D.Ends s (planPlain links index p raw function) fun plan t => D.FitsOutcome t (.planned plan) := by
  unfold planPlain
  split
  · next length _ => exact .pure sound (fits_fixedSpan good index p length)
  · refine .bind (handleIn_ends linked sound p function) fun found t sound grown wrapper => ?_
    have good := D.good_carries good grown.carries
    split
    · next handle => exact .pure sound (fits_handle good (wrapper handle rfl) index p)
    · refine .bind (handleOut_ends linked sound p raw function) fun found u sound grown wrapper => ?_
      have good := D.good_carries good grown.carries
      split
      · next handle => exact .pure sound (fits_handleOut good (wrapper handle rfl) index p)
      · split
        · next wide _ => exact .pure sound (fits_text good index p wide)
        · refine .bind (planReference_ends sound index p good) fun plan v sound grown fits => ?_
          refine .pure sound ?_
          cases plan with
          | none => exact fits_passing (D.good_carries good grown.carries)
          | some chosen => exact fits chosen rfl

theorem paramOutcomes_ends (sound : D.Sound s) (function : Function) (counted : List (Nat × Nat))
    (index : Nat) (params : List (Param × ParamDecl))
    (good : ∀ p ∈ params, D.Good true p.2.type s) :
    D.Ends s (paramOutcomes links function counted index params) fun outcomes t =>
      ∀ o ∈ outcomes, D.FitsOutcome t o := by
  induction params generalizing s index with
  | nil => exact .pure sound (by simp)
  | cons first rest ih =>
    obtain ⟨p, raw⟩ := first
    have goodRaw := good (p, raw) (by simp)
    have others : ∀ outcome t, D.Sound t → D.Grows s t → D.FitsOutcome t outcome →
        D.Ends t (do return outcome :: (← paramOutcomes links function counted (index + 1) rest))
          fun outcomes u => ∀ o ∈ outcomes, D.FitsOutcome u o := by
      intro outcome t sound grown fits
      refine .bind (ih sound (index + 1) fun q member => ?_) fun outcomes u sound grown all => ?_
      · exact D.good_carries (good q (List.mem_cons_of_mem _ member)) grown.carries
      · refine .pure sound fun o member => ?_
        rcases List.mem_cons.mp member with rfl | later
        · exact fits.carries grown.carries
        · exact all o later
    unfold paramOutcomes
    dsimp only
    split
    · refine .bind (.bind ?_ fun plan t sound _ fits =>
        .pure sound (Q := fun o u => D.FitsOutcome u o) fits) others
      unfold planParam
      split
      · exact .pure sound (fits_countedSpan goodRaw index p _)
      · exact planPlain_ends linked sound index p goodRaw function
    · exact .bind (.pure sound (fits_removed goodRaw function index p _)) others

end

/-! ## Overloads -/

theorem returnStatements_types (hasResult : Bool) (guard : Option GuardedHandle) :
    ∀ x ∈ returnStatements hasResult guard, x.types = [] := by
  intro x member
  unfold returnStatements at member
  split at member
  · simp only [List.mem_cons, List.not_mem_nil, or_false] at member
    rcases member with rfl | rfl <;> rfl
  · split at member
    · rw [List.mem_singleton.mp member]
      rfl
    · cases member

/-- The types in the body of an overload are those that the arguments of the call are cast to. -/
theorem body_types (outcomes : List ParamOutcome)
    (quiet : ∀ o ∈ outcomes, ∀ x ∈ o.checks ++ o.before ++ o.after, x.types = [])
    (name : String) (result : Option String) (hasResult : Bool) (guard : Option GuardedHandle) :
    (outcomes.flatMap (·.checks) ++ outcomes.flatMap (·.before)
      ++ [Statement.rawCall name (outcomes.map (·.argument)) result]
      ++ outcomes.flatMap (·.after) ++ returnStatements hasResult guard).flatMap (·.types) =
      outcomes.flatMap (·.argument.types) := by
  have silent : ∀ f : ParamOutcome → List Statement,
      (∀ o ∈ outcomes, ∀ x ∈ f o, x ∈ o.checks ++ o.before ++ o.after) →
      (outcomes.flatMap f).flatMap (·.types) = [] := by
    intro f part
    refine List.flatMap_eq_nil_iff.mpr fun x member => ?_
    obtain ⟨o, there, held⟩ := List.mem_flatMap.mp member
    exact quiet o there x (part o there x held)
  have ending : (returnStatements hasResult guard).flatMap (·.types) = [] :=
    List.flatMap_eq_nil_iff.mpr (returnStatements_types hasResult guard)
  rw [List.flatMap_append, List.flatMap_append, List.flatMap_append, List.flatMap_append,
    silent (·.checks) (by simp +contextual), silent (·.before) (by simp +contextual),
    silent (·.after) (by simp +contextual), ending]
  simp [Statement.types, List.flatMap_map]

theorem fits_assemble {f : Function} {raw : EntryPoint} (fits : D.FitsFunction s f raw)
    {outcomes : List ParamOutcome} (each : ∀ o ∈ outcomes, D.FitsOutcome s o)
    {guard : Option GuardedHandle}
    (wrapper : ∀ handle, guard = some handle → D.Good true (.named ⟨handle.space, handle.name⟩) s)
    {o : Overload} (made : assemble raw outcomes guard = some o) : D.Fits s (.function f) (.overload o) := by
  unfold assemble at made
  dsimp only at made
  split at made
  · cases made
  · obtain rfl := Option.some.inj made
    refine .overload fits fun type member => ?_
    rw [Overload.types, body_types outcomes fun o there => (each o there).statements] at member
    rcases List.mem_cons.mp member with rfl | member
    · cases guard with
      | some handle => exact wrapper handle rfl
      | none => exact D.good_true fits.returns.1
    · rcases List.mem_append.mp member with member | member
      · rcases List.mem_append.mp member with member | member
        · obtain ⟨p, there, rfl⟩ := List.mem_map.mp member
          obtain ⟨o, held, is⟩ := List.mem_filterMap.mp there
          exact (each o held).surface p is
        · obtain ⟨change, there, has⟩ := List.mem_filterMap.mp member
          obtain ⟨o, held, is⟩ := List.mem_filterMap.mp there
          exact (each o held).transform change type is has
      · obtain ⟨o, held, cast⟩ := List.mem_flatMap.mp member
        exact (each o held).argument type cast

theorem overload?_ends {links : Links} (linked : LinksSound D links) (sound : D.Sound s)
    {f : Function} {raw : EntryPoint} (fits : D.FitsFunction s f raw) :
    D.Ends s (overload? links raw f) fun made t => ∀ o, made = some o →
      D.Fits t (.function f) (.overload o) := by
  rw [overload?_eq]
  refine .bind (paramOutcomes_ends linked sound f _ 0 _ fun p member => ?_)
    fun outcomes t sound grown each => ?_
  · exact D.good_true (fits.params p.2 (List.of_mem_zip member).2).1
  · refine .bind (handleFor_ends linked sound f.returns f) fun guard u sound grown' wrapper => ?_
    refine .pure sound fun o made => ?_
    exact fits_assemble (fits.carries (grown.carries.trans grown'.carries))
      (fun o there => (each o there).carries grown'.carries) wrapper made

end Bindings
