import Mathlib.Data.List.Basic
import Bindings.Proofs.Generation.Plans

/-!
# Two passes over the parameters

An overload is drafted in two passes: first the parameters are removed whose values spans tell, then each of
the others gets its plan. Each parameter is entered in one of the passes, in the slot at its position. So no
slot is left unset, and the overload is the one that a single pass makes.
-/

namespace Bindings
open Bindings.Metadata

variable {env : Environment} {links : Links} {f : Function}

/-! ## One pass -/

/-- The overload that the outcomes for the parameters and the guard of the result make, unless
    nothing changes. It has a name of its own when only the result changes. -/
def assemble (raw : EntryPoint) (outcomes : List ParamOutcome) (guard : Option GuardedHandle) :
    Option Overload :=
  let transforms := outcomes.filterMap (·.transform?)
  if transforms.isEmpty && guard.isNone then none
  else
    let hasResult := !raw.returnType.isVoid
    let call := Statement.rawCall raw.name (outcomes.map (·.argument))
      (if hasResult then some resultLocal else none)
    some {
      name := if transforms.isEmpty then raw.name ++ "_SafeHandle" else raw.name
      raw
      params := outcomes.filterMap (·.surface?)
      returnType := resultType raw guard
      transforms
      body := outcomes.flatMap (·.checks) ++ outcomes.flatMap (·.before) ++ [call]
        ++ outcomes.flatMap (·.after) ++ returnStatements hasResult guard
      visibility := raw.visibility }

/-! ## Changes in the order of their parameters -/

theorem insertChange_perm (c : ParamTransform) (changes : List ParamTransform) :
    (insertChange c changes).Perm (c :: changes) := by
  induction changes with
  | nil => exact .refl _
  | cons d rest ih =>
    unfold insertChange
    split
    · exact .refl _
    · exact (ih.cons d).trans (.swap c d rest)

theorem insertChange_ordered {c : ParamTransform} {changes : List ParamTransform}
    (ordered : changes.Pairwise (·.index ≤ ·.index)) :
    (insertChange c changes).Pairwise (·.index ≤ ·.index) := by
  induction changes with
  | nil => exact List.pairwise_singleton _ _
  | cons d rest ih =>
    obtain ⟨first, later⟩ := List.pairwise_cons.mp ordered
    unfold insertChange
    split
    · next early =>
      refine List.pairwise_cons.mpr ⟨fun e member => ?_, ordered⟩
      rcases List.mem_cons.mp member with rfl | member
      · exact Nat.le_of_lt early
      · exact Nat.le_trans (Nat.le_of_lt early) (first e member)
    · next late =>
      refine List.pairwise_cons.mpr ⟨fun e member => ?_, ih later⟩
      rcases List.mem_cons.mp ((insertChange_perm c rest).mem_iff.mp member) with rfl | member
      · exact Nat.not_lt.mp late
      · exact first e member

/-- Changes are put in order, and none is lost. -/
theorem inParamOrder_sorts (changes : List ParamTransform) :
    (inParamOrder changes).Perm changes ∧ (inParamOrder changes).Pairwise (·.index ≤ ·.index) := by
  have sorts : ∀ changes sorted : List ParamTransform, sorted.Pairwise (·.index ≤ ·.index) →
      (changes.foldl (fun sorted c => insertChange c sorted) sorted).Perm (sorted ++ changes) ∧
        (changes.foldl (fun sorted c => insertChange c sorted) sorted).Pairwise (·.index ≤ ·.index) := by
    intro changes
    induction changes with
    | nil => exact fun sorted ordered => ⟨by simp, ordered⟩
    | cons c rest ih =>
      intro sorted ordered
      obtain ⟨perm, inOrder⟩ := ih _ (insertChange_ordered (c := c) ordered)
      refine ⟨perm.trans ?_, inOrder⟩
      exact ((insertChange_perm c sorted).append_right rest).trans List.perm_middle.symm
  simpa [inParamOrder] using sorts changes [] .nil

/-- Changes of different parameters are put in the order that they have elsewhere. -/
theorem inParamOrder_eq {changes ordered : List ParamTransform}
    (ascending : ordered.Pairwise (·.index < ·.index)) (same : changes.Perm ordered) :
    inParamOrder changes = ordered := by
  obtain ⟨perm, sorted⟩ := inParamOrder_sorts changes
  have all := perm.trans same
  refine all.eq_of_pairwise (fun c d inside there le ge => ?_) sorted (ascending.imp Nat.le_of_lt)
  obtain ⟨i, first, rfl⟩ := List.mem_iff_getElem.mp (all.mem_iff.mp inside)
  obtain ⟨j, second, rfl⟩ := List.mem_iff_getElem.mp there
  have rows := List.pairwise_iff_getElem.mp ascending
  rcases Nat.lt_trichotomy i j with before | rfl | after
  · exact absurd (rows i j first second before) (by omega)
  · rfl
  · exact absurd (rows j i second first after) (by omega)

/-! ## Drafts -/

/-- Whether a parameter is removed. -/
def ParamOutcome.isRemoved : ParamOutcome → Bool
  | removed .. => true
  | planned _ => false

namespace Draft
variable {pass : ParamOutcome → Bool} {index : Nat} {outcomes : List ParamOutcome} {draft : Draft}

/-- Enters the outcomes that a pass is for, of the parameters from a position on. -/
def enterAll (pass : ParamOutcome → Bool) : Nat → List ParamOutcome → Draft → Draft
  | _, [], draft => draft
  | index, oc :: rest, draft =>
    enterAll pass (index + 1) rest (if pass oc then draft.enter index oc else draft)

/-- What a pass adds to a part of a draft comes from the outcomes that the pass is for. -/
theorem enterAll_part {β : Type} {part : Draft → List β} {own : ParamOutcome → List β}
    (enters : ∀ draft index oc, part (enter draft index oc) = part draft ++ own oc) :
    part (enterAll pass index outcomes draft) = part draft ++ (outcomes.filter pass).flatMap own := by
  induction outcomes generalizing index draft with
  | nil => simp [enterAll]
  | cons oc rest ih =>
    rw [enterAll, ih]
    by_cases entered : pass oc = true
    · simp [entered, enters]
    · simp [entered]

/-- A pass sets the slots of the outcomes that it is for, and no other slot. -/
theorem enterAll_slots {before own after : List (Option CallArgument)}
    (slots : draft.slots = before ++ own ++ after) (here : before.length = index)
    (complete : own.length = outcomes.length) :
    (enterAll pass index outcomes draft).slots = before ++
      List.zipWith (fun oc slot => if pass oc then some oc.argument else slot) outcomes own ++ after := by
  induction outcomes generalizing index draft before own with
  | nil =>
    obtain rfl := List.eq_nil_of_length_eq_zero complete
    exact slots
  | cons oc rest ih =>
    obtain ⟨slot, own, rfl⟩ := List.exists_cons_of_length_eq_add_one complete
    have entered : (if pass oc then draft.enter index oc else draft).slots =
        (before ++ [if pass oc then some oc.argument else slot]) ++ own ++ after := by
      split
      · subst here
        simp [enter, slots]
      · simp [slots]
    rw [enterAll, ih entered (by simp [here]) (Nat.succ.inj complete)]
    simp

/-- A draft after both passes. -/
def both (count : Nat) (outcomes : List ParamOutcome) : Draft :=
  enterAll (!·.isRemoved) 0 outcomes (enterAll (·.isRemoved) 0 outcomes { slots := .replicate count none })

/-- After both passes the slot of each parameter is set, to what becomes of the parameter. -/
theorem both_slots {count : Nat} (fits : outcomes.length ≤ count) :
    (both count outcomes).slots =
      outcomes.map (some ·.argument) ++ List.replicate (count - outcomes.length) none := by
  have blank : List.replicate count (none : Option CallArgument) =
      [] ++ List.replicate outcomes.length none ++ List.replicate (count - outcomes.length) none := by
    simp [Nat.add_sub_cancel' fits]
  have first : (enterAll (·.isRemoved) 0 outcomes { slots := .replicate count none }).slots = _ :=
    enterAll_slots blank rfl (by simp)
  have second : (both count outcomes).slots = _ := enterAll_slots first rfl (by simp)
  rw [second, List.nil_append, List.append_left_inj]
  clear fits blank first second
  induction outcomes with
  | nil => rfl
  | cons oc rest ih =>
    rw [List.length_cons, List.replicate_succ, List.zipWith_cons_cons, List.zipWith_cons_cons, ih]
    cases oc <;> rfl

theorem both_arguments {count : Nat} (fits : outcomes.length ≤ count) :
    (both count outcomes).slots.filterMap id = outcomes.map (·.argument) := by
  have given : ∀ outcomes : List ParamOutcome,
      (outcomes.map (some ·.argument)).filterMap id = outcomes.map (·.argument) := by
    intro outcomes
    rw [List.filterMap_map]
    exact congrFun List.filterMap_eq_map outcomes
  rw [both_slots fits, List.filterMap_append, given]
  simp

/-- A part that only some of the outcomes add to has it from them in their order. -/
theorem flatMap_filter_of_nil {α β : Type} {xs : List α} {kept : α → Bool} {g h : α → List β}
    (each : ∀ x, h x = if kept x then g x else []) : (xs.filter kept).flatMap g = xs.flatMap h := by
  induction xs with
  | nil => rfl
  | cons x xs ih =>
    rw [List.flatMap_cons, each, ← ih]
    cases keeps : kept x <;> simp [keeps]

/-- What both passes add to a part of a draft: first what outcomes of removed parameters add, and then what
    the others add. -/
theorem both_part {β : Type} (count : Nat) (outcomes : List ParamOutcome) (part : Draft → List β)
    {own removed planned : ParamOutcome → List β} (blank : part { slots := .replicate count none } = [])
    (enters : ∀ draft index oc, part (enter draft index oc) = part draft ++ own oc)
    (first : ∀ oc, removed oc = if oc.isRemoved then own oc else [])
    (second : ∀ oc, planned oc = if !oc.isRemoved then own oc else []) :
    part (both count outcomes) = outcomes.flatMap removed ++ outcomes.flatMap planned := by
  rw [both, enterAll_part enters, enterAll_part enters, blank, List.nil_append,
    flatMap_filter_of_nil first, flatMap_filter_of_nil second]

theorem both_params (count : Nat) (outcomes : List ParamOutcome) :
    (both count outcomes).params = outcomes.filterMap (·.surface?) := by
  have added : (both count outcomes).params =
      (outcomes.flatMap fun _ => []) ++ outcomes.flatMap (·.surface?.toList) :=
    both_part count outcomes (·.params) rfl (fun _ _ _ => rfl) (by rintro (_ | _) <;> rfl)
      (by rintro (_ | _) <;> rfl)
  rw [added, List.filterMap_eq_flatMap_toList]
  simp

theorem both_before (count : Nat) (outcomes : List ParamOutcome) :
    (both count outcomes).before = outcomes.flatMap (·.checks) ++ outcomes.flatMap (·.before) := by
  have enters : ∀ (draft : Draft) index oc, (draft.enter index oc).before =
      draft.before ++ (oc.checks ++ oc.before) := fun _ _ _ => List.append_assoc ..
  refine both_part count outcomes (·.before) rfl enters ?_ ?_
  · rintro (_ | _) <;> simp [ParamOutcome.isRemoved, ParamOutcome.checks, ParamOutcome.before]
  · rintro (_ | _) <;> simp [ParamOutcome.isRemoved, ParamOutcome.checks, ParamOutcome.before]

theorem both_after (count : Nat) (outcomes : List ParamOutcome) :
    (both count outcomes).after = outcomes.flatMap (·.after) := by
  have added : (both count outcomes).after = (outcomes.flatMap fun _ => []) ++ outcomes.flatMap (·.after) :=
    both_part count outcomes (·.after) rfl (fun _ _ _ => rfl) (by rintro (_ | _) <;> rfl)
      (by rintro (_ | _) <;> rfl)
  rw [added]
  simp

/-- Each pass notes the changes to its own parameters, so that together they note all. -/
theorem both_transforms (count : Nat) (outcomes : List ParamOutcome) :
    (both count outcomes).transforms.Perm (outcomes.filterMap (·.transform?)) := by
  have noted : (both count outcomes).transforms = (outcomes.filter (·.isRemoved)).filterMap (·.transform?) ++
      (outcomes.filter (!·.isRemoved)).filterMap (·.transform?) := by
    have enters : ∀ (draft : Draft) index oc,
        (draft.enter index oc).transforms = draft.transforms ++ oc.transform?.toList := fun _ _ _ => rfl
    rw [both, enterAll_part enters, enterAll_part enters, List.filterMap_eq_flatMap_toList,
      List.filterMap_eq_flatMap_toList]
    rfl
  rw [noted, ← List.filterMap_append]
  exact (List.filter_append_perm _ outcomes).filterMap _

/-- The overload of a draft after both passes is the one that a single pass makes, if each change is noted of
    the parameter at its position. -/
theorem both_finish {count : Nat} (fits : outcomes.length ≤ count)
    (noted : (outcomes.filterMap (·.transform?)).Pairwise (·.index < ·.index)) (raw : EntryPoint)
    (guard : Option GuardedHandle) : (both count outcomes).finish raw guard = assemble raw outcomes guard := by
  have transforms := both_transforms count outcomes
  have same : (both count outcomes).transforms.isEmpty = (outcomes.filterMap (·.transform?)).isEmpty :=
    transforms.isEmpty_eq
  unfold finish assemble
  simp only [same, both_arguments fits, both_params, both_before, both_after,
    inParamOrder_eq noted transforms]

end Draft

/-! ## The passes that are run -/

/-- The first pass enters the outcomes of the parameters that are removed. -/
theorem removeParams_gives (counted : List (Nat × Nat)) (index : Nat) (params : List (Param × ParamDecl)) :
    Gen.Gives env (paramOutcomes links f counted index params) fun outcomes =>
      ∀ draft, removeParams f counted index params draft = .enterAll (·.isRemoved) index outcomes draft := by
  induction params generalizing index with
  | nil => exact .pure fun _ => rfl
  | cons x params ih =>
    obtain ⟨p, r⟩ := x
    unfold paramOutcomes removeParams
    dsimp only
    cases spans : spansOf counted index with
    | nil =>
      have kept : Gen.Gives env (ParamOutcome.planned <$> planParam links f counted index p r)
          fun oc => oc.isRemoved = false := (Judgement.all env).map fun _ _ _ _ => rfl
      refine .bind kept fun oc kept => .bind (ih (index + 1)) fun outcomes rest => .pure fun draft => ?_
      rw [rest, Draft.enterAll, kept]
      rfl
    | cons span others =>
      refine .bind (.pure rfl) fun oc same => .bind (ih (index + 1)) fun outcomes rest => .pure fun draft => ?_
      subst same
      exact rest _

/-- The second pass enters the outcomes of the other parameters. -/
theorem planParams_eq (counted : List (Nat × Nat)) (index : Nat) (params : List (Param × ParamDecl))
    (draft : Draft) : planParams links f counted index params draft =
      (Draft.enterAll (!·.isRemoved) index · draft) <$> paramOutcomes links f counted index params := by
  induction params generalizing index draft with
  | nil => rfl
  | cons x params ih =>
    obtain ⟨p, r⟩ := x
    unfold paramOutcomes planParams
    dsimp only
    cases spans : spansOf counted index with
    | nil => simp [ih, Draft.enterAll, ParamOutcome.isRemoved]
    | cons span others => simp [ih, Draft.enterAll, ParamOutcome.isRemoved, removedParam]

theorem ParamPlan.Arises.noted {Wraps : NativeType → Option GuardedHandle → Prop} {index : Nat} {p : Param}
    {r : ParamDecl} {count : Option Nat} {plan : ParamPlan} (arises : plan.Arises Wraps index p r count)
    {t : ParamTransform} (noted : plan.transform = some t) : t.index = index := by
  cases arises <;> cases noted <;> rfl

/-- A change is noted of the parameter at the position. -/
theorem ParamOutcome.Arises.noted {Wraps : NativeType → Option GuardedHandle → Prop}
    {counted : List (Nat × Nat)} {index : Nat} {p : Param} {r : ParamDecl} {oc : ParamOutcome}
    (arises : oc.Arises Wraps f counted index p r) {t : ParamTransform} (noted : oc.transform? = some t) :
    t.index = index := by
  cases arises with
  | removed some =>
    cases noted
    rfl
  | planned none arises => exact arises.noted noted

/-- Changes that are noted at positions of their own are in the order of the positions. -/
theorem noted_ascending {outcomes : List ParamOutcome} (noted : ∀ (i : Nat) (oc : ParamOutcome) t,
    outcomes[i]? = some oc → oc.transform? = some t → t.index = i) :
    (outcomes.filterMap (·.transform?)).Pairwise (·.index < ·.index) := by
  rw [List.pairwise_filterMap, List.pairwise_iff_getElem]
  intro i j first second before t own u other
  rw [noted i _ t (List.getElem?_eq_getElem first) own, noted j _ u (List.getElem?_eq_getElem second) other]
  exact before

/-- What is drafted in two passes is the draft of what becomes of each parameter. -/
theorem draftParams_eq (links : Links) (f : Function) (raw : EntryPoint) : draftParams links f raw =
    Draft.both f.params.length <$> paramOutcomes links f (countedParams f raw) 0 (f.params.zip raw.params) := by
  funext env s
  have removed : Gen.Gives env (paramOutcomes links f _ 0 _) _ :=
    removeParams_gives (countedParams f raw) 0 (f.params.zip raw.params)
  rw [draftParams, planParams_eq, map_eq_pure_bind, map_eq_pure_bind, Gen.bind_eq, Gen.bind_eq]
  cases ended : paramOutcomes links f (countedParams f raw) 0 (f.params.zip raw.params) env s with
  | error e t => rfl
  | ok outcomes t =>
    dsimp only
    rw [removed s outcomes t ended, Draft.both]

/-! ## Outcomes for all parameters -/

/-- There is an outcome for each parameter, at its position. -/
structure Outcomes (Wraps : NativeType → Option GuardedHandle → Prop) (f : Function) (raw : EntryPoint)
    (outcomes : List ParamOutcome) : Prop where
  complete : (f.params.zip raw.params).length = outcomes.length
  each : ∀ (i : Nat) (oc : ParamOutcome), outcomes[i]? = some oc →
    ∃ p r, f.params[i]? = some p ∧ raw.params[i]? = some r ∧
      oc.Arises Wraps f (countedParams f raw) i p r

section
variable {Wraps : NativeType → Option GuardedHandle → Prop} {raw : EntryPoint}

/-- In both passes together, each parameter is entered at its position. -/
theorem Outcomes.finish {outcomes : List ParamOutcome} (arise : Outcomes Wraps f raw outcomes)
    (guard : Option GuardedHandle) :
    (Draft.both f.params.length outcomes).finish raw guard = assemble raw outcomes guard := by
  have fits : outcomes.length ≤ f.params.length := by
    rw [← arise.complete, List.length_zip]
    omega
  have ascending : (outcomes.filterMap (·.transform?)).Pairwise (·.index < ·.index) := by
    refine noted_ascending fun i oc t there noted => ?_
    obtain ⟨_, _, -, -, own⟩ := arise.each i oc there
    exact own.noted noted
  exact Draft.both_finish fits ascending raw guard

variable {J : Judgement env} (wraps : ∀ type, J.Tells (handleFor links type f) (Wraps type))
include wraps

theorem paramOutcomes_tells :
    J.Tells (paramOutcomes links f (countedParams f raw) 0 (f.params.zip raw.params))
      (Outcomes Wraps f raw) := by
  refine J.imp (paramOutcomes_arise _ wraps _ 0 _) fun outcomes arise => ⟨arise.1, fun i oc there => ?_⟩
  obtain ⟨inside, -⟩ := List.getElem?_eq_some_iff.mp there
  have pair := List.getElem?_eq_getElem (arise.1 ▸ inside)
  obtain ⟨param, declared⟩ := List.getElem?_zip_eq_some.mp pair
  have own := arise.2 i _ oc pair there
  rw [Nat.zero_add] at own
  exact ⟨_, _, param, declared, own⟩

/-- What is drafted is finished as the outcomes for the parameters are put together in a single pass. -/
theorem draftParams_outcomes : J.Tells (draftParams links f raw) fun draft =>
    ∃ outcomes, Outcomes Wraps f raw outcomes ∧
      ∀ guard, draft.finish raw guard = assemble raw outcomes guard := by
  rw [draftParams_eq]
  exact J.map (J.imp (paramOutcomes_tells wraps) fun outcomes arise => ⟨outcomes, arise, arise.finish⟩)

end

/-- The overload of an entry point is the one that a single pass over the parameters makes. -/
theorem overload?_eq (links : Links) (raw : EntryPoint) (f : Function) : overload? links raw f = do
    let outcomes ← paramOutcomes links f (countedParams f raw) 0 (f.params.zip raw.params)
    let guard ← handleFor links f.returns f
    return assemble raw outcomes guard := by
  funext env s
  have arise : Gen.Gives env (paramOutcomes links f _ 0 _) (Outcomes (fun _ _ => True) f raw) :=
    paramOutcomes_tells (J := .all env) fun _ _ _ _ _ => trivial
  rw [overload?, Gen.bind_eq, draftParams_eq, map_eq_pure_bind, Gen.bind_eq, Gen.bind_eq]
  cases ended : paramOutcomes links f (countedParams f raw) 0 (f.params.zip raw.params) env s with
  | error e t => rfl
  | ok outcomes t =>
    change ((handleFor links f.returns f) >>= fun guard =>
      pure ((Draft.both f.params.length outcomes).finish raw guard) : Gen (Option Overload)) env t = _
    simp only [(arise s outcomes t ended).finish]

/-! ## Overloads -/

/-- An overload is put together from the outcomes for the parameters and from what was found for the result. -/
structure Overload.Arises (Wraps : NativeType → Option GuardedHandle → Prop) (f : Function)
    (raw : EntryPoint) (outcomes : List ParamOutcome) (guard : Option GuardedHandle) (o : Overload) :
    Prop extends Outcomes Wraps f raw outcomes where
  guarded : Wraps f.returns guard
  made : assemble raw outcomes guard = some o

theorem overload?_arises {Wraps : NativeType → Option GuardedHandle → Prop} {J : Judgement env}
    {raw : EntryPoint} (wraps : ∀ type, J.Tells (handleFor links type f) (Wraps type)) :
    J.Tells (overload? links raw f) fun found => ∀ o, found = some o →
      ∃ outcomes guard, o.Arises Wraps f raw outcomes guard := by
  refine J.bind (draftParams_outcomes wraps) fun draft drafted => ?_
  obtain ⟨outcomes, arise, finish⟩ := drafted
  refine J.bind (wraps f.returns) fun guard guarded => J.pure fun o made => ?_
  exact ⟨outcomes, guard, arise, guarded, (finish guard).symm.trans made⟩

end Bindings
