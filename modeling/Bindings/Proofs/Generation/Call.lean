import Bindings.Proofs.Generation.Comparison
import Bindings.Proofs.Generation.Passes

/-!
# The call in an overload

An overload calls its entry point once, and gives it an argument for each parameter: what the overload
has for that parameter, or the length of a span for one that it does without. The overload is put
together from what becomes of the parameters, in their order.
-/

namespace Bindings
open Bindings.Metadata

variable {env : Environment} {s t : State} {links : Links} {f : Function} {raw : EntryPoint}

/-! ## What an overload does -/

namespace Overload

/-- Whether an overload does without the parameter at a position. -/
def removes (o : Overload) (index : Nat) : Bool :=
  o.transforms.any fun t => t.index = index && t.change.isRemoval

/-- The parameter at a position became a span whose length another one gave. -/
def IsSpan (o : Overload) (index count : Nat) : Prop :=
  ∃ t ∈ o.transforms, t.index = index ∧ t.change = .countedSpan count

/-- The names of the spans whose length the parameter at a position gave. -/
def spanNames (o : Overload) (count : Nat) : List String :=
  (o.transforms.filter (·.change = .countedSpan count)).map (·.param)

/-- The parameters of the entry point that are not removed, with their positions. -/
def survivors (o : Overload) : List (ParamDecl × Nat) := o.raw.params.zipIdx.filter fun p => !o.removes p.2

/-- What the call gets for the parameter at a position: what the overload has for it, or the length of a
    span if the parameter is removed. -/
structure Supplies (o : Overload) (index : Nat) (param : ParamDecl) (argument : CallArgument) : Prop where
  own : o.removes index = false → argument.source = param.name ∧ argument.isLength = false
  length : o.removes index = true → ∃ i span, o.IsSpan i index ∧ o.raw.params[i]? = some span ∧
    argument = .lengthOf span.name param.type

/-- One call among the statements of a body, with all arguments, after the comparison of the spans that
    share a length. -/
structure Calls (o : Overload) (before : List Statement) (arguments : List CallArgument)
    (result : Option String) (after : List Statement) : Prop where
  body : o.body = before ++ .rawCall o.raw.name arguments result :: after
  once : ∀ x ∈ before ++ after, x.isCall = false
  complete : arguments.length = o.raw.params.length
  supplied : ∀ (i : Nat) param argument, o.raw.params[i]? = some param → arguments[i]? = some argument →
    o.Supplies i param argument
  compares : ∀ count, 1 < (o.spanNames count).length → .lengthEquality (o.spanNames count) ∈ before
  compared : ∀ x ∈ before ++ after, ∀ names, x.compared? = some names →
    ∃ count, 1 < (o.spanNames count).length ∧ names = o.spanNames count

/-- The parameter that an overload declares for the one at a position: another one only if the change is
    noted, with the type that is noted. -/
structure Declares (o : Overload) (param : ParamDecl × Nat) (declared : ParamDecl) : Prop where
  name : declared.name = param.1.name
  same : (∀ t ∈ o.transforms, t.index ≠ param.2) → declared = param.1
  changed : ∀ t ∈ o.transforms, t.index = param.2 → t.newType = some declared.type

/-- An overload forwards to the entry point of a function. -/
structure Forwards (f : Function) (raw : EntryPoint) (o : Overload) : Prop where
  entry : o.raw = raw
  named : raw.params.map (·.name) = f.params.map (·.name)
  calls : ∃ before arguments result after, o.Calls before arguments result after
  complete : o.params.length = o.survivors.length
  declares : ∀ (k : Nat) param declared, o.survivors[k]? = some param → o.params[k]? = some declared →
    o.Declares param declared
  ascending : o.transforms.Pairwise (·.index < ·.index)
  noted : ∀ t ∈ o.transforms, ∃ param, raw.params[t.index]? = some param ∧ t.param = param.name
  counted : ∀ i count, o.IsSpan i count ↔
    ∃ p r, f.params[i]? = some p ∧ raw.params[i]? = some r ∧ countOf? f i p r = some count
  removed : ∀ count, o.removes count = true ↔ ∃ i, o.IsSpan i count
  apart : ∀ i count, o.IsSpan i count → o.removes i = false

end Overload

/-! ## Rows side by side -/

section
variable {α β γ : Type} {xs : List α} {ys : List β}

/-- Rows of one length give the same if they do so element by element. -/
theorem filterMap_aligned {f : α → Option γ} {g : β → Option γ} (length : xs.length = ys.length)
    (each : ∀ (i : Nat) x y, xs[i]? = some x → ys[i]? = some y → f x = g y) :
    xs.filterMap f = ys.filterMap g := by
  induction xs generalizing ys with
  | nil =>
    obtain rfl := List.length_eq_zero_iff.mp length.symm
    rfl
  | cons x xs ih =>
    obtain ⟨y, ys, rfl⟩ := List.exists_cons_of_length_eq_add_one length.symm
    rw [List.filterMap_cons, List.filterMap_cons, each 0 x y rfl rfl,
      ih (Nat.succ.inj length) fun i x y => each (i + 1) x y]

/-- What is kept of a row and what its partner gives stand side by side. -/
theorem kept_aligned {keep : α → Bool} {g : β → Option γ} {R : α → γ → Prop}
    (length : xs.length = ys.length)
    (each : ∀ (i : Nat) x y, xs[i]? = some x → ys[i]? = some y →
      (keep x = false ∧ g y = none) ∨ (keep x = true ∧ ∃ c, g y = some c ∧ R x c)) :
    (ys.filterMap g).length = (xs.filter keep).length ∧
      ∀ (k : Nat) x c, (xs.filter keep)[k]? = some x → (ys.filterMap g)[k]? = some c → R x c := by
  induction xs generalizing ys with
  | nil =>
    obtain rfl := List.length_eq_zero_iff.mp length.symm
    exact ⟨rfl, nofun⟩
  | cons x xs ih =>
    obtain ⟨y, ys, rfl⟩ := List.exists_cons_of_length_eq_add_one length.symm
    obtain ⟨long, related⟩ := ih (Nat.succ.inj length) fun i x y => each (i + 1) x y
    rcases each 0 x y rfl rfl with ⟨dropped, none⟩ | ⟨kept, c, some, holds⟩
    · rw [List.filter_cons_of_neg (by simp [dropped]), List.filterMap_cons_none none]
      exact ⟨long, related⟩
    · rw [List.filter_cons_of_pos kept, List.filterMap_cons_some some]
      refine ⟨congrArg (· + 1) long, fun k a b => ?_⟩
      cases k with
      | zero =>
        rintro ⟨⟩ ⟨⟩
        exact holds
      | succ k => exact related k a b

end

theorem lookup_eq_some_of_unique {β : Type} {row : List (Nat × β)} {i : Nat} {b : β} (there : (i, b) ∈ row)
    (unique : ∀ c, (i, c) ∈ row → c = b) : row.lookup i = some b := by
  induction row with
  | nil => cases there
  | cons x row ih =>
    obtain ⟨j, c⟩ := x
    by_cases same : i = j
    · subst same
      rw [List.lookup_cons_self, unique c (by simp)]
    · rw [List.lookup_cons, beq_false_of_ne same]
      refine ih ?_ fun c member => unique c (List.mem_cons_of_mem _ member)
      rcases List.mem_cons.mp there with found | later
      · exact absurd (congrArg Prod.fst found) same
      · exact later

/-! ## Counted spans -/

/-- An entry point declares the parameters of a function under their names, and none of an integer type as
    a pointer. -/
structure EntryPoint.DeclaredFor (f : Function) (raw : EntryPoint) : Prop where
  complete : raw.params.length = f.params.length
  each : ∀ (i : Nat) p r, f.params[i]? = some p → raw.params[i]? = some r →
    r.name = p.name ∧ (isIntegerType p.type = true → r.type.isPointer = false)

/-- The parameter at a position is an array whose length another one gives. -/
def CountedBy (f : Function) (raw : EntryPoint) (i count : Nat) : Prop :=
  ∃ p r, f.params[i]? = some p ∧ raw.params[i]? = some r ∧ countOf? f i p r = some count

theorem mem_countedParams {i count : Nat} : (i, count) ∈ countedParams f raw ↔ CountedBy f raw i count := by
  simp only [countedParams, List.mem_filterMap, Prod.exists, List.mem_zipIdx_iff_getElem?,
    List.getElem?_zip_eq_some, Option.map_eq_some_iff, Prod.mk.injEq]
  constructor
  · rintro ⟨p, r, i, ⟨param, declared⟩, count, counts, rfl, rfl⟩
    exact ⟨p, r, param, declared, counts⟩
  · rintro ⟨p, r, param, declared, counts⟩
    exact ⟨p, r, i, ⟨param, declared⟩, count, counts, rfl, rfl⟩

theorem mem_spansOf {counted : List (Nat × Nat)} {i count : Nat} :
    i ∈ spansOf counted count ↔ (i, count) ∈ counted := by
  simp [spansOf]

theorem spansOf_ne_nil_iff {count : Nat} :
    spansOf (countedParams f raw) count ≠ [] ↔ ∃ i, CountedBy f raw i count := by
  constructor
  · intro some
    obtain ⟨i, spans⟩ := List.exists_mem_of_ne_nil _ some
    exact ⟨i, mem_countedParams.mp (mem_spansOf.mp spans)⟩
  · rintro ⟨i, counts⟩
    exact List.ne_nil_of_mem (mem_spansOf.mpr (mem_countedParams.mpr counts))

theorem CountedBy.unique {i m n : Nat} (one : CountedBy f raw i m) (other : CountedBy f raw i n) : n = m := by
  obtain ⟨p, r, param, declared, counts⟩ := one
  obtain ⟨q, d, param', declared', counts'⟩ := other
  rw [param] at param'
  rw [declared] at declared'
  cases param'
  cases declared'
  rw [counts] at counts'
  exact (Option.some.inj counts').symm

theorem lookup_countedParams {i count : Nat} :
    (countedParams f raw).lookup i = some count ↔ CountedBy f raw i count := by
  constructor
  · intro found
    obtain ⟨before, after, same, -⟩ := List.lookup_eq_some_iff.mp found
    exact mem_countedParams.mp (by simp [same])
  · intro counts
    exact lookup_eq_some_of_unique (mem_countedParams.mpr counts) fun other member =>
      counts.unique (mem_countedParams.mp member)

/-- What gives the length of an array that is passed as a pointer is of an integer type. -/
theorem countOf?_eq_some {i count : Nat} {p : Param} {r : ParamDecl} (counts : countOf? f i p r = some count) :
    r.type.isPointer = true ∧ ∃ q, f.params[count]? = some q ∧ isIntegerType q.type = true := by
  unfold countOf? at counts
  split at counts
  · cases counts
  · split at counts
    · cases counts
    · next usable =>
      split at counts
      · next integer =>
        obtain rfl := Option.some.inj counts
        exact ⟨by simp_all, by simpa [Option.any_eq_true] using integer⟩
      · cases counts

/-- A parameter that is a counted span gives no length. -/
theorem CountedBy.spansOf (declared : raw.DeclaredFor f) {i count : Nat} (counts : CountedBy f raw i count) :
    spansOf (countedParams f raw) i = [] := by
  obtain ⟨p, r, param, declaredHere, counts⟩ := counts
  refine List.eq_nil_iff_forall_not_mem.mpr fun k member => ?_
  obtain ⟨_, _, _, _, other⟩ := mem_countedParams.mp (mem_spansOf.mp member)
  obtain ⟨q, there, integer⟩ := (countOf?_eq_some other).2
  rw [param] at there
  cases there
  have pointer := (countOf?_eq_some counts).1
  rw [(declared.each i p r param declaredHere).2 integer] at pointer
  cases pointer

/-! ## Putting an overload together -/

/-- The outcomes for the parameters of a function, each at the position of its parameter. -/
structure Planned (f : Function) (raw : EntryPoint) (outcomes : List ParamOutcome) : Prop where
  declared : raw.DeclaredFor f
  complete : raw.params.length = outcomes.length
  each : ∀ i o, outcomes[i]? = some o → ∃ p r, f.params[i]? = some p ∧ raw.params[i]? = some r ∧
    Becomes f (countedParams f raw) i p r o

/-- An overload that was put together from outcomes. -/
structure Overload.MadeOf (raw : EntryPoint) (outcomes : List ParamOutcome) (o : Overload) : Prop where
  entry : o.raw = raw
  params : o.params = outcomes.filterMap (·.surface?)
  transforms : o.transforms = outcomes.filterMap (·.transform?)
  body : ∃ result after, o.body = outcomes.flatMap (·.checks) ++ outcomes.flatMap (·.before) ++
    .rawCall raw.name (outcomes.map (·.argument)) result :: (outcomes.flatMap (·.after) ++ after) ∧
    ∀ x ∈ after, x.isCall = false ∧ x.compared? = none

theorem assemble_madeOf {outcomes : List ParamOutcome} {guard : Option GuardedHandle} {o : Overload}
    (made : assemble raw outcomes guard = some o) : o.MadeOf raw outcomes := by
  unfold assemble at made
  dsimp only at made
  split at made
  · cases made
  · obtain rfl := Option.some.inj made
    refine ⟨rfl, rfl, rfl, if !raw.returnType.isVoid then some resultLocal else none,
      returnStatements (!raw.returnType.isVoid) guard, by simp, ?_⟩
    unfold returnStatements
    split
    · simp [Statement.isCall, Statement.compared?]
    · split <;> simp [Statement.isCall, Statement.compared?]

section
variable {outcomes : List ParamOutcome} {o : Overload} (planned : Planned f raw outcomes)
  (made : o.MadeOf raw outcomes)
include planned made

omit made in
/-- There is an outcome at the position of each parameter. -/
theorem Planned.outcome {i : Nat} {p : Param} (param : f.params[i]? = some p) :
    ∃ oc, outcomes[i]? = some oc := by
  obtain ⟨inside, -⟩ := List.getElem?_eq_some_iff.mp param
  have bound : i < outcomes.length := by
    have declared := planned.declared.complete
    have complete := planned.complete
    omega
  exact ⟨_, List.getElem?_eq_getElem bound⟩

omit made in
/-- A change is noted at the position of its parameter. -/
theorem Planned.noted {i : Nat} {oc : ParamOutcome} {t : ParamTransform} (there : outcomes[i]? = some oc)
    (noted : oc.transform? = some t) :
    t.index = i ∧ ∃ r, raw.params[i]? = some r ∧ t.param = r.name := by
  obtain ⟨p, r, param, declared, becomes⟩ := planned.each i oc there
  have name := (planned.declared.each i p r param declared).1
  cases becomes with
  | removed some =>
    cases noted
    exact ⟨rfl, r, declared, name.symm⟩
  | planned none suits =>
    obtain ⟨index, own, -⟩ := suits.noted t noted
    exact ⟨index, r, declared, own.trans name.symm⟩

/-- What is noted of a position is what its outcome notes. -/
theorem Planned.transform_iff {i : Nat} {t : ParamTransform} :
    (t ∈ o.transforms ∧ t.index = i) ↔ ∃ oc, outcomes[i]? = some oc ∧ oc.transform? = some t := by
  rw [made.transforms, List.mem_filterMap]
  constructor
  · rintro ⟨⟨oc, member, noted⟩, rfl⟩
    obtain ⟨k, there⟩ := List.mem_iff_getElem?.mp member
    obtain ⟨same, -⟩ := planned.noted there noted
    exact ⟨oc, same ▸ there, noted⟩
  · rintro ⟨oc, there, noted⟩
    exact ⟨⟨oc, List.mem_iff_getElem?.mpr ⟨i, there⟩, noted⟩, (planned.noted there noted).1⟩

theorem Planned.isSpan_iff {i count : Nat} : o.IsSpan i count ↔ CountedBy f raw i count := by
  constructor
  · rintro ⟨t, member, index, change⟩
    obtain ⟨oc, there, noted⟩ := (planned.transform_iff made).mp ⟨member, index⟩
    obtain ⟨p, r, param, declared, becomes⟩ := planned.each i oc there
    cases becomes with
    | removed some =>
      cases noted
      cases change
    | planned none suits => exact lookup_countedParams.mp ((suits.counted count).mp ⟨t, noted, change⟩)
  · intro counts
    have alone := counts.spansOf planned.declared
    obtain ⟨p, r, param, declared, counted⟩ := counts
    obtain ⟨oc, there⟩ := planned.outcome param
    obtain ⟨_, _, _, _, becomes⟩ := planned.each i oc there
    cases becomes with
    | removed some => exact absurd alone some
    | planned none suits =>
      obtain ⟨t, noted, change⟩ :=
        (suits.counted count).mpr (lookup_countedParams.mpr ⟨p, r, param, declared, counted⟩)
      obtain ⟨member, index⟩ := (planned.transform_iff made).mpr ⟨_, there, noted⟩
      exact ⟨t, member, index, change⟩

theorem Planned.removes_iff {count : Nat} : o.removes count = true ↔ ∃ i, CountedBy f raw i count := by
  constructor
  · intro removes
    obtain ⟨t, member, same⟩ := List.any_eq_true.mp removes
    obtain ⟨index, removal⟩ : t.index = count ∧ t.change.isRemoval = true := by simpa using same
    obtain ⟨oc, there, noted⟩ := (planned.transform_iff made).mp ⟨member, index⟩
    obtain ⟨p, r, param, declared, becomes⟩ := planned.each count oc there
    cases becomes with
    | removed some => exact spansOf_ne_nil_iff.mp some
    | planned none suits =>
      rw [(suits.noted t noted).2.2.2] at removal
      cases removal
  · intro counted
    have some := spansOf_ne_nil_iff.mpr counted
    obtain ⟨i, _, _, _, _, counts⟩ := counted
    obtain ⟨q, param, -⟩ := (countOf?_eq_some counts).2
    obtain ⟨oc, there⟩ := planned.outcome param
    obtain ⟨p, r, _, _, becomes⟩ := planned.each count oc there
    cases becomes with
    | removed some =>
      obtain ⟨member, index⟩ := (planned.transform_iff made).mpr ⟨_, there, rfl⟩
      exact List.any_eq_true.mpr ⟨_, member, by simp [Change.isRemoval]⟩
    | planned none suits => exact absurd none some

/-- A parameter is removed where it gives lengths, and is as it was planned everywhere else. -/
theorem Planned.outcome_cases {i : Nat} {oc : ParamOutcome} (there : outcomes[i]? = some oc) :
    ∃ p r, f.params[i]? = some p ∧ raw.params[i]? = some r ∧
      ((o.removes i = true ∧ spansOf (countedParams f raw) i ≠ [] ∧
          oc = removedParam f i p r (spansOf (countedParams f raw) i)) ∨
        (o.removes i = false ∧ ∃ plan, oc = .planned plan ∧
          plan.Suits ((countedParams f raw).lookup i) i p r)) := by
  obtain ⟨p, r, param, declared, becomes⟩ := planned.each i oc there
  refine ⟨p, r, param, declared, ?_⟩
  cases becomes with
  | removed some => exact .inl ⟨(planned.removes_iff made).mpr (spansOf_ne_nil_iff.mp some), some, rfl⟩
  | @planned plan none suits =>
    refine .inr ⟨Bool.eq_false_iff.mpr fun removes => ?_, plan, rfl, suits⟩
    exact spansOf_ne_nil_iff.mpr ((planned.removes_iff made).mp removes) none

omit made in
theorem Planned.ascending : (outcomes.filterMap (·.transform?)).Pairwise (·.index < ·.index) :=
  noted_ascending fun _ _ _ there noted => (planned.noted there noted).1

/-- The spans that share a length are those whose lengths are compared. -/
theorem Planned.spanNames_eq (count : Nat) : o.spanNames count =
    (spansOf (countedParams f raw) count).filterMap fun i => f.params[i]?.map (·.name) := by
  have rows : (f.params.zip raw.params).zipIdx.length = outcomes.length := by
    have declared := planned.declared.complete
    have complete := planned.complete
    simp only [List.length_zipIdx, List.length_zip]
    omega
  simp only [Overload.spanNames, made.transforms, spansOf, countedParams, List.filter_filterMap,
    List.map_filterMap, List.filterMap_filterMap]
  refine (filterMap_aligned rows fun i x oc row there => ?_).symm
  obtain ⟨p, r, param, declared, -⟩ := planned.outcome_cases made there
  have pair : (f.params.zip raw.params)[i]? = some (p, r) := List.getElem?_zip_eq_some.mpr ⟨param, declared⟩
  have own : (f.params.zip raw.params).zipIdx[i]? = some ((p, r), i) := by
    simp [List.getElem?_zipIdx, pair]
  rw [own] at row
  obtain rfl := Option.some.inj row
  by_cases counts : CountedBy f raw i count
  · obtain ⟨t, member, index, change⟩ := (planned.isSpan_iff made).mpr counts
    obtain ⟨_, again, noted⟩ := (planned.transform_iff made).mp ⟨member, index⟩
    rw [there] at again
    obtain rfl := Option.some.inj again
    obtain ⟨-, d, declared', name⟩ := planned.noted there noted
    rw [declared] at declared'
    obtain rfl := Option.some.inj declared'
    obtain ⟨q, e, param', declared', counted⟩ := counts
    rw [param] at param'
    rw [declared] at declared'
    cases param'
    cases declared'
    have alike := (planned.declared.each i p r param declared).1
    rw [counted, noted, Option.map_some, Option.filter_some_pos (by simp),
      Option.filter_some_pos (by simp [change])]
    simp [param, name, alike]
  · have uncounted : countOf? f i p r ≠ some count := fun counted => counts ⟨p, r, param, declared, counted⟩
    have other : ∀ t, oc.transform? = some t → t.change ≠ .countedSpan count := by
      intro t noted change
      obtain ⟨member, index⟩ := (planned.transform_iff made).mpr ⟨oc, there, noted⟩
      exact counts ((planned.isSpan_iff made).mp ⟨t, member, index, change⟩)
    have unpaired : ∀ x, (countOf? f i p r).map (i, ·) = some x → ¬decide (x.2 = count) = true := by
      intro x paired
      obtain ⟨n, counted, rfl⟩ := Option.map_eq_some_iff.mp paired
      simpa using fun same : n = count => uncounted (same ▸ counted)
    rw [Option.filter_eq_none_iff.mpr unpaired,
      Option.filter_eq_none_iff.mpr (by simpa using other)]
    rfl

/-- The overload declares what is left of the parameters of the entry point. -/
theorem Planned.declares : o.params.length = o.survivors.length ∧
    ∀ (k : Nat) param declared, o.survivors[k]? = some param → o.params[k]? = some declared →
      o.Declares param declared := by
  rw [Overload.survivors, made.params, made.entry]
  refine kept_aligned (by simpa using planned.complete) fun i x oc row there => ?_
  obtain ⟨p, r, param, declared, outcome⟩ := planned.outcome_cases made there
  have own : raw.params.zipIdx[i]? = some (r, i) := by simp [List.getElem?_zipIdx, declared]
  rw [own] at row
  obtain rfl := Option.some.inj row
  rcases outcome with ⟨removes, -, rfl⟩ | ⟨stays, plan, rfl, suits⟩
  · exact .inl ⟨by simp [removes], rfl⟩
  · refine .inr ⟨by simp [stays], plan.surface, rfl, ?_, ?_, ?_⟩
    · exact suits.name.trans (planned.declared.each i p r param declared).1.symm
    · intro unchanged
      apply suits.same
      cases noted : plan.transform with
      | none => rfl
      | some t =>
        obtain ⟨member, index⟩ := (planned.transform_iff made).mpr ⟨_, there, noted⟩
        exact absurd index (unchanged t member)
    · intro t member index
      obtain ⟨_, again, noted⟩ := (planned.transform_iff made).mp ⟨member, index⟩
      rw [there] at again
      obtain rfl := Option.some.inj again
      exact (suits.noted t noted).2.2.1

/-- The lengths of the spans that share one are compared where what gave it is removed. -/
theorem Planned.checks {i : Nat} {oc : ParamOutcome} (there : outcomes[i]? = some oc) : oc.checks =
    if o.removes i = true ∧ 1 < (o.spanNames i).length then [.lengthEquality (o.spanNames i)] else [] := by
  obtain ⟨p, r, param, declared, outcome⟩ := planned.outcome_cases made there
  rcases outcome with ⟨removes, -, rfl⟩ | ⟨stays, plan, rfl, suits⟩
  · rw [planned.spanNames_eq made]
    simp [ParamOutcome.checks, removedParam, removes]
  · simp [ParamOutcome.checks, stays]

/-- The other statements for a parameter neither call nor compare. -/
theorem Planned.plain {oc : ParamOutcome} (member : oc ∈ outcomes) :
    ∀ x ∈ oc.before ++ oc.after, x.isCall = false ∧ x.compared? = none := by
  obtain ⟨i, there⟩ := List.mem_iff_getElem?.mp member
  obtain ⟨p, r, param, declared, outcome⟩ := planned.outcome_cases made there
  rcases outcome with ⟨-, -, rfl⟩ | ⟨-, plan, rfl, suits⟩
  · exact nofun
  · exact suits.plain

theorem Planned.supplies {i : Nat} {oc : ParamOutcome} {r : ParamDecl} (there : outcomes[i]? = some oc)
    (declared : raw.params[i]? = some r) : o.Supplies i r oc.argument := by
  obtain ⟨p, r', param, declared', outcome⟩ := planned.outcome_cases made there
  rw [declared] at declared'
  obtain rfl := Option.some.inj declared'
  rcases outcome with ⟨removes, some, rfl⟩ | ⟨stays, plan, rfl, suits⟩
  · refine ⟨fun stays => by simp [removes] at stays, fun _ => ?_⟩
    obtain ⟨k, spans, same⟩ := List.exists_cons_of_ne_nil some
    have counts := mem_countedParams.mp (mem_spansOf.mp (same ▸ List.mem_cons_self))
    have span := (planned.isSpan_iff made).mpr counts
    obtain ⟨q, d, paramSpan, declaredSpan, -⟩ := counts
    have name := (planned.declared.each k q d paramSpan declaredSpan).1
    refine ⟨k, d, span, made.entry ▸ declaredSpan, ?_⟩
    simp [ParamOutcome.argument, removedParam, same, paramSpan, name]
  · refine ⟨fun _ => ?_, fun removes => by simp [stays] at removes⟩
    have name := (planned.declared.each i p r param declared).1
    exact ⟨suits.source.1.trans name.symm, suits.source.2⟩

theorem Planned.calls : ∃ before arguments result after, o.Calls before arguments result after := by
  obtain ⟨result, after, body, ending⟩ := made.body
  have checked : ∀ x ∈ outcomes.flatMap (·.checks), x.isCall = false ∧
      ∀ names, x.compared? = some names →
        ∃ count, 1 < (o.spanNames count).length ∧ names = o.spanNames count := by
    intro x member
    obtain ⟨oc, there, inside⟩ := List.mem_flatMap.mp member
    obtain ⟨i, there⟩ := List.mem_iff_getElem?.mp there
    rw [planned.checks made there] at inside
    split at inside
    · next several =>
      obtain rfl := List.mem_singleton.mp inside
      refine ⟨rfl, ?_⟩
      rintro _ ⟨⟩
      exact ⟨i, several.2, rfl⟩
    · cases inside
  have others : ∀ x ∈ outcomes.flatMap (·.before) ++ (outcomes.flatMap (·.after) ++ after),
      x.isCall = false ∧ x.compared? = none := by
    intro x member
    simp only [List.mem_append, List.mem_flatMap] at member
    rcases member with ⟨oc, there, inside⟩ | ⟨oc, there, inside⟩ | inside
    · exact planned.plain made there x (List.mem_append_left _ inside)
    · exact planned.plain made there x (List.mem_append_right _ inside)
    · exact ending x inside
  refine ⟨_, _, result, _, by rw [body, made.entry], ?_, ?_, ?_, ?_, ?_⟩
  · intro x member
    rw [List.append_assoc, List.mem_append] at member
    rcases member with check | other
    · exact (checked x check).1
    · exact (others x other).1
  · rw [made.entry, List.length_map, planned.complete]
  · intro i r argument declared given
    rw [made.entry] at declared
    rw [List.getElem?_map, Option.map_eq_some_iff] at given
    obtain ⟨oc, there, rfl⟩ := given
    exact planned.supplies made there declared
  · intro count several
    obtain ⟨name, member⟩ := List.exists_mem_of_length_pos (Nat.lt_of_succ_lt several)
    obtain ⟨t, noted, -⟩ := List.mem_map.mp member
    obtain ⟨noted, change⟩ := List.mem_filter.mp noted
    have counts := (planned.isSpan_iff made).mp ⟨t, noted, rfl, by simpa using change⟩
    have removes := (planned.removes_iff made).mpr ⟨_, counts⟩
    obtain ⟨_, _, _, _, counts⟩ := counts
    obtain ⟨q, param, -⟩ := (countOf?_eq_some counts).2
    obtain ⟨oc, there⟩ := planned.outcome param
    refine List.mem_append_left _ (List.mem_flatMap.mpr ⟨oc, List.mem_iff_getElem?.mpr ⟨count, there⟩, ?_⟩)
    rw [planned.checks made there, if_pos ⟨removes, several⟩]
    exact List.mem_singleton_self _
  · intro x member names compared
    rw [List.append_assoc, List.mem_append] at member
    rcases member with check | other
    · exact (checked x check).2 names compared
    · rw [(others x other).2] at compared
      cases compared

theorem Planned.forwards : o.Forwards f raw where
  entry := made.entry
  named := by
    refine List.ext_getElem? fun i => ?_
    rw [List.getElem?_map, List.getElem?_map]
    cases param : f.params[i]? with
    | none =>
      have short := List.getElem?_eq_none_iff.mp param
      rw [← planned.declared.complete] at short
      rw [List.getElem?_eq_none_iff.mpr short]
      rfl
    | some p =>
      obtain ⟨inside, -⟩ := List.getElem?_eq_some_iff.mp param
      rw [← planned.declared.complete] at inside
      rw [List.getElem?_eq_getElem inside, Option.map_some, Option.map_some,
        (planned.declared.each i p _ param (List.getElem?_eq_getElem inside)).1]
  calls := planned.calls made
  complete := (planned.declares made).1
  declares := (planned.declares made).2
  ascending := by
    rw [made.transforms]
    exact planned.ascending
  noted t member := by
    obtain ⟨oc, there, noted⟩ := (planned.transform_iff made).mp ⟨member, rfl⟩
    exact (planned.noted there noted).2
  counted i count := planned.isSpan_iff made
  removed count := by
    rw [planned.removes_iff made]
    exact exists_congr fun i => (planned.isSpan_iff made).symm
  apart i count span := by
    have none := ((planned.isSpan_iff made).mp span).spansOf planned.declared
    refine Bool.eq_false_iff.mpr fun removes => ?_
    exact spansOf_ne_nil_iff.mpr ((planned.removes_iff made).mp removes) none

end

/-! ## Functions -/

/-- An integer type is projected to no pointer. -/
theorem project_integer (type : NativeType) (context : Context) (usage : Usage) :
    Gen.Gives env (project links type context usage) fun result =>
      isIntegerType type = true → result.type.isPointer = false := by
  cases type with
  | primitive code =>
    unfold project
    split
    · exact .pure fun _ => rfl
    · exact .fault _
  | pointer | array | handle | function =>
    refine .imp .any fun result _ integer => ?_
    cases integer

/-- The context of signatures. -/
def Environment.signatureContext (env : Environment) : Context :=
  { allowMarshaling := env.options.allowMarshaling }

/-- An entry point declares the parameters of a function under their names, with what their types are
    projected to, and returns what the type of the result is projected to. -/
structure EntryPoint.Declares (raw : EntryPoint) (S : NativeType → Usage → Projection → Prop) (f : Function) :
    Prop where
  complete : raw.params.length = f.params.length
  params : ∀ (i : Nat) p r, f.params[i]? = some p → raw.params[i]? = some r → r.name = p.name ∧
    ∃ result, S p.type p.usage result ∧ r.type = result.type ∧ r.modifier = result.modifier
  returns : ∃ result, S f.returns {} result ∧ raw.returnType = result.type

theorem EntryPoint.Declares.declaredFor {S : NativeType → Usage → Projection → Prop}
    (declares : raw.Declares S f) (plain : ∀ type usage result, S type usage result →
      isIntegerType type = true → result.type.isPointer = false) : raw.DeclaredFor f where
  complete := declares.complete
  each i p r there declared := by
    obtain ⟨name, result, shown, same, -⟩ := declares.params i p r there declared
    exact ⟨name, fun integer => same ▸ plain _ _ result shown integer⟩

section
variable {J : Judgement env} {S : NativeType → Usage → Projection → Prop}
  (projects : ∀ type usage, J.Tells (project links type env.signatureContext usage) (S type usage))
include projects

theorem entryPoint_declares : J.Tells (entryPoint links f) (·.Declares S f) := by
  have param : ∀ p, J.Tells (paramDecl links env.signatureContext p) fun r => r.name = p.name ∧
      ∃ result, S p.type p.usage result ∧ r.type = result.type ∧ r.modifier = result.modifier := by
    intro p
    unfold paramDecl
    split
    · exact J.fault _
    · exact J.bind (projects p.type p.usage) fun result shown => J.pure ⟨rfl, result, shown, rfl, rfl⟩
  unfold entryPoint
  refine J.read (J.bind (J.steady standardContext_steady) fun context always => ?_)
  obtain rfl : context = env.signatureContext := (EStateM.Result.ok.inj (always {})).1.symm
  refine J.bind (projects f.returns {}) fun returns shown => ?_
  refine J.bind (J.mapM param f.params) fun params each =>
    J.bind (J.steady (docs_steady f.name)) fun docs _ => ?_
  exact J.pure ⟨each.1, each.2, returns, shown, rfl⟩

/-- What is told of every overload of an entry point that declares a function is told of every overload
    among the declarations of the function. -/
theorem functionDecls_overloads {Q : EntryPoint → Overload → Prop}
    (overloads : ∀ raw : EntryPoint, raw.Declares S f →
      J.Tells (overload? links raw f) fun found => ∀ o, found = some o → Q raw o) :
    J.Tells (functionDecls links f) fun decls => ∀ o, .overload o ∈ decls →
      ∃ raw, decls = [.entryPoint raw, .overload o] ∧ Q raw o := by
  unfold functionDecls
  refine J.bind (entryPoint_declares projects) fun raw declares =>
    J.bind (overloads raw declares) fun found made => ?_
  split
  · next overload =>
    refine J.pure fun o member => ?_
    obtain rfl : o = overload := by simpa using member
    exact ⟨_, rfl, made o rfl⟩
  · refine J.pure fun o member => ?_
    simp at member

end

/-- There are as many outcomes as the entry point has parameters. -/
theorem EntryPoint.DeclaredFor.outcomes (declared : raw.DeclaredFor f) {outcomes : List ParamOutcome}
    (complete : (f.params.zip raw.params).length = outcomes.length) :
    raw.params.length = outcomes.length := by
  have both := declared.complete
  rw [← complete, List.length_zip]
  omega

theorem overload?_gives (declared : raw.DeclaredFor f) : Gen.Gives env (overload? links raw f) fun found =>
    ∀ o, found = some o → o.Forwards f raw := by
  have arises : Gen.Gives env (overload? links raw f) fun found => ∀ o, found = some o →
      ∃ outcomes guard, o.Arises (fun _ _ => True) f raw outcomes guard :=
    overload?_arises (J := .all env) fun _ _ _ _ _ => trivial
  refine arises.imp fun found arise o same => ?_
  obtain ⟨outcomes, guard, arises⟩ := arise o same
  have planned : Planned f raw outcomes := by
    refine ⟨declared, declared.outcomes arises.complete, fun i oc there => ?_⟩
    obtain ⟨p, r, param, declaredHere, own⟩ := arises.each i oc there
    exact ⟨p, r, param, declaredHere, own.becomes (declared.each i p r param declaredHere).1⟩
  exact planned.forwards (assemble_madeOf arises.made)

/-- Every overload among the declarations of a function forwards to the entry point that is declared with
    it: it calls the entry point once, gives it an argument for each of its parameters in their order, and
    declares the parameters that it does not remove. -/
theorem functionDecls_forwards {decls : List Declaration} {o : Overload}
    (produced : functionDecls links f env s = .ok decls t) (overloaded : .overload o ∈ decls) :
    ∃ raw, decls = [.entryPoint raw, .overload o] ∧ o.Forwards f raw := by
  have gives : Gen.Gives env (functionDecls links f) fun decls => ∀ o, .overload o ∈ decls →
      ∃ raw, decls = [.entryPoint raw, .overload o] ∧ o.Forwards f raw :=
    functionDecls_overloads (J := .all env) (project_integer · _) fun raw declares =>
      overload?_gives (declares.declaredFor fun _ _ _ plain => plain)
  exact gives s decls t produced o overloaded

/-- A function that adds the elements of two arrays of one length. -/
def addArrays : Function where
  name := "AddArrays"
  space := "Sums"
  module := "sums"
  returns := .primitive "void"
  params :=
    let usage : Usage := { extent := some { param := some 1 } }
    [{ name := "first", type := .pointer (.primitive "i4") false, usage },
      { name := "count", type := .primitive "u4" },
      { name := "second", type := .pointer (.primitive "i4") true, usage }]

/-- Both arrays become spans, and their lengths are compared before the one of the first is passed. -/
theorem addArrays_forwards : ∃ decls t o,
    functionDecls (Links.upTo 0) addArrays { index := {} } {} = .ok decls t ∧ .overload o ∈ decls ∧
      o.spanNames 1 = ["first", "second"] ∧
      ∃ raw, decls = [.entryPoint raw, .overload o] ∧ o.Forwards addArrays raw := by
  obtain ⟨decls, t, o, produced, overloaded, shared⟩ : ∃ decls t o,
      functionDecls (Links.upTo 0) addArrays { index := {} } {} = .ok decls t ∧ .overload o ∈ decls ∧
        o.spanNames 1 = ["first", "second"] :=
    ⟨_, _, _, rfl, List.mem_cons_of_mem _ List.mem_cons_self, rfl⟩
  exact ⟨decls, t, o, produced, overloaded, shared, functionDecls_forwards produced overloaded⟩

end Bindings
