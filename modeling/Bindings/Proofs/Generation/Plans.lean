import Bindings.Generation.Production
import Bindings.Proofs.Generation.Memory

/-!
# Plans for parameters

What becomes of the parameters of a function in an overload. Whichever plan a parameter gets, the plan
speaks of that parameter alone, and a parameter that gives the length of spans gets none. The rules are
gone through once, for all ways to tell what computations give.
-/

namespace Bindings
open Bindings.Metadata

variable {env : Environment} {s t : State} {links : Links} {f : Function}

/-! ## Arguments, statements and changes -/

/-- The parameter that an argument comes from. -/
def CallArgument.source : CallArgument → String
  | pass param | localValue param .. | lengthOf param .. | handleValue param .. | addressOfLocal param .. => param

/-- Whether an argument is the length of its source. -/
def CallArgument.isLength : CallArgument → Bool
  | lengthOf .. => true
  | _ => false

/-- Whether a statement calls the entry point. -/
def Statement.isCall : Statement → Bool
  | rawCall .. => true
  | _ => false

/-- The parameters whose lengths a statement compares. -/
def Statement.compared? : Statement → Option (List String)
  | lengthEquality params => some params
  | _ => none

/-- Whether a parameter was removed. -/
def Change.isRemoval : Change → Bool
  | countRemoved _ => true
  | _ => false

/-! ## Results -/

/-- All results of a computation have a property, whatever state it starts in. -/
def Gen.Gives {α : Type} (env : Environment) (x : Gen α) (Q : α → Prop) : Prop :=
  ∀ s a t, x env s = .ok a t → Q a

namespace Gen.Gives
variable {α β : Type} {x : Gen α} {P : α → Prop} {Q : β → Prop}

theorem any : Gives env x fun _ => True := fun _ _ _ _ => trivial

theorem pure {b : β} (holds : Q b) : Gives env (pure b) Q := by
  rintro s _ t ⟨⟩
  exact holds

theorem bind {f : α → Gen β} (first : Gives env x P) (rest : ∀ a, P a → Gives env (f a) Q) :
    Gives env (x >>= f) Q := by
  intro s b t ends
  obtain ⟨a, u, gave, ends⟩ := Gen.bind_ok ends
  exact rest a (first s a u gave) u b t ends

theorem fault (f : Fault) : Gives env (Gen.fault f) Q := nofun

theorem imp (gives : Gives env x P) {P' : α → Prop} (implies : ∀ a, P a → P' a) : Gives env x P' :=
  fun s a t ends => implies a (gives s a t ends)

/-- The same follows after one of two computations. -/
theorem either {c : Prop} [Decidable c] {y : Gen α} {f : α → Gen β} (rest : ∀ a, Gives env (f a) Q) :
    Gives env (if c then x >>= f else y >>= f) Q := by
  split
  · exact .bind .any fun a _ => rest a
  · exact .bind .any fun a _ => rest a

end Gen.Gives

/-- A way to tell what a computation gives, which goes along with putting computations together. -/
structure Judgement (env : Environment) where
  Tells : {α : Type} → Gen α → (α → Prop) → Prop
  pure : ∀ {α : Type} {a : α} {P : α → Prop}, P a → Tells (pure a) P
  fault : ∀ {α : Type} {P : α → Prop} (f : Fault), Tells (Gen.fault f) P
  bind : ∀ {α β : Type} {x : Gen α} {f : α → Gen β} {P : α → Prop} {Q : β → Prop}, Tells x P →
    (∀ a, P a → Tells (f a) Q) → Tells (x >>= f) Q
  steady : ∀ {α : Type} {x : Gen α}, Gen.Steady env x → Tells x fun a => ∀ s, x env s = .ok a s

/-- What holds of the results in all states. -/
def Judgement.all (env : Environment) : Judgement env where
  Tells := Gen.Gives env
  pure := .pure
  fault := .fault
  bind := .bind
  steady steady _ _ _ ends := (steady.everywhere ends).2

namespace Judgement
variable (J : Judgement env) {α β : Type} {x : Gen α} {P Q : α → Prop}

theorem imp (tells : J.Tells x P) (implies : ∀ a, P a → Q a) : J.Tells x Q := by
  rw [← bind_pure x]
  exact J.bind tells fun a holds => J.pure (implies a holds)

theorem map {g : α → β} {Q : β → Prop} (tells : J.Tells x fun a => Q (g a)) : J.Tells (g <$> x) Q := by
  rw [map_eq_pure_bind]
  exact J.bind tells fun a holds => J.pure holds

theorem nothing : J.Tells (Pure.pure none) fun found => ∀ a, found = some a → P a := by
  apply J.pure
  exact nofun

/-- The environment is read. -/
theorem read {f : Environment → Gen α} (rest : J.Tells (f env) P) : J.Tells (read >>= f) P := by
  refine J.bind (J.steady .read) fun env' always => ?_
  cases always {}
  exact rest

/-- What a computation gives for each element of a row comes from that element. -/
theorem mapM {f : α → Gen β} {R : α → β → Prop} (each : ∀ a, J.Tells (f a) (R a)) (xs : List α) :
    J.Tells (xs.mapM f) fun ys => ys.length = xs.length ∧
      ∀ (i : Nat) x y, xs[i]? = some x → ys[i]? = some y → R x y := by
  induction xs with
  | nil =>
    rw [List.mapM_nil]
    exact J.pure ⟨rfl, nofun⟩
  | cons x xs ih =>
    rw [List.mapM_cons]
    refine J.bind (each x) fun y first => J.bind ih fun ys rest => J.pure ?_
    refine ⟨congrArg (· + 1) rest.1, fun i a b => ?_⟩
    cases i with
    | zero =>
      rintro ⟨⟩ ⟨⟩
      exact first
    | succ i => exact rest.2 i a b

end Judgement

theorem Gen.Gives.mapM {α β : Type} {f : α → Gen β} {R : α → β → Prop} (each : ∀ a, Gives env (f a) (R a))
    (xs : List α) : Gives env (xs.mapM f) fun ys => ys.length = xs.length ∧
      ∀ (i : Nat) x y, xs[i]? = some x → ys[i]? = some y → R x y :=
  (Judgement.all env).mapM each xs

/-! ## Plans -/

/-- A plan speaks of its own parameter: its argument comes from it, the change that it notes is one of it,
    and without a change it is declared as it was. The count is the parameter that gives its length. -/
structure ParamPlan.Suits (count : Option Nat) (index : Nat) (p : Param) (r : ParamDecl) (plan : ParamPlan) :
    Prop where
  name : plan.surface.name = p.name
  source : plan.argument.source = p.name ∧ plan.argument.isLength = false
  same : plan.transform = none → plan.surface = r
  noted : ∀ t, plan.transform = some t →
    t.index = index ∧ t.param = p.name ∧ t.newType = some plan.surface.type ∧ t.change.isRemoval = false
  counted : ∀ n : Nat, (∃ t, plan.transform = some t ∧ t.change = .countedSpan n) ↔ count = some n
  plain : ∀ x ∈ plan.before ++ plan.after, x.isCall = false ∧ x.compared? = none

section
variable {index : Nat} {p : Param} {r : ParamDecl}

theorem suits_countedSpan (count : Nat) :
    (countedSpanPlan index p r count).Suits (some count) index p r where
  name := rfl
  source := ⟨rfl, rfl⟩
  same := nofun
  noted := by
    rintro _ ⟨⟩
    exact ⟨rfl, rfl, rfl, rfl⟩
  counted n := by
    constructor
    · rintro ⟨_, ⟨⟩, same⟩
      obtain rfl : count = n := by injection same; omega
      rfl
    · rintro ⟨⟩
      exact ⟨_, rfl, rfl⟩
  plain := by simp [countedSpanPlan, Statement.isCall, Statement.compared?]

theorem suits_passing (named : r.name = p.name) : (ParamPlan.passing r).Suits none index p r where
  name := named
  source := ⟨named, rfl⟩
  same _ := rfl
  noted := nofun
  counted n := by simp [ParamPlan.passing]
  plain := nofun

/-- A plan that notes another change than that to a counted span suits its parameter. -/
theorem suits_changed {plan : ParamPlan} {change : Change}
    (name : plan.surface.name = p.name)
    (source : plan.argument.source = p.name ∧ plan.argument.isLength = false)
    (noted : plan.transform = some ⟨index, p.name, some plan.surface.type, change⟩)
    (other : change.isRemoval = false ∧ ∀ n, change ≠ .countedSpan n)
    (plain : ∀ x ∈ plan.before ++ plan.after, x.isCall = false ∧ x.compared? = none) :
    plan.Suits none index p r where
  name := name
  source := source
  same unchanged := by
    rw [noted] at unchanged
    cases unchanged
  noted t is := by
    rw [noted] at is
    cases is
    exact ⟨rfl, rfl, rfl, other.1⟩
  counted n := by
    rw [noted]
    constructor
    · rintro ⟨_, ⟨⟩, same⟩
      exact absurd same (other.2 n)
    · nofun
  plain := plain

theorem suits_fixedSpan (length : Int) : (fixedSpanPlan index p r length).Suits none index p r :=
  suits_changed rfl ⟨rfl, rfl⟩ rfl ⟨rfl, nofun⟩
    (by simp [fixedSpanPlan, Statement.isCall, Statement.compared?])

theorem suits_handle (handle : GuardedHandle) : (handlePlan index p r handle).Suits none index p r :=
  suits_changed rfl ⟨rfl, rfl⟩ rfl ⟨rfl, nofun⟩
    (by simp [handlePlan, Statement.isCall, Statement.compared?])

theorem suits_handleOut (handle : GuardedHandle) : (handleOutPlan index p handle).Suits none index p r :=
  suits_changed rfl ⟨rfl, rfl⟩ rfl ⟨rfl, nofun⟩
    (by simp [handleOutPlan, Statement.isCall, Statement.compared?])

theorem suits_text (wide : Bool) : (textPlan index p r wide).Suits none index p r :=
  suits_changed rfl ⟨rfl, rfl⟩ rfl ⟨rfl, nofun⟩
    (by simp [textPlan, Statement.isCall, Statement.compared?])

theorem suits_reference (element : TargetType) (modifier : Modifier) :
    (referencePlan index p r element modifier).Suits none index p r :=
  suits_changed rfl ⟨rfl, rfl⟩ rfl ⟨rfl, nofun⟩
    (by simp [referencePlan, Statement.isCall, Statement.compared?])

theorem suits_nullable (element : TargetType) : (nullablePlan index p r element).Suits none index p r :=
  suits_changed rfl ⟨rfl, rfl⟩ rfl ⟨rfl, nofun⟩
    (by simp [nullablePlan, Statement.isCall, Statement.compared?])

end

/-- How a parameter comes by its plan. The count is the parameter that gives its length; what was found for
    which type when handles were looked for is told apart from the rules. -/
inductive ParamPlan.Arises (Wraps : NativeType → Option GuardedHandle → Prop) (index : Nat) (p : Param)
    (r : ParamDecl) : Option Nat → ParamPlan → Prop
  | countedSpan (count : Nat) : Arises Wraps index p r (some count) (countedSpanPlan index p r count)
  | fixedSpan {length : Int} (pointer : r.type.isPointer = true) :
      Arises Wraps index p r none (fixedSpanPlan index p r length)
  | handle {handle : GuardedHandle} (wraps : Wraps p.type (some handle)) :
      Arises Wraps index p r none (handlePlan index p r handle)
  | handleOut {target : NativeType} {isConst : Bool} {handle : GuardedHandle}
      (type : p.type = .pointer target isConst) (unmodified : r.modifier = none)
      (wraps : Wraps target (some handle)) : Arises Wraps index p r none (handleOutPlan index p handle)
  | text {wide : Bool} (encoding : textEncoding? p = some wide) :
      Arises Wraps index p r none (textPlan index p r wide)
  | reference {element : TargetType} {modifier : Modifier} (pointer : r.type = .pointer element) :
      Arises Wraps index p r none (referencePlan index p r element modifier)
  | nullable {element : TargetType} (pointer : r.type = .pointer element) :
      Arises Wraps index p r none (nullablePlan index p r element)
  | passing : Arises Wraps index p r none (.passing r)

section
variable {Wraps : NativeType → Option GuardedHandle → Prop} {index : Nat} {p : Param} {r : ParamDecl}

theorem ParamPlan.Arises.suits {count : Option Nat} {plan : ParamPlan}
    (arises : plan.Arises Wraps index p r count) (named : r.name = p.name) :
    plan.Suits count index p r := by
  cases arises with
  | countedSpan count => exact suits_countedSpan count
  | fixedSpan => exact suits_fixedSpan _
  | handle => exact suits_handle _
  | handleOut => exact suits_handleOut _
  | text => exact suits_text _
  | reference => exact suits_reference _ _
  | nullable => exact suits_nullable _
  | passing => exact suits_passing named

variable {J : Judgement env}

theorem planReference_arises : J.Tells (planReference index p r) fun found =>
    ∀ plan, found = some plan → plan.Arises Wraps index p r none := by
  unfold planReference
  split
  · next pointed _ =>
    refine J.bind (J.steady (isValueType_steady _)) fun isValue _ => ?_
    split
    · exact J.nothing
    · split
      · refine J.pure fun plan same => ?_
        obtain ⟨modifier, -, rfl⟩ := Option.map_eq_some_iff.mp same
        exact .reference pointed
      · split
        · refine J.pure ?_
          rintro _ ⟨⟩
          exact .nullable pointed
        · exact J.nothing
  · exact J.nothing

variable (wraps : ∀ type, J.Tells (handleFor links type f) (Wraps type))
include wraps

theorem planPlain_arises : J.Tells (planPlain links index p r f) (·.Arises Wraps index p r none) := by
  have given : J.Tells (handleIn links p f) fun found =>
      ∀ handle, found = some handle → Wraps p.type (some handle) := by
    unfold handleIn
    split
    · exact J.nothing
    · exact J.imp (wraps p.type) fun found told handle same => same ▸ told
  have taken : J.Tells (handleOut links p r f) fun found => ∀ handle, found = some handle →
      ∃ target isConst, p.type = .pointer target isConst ∧ r.modifier = none ∧
        Wraps target (some handle) := by
    unfold handleOut
    split
    · next target isConst type =>
      split
      · next plain =>
        have unmodified : r.modifier = none := by simp_all
        exact J.imp (wraps target) fun found told handle same =>
          ⟨target, isConst, type, unmodified, same ▸ told⟩
      · exact J.nothing
    · exact J.nothing
  unfold planPlain
  split
  · next fixed => exact J.pure (.fixedSpan (Option.ite_none_right_eq_some.mp fixed).1)
  · refine J.bind given fun found given => ?_
    split
    · next handle => exact J.pure (.handle (given handle rfl))
    · refine J.bind taken fun found taken => ?_
      split
      · next handle =>
        obtain ⟨target, isConst, type, unmodified, wraps⟩ := taken handle rfl
        exact J.pure (.handleOut type unmodified wraps)
      · split
        · next wide encoding => exact J.pure (.text (Option.ite_none_right_eq_some.mp encoding).2)
        · refine J.bind (P := fun found => ∀ plan, found = some plan → plan.Arises Wraps index p r none)
            planReference_arises fun found arises => J.pure ?_
          cases found with
          | none => exact .passing
          | some plan => exact arises plan rfl

theorem planParam_arises (counted : List (Nat × Nat)) :
    J.Tells (planParam links f counted index p r) (·.Arises Wraps index p r (counted.lookup index)) := by
  unfold planParam
  split
  · next count found =>
    rw [found]
    exact J.pure (.countedSpan count)
  · next missing =>
    rw [missing]
    exact planPlain_arises wraps

end

/-! ## Outcomes -/

/-- What becomes of each parameter, in one pass. -/
def paramOutcomes (links : Links) (function : Function) (counted : List (Nat × Nat)) :
    Nat → List (Param × ParamDecl) → Gen (List ParamOutcome)
  | _, [] => return []
  | index, (p, raw) :: rest => do
    let outcome ← match spansOf counted index with
      | [] => ParamOutcome.planned <$> planParam links function counted index p raw
      | spans => pure (removedParam function index p raw spans)
    return outcome :: (← paramOutcomes links function counted (index + 1) rest)

/-- How a parameter comes by its outcome, given the array parameters with those that give their lengths. -/
inductive ParamOutcome.Arises (Wraps : NativeType → Option GuardedHandle → Prop) (f : Function)
    (counted : List (Nat × Nat)) (index : Nat) (p : Param) (r : ParamDecl) : ParamOutcome → Prop
  | removed (some : spansOf counted index ≠ []) :
      Arises Wraps f counted index p r (removedParam f index p r (spansOf counted index))
  | planned {plan : ParamPlan} (none : spansOf counted index = [])
      (arises : plan.Arises Wraps index p r (counted.lookup index)) :
      Arises Wraps f counted index p r (.planned plan)

/-- Each parameter has an outcome of its own. -/
theorem paramOutcomes_arise (Wraps : NativeType → Option GuardedHandle → Prop) {J : Judgement env}
    (wraps : ∀ type, J.Tells (handleFor links type f) (Wraps type))
    (counted : List (Nat × Nat)) (index : Nat) (params : List (Param × ParamDecl)) :
    J.Tells (paramOutcomes links f counted index params) fun outcomes =>
      params.length = outcomes.length ∧ ∀ (i : Nat) x o, params[i]? = some x → outcomes[i]? = some o →
        o.Arises Wraps f counted (index + i) x.1 x.2 := by
  induction params generalizing index with
  | nil =>
    refine J.pure ⟨rfl, ?_⟩
    simp
  | cons x params ih =>
    obtain ⟨p, r⟩ := x
    unfold paramOutcomes
    have others : ∀ o : ParamOutcome, o.Arises Wraps f counted index p r → J.Tells
        (do return o :: (← paramOutcomes links f counted (index + 1) params)) fun outcomes =>
          params.length + 1 = outcomes.length ∧ ∀ (i : Nat) x o, ((p, r) :: params)[i]? = some x →
            outcomes[i]? = some o → o.Arises Wraps f counted (index + i) x.1 x.2 := by
      intro first arises
      refine J.bind (ih (index + 1)) fun outcomes each => J.pure ⟨congrArg (· + 1) each.1, fun i x o => ?_⟩
      cases i with
      | zero =>
        rintro ⟨⟩ ⟨⟩
        exact arises
      | succ i =>
        rw [show index + (i + 1) = index + 1 + i by omega]
        exact each.2 i x o
    dsimp only
    split
    · next none =>
      refine J.bind (J.map ?_) others
      exact J.imp (planParam_arises wraps counted) fun plan arises => .planned none arises
    · next some => exact J.bind (J.pure (.removed some)) others

/-- What becomes of a parameter, given the array parameters with those that give their lengths. -/
inductive Becomes (f : Function) (counted : List (Nat × Nat)) (index : Nat) (p : Param) (r : ParamDecl) :
    ParamOutcome → Prop
  | removed (some : spansOf counted index ≠ []) :
      Becomes f counted index p r (removedParam f index p r (spansOf counted index))
  | planned {plan : ParamPlan} (none : spansOf counted index = [])
      (suits : plan.Suits (counted.lookup index) index p r) : Becomes f counted index p r (.planned plan)

theorem ParamOutcome.Arises.becomes {Wraps : NativeType → Option GuardedHandle → Prop}
    {counted : List (Nat × Nat)} {index : Nat} {p : Param} {r : ParamDecl} {o : ParamOutcome}
    (arises : o.Arises Wraps f counted index p r) (named : r.name = p.name) :
    Becomes f counted index p r o := by
  cases arises with
  | removed some => exact .removed some
  | planned none arises => exact .planned none (arises.suits named)

end Bindings
