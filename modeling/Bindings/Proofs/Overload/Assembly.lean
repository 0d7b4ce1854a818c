import Bindings.Proofs.Generation.Call
import Bindings.Proofs.Generation.Source

/-!
# How an overload is put together

With the standard substitutions, what the parameters and the result of a function are projected to can be
told from their native types. An overload is put together from that and from what becomes of each
parameter, and what the rules find out about handles is kept with it.
-/

namespace Bindings
open Bindings.Metadata

variable {env : Environment} {s t : State} {links : Links} {f : Function} {raw : EntryPoint}

/-! ## Types in a signature -/

/-- A type that is written without a name on the outside. -/
def TargetType.Unnamed (type : TargetType) : Prop := ∀ n, type ≠ .named n

/-- The type that identifiers are replaced by. -/
def guidName : QualifiedName := ⟨"System", "Guid"⟩

/-- The types of constant texts. -/
def constantTexts : List String := ["PCWSTR", "PCSTR"]

/-- What a name is projected to in a signature: the type of identifiers, a special type for constant texts,
    a type of the metadata under its own name or behind a pointer, or a special type of that name. -/
inductive NameShown (env : Environment) (reference : QualifiedName) (usage : Usage) : TargetType → Prop
  | replaced : NameShown env reference usage (.named guidName)
  | text {name : String} {template : Template} (isConst : usage.isConst = true)
      (constant : name ∈ constantTexts) (held : env.templates.get? name = some template) :
      NameShown env reference usage (.named ⟨template.space, template.name⟩)
  | defined {t : TypeDefinition} (means : Means env reference t) :
      NameShown env reference usage (.named ⟨t.space, t.name⟩)
  | unnamed {type : TargetType} (outside : type.Unnamed) : NameShown env reference usage type
  | special {template : Template} (unmeant : ∀ s, resolve reference env s = .ok none s)
      (held : env.templates.get? reference.name = some template) :
      NameShown env reference usage (.named ⟨template.space, template.name⟩)

/-- What a native type is projected to in a signature, as far as it is told by the outside of the type. -/
structure Shown (env : Environment) (type : NativeType) (usage : Usage) (result : Projection) : Prop where
  integer : isIntegerType type = true → result.type.isPointer = false
  name : ∀ reference, type = .handle reference → NameShown env reference usage result.type
  pointer : ∀ target isConst, type = .pointer target isConst → result.modifier = none →
    result.type = .object ∨ result.type.Unnamed
  characters : ∀ code isConst, type = .pointer (.primitive code) isConst → result.type ≠ .string

/-- No primitive type has the name of the type of texts. -/
theorem primitive_word {code name : String} (found : NativeType.primitiveNames.lookup code = some name) :
    TargetType.word name ≠ .string := by
  obtain ⟨before, after, entries, _⟩ := List.lookup_eq_some_iff.mp found
  have entry : (code, name) ∈ NativeType.primitiveNames := by simp [entries]
  have others : ∀ p ∈ NativeType.primitiveNames, p.2 ≠ "string" := by decide
  intro same
  injection same with same
  injection same with _ same
  exact others _ entry same

/-- The standard replacements are the type of identifiers. -/
theorem standard_replacement {name : String} {type : TargetType}
    (found : Substitutions.standard.types.get? name = some type) : type = .named guidName := by
  have member := Table.mem_of_lookupIn found
  simp only [Substitutions.standard, List.mem_cons, List.not_mem_nil, or_false, Prod.mk.injEq] at member
  rcases member with ⟨_, same⟩ | ⟨_, same⟩
  · exact same
  · exact same

theorem standard_constant {name special : String}
    (found : Substitutions.standard.constVariants.get? name = some special) : special ∈ constantTexts := by
  have member := Table.mem_of_lookupIn found
  simp only [Substitutions.standard, List.mem_cons, List.not_mem_nil, or_false, Prod.mk.injEq] at member
  rcases member with ⟨_, rfl⟩ | ⟨_, rfl⟩ <;> simp [constantTexts]

/-- Function pointers are what delegates are written as. -/
theorem functionPointer_unnamed (depth : Nat) (t : TypeDefinition) :
    Gen.Gives env ((Links.upTo depth).functionPointer t) TargetType.Unnamed := by
  cases depth with
  | zero => nofun
  | succ depth =>
    intro s type u ends
    obtain ⟨v, ran, -⟩ := inExpansion_ok ends
    obtain ⟨params, w, -, ran⟩ := Gen.bind_ok ran
    obtain ⟨returns, x, -, ran⟩ := Gen.bind_ok ran
    obtain ⟨rfl, -⟩ := Gen.pure_ok ran
    exact nofun

section
variable (pointers : ∀ t, Gen.Gives env (links.functionPointer t) TargetType.Unnamed)
include pointers

theorem projectDefinition_shown {reference : QualifiedName} {usage : Usage} {d : TypeDefinition}
    (means : Means env reference d) :
    Gen.Gives env (projectDefinition links d env.signatureContext)
      (NameShown env reference usage ·.type) := by
  have plain : Gen.Gives env (needsUnmanagedVariant d env.signatureContext) (· = false) := by
    unfold needsUnmanagedVariant
    refine (Judgement.all env).read ?_
    rw [if_neg (by simp [Environment.signatureContext])]
    exact .pure rfl
  unfold projectDefinition
  split
  · exact .bind .any fun _ _ => .pure (.defined means)
  · refine .bind plain fun unmanaged is => .bind .any fun _ _ => .pure ?_
    subst is
    exact .defined means
  · unfold projectInterface
    refine .bind .any fun conforming _ => ?_
    split
    · exact .bind .any fun _ _ => .pure (.defined means)
    · refine .bind .any fun _ _ => .bind .any fun _ _ => .pure (.unnamed nofun)
  · split
    · exact .bind .any fun _ _ => .pure (.defined means)
    · exact .bind (pointers d) fun type unnamed => .pure (.unnamed unnamed)

theorem projectName_shown (standard : env.substitutions = .standard) (reference : QualifiedName)
    (usage : Usage) :
    Gen.Gives env (projectName links reference env.signatureContext usage)
      (NameShown env reference usage ·.type) := by
  unfold projectName
  refine (Judgement.all env).read ?_
  dsimp only
  split
  · next found =>
    rw [standard] at found
    obtain rfl := standard_replacement found
    exact .pure .replaced
  · split
    · next name found =>
      have special : Gen.Gives env (links.special name) fun template =>
          env.templates.get? name = some template := by
        unfold Links.special
        refine (Judgement.all env).read ?_
        split
        · exact .fault _
        · next held => exact .bind .any fun _ _ => .pure held
      obtain ⟨isConst, found⟩ := Option.ite_none_right_eq_some.mp found
      rw [standard] at found
      exact .bind special fun template held => .pure (.text isConst (standard_constant found) held)
    · refine .bind ((Judgement.all env).steady (resolve_steady reference)) fun found always => ?_
      split
      · exact projectDefinition_shown pointers always
      · unfold projectUnknown
        refine (Judgement.all env).read ?_
        split
        · next held =>
          split
          · exact .bind .any fun _ _ => .pure (.special always held)
          · exact .fault _
        · exact .fault _

theorem projectReferred_shown (target : NativeType) (context : Context) (usage : Usage)
    (element : Projection) :
    Gen.Gives env (projectReferred links target context usage element) fun result =>
      result.type.Unnamed ∨ result.modifier ≠ none ∧ (result.type = .nint ∨ result.type = element.type) := by
  unfold projectReferred
  dsimp only
  split
  · exact .pure (.inl nofun)
  · split
    · refine .bind .any fun _ _ => ?_
      split
      · exact .pure (.inr ⟨nofun, .inl rfl⟩)
      · exact .pure (.inr ⟨nofun, .inr rfl⟩)
    · refine .bind .any fun found _ => ?_
      split
      · exact .bind (pointers _) fun type unnamed => .pure (.inl unnamed)
      · split
        · exact .pure (.inl nofun)
        · exact .pure (.inl nofun)

/-- A pointer is shown with something around its target, or as all objects, unless it is passed by
    reference. -/
theorem projectPointer_shown (target : NativeType) (context : Context) (usage : Usage)
    (element : Projection) :
    Gen.Gives env (projectPointer links target context usage element) fun result =>
      (result.type = .object ∨ result.type.Unnamed) ∨
        result.modifier ≠ none ∧ (result.type = .nint ∨ result.type = element.type) := by
  unfold projectPointer
  refine .either fun managed => ?_
  dsimp only
  split
  · exact (projectReferred_shown pointers target context usage element).imp fun _ shown =>
      shown.imp_left .inr
  · split
    · exact .pure (.inl (.inl rfl))
    · exact .pure (.inl (.inr nofun))

theorem project_shown (standard : env.substitutions = .standard) (type : NativeType) (usage : Usage) :
    Gen.Gives env (project links type env.signatureContext usage) (Shown env type usage) := by
  cases type with
  | primitive code =>
    unfold project
    split
    · exact .pure ⟨fun _ => rfl, by simp, by simp, by simp⟩
    · exact .fault _
  | pointer target isConst =>
    unfold project
    refine .bind (P := fun element => ∀ code, target = .primitive code → element.type ≠ .string) ?_
      fun element word => ?_
    · cases target with
      | primitive code =>
        unfold project
        split
        · next name found => exact .pure fun _ _ => primitive_word found
        · exact .fault _
      | pointer | array | handle | function => exact .imp .any fun _ _ => by simp
    · refine (projectPointer_shown pointers target _ usage element).imp fun result shown => ?_
      refine ⟨by simp [isIntegerType], by simp, ?_, ?_⟩
      · rintro _ _ ⟨⟩ unmodified
        exact shown.resolve_right fun modified => modified.1 unmodified
      · rintro code _ ⟨⟩ is
        rcases shown with (object | unnamed) | ⟨-, nint | same⟩
        · simp [object, TargetType.object, TargetType.string, TargetType.word] at is
        · exact unnamed _ is
        · simp [nint, TargetType.nint, TargetType.string, TargetType.word] at is
        · exact word code rfl (same.symm.trans is)
  | array elementType lengths =>
    exact .imp .any fun _ _ => ⟨by simp [isIntegerType], by simp, by simp, by simp⟩
  | handle reference =>
    unfold project
    refine (projectName_shown pointers standard reference usage).imp fun result shown => ?_
    refine ⟨by simp [isIntegerType], ?_, by simp, by simp⟩
    rintro _ ⟨⟩
    exact shown
  | function params returns =>
    exact .imp .any fun _ _ => ⟨by simp [isIntegerType], by simp, by simp, by simp⟩

end

/-! ## Handles -/

/-- A handle is found for a name that means a type, by the release function that the index has for the full
    name of the type. -/
inductive Released (env : Environment) (Q : String → GuardedHandle → Prop) (f : Function) :
    NativeType → GuardedHandle → Prop
  | intro {reference : QualifiedName} {t : TypeDefinition} {release : String} {handle : GuardedHandle}
      (means : Means env reference t) (releases : env.index.releaseFor? t.full = some release)
      (other : release ≠ f.name) (found : Q release handle) : Released env Q f (.handle reference) handle

theorem Released.imp {Q Q' : String → GuardedHandle → Prop} {type : NativeType} {handle : GuardedHandle}
    (released : Released env Q f type handle) (implies : ∀ name, Q name handle → Q' name handle) :
    Released env Q' f type handle := by
  cases released with
  | intro means releases other found => exact .intro means releases other (implies _ found)

theorem Released.means {Q : String → GuardedHandle → Prop} {type : NativeType} {handle : GuardedHandle}
    (released : Released env Q f type handle) :
    ∃ reference d, type = .handle reference ∧ Means env reference d := by
  cases released with
  | intro means => exact ⟨_, _, rfl, means⟩

theorem Released.found {Q : String → GuardedHandle → Prop} {type : NativeType} {handle : GuardedHandle}
    (released : Released env Q f type handle) : ∃ name, Q name handle := by
  cases released with
  | intro _ _ _ found => exact ⟨_, found⟩

/-- What is found for a type: what is told of the release function that the index has for the full name of a
    type that is meant, or nothing if there is no such function but the one that asks. -/
inductive HandleFound (env : Environment) (Q : String → Option GuardedHandle → Prop) (f : Function) :
    NativeType → Option GuardedHandle → Prop
  | released {reference : QualifiedName} {t : TypeDefinition} {release : String}
      {found : Option GuardedHandle} (means : Means env reference t)
      (releases : env.index.releaseFor? t.full = some release) (other : release ≠ f.name)
      (told : Q release found) : HandleFound env Q f (.handle reference) found
  | unreleased {type : NativeType} (without : ∀ handle, ¬ Released env (fun _ _ => True) f type handle) :
      HandleFound env Q f type none

/-- A handle that is found is released. -/
theorem HandleFound.released_of {Q : String → Option GuardedHandle → Prop}
    {R : String → GuardedHandle → Prop} {type : NativeType} {found : Option GuardedHandle}
    (looked : HandleFound env Q f type found) (told : ∀ name handle, Q name (some handle) → R name handle)
    (handle : GuardedHandle) (same : found = some handle) : Released env R f type handle := by
  subst same
  cases looked with
  | released means releases other holds => exact .intro means releases other (told _ _ holds)

/-- What is told of the handle that is found for a release function, which is none unless handles are
    guarded. -/
def GuardFound (env : Environment) (Q : String → Option GuardedHandle → Prop) (name : String)
    (found : Option GuardedHandle) : Prop :=
  if env.options.useGuardedHandles then Q name found else found = none

theorem GuardFound.guarded {Q : String → Option GuardedHandle → Prop} {name : String} {handle : GuardedHandle}
    (found : GuardFound env Q name (some handle)) :
    env.options.useGuardedHandles = true ∧ Q name (some handle) := by
  unfold GuardFound at found
  split at found
  · next guarded => exact ⟨guarded, found⟩
  · cases found

/-- What is built for a release function, in all states. -/
def BuildsFound (env : Environment) (name : String) (found : Option GuardedHandle) : Prop :=
  ∀ s, buildHandle name env s = .ok found s

/-- A handle is found for a type exactly if handles are guarded and its release function backs it. -/
theorem HandleFound.iff_released {type : NativeType} {found : Option GuardedHandle}
    (looked : HandleFound env (GuardFound env (BuildsFound env)) f type found) (handle : GuardedHandle) :
    found = some handle ↔ env.options.useGuardedHandles = true ∧ Released env (Builds env) f type handle := by
  constructor
  · intro same
    subst same
    cases looked with
    | released means releases other told =>
      obtain ⟨guarded, builds⟩ := told.guarded
      exact ⟨guarded, .intro means releases other builds⟩
  · rintro ⟨guarded, own⟩
    cases looked with
    | unreleased without => exact absurd (own.imp fun _ _ => trivial) (without handle)
    | released means releases other told =>
      cases own with
      | intro means' releases' other' builds =>
        have alike := (means {}).symm.trans (means' {})
        cases alike
        cases releases.symm.trans releases'
        rw [GuardFound, if_pos guarded] at told
        exact (EStateM.Result.ok.inj ((told {}).symm.trans (builds {}))).1

theorem handleFor_tells {J : Judgement env} {Q : String → Option GuardedHandle → Prop}
    (handles : ∀ name, J.Tells (links.guardedHandle name) (Q name)) (type : NativeType) :
    J.Tells (handleFor links type f) (HandleFound env Q f type) := by
  unfold handleFor
  split
  · next reference =>
    refine J.bind (J.steady (resolve_steady reference)) fun found always => ?_
    split
    · refine J.pure (.unreleased fun handle released => ?_)
      cases released with
      | intro means => cases (always {}).symm.trans (means {})
    · next t =>
      have alike : ∀ u, Means env reference u → u = t := fun u means => by
        cases (always {}).symm.trans (means {})
        rfl
      refine J.read ?_
      split
      · next missing =>
        refine J.pure (.unreleased fun handle released => ?_)
        cases released with
        | intro means releases =>
          obtain rfl := alike _ means
          cases missing.symm.trans releases
      · next release releases =>
        split
        · next own =>
          refine J.pure (.unreleased fun handle released => ?_)
          cases released with
          | intro means releases' other =>
            obtain rfl := alike _ means
            cases releases.symm.trans releases'
            exact other own
        · next other => exact J.imp (handles release) fun found told => .released always releases other told
  · next others =>
    refine J.pure (.unreleased fun handle released => ?_)
    cases released with
    | intro => exact others _ rfl

/-! ## Handles in open transactions -/

/-- What is told of the results of computations in open transactions of states whose memory is right. -/
def Judgement.traced (U : Upkeep env) : Judgement env where
  Tells x P := Traces U P x
  pure := Traces.pure
  fault _ := Traces.throw _
  bind := Traces.bind
  steady steady _ _ _ holds :=
    .steady steady (fun _ always => ⟨holds, always, .refl _, [], .same rfl rfl, by simp⟩) holds

/-- What all results have is told of those of a computation that is traced. -/
theorem Traces.told {α : Type} {U : Upkeep env} {P : α → Prop} {x : Gen α}
    (traces : Traces U (fun _ => True) x) (gives : Gen.Gives env x P) : Traces U P x := by
  intro id s inside holds
  have leads := traces id s inside holds
  unfold Gen.Leads at leads ⊢
  cases ended : x env s with
  | error e t =>
    rw [ended] at leads
    exact leads
  | ok a t =>
    rw [ended] at leads
    obtain ⟨kept, -, carries⟩ := leads
    exact ⟨kept, gives s a t ended, carries⟩

section
variable (consistent : env.index.Consistent) {U : Upkeep env}
include consistent

/-- What is told of the answers that are remembered is told of what is found and produced. -/
theorem guardedHandle_traced {Q : String → Option GuardedHandle → Prop}
    (asked : ∀ name {s}, U.Holds s → Gen.Leads env s (guardedHandle? name)
      (fun answer t => U.Holds t ∧ Q name answer) U.Holds)
    (backed : ∀ {name handle}, Q name (some handle) → handle.Backed env) (depth : Nat) (name : String) :
    (Judgement.traced U).Tells ((Links.upTo depth).guardedHandle name) (GuardFound env Q name) := by
  unfold Links.guardedHandle GuardFound
  refine (Judgement.traced U).read ?_
  cases guarded : env.options.useGuardedHandles with
  | false => exact Traces.pure rfl
  | true =>
    refine Traces.bind (.asking (guardedHandle?_secluded name) (guardedHandle?_recalling name)
      (asked name)) fun found told => ?_
    cases found with
    | none => exact .pure told
    | some handle =>
      exact Traces.bind ((traced_linked consistent U depth).demand _ (.guardedHandle (backed told)))
        fun _ _ => .pure told

/-- In a state with a faithful memory that is found which is built for a release function. -/
theorem guardedHandle_faithful (depth : Nat) (name : String) :
    (Judgement.traced (.faithful env)).Tells ((Links.upTo depth).guardedHandle name)
      (GuardFound env (BuildsFound env) name) :=
  guardedHandle_traced consistent (U := .faithful env)
    (fun name _ holds => holds.2.guardedHandle? holds.1 name) (fun builds => ⟨_, builds⟩) depth name

end

/-! ## Assembly -/

/-- An overload is put together from an outcome for each parameter and from what was found for its result. -/
structure Assembled (env : Environment) (Wraps : NativeType → Option GuardedHandle → Prop) (f : Function)
    (raw : EntryPoint) (outcomes : List ParamOutcome) (guard : Option GuardedHandle) (o : Overload) :
    Prop where
  declared : raw.DeclaredFor f
  params : ∀ (i : Nat) p r, f.params[i]? = some p → raw.params[i]? = some r →
    ∃ result, Shown env p.type p.usage result ∧ r.type = result.type ∧ r.modifier = result.modifier
  returns : ∃ result, Shown env f.returns {} result ∧ raw.returnType = result.type
  complete : raw.params.length = outcomes.length
  arises : ∀ (i : Nat) (oc : ParamOutcome), outcomes[i]? = some oc →
    ∃ p r, f.params[i]? = some p ∧ raw.params[i]? = some r ∧
    oc.Arises Wraps f (countedParams f raw) i p r
  guarded : Wraps f.returns guard
  made : assemble raw outcomes guard = some o

section
variable {Wraps : NativeType → Option GuardedHandle → Prop} {outcomes : List ParamOutcome}
  {guard : Option GuardedHandle} {o : Overload}

theorem Overload.Arises.assembled (arises : o.Arises Wraps f raw outcomes guard)
    (declares : raw.Declares (Shown env) f) : Assembled env Wraps f raw outcomes guard o := by
  have declared : raw.DeclaredFor f := declares.declaredFor fun _ _ _ shown => shown.integer
  exact {
    declared
    params := fun i p r there here => (declares.params i p r there here).2
    returns := declares.returns
    complete := declared.outcomes arises.complete
    arises := arises.each
    guarded := arises.guarded
    made := arises.made }

end

/-- Every overload among the declarations of a function is put together from what the rules give. -/
theorem functionDecls_assembled {J : Judgement env} {Wraps : NativeType → Option GuardedHandle → Prop}
    (wraps : ∀ type, J.Tells (handleFor links type f) (Wraps type))
    (projects : ∀ type usage, J.Tells (project links type env.signatureContext usage)
      (Shown env type usage)) :
    J.Tells (functionDecls links f) fun decls => ∀ o, .overload o ∈ decls → ∃ raw,
      decls = [.entryPoint raw, .overload o] ∧ ∃ outcomes guard,
        Assembled env Wraps f raw outcomes guard o := by
  refine functionDecls_overloads projects fun raw declares => ?_
  refine J.imp (overload?_arises wraps) fun found arise o same => ?_
  obtain ⟨outcomes, guard, arises⟩ := arise o same
  exact ⟨outcomes, guard, arises.assembled declares⟩

end Bindings
