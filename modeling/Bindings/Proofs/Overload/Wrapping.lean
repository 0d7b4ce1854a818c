import Bindings.Proofs.Overload.Distinction

/-!
# Which handles are wrapped

An overload has a wrapper where the release function that the index has for a type backs a handle. The index
has one for each full name: the one that the documents declare last, whichever variant of the type is meant.
A function that has the name of that release function wraps nothing of the type.
-/

namespace Bindings
open Bindings.Metadata

variable {env : Environment} {s t : State} {links : Links} {f : Function} {raw : EntryPoint} {o : Overload}

/-! ## Wrappers in an overload -/

/-- What is told of the wrappers of an overload, by the native type that is wrapped, the name of the wrapper
    and the type that the overload has in its place: of what is passed in, of what is passed out, and of the
    result. -/
structure Overload.Wraps (W : NativeType → String → TargetType → Prop) (f : Function) (o : Overload) :
    Prop where
  input : ∀ c ∈ o.transforms, ∀ wrapper, c.change = .guardedHandle wrapper →
    ∃ p type, f.params[c.index]? = some p ∧ c.newType = some type ∧ W p.type wrapper type
  output : ∀ c ∈ o.transforms, ∀ wrapper, c.change = .guardedHandleOut wrapper →
    ∃ p target isConst type, f.params[c.index]? = some p ∧ p.type = .pointer target isConst ∧
      c.newType = some type ∧ W target wrapper type
  filled : ∀ param name wrapper, .wrapOutHandle param name wrapper ∈ o.body →
    ∃ c ∈ o.transforms, c.param = param ∧ c.change = .guardedHandleOut wrapper
  result : ∀ source target wrapper, .wrapReturnedHandle source target wrapper ∈ o.body →
    W f.returns wrapper o.returnType
  returned : o.returnType = o.raw.returnType ∨
    ∃ source target wrapper, .wrapReturnedHandle source target wrapper ∈ o.body

theorem Overload.Wraps.imp {W W' : NativeType → String → TargetType → Prop} (wraps : o.Wraps W f)
    (implies : ∀ type wrapper shown, W type wrapper shown → W' type wrapper shown) : o.Wraps W' f where
  input c member wrapper change := by
    obtain ⟨p, type, param, new, told⟩ := wraps.input c member wrapper change
    exact ⟨p, type, param, new, implies _ _ _ told⟩
  output c member wrapper change := by
    obtain ⟨p, target, isConst, type, param, pointer, new, told⟩ := wraps.output c member wrapper change
    exact ⟨p, target, isConst, type, param, pointer, new, implies _ _ _ told⟩
  filled := wraps.filled
  result source target wrapper member := implies _ _ _ (wraps.result source target wrapper member)
  returned := wraps.returned

/-- The wrapper of a handle that was found for a native type. -/
inductive WrapperFound (Wraps : NativeType → Option GuardedHandle → Prop) :
    NativeType → String → TargetType → Prop
  | intro {type : NativeType} {handle : GuardedHandle} (found : Wraps type (some handle)) :
      WrapperFound Wraps type handle.name (.named ⟨handle.space, handle.name⟩)

/-- The wrapper that a change to a parameter brings. -/
def Change.wrapper? : Change → Option String
  | guardedHandle wrapper | guardedHandleOut wrapper => some wrapper
  | _ => none

/-- The wrapper that a statement makes. -/
def Statement.wrapper? : Statement → Option String
  | wrapOutHandle _ _ wrapper | wrapReturnedHandle _ _ wrapper => some wrapper
  | _ => none

/-- How wrappers come into what becomes of a parameter. -/
inductive ParamOutcome.Wrapping (Wraps : NativeType → Option GuardedHandle → Prop) (index : Nat) (p : Param) :
    ParamOutcome → Prop
  | input {r : ParamDecl} {handle : GuardedHandle} (found : Wraps p.type (some handle)) :
      Wrapping Wraps index p (.planned (handlePlan index p r handle))
  | output {target : NativeType} {isConst : Bool} {handle : GuardedHandle}
      (type : p.type = .pointer target isConst) (found : Wraps target (some handle)) :
      Wrapping Wraps index p (.planned (handleOutPlan index p handle))
  | none {oc : ParamOutcome} (noted : ∀ c, oc.transform? = some c → c.change.wrapper? = none)
      (stated : ∀ x ∈ oc.checks ++ oc.before ++ oc.after, x.wrapper? = none) : Wrapping Wraps index p oc

section
variable {Wraps : NativeType → Option GuardedHandle → Prop} {index : Nat} {p : Param} {r : ParamDecl}

theorem ParamPlan.Arises.wrapping {plan : ParamPlan} {count : Option Nat}
    (arises : plan.Arises Wraps index p r count) : ParamOutcome.Wrapping Wraps index p (.planned plan) := by
  have unwrapped : ∀ {plan : ParamPlan}, (∀ c, plan.transform = some c → c.change.wrapper? = none) →
      (∀ x ∈ plan.before ++ plan.after, x.wrapper? = none) →
      ParamOutcome.Wrapping Wraps index p (.planned plan) := fun noted stated => .none noted stated
  cases arises with
  | handle found => exact .input found
  | handleOut type unmodified found => exact .output type found
  | countedSpan => exact unwrapped (by rintro _ ⟨⟩; rfl) (by simp [countedSpanPlan, Statement.wrapper?])
  | fixedSpan => exact unwrapped (by rintro _ ⟨⟩; rfl) (by simp [fixedSpanPlan, Statement.wrapper?])
  | text => exact unwrapped (by rintro _ ⟨⟩; rfl) (by simp [textPlan, Statement.wrapper?])
  | reference => exact unwrapped (by rintro _ ⟨⟩; rfl) (by simp [referencePlan, Statement.wrapper?])
  | nullable => exact unwrapped (by rintro _ ⟨⟩; rfl) (by simp [nullablePlan, Statement.wrapper?])
  | passing => exact unwrapped (by rintro _ ⟨⟩) (by simp [ParamPlan.passing])

theorem ParamOutcome.Arises.wrapping {oc : ParamOutcome} {counted : List (Nat × Nat)}
    (arises : oc.Arises Wraps f counted index p r) : oc.Wrapping Wraps index p := by
  cases arises with
  | planned none arises => exact arises.wrapping
  | removed some =>
    refine .none (by rintro _ ⟨⟩; rfl) fun x member => ?_
    simp only [removedParam, checks, before, after, List.append_nil] at member
    split at member
    · rw [List.mem_singleton.mp member]
      rfl
    · cases member

end

/-! ## Where wrappers come from -/

section
variable {Wraps : NativeType → Option GuardedHandle → Prop} {outcomes : List ParamOutcome}
  {guard : Option GuardedHandle}

theorem mem_returnStatements {hasResult : Bool} {x : Statement} {wrapper : String}
    (member : x ∈ returnStatements hasResult guard) (wraps : x.wrapper? = some wrapper) :
    ∃ handle, guard = some handle ∧ x = .wrapReturnedHandle resultLocal wrappedLocal handle.name := by
  unfold returnStatements at member
  split at member
  · next handle =>
    rcases List.mem_cons.mp member with rfl | last
    · exact ⟨handle, rfl, rfl⟩
    · rw [List.mem_singleton.mp last] at wraps
      cases wraps
  · split at member
    · rw [List.mem_singleton.mp member] at wraps
      cases wraps
    · cases member

/-- A statement that makes a wrapper is one for a parameter, or wraps what was found for the result. -/
theorem assemble_wrapper (made : assemble raw outcomes guard = some o) {x : Statement} {wrapper : String}
    (member : x ∈ o.body) (wraps : x.wrapper? = some wrapper) :
    (∃ oc ∈ outcomes, x ∈ oc.checks ++ oc.before ++ oc.after) ∨
      ∃ handle, guard = some handle ∧ x = .wrapReturnedHandle resultLocal wrappedLocal handle.name := by
  unfold assemble at made
  dsimp only at made
  split at made
  · cases made
  · obtain rfl := Option.some.inj made
    simp only [List.mem_append, List.mem_flatMap, List.mem_singleton] at member
    rcases member with (((⟨oc, listed, inside⟩ | ⟨oc, listed, inside⟩) | rfl) | ⟨oc, listed, inside⟩) | last
    · exact .inl ⟨oc, listed, by simp [inside]⟩
    · exact .inl ⟨oc, listed, by simp [inside]⟩
    · cases wraps
    · exact .inl ⟨oc, listed, by simp [inside]⟩
    · exact .inr (mem_returnStatements last wraps)

/-- The result of an overload is as its entry point has it, unless it is wrapped. -/
theorem assemble_result (made : assemble raw outcomes guard = some o) :
    match guard with
    | some handle => o.returnType = .named ⟨handle.space, handle.name⟩ ∧
        .wrapReturnedHandle resultLocal wrappedLocal handle.name ∈ o.body
    | none => o.returnType = o.raw.returnType := by
  unfold assemble at made
  dsimp only at made
  split at made
  · cases made
  · obtain rfl := Option.some.inj made
    cases guard with
    | some handle => exact ⟨rfl, by simp [returnStatements]⟩
    | none => rfl

/-- What is noted of a change of parameter is noted by one of the outcomes. -/
theorem Overload.Arises.noted (arises : o.Arises Wraps f raw outcomes guard) {c : ParamTransform}
    (member : c ∈ o.transforms) : ∃ (i : Nat) (oc : ParamOutcome) (p : Param),
      oc.transform? = some c ∧ f.params[i]? = some p ∧ oc.Wrapping Wraps i p := by
  rw [(assemble_madeOf arises.made).transforms] at member
  obtain ⟨oc, listed, noted⟩ := List.mem_filterMap.mp member
  obtain ⟨i, there⟩ := List.mem_iff_getElem?.mp listed
  obtain ⟨p, r, param, -, own⟩ := arises.each i oc there
  exact ⟨i, oc, p, noted, param, own.wrapping⟩

/-- Among the statements for parameters only those for what is passed out make wrappers. -/
theorem Overload.Arises.filled (arises : o.Arises Wraps f raw outcomes guard) {oc : ParamOutcome}
    (listed : oc ∈ outcomes) {x : Statement} (inside : x ∈ oc.checks ++ oc.before ++ oc.after)
    {wrapper : String} (wraps : x.wrapper? = some wrapper) :
    ∃ param name, x = .wrapOutHandle param name wrapper ∧
      ∃ c ∈ o.transforms, c.param = param ∧ c.change = .guardedHandleOut wrapper := by
  obtain ⟨i, there⟩ := List.mem_iff_getElem?.mp listed
  obtain ⟨p, _, -, -, own⟩ := arises.each i oc there
  cases own.wrapping with
  | input found =>
    obtain rfl | rfl : x = _ ∨ x = _ := by
      simpa [ParamOutcome.checks, ParamOutcome.before, ParamOutcome.after, handlePlan] using inside
    · cases wraps
    · cases wraps
  | @output target isConst handle type found =>
    obtain rfl : x = _ := by
      simpa [ParamOutcome.checks, ParamOutcome.before, ParamOutcome.after, handleOutPlan] using inside
    cases wraps
    have noted : (ParamOutcome.planned (handleOutPlan i p handle)).transform? = some
      ⟨i, p.name, some (.named ⟨handle.space, handle.name⟩), .guardedHandleOut handle.name⟩ := rfl
    have held := List.mem_filterMap.mpr ⟨_, listed, noted⟩
    rw [← (assemble_madeOf arises.made).transforms] at held
    exact ⟨_, _, rfl, _, held, rfl, rfl⟩
  | none _ stated =>
    rw [stated x inside] at wraps
    cases wraps

/-- The wrappers of an overload are those that were found for its parameters and for its result. -/
theorem Overload.Arises.wraps (arises : o.Arises Wraps f raw outcomes guard) :
    o.Wraps (WrapperFound Wraps) f where
  input c member wrapper change := by
    obtain ⟨i, oc, p, noted, param, own⟩ := arises.noted member
    cases own with
    | input found =>
      cases noted
      cases change
      exact ⟨p, _, param, rfl, .intro found⟩
    | output type found =>
      cases noted
      cases change
    | none plain _ => simpa [change, Change.wrapper?] using plain c noted
  output c member wrapper change := by
    obtain ⟨i, oc, p, noted, param, own⟩ := arises.noted member
    cases own with
    | input found =>
      cases noted
      cases change
    | output type found =>
      cases noted
      cases change
      exact ⟨p, _, _, _, param, type, rfl, .intro found⟩
    | none plain _ => simpa [change, Change.wrapper?] using plain c noted
  filled param name wrapper member := by
    rcases assemble_wrapper arises.made member rfl with ⟨oc, listed, inside⟩ | ⟨handle, -, same⟩
    · obtain ⟨_, _, same, held⟩ := arises.filled listed inside rfl
      cases same
      exact held
    · cases same
  result source target wrapper member := by
    rcases assemble_wrapper arises.made member rfl with ⟨oc, listed, inside⟩ | ⟨handle, rfl, same⟩
    · obtain ⟨_, _, same, _⟩ := arises.filled listed inside rfl
      cases same
    · cases same
      rw [(assemble_result arises.made).1]
      exact .intro arises.guarded
  returned := by
    have result := assemble_result arises.made
    cases guard with
    | some handle => exact .inr ⟨_, _, _, result.2⟩
    | none => exact .inl result

end

/-! ## Which release function -/

/-- A wrapper for a type is that of the handle which is backed by the release function that the documents
    declare last for the full name of the type that is meant. It is what this type declares if its variants
    release alike. -/
inductive WrapsLast (env : Environment) (definitions : List Definition) (f : Function) :
    NativeType → String → TargetType → Prop
  | intro {reference : QualifiedName} {t : TypeDefinition} {release : String} {handle : GuardedHandle}
      (means : Means env reference t) (last : lastRelease? t.full definitions = some release)
      (own : t.ReleasesAlike definitions → t.release? = some release) (other : release ≠ f.name)
      (builds : Builds env release handle) :
      WrapsLast env definitions f (.handle reference) handle.name (.named ⟨handle.space, handle.name⟩)

/-- The producer of a function gives overloads that wrap what the index releases. -/
theorem functionDecls_wraps (consistent : env.index.Consistent) (depth : Nat) :
    Traces (.faithful env) (fun decls => ∀ o, .overload o ∈ decls → ∃ raw,
      decls = [.entryPoint raw, .overload o] ∧
        o.Wraps (WrapperFound fun type found => ∀ handle, found = some handle →
          Released env (Builds env) f type handle) f) (functionDecls (Links.upTo depth) f) := by
  have wraps : ∀ type, (Judgement.traced (.faithful env)).Tells (handleFor (Links.upTo depth) type f)
      fun found => ∀ handle, found = some handle → Released env (Builds env) f type handle := fun type =>
    (Judgement.traced _).imp (handleFor_tells (guardedHandle_faithful consistent depth) type)
      fun found looked => looked.released_of fun _ _ told => told.guarded.2
  have projects : ∀ type usage, (Judgement.traced (.faithful env)).Tells
      (project (Links.upTo depth) type env.signatureContext usage) fun _ => True := fun type usage =>
    project_matches (C := .tracing consistent (.faithful env)) (traced_linked consistent _ depth) type
      env.signatureContext usage
  refine functionDecls_overloads (J := .traced (.faithful env)) (S := fun _ _ _ => True) projects
    fun raw _ => (Judgement.traced _).imp (overload?_arises wraps) ?_
  intro found arise o same
  obtain ⟨outcomes, guard, arises⟩ := arise o same
  exact arises.wraps

/-- The overload that is durable behind an entry point. -/
def durableOverload? : Option (List Declaration) → Option Overload
  | some [_, .overload o] => some o
  | _ => none

theorem durableOverload?_eq_some {durable : Option (List Declaration)} (found : durableOverload? durable = some o) :
    ∃ decls, durable = some decls ∧ .overload o ∈ decls := by
  unfold durableOverload? at found
  split at found
  · obtain rfl := Option.some.inj found
    exact ⟨_, rfl, by simp⟩
  · cases found

/-- The name that a native type is. -/
def handleNamed? : NativeType → Option QualifiedName
  | .handle reference => some reference
  | _ => none

theorem handleNamed?_eq_some {type : NativeType} {reference : QualifiedName}
    (found : handleNamed? type = some reference) : type = .handle reference := by
  unfold handleNamed? at found
  split at found
  · obtain rfl := Option.some.inj found
    rfl
  · cases found

section
variable {roots : List Markup.Element} (built : Index.ofDocuments roots = .ok env.index)
  (requests : List PublicRequest) {decls : List Declaration}
include built

/-- A type that is meant is defined in the documents. -/
theorem Means.defined {definitions : List Definition} {reference : QualifiedName} {t : TypeDefinition}
    (read : readDocuments roots = .ok definitions) (means : Means env reference t) :
    .type t ∈ definitions := by
  obtain ⟨others, readOthers, lists⟩ := Index.ofDocuments_lists built
  cases read.symm.trans readOthers
  have held := (means.chooses (Index.ofDocuments_consistent built)).2
  rw [lists.named] at held
  exact (List.mem_filter.mp held).1

/-- The index releases a type that is meant as the type declares, if its variants release alike. -/
theorem Means.releases {definitions : List Definition} {reference : QualifiedName} {t : TypeDefinition}
    (read : readDocuments roots = .ok definitions) (means : Means env reference t)
    (alike : t.ReleasesAlike definitions) : env.index.releaseFor? t.full = t.release? := by
  obtain ⟨others, readOthers, releases⟩ := Index.ofDocuments_releases built
  cases read.symm.trans readOthers
  exact (releases t.full).trans (alike.last (means.defined built read))

/-- An overload that is durable in a session wraps what the index releases. -/
theorem session_wraps {key : EntityKey}
    (durable : (env.session requests).ledger.committed.get? key = some decls)
    (overloaded : .overload o ∈ decls) : ∃ f, (Entity.function f).key = key ∧
      (Entity.function f).Offered env ∧ o.Wraps (WrapperFound fun type found => ∀ handle,
        found = some handle → Released env (Builds env) f type handle) f := by
  have consistent := Index.ofDocuments_consistent built
  have begins : (Upkeep.faithful env).Holds {} := ⟨⟨rfl, rfl, rfl⟩, nofun⟩
  obtain ⟨f, own, offered, depth, id, u, v, inside, holds, ran⟩ :=
    session_overloaded consistent begins requests durable overloaded
  obtain ⟨-, -, made⟩ := (functionDecls_wraps consistent depth).ended inside holds ran
  obtain ⟨raw, -, wraps⟩ := made o overloaded
  exact ⟨f, own, offered, wraps⟩

/-- Every wrapper in an overload that is durable in a session, of what is passed in or out or of the result,
    is that of the handle which is backed by the release function that the documents declare last for the
    full name of the type. So it is the one that the variant which is meant on the platform declares, and
    there is none if it declares none, as long as the variants of the type release alike. -/
theorem session_wrappers {key : EntityKey}
    (durable : (env.session requests).ledger.committed.get? key = some decls)
    (overloaded : .overload o ∈ decls) : ∃ definitions f, readDocuments roots = .ok definitions ∧
      (Entity.function f).key = key ∧ (Entity.function f).Offered env ∧
        o.Wraps (WrapsLast env definitions f) f := by
  obtain ⟨f, own, offered, wraps⟩ := session_wraps built requests durable overloaded
  obtain ⟨definitions, read, releases⟩ := Index.ofDocuments_releases built
  refine ⟨definitions, f, read, own, offered, wraps.imp ?_⟩
  rintro type wrapper shown ⟨found⟩
  cases found _ rfl with
  | intro means held other builds =>
    exact .intro means ((releases _).symm.trans held)
      (fun alike => (means.releases built read alike).symm.trans held) other builds

/-- A handle with a variant for each of two architectures, and the functions that may release them. -/
def releasingDocument (narrow : String) : Markup.Element :=
  let variant (architecture release : String) : Markup.Element :=
    ⟨"struct", [("name", "HTHING"), ("arch", architecture), ("typedef", "true"), ("release", release)], "",
      [⟨"field", [("name", "Value"), ("type", "isize")], "", []⟩]⟩
  let closing (name : String) : Markup.Element :=
    ⟨"function", [("name", name), ("module", "thing"), ("returns", "bool")], "",
      [⟨"param", [("name", "thing"), ("type", "HTHING")], "", []⟩]⟩
  oneNamespace "Ns" [variant "x64" "CloseWide", variant "arm64" narrow, closing "CloseWide",
    closing "CloseNarrow",
    ⟨"function", [("name", "OpenThing"), ("module", "thing"), ("returns", "HTHING")], "", []⟩]

/-- A session on documents for one architecture. -/
def Environment.onX64 (roots : List Markup.Element) : Environment :=
  { Environment.reading roots with options := { platform := some .x64 } }

omit built in
/-- Both variants are released by the same function, and so is the result of the function that gives one. -/
theorem session_wrappers_alike :
    let env := Environment.onX64 [releasingDocument "CloseWide"]
    ∃ decls o definitions f,
      (env.session [.byName "OpenThing"]).ledger.committed.get? ⟨.function, ⟨"Ns", "OpenThing"⟩, false⟩ =
        some decls ∧ .overload o ∈ decls ∧ o.body.filterMap (·.wrapper?) = ["CloseWideSafeHandle"] ∧
      readDocuments [releasingDocument "CloseWide"] = .ok definitions ∧
      (Entity.function f).key = ⟨.function, ⟨"Ns", "OpenThing"⟩, false⟩ ∧ (Entity.function f).Offered env ∧
      o.Wraps (WrapsLast env definitions f) f := by
  intro env
  have built : Index.ofDocuments [releasingDocument "CloseWide"] = .ok env.index :=
    reading_built (by decide +kernel)
  have wrapped : (durableOverload? ((env.session [.byName "OpenThing"]).ledger.committed.get?
      ⟨.function, ⟨"Ns", "OpenThing"⟩, false⟩)).map (·.body.filterMap (·.wrapper?)) =
        some ["CloseWideSafeHandle"] := by decide +kernel
  obtain ⟨o, found, wrapped⟩ := Option.map_eq_some_iff.mp wrapped
  obtain ⟨decls, durable, overloaded⟩ := durableOverload?_eq_some found
  obtain ⟨definitions, f, read, own, offered, wraps⟩ :=
    session_wrappers built [.byName "OpenThing"] durable overloaded
  exact ⟨decls, o, definitions, f, durable, overloaded, wrapped, read, own, offered, wraps⟩

omit built in
/-- The variant that is meant declares another release function than the one that is wrapped: that of the
    variant for the other architecture, which is declared later. -/
theorem open_wraps_narrow :
    let env := Environment.onX64 [releasingDocument "CloseNarrow"]
    ∃ t handle decls o, Means env ⟨"Ns", "HTHING"⟩ t ∧ t.release? = some "CloseWide" ∧
      Builds env "CloseWide" handle ∧ handle.name = "CloseWideSafeHandle" ∧
      (∃ f ∈ env.index.findFunctions "OpenThing", f.returns = .handle ⟨"Ns", "HTHING"⟩) ∧
      (env.session [.byName "OpenThing"]).ledger.committed.get? ⟨.function, ⟨"Ns", "OpenThing"⟩, false⟩ =
        some decls ∧ .overload o ∈ decls ∧ o.body.filterMap (·.wrapper?) = ["CloseNarrowSafeHandle"] := by
  intro env
  have meant : (meant? env ⟨"Ns", "HTHING"⟩).map (·.release?) = some (some "CloseWide") := by
    decide +kernel
  have backed : (backed? env "CloseWide").map (·.name) = some "CloseWideSafeHandle" := by decide +kernel
  have opens : ∃ f ∈ env.index.findFunctions "OpenThing",
      handleNamed? f.returns = some ⟨"Ns", "HTHING"⟩ := by decide +kernel
  have wrapped : (durableOverload? ((env.session [.byName "OpenThing"]).ledger.committed.get?
      ⟨.function, ⟨"Ns", "OpenThing"⟩, false⟩)).map (·.body.filterMap (·.wrapper?)) =
        some ["CloseNarrowSafeHandle"] := by decide +kernel
  obtain ⟨t, meant, declares⟩ := Option.map_eq_some_iff.mp meant
  obtain ⟨handle, backed, named⟩ := Option.map_eq_some_iff.mp backed
  obtain ⟨o, found, wrapped⟩ := Option.map_eq_some_iff.mp wrapped
  obtain ⟨decls, durable, overloaded⟩ := durableOverload?_eq_some found
  obtain ⟨f, opens, returns⟩ := opens
  exact ⟨t, handle, decls, o, meant?_eq_some meant, declares, backed?_eq_some backed, named,
    ⟨f, opens, handleNamed?_eq_some returns⟩, durable, overloaded, wrapped⟩

/-- An overload of the function that the release attribute of a type designates wraps something of the type
    only if the attribute is the full name of the function, and not its simple name. -/
theorem session_unreleased {g : Function}
    (durable : (env.session requests).ledger.committed.get? (Entity.function g).key = some decls)
    (overloaded : .overload o ∈ decls) : ∃ definitions f, readDocuments roots = .ok definitions ∧
      f.space = g.space ∧ f.name = g.name ∧ (Entity.function f).Offered env ∧
        ∀ t release, t.release? = some release → t.ReleasesAlike definitions →
          g ∈ env.index.findFunctions release → o.Wraps (fun type _ _ => ∀ reference,
            type = .handle reference → Means env reference t → release = g.full ∧ release ≠ g.name) f := by
  obtain ⟨f, own, offered, wraps⟩ := session_wraps built requests durable overloaded
  obtain ⟨definitions, read, -⟩ := Index.ofDocuments_releases built
  simp only [Entity.key, EntityKey.mk.injEq, QualifiedName.mk.injEq, true_and, and_true] at own
  refine ⟨definitions, f, read, own.1, own.2, offered, fun t release declares alike designated => ?_⟩
  refine wraps.imp ?_
  rintro type wrapper shown ⟨found⟩ reference rfl means
  cases found _ rfl with
  | intro meant held other =>
    obtain ⟨rfl⟩ : some t = some _ := (EStateM.Result.ok.inj ((means {}).symm.trans (meant {}))).1
    rw [means.releases built read alike, declares] at held
    obtain rfl := Option.some.inj held
    rw [own.2] at other
    rcases (Index.ofDocuments_consistent built).findFunctions_named designated with simple | full
    · exact absurd simple.symm other
    · exact ⟨full.symm, other⟩

/-- A handle with a release attribute, and a function that releases it and takes a text as well. -/
def closingDocument (release : String) : Markup.Element :=
  oneNamespace "Ns" [
    ⟨"struct", [("name", "HTHING"), ("typedef", "true"), ("release", release)], "",
      [⟨"field", [("name", "Value"), ("type", "isize")], "", []⟩]⟩,
    ⟨"function", [("name", "CloseThing"), ("module", "thing"), ("returns", "bool")], "", [
      ⟨"param", [("name", "thing"), ("type", "HTHING")], "", []⟩,
      ⟨"param", [("name", "reason"), ("type", "const u2*"), ("in", "true"), ("optional", "true")], "", []⟩]⟩]

/-- The function that a release attribute designates, and the overload that is durable for it. -/
def closing? (env : Environment) (release : String) : Option (Function × Overload) :=
  match select (·.architectures) (env.index.findFunctions release) env.options.platformName? release with
  | .ok g => (durableOverload? ((env.session [.byName g.name]).ledger.committed.get?
      (Entity.function g).key)).map (g, ·)
  | .error _ => none

omit built in
theorem closing?_eq_some {release : String} {g : Function} (found : closing? env release = some (g, o)) :
    select (·.architectures) (env.index.findFunctions release) env.options.platformName? release = .ok g ∧
      ∃ decls, (env.session [.byName g.name]).ledger.committed.get? (Entity.function g).key = some decls ∧
        .overload o ∈ decls := by
  unfold closing? at found
  split at found
  · next chosen =>
    obtain ⟨o, held, same⟩ := Option.map_eq_some_iff.mp found
    cases same
    exact ⟨chosen, durableOverload?_eq_some held⟩
  · cases found

omit built in
/-- The attribute is the simple name of the function, whose overload has a text for the reason only. -/
theorem session_unreleased_simple :
    let env := Environment.reading [closingDocument "CloseThing"]
    ∃ g decls o definitions f, g ∈ env.index.findFunctions "CloseThing" ∧
      (env.session [.byName g.name]).ledger.committed.get? (Entity.function g).key = some decls ∧
      .overload o ∈ decls ∧ o.transforms.map (·.change) = [.string true] ∧
      readDocuments [closingDocument "CloseThing"] = .ok definitions ∧
      f.space = g.space ∧ f.name = g.name ∧ (Entity.function f).Offered env ∧
      ∀ t release, t.release? = some release → t.ReleasesAlike definitions →
        g ∈ env.index.findFunctions release → o.Wraps (fun type _ _ => ∀ reference,
          type = .handle reference → Means env reference t → release = g.full ∧ release ≠ g.name) f := by
  intro env
  have built : Index.ofDocuments [closingDocument "CloseThing"] = .ok env.index :=
    reading_built (by decide +kernel)
  have closes : (closing? env "CloseThing").map (·.2.transforms.map (·.change)) = some [.string true] := by
    decide +kernel
  obtain ⟨⟨g, o⟩, found, changes⟩ := Option.map_eq_some_iff.mp closes
  obtain ⟨chosen, decls, durable, overloaded⟩ := closing?_eq_some found
  obtain ⟨definitions, f, read, space, name, offered, wraps⟩ :=
    session_unreleased built [.byName g.name] durable overloaded
  exact ⟨g, decls, o, definitions, f, (mem_of_select chosen).1, durable, overloaded, changes, read, space, name,
    offered, wraps⟩

omit built in
/-- The attribute is the full name of the function, and its overload takes a wrapper for the handle that it
    releases. -/
theorem close_wraps_own :
    let env := Environment.reading [closingDocument "Ns.CloseThing"]
    ∃ t g decls o, Means env ⟨"Ns", "HTHING"⟩ t ∧ t.release? = some "Ns.CloseThing" ∧
      select (·.architectures) (env.index.findFunctions "Ns.CloseThing") env.options.platformName?
        "Ns.CloseThing" = .ok g ∧
      g.params.head?.map (·.type) = some (.handle ⟨"Ns", "HTHING"⟩) ∧
      (env.session [.byName g.name]).ledger.committed.get? (Entity.function g).key = some decls ∧
      .overload o ∈ decls ∧
      o.transforms.head?.map (fun c => (c.index, c.change)) = some (0, .guardedHandle "CloseThingSafeHandle") := by
  intro env
  have meant : (meant? env ⟨"Ns", "HTHING"⟩).map (·.release?) = some (some "Ns.CloseThing") := by
    decide +kernel
  have closes : (closing? env "Ns.CloseThing").any (fun (g, o) =>
      (g.params.head?.bind fun p => handleNamed? p.type) = some ⟨"Ns", "HTHING"⟩ &&
      o.transforms.head?.map (fun c => (c.index, c.change)) =
        some (0, .guardedHandle "CloseThingSafeHandle")) = true := by decide +kernel
  obtain ⟨t, meant, declares⟩ := Option.map_eq_some_iff.mp meant
  obtain ⟨⟨g, o⟩, found, checked⟩ := (Option.any_eq_true _ _).mp closes
  obtain ⟨chosen, decls, durable, overloaded⟩ := closing?_eq_some found
  simp only [Bool.and_eq_true, decide_eq_true_eq] at checked
  obtain ⟨p, first, named⟩ := Option.bind_eq_some_iff.mp checked.1
  refine ⟨t, g, decls, o, meant?_eq_some meant, declares, chosen, ?_, durable, overloaded, checked.2⟩
  rw [first, Option.map_some, handleNamed?_eq_some named]

end

end Bindings
