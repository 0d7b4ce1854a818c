import Bindings.Proofs.Overload.Assembly
import Bindings.Proofs.Metadata.Documents
import Bindings.Proofs.Request.Record

/-!
# The body of an overload

The statements before the call prepare what the arguments stand for, and those after it finish it, one for
each argument that needs it and in the order of the arguments. A function that returns a value has its
overload return one too, in the end.
-/

namespace Bindings
open Bindings.Metadata

variable {env : Environment} {s t : State} {links : Links} {f : Function} {raw : EntryPoint} {o : Overload}

/-! ## Effects -/

/-- What a statement does to locals and handles, and whether it calls or returns. -/
inductive Effect
  | introduces (param name : String)
  | addsRef (param flag : String)
  | releases (param flag : String)
  | wraps (param name : String)
  | calls
  | returns
  deriving DecidableEq, Repr

/-- The effect of a statement. Checks have none. -/
def Statement.effect? : Statement → Option Effect
  | lengthEquality _ | minLength .. => none
  | pinSpan param name | pinReference param name | nullableToPointer param name
  | encodeString param name _ => some (.introduces param name)
  | handleAddRef param flag => some (.addsRef param flag)
  | handleRelease param flag => some (.releases param flag)
  | rawCall .. => some .calls
  | wrapOutHandle param name _ => some (.wraps param name)
  | wrapReturnedHandle .. | returnValue _ => some .returns

/-- The flag that tells whether a reference to a handle was added. -/
def flagName (param : String) : String := param ++ "AddRef"

namespace CallArgument

/-- What is done before the call for an argument. -/
def prepared? : CallArgument → Option Effect
  | localValue param name _ => some (.introduces param name)
  | handleValue param _ => some (.addsRef param (flagName param))
  | pass _ | lengthOf .. | addressOfLocal .. => none

/-- What is done after the call for an argument. -/
def finished? : CallArgument → Option Effect
  | handleValue param _ => some (.releases param (flagName param))
  | addressOfLocal param name => some (.wraps param name)
  | pass _ | lengthOf .. | localValue .. => none

/-- The local that an argument names. -/
def local? : CallArgument → Option String
  | localValue _ name _ | addressOfLocal _ name => some name
  | pass _ | lengthOf .. | handleValue .. => none

/-- The handle that an argument gives the value of. -/
def handle? : CallArgument → Option String
  | handleValue param _ => some param
  | pass _ | lengthOf .. | localValue .. | addressOfLocal .. => none

end CallArgument

/-! ## Well-formed bodies -/

/-- What an overload returns: nothing when its entry point returns nothing, the result of the call, or the
    handle that is made from the result. The local that is returned is the result of the call, or was made
    by the statement before. -/
inductive Overload.Returns (o : Overload) : Option GuardedHandle → Option String → List Statement → Prop
  | nothing (void : o.raw.returnType.isVoid = true) (type : o.returnType = o.raw.returnType) :
      Returns o none none []
  | result {name : String} (value : o.raw.returnType.isVoid = false)
      (type : o.returnType = o.raw.returnType) : Returns o none (some name) [.returnValue name]
  | wrapped {handle : GuardedHandle} {name target : String} (value : o.raw.returnType.isVoid = false)
      (type : o.returnType = .named ⟨handle.space, handle.name⟩) :
      Returns o (some handle) (some name) [.wrapReturnedHandle name target handle.name, .returnValue target]

/-- The body of an overload around the call, and the arguments of the call. -/
structure Overload.Balanced (o : Overload) (before : List Statement) (arguments : List CallArgument)
    (after : List Statement) : Prop where
  /-- Before the call, each local is introduced and each handle referenced that an argument needs. -/
  prepares : before.filterMap (·.effect?) = arguments.filterMap (·.prepared?)
  /-- After the call, each handle is released that was referenced and each handle out is wrapped. -/
  finishes : after.filterMap (·.effect?) = arguments.filterMap (·.finished?)
  locals : (arguments.filterMap (·.local?)).Nodup
  handles : (arguments.filterMap (·.handle?)).Nodup
  /-- The length of a span with a fixed one is checked right before it is pinned. -/
  checked : ∀ t ∈ o.transforms, ∀ length, t.change = .fixedSpan length →
    ∃ name, [.minLength t.param length, .pinSpan t.param name] <:+: before

/-- The body of an overload is balanced around its only call, and then returns what there is to return. -/
def Overload.WellFormed (o : Overload) (guard : Option GuardedHandle) : Prop :=
  ∃ before arguments result after ending,
    o.body = before ++ .rawCall o.raw.name arguments result :: (after ++ ending) ∧
      o.Balanced before arguments after ∧ o.Returns guard result ending

/-! ## One parameter -/

/-- The statements of a plan are those that its argument needs. -/
structure ParamPlan.Serves (p : Param) (plan : ParamPlan) : Prop where
  prepares : plan.before.filterMap (·.effect?) = plan.argument.prepared?.toList
  finishes : plan.after.filterMap (·.effect?) = plan.argument.finished?.toList
  named : ∀ name, plan.argument.local? = some name → name = localName p.name
  handles : ∀ name, plan.argument.handle? = some name → name = p.name
  checked : ∀ t, plan.transform = some t → ∀ length, t.change = .fixedSpan length →
    ∃ name, [.minLength t.param length, .pinSpan t.param name] <:+: plan.before

theorem ParamPlan.Arises.serves {Wraps : NativeType → Option GuardedHandle → Prop} {index : Nat} {p : Param}
    {r : ParamDecl} {count : Option Nat} {plan : ParamPlan} (arises : plan.Arises Wraps index p r count) :
    plan.Serves p := by
  cases arises with
  | countedSpan count => exact ⟨rfl, rfl, by rintro _ ⟨⟩; rfl, nofun, by rintro _ ⟨⟩; exact nofun⟩
  | fixedSpan =>
    refine ⟨rfl, rfl, by rintro _ ⟨⟩; rfl, nofun, ?_⟩
    rintro _ ⟨⟩ _ ⟨⟩
    exact ⟨_, List.infix_rfl⟩
  | handle => exact ⟨rfl, rfl, nofun, by rintro _ ⟨⟩; rfl, by rintro _ ⟨⟩; exact nofun⟩
  | handleOut => exact ⟨rfl, rfl, by rintro _ ⟨⟩; rfl, nofun, by rintro _ ⟨⟩; exact nofun⟩
  | text => exact ⟨rfl, rfl, by rintro _ ⟨⟩; rfl, nofun, by rintro _ ⟨⟩; exact nofun⟩
  | reference => exact ⟨rfl, rfl, by rintro _ ⟨⟩; rfl, nofun, by rintro _ ⟨⟩; exact nofun⟩
  | nullable => exact ⟨rfl, rfl, by rintro _ ⟨⟩; rfl, nofun, by rintro _ ⟨⟩; exact nofun⟩
  | passing => exact ⟨rfl, rfl, nofun, nofun, nofun⟩

/-- The same of what becomes of a parameter, which may be removed. -/
structure ParamOutcome.Serves (p : Param) (oc : ParamOutcome) : Prop where
  checks : oc.checks.filterMap (·.effect?) = []
  prepares : oc.before.filterMap (·.effect?) = oc.argument.prepared?.toList
  finishes : oc.after.filterMap (·.effect?) = oc.argument.finished?.toList
  named : ∀ name, oc.argument.local? = some name → name = localName p.name
  handles : ∀ name, oc.argument.handle? = some name → name = p.name
  checked : ∀ t, oc.transform? = some t → ∀ length, t.change = .fixedSpan length →
    ∃ name, [.minLength t.param length, .pinSpan t.param name] <:+: oc.before

theorem ParamOutcome.Arises.serves {Wraps : NativeType → Option GuardedHandle → Prop}
    {counted : List (Nat × Nat)} {index : Nat} {p : Param} {r : ParamDecl} {oc : ParamOutcome}
    (arises : oc.Arises Wraps f counted index p r) : oc.Serves p := by
  cases arises with
  | removed some =>
    refine ⟨?_, rfl, rfl, nofun, nofun, ?_⟩
    · unfold removedParam
      dsimp only [ParamOutcome.checks]
      split <;> rfl
    · rintro _ ⟨⟩
      exact nofun
  | planned none arises =>
    have serves := arises.serves
    exact ⟨rfl, serves.prepares, serves.finishes, serves.named, serves.handles, serves.checked⟩

/-! ## All parameters -/

/-- What is done for each of a row is done for the row. -/
theorem filterMap_flatMap_of_each {α β γ : Type} {xs : List α} {g : α → List β} {e : β → Option γ}
    {h : α → Option γ} (each : ∀ x ∈ xs, (g x).filterMap e = (h x).toList) :
    (xs.flatMap g).filterMap e = xs.filterMap h := by
  induction xs with
  | nil => rfl
  | cons x xs ih =>
    rw [List.flatMap_cons, List.filterMap_append, each x (by simp),
      ih fun y member => each y (List.mem_cons_of_mem x member), List.filterMap_cons]
    cases h x <;> rfl

/-- What is made from different names, in their order, is different. -/
theorem filterMap_nodup {α : Type} {xs : List α} {names : List String} {key : α → Option String}
    (tag : String → String) (distinct : names.Nodup) (injective : ∀ a b, tag a = tag b → a = b)
    (each : ∀ (i : Nat) x k, xs[i]? = some x → key x = some k →
      ∃ name, names[i]? = some name ∧ k = tag name) :
    (xs.filterMap key).Nodup := by
  rw [List.Nodup, List.pairwise_filterMap, List.pairwise_iff_getElem]
  intro i j first second before a made b made' same
  obtain ⟨name, there, rfl⟩ := each i _ a (List.getElem?_eq_getElem first) made
  obtain ⟨other, there', rfl⟩ := each j _ b (List.getElem?_eq_getElem second) made'
  obtain rfl := injective _ _ same
  obtain ⟨inside, here⟩ := List.getElem?_eq_some_iff.mp there
  obtain ⟨inside', here'⟩ := List.getElem?_eq_some_iff.mp there'
  exact List.pairwise_iff_getElem.mp distinct i j inside inside' before (here.trans here'.symm)

section
variable {Wraps : NativeType → Option GuardedHandle → Prop} {outcomes : List ParamOutcome}
  {guard : Option GuardedHandle} (assembled : Assembled env Wraps f raw outcomes guard o)
include assembled

theorem Assembled.serves {i : Nat} {oc : ParamOutcome} (there : outcomes[i]? = some oc) :
    ∃ p, f.params[i]? = some p ∧ oc.Serves p := by
  obtain ⟨p, r, param, -, arises⟩ := assembled.arises i oc there
  exact ⟨p, param, arises.serves⟩

theorem Assembled.balanced (distinct : (f.params.map (·.name)).Nodup) :
    o.Balanced (outcomes.flatMap (·.checks) ++ outcomes.flatMap (·.before)) (outcomes.map (·.argument))
      (outcomes.flatMap (·.after)) := by
  have serves : ∀ oc ∈ outcomes, ∃ p, oc.Serves p := by
    intro oc member
    obtain ⟨i, there⟩ := List.mem_iff_getElem?.mp member
    obtain ⟨p, -, serves⟩ := assembled.serves there
    exact ⟨p, serves⟩
  have names : ∀ {i : Nat} {p : Param}, f.params[i]? = some p →
      (f.params.map (·.name))[i]? = some p.name := by
    intro i p param
    rw [List.getElem?_map, param]
    rfl
  have made := assemble_madeOf assembled.made
  constructor
  · have checks : (outcomes.flatMap (·.checks)).filterMap (·.effect?) = outcomes.filterMap fun _ => none :=
      filterMap_flatMap_of_each fun oc member => (serves oc member).elim fun _ serves => serves.checks
    have before : (outcomes.flatMap (·.before)).filterMap (·.effect?) =
        outcomes.filterMap (·.argument.prepared?) :=
      filterMap_flatMap_of_each fun oc member => (serves oc member).elim fun _ serves => serves.prepares
    rw [List.filterMap_append, checks, before, List.filterMap_map]
    exact List.append_left_eq_self.mpr (by simp)
  · rw [List.filterMap_map]
    exact filterMap_flatMap_of_each fun oc member => (serves oc member).elim fun _ serves => serves.finishes
  · rw [List.filterMap_map]
    refine filterMap_nodup localName distinct (fun a b => String.append_left_inj _ |>.mp) ?_
    intro i oc name there made
    obtain ⟨p, param, serves⟩ := assembled.serves there
    exact ⟨p.name, names param, serves.named name made⟩
  · rw [List.filterMap_map]
    refine filterMap_nodup id distinct (fun _ _ => id) ?_
    intro i oc name there made
    obtain ⟨p, param, serves⟩ := assembled.serves there
    exact ⟨p.name, names param, serves.handles name made⟩
  · intro t member length change
    rw [made.transforms] at member
    obtain ⟨oc, there, noted⟩ := List.mem_filterMap.mp member
    obtain ⟨p, serves⟩ := serves oc there
    obtain ⟨name, inside⟩ := serves.checked t noted length change
    refine ⟨name, inside.trans ?_⟩
    obtain ⟨early, late, rfl⟩ := List.append_of_mem there
    exact ⟨(early ++ oc :: late).flatMap (·.checks) ++ early.flatMap (·.before), late.flatMap (·.before),
      by simp⟩

omit assembled in
/-- A type that a name means is not that of nothing. -/
theorem NameShown.value {reference : QualifiedName} {d : TypeDefinition} {type : TargetType}
    (shown : NameShown env reference {} type) (means : Means env reference d)
    (spaces : ∀ reference d, Means env reference d → d.space ≠ "") :
    type.isVoid = false := by
  cases shown with
  | replaced => rfl
  | text isConst => cases isConst
  | defined means => simp [TargetType.isVoid, spaces _ _ means]
  | unnamed outside =>
    cases type with
    | named n => exact absurd rfl (outside n)
    | _ => rfl
  | special unmeant held =>
    have found := unmeant {}
    rw [means {}] at found
    cases found

theorem Assembled.wellFormed (distinct : (f.params.map (·.name)).Nodup)
    (spaces : ∀ reference d, Means env reference d → d.space ≠ "")
    (guards : ∀ handle, guard = some handle → ∃ reference d, f.returns = .handle reference ∧
      Means env reference d) : o.WellFormed guard := by
  have balanced := assembled.balanced distinct
  have value : ∀ handle, guard = some handle → raw.returnType.isVoid = false := by
    intro handle guarded
    obtain ⟨reference, d, type, means⟩ := guards handle guarded
    obtain ⟨result, shown, same⟩ := assembled.returns
    rw [same]
    exact (shown.name reference type).value means spaces
  have made := assembled.made
  unfold assemble at made
  dsimp only at made
  split at made
  · cases made
  · obtain rfl := Option.some.inj made
    refine ⟨_, _, if !raw.returnType.isVoid then some resultLocal else none, _,
      returnStatements (!raw.returnType.isVoid) guard, by simp, balanced, ?_⟩
    cases guard with
    | none =>
      cases void : raw.returnType.isVoid with
      | true => exact .nothing void rfl
      | false => exact .result void rfl
    | some handle =>
      have some := value handle rfl
      rw [some]
      exact .wrapped some rfl

end

/-! ## Functions -/

/-- A type that a name means is in a namespace with a name. -/
theorem Means.space {roots : List Markup.Element} (built : Index.ofDocuments roots = .ok env.index)
    {reference : QualifiedName} {d : TypeDefinition} (means : Means env reference d) : d.space ≠ "" := by
  obtain ⟨definitions, -, lists⟩ := Index.ofDocuments_lists built
  have held := (means.chooses (Index.ofDocuments_consistent built)).2
  rw [lists.named] at held
  exact lists.spaces _ (List.mem_filter.mp held).1

/-- Looks for the handle that owns the result of a function, once its entry point is made and its parameters
    are drafted. -/
def resultGuard (links : Links) (f : Function) : Gen (Option GuardedHandle) := do
  let raw ← entryPoint links f
  let _ ← draftParams links f raw
  handleFor links f.returns f

/-- What owns the result of a function: the handle that is backed by the release function of the type, if
    handles are guarded and the type has another release function than the function itself. -/
def Metadata.Function.Guards (env : Environment) (f : Function) (guard : Option GuardedHandle) : Prop :=
  ∀ handle, guard = some handle ↔
    env.options.useGuardedHandles = true ∧ Released env (Builds env) f f.returns handle

/-- In an open transaction of a state with a faithful memory that is found which owns the result. -/
theorem resultGuard_guards (consistent : env.index.Consistent) (depth : Nat) :
    Traces (.faithful env) (f.Guards env) (resultGuard (Links.upTo depth) f) := by
  have linked := traced_linked consistent (.faithful env) depth
  refine .bind (entryPoint_matches (C := .tracing consistent (.faithful env)) linked f) fun raw _ => ?_
  refine .bind (draftParams_matches (C := .tracing consistent (.faithful env)) linked raw f) fun draft _ => ?_
  exact (Judgement.traced _).imp (handleFor_tells (guardedHandle_faithful consistent depth) f.returns)
    fun guard found => found.iff_released

/-- An overload among the declarations of a function is what was drafted for the parameters, finished with
    what was found for the result. -/
theorem functionDecls_ok {decls : List Declaration} (produced : functionDecls links f env s = .ok decls t)
    (overloaded : .overload o ∈ decls) : ∃ raw u draft v guard, entryPoint links f env s = .ok raw u ∧
      draftParams links f raw env u = .ok draft v ∧ handleFor links f.returns f env v = .ok guard t ∧
        draft.finish raw guard = some o ∧ decls = [.entryPoint raw, .overload o] := by
  unfold functionDecls overload? at produced
  obtain ⟨raw, u, declared, ran⟩ := Gen.bind_ok produced
  obtain ⟨found, t', made, ran⟩ := Gen.bind_ok ran
  obtain ⟨draft, v, drafted, made⟩ := Gen.bind_ok made
  obtain ⟨guard, t'', looked, made⟩ := Gen.bind_ok made
  obtain ⟨rfl, rfl⟩ := Gen.pure_ok made
  refine ⟨raw, u, draft, v, guard, declared, drafted, ?_⟩
  cases finished : draft.finish raw guard with
  | none =>
    rw [finished] at ran
    obtain ⟨rfl, -⟩ := Gen.pure_ok ran
    simp at overloaded
  | some overload =>
    rw [finished] at ran
    obtain ⟨rfl, rfl⟩ := Gen.pure_ok ran
    obtain rfl : o = overload := by simpa using overloaded
    exact ⟨looked, rfl, rfl⟩

/-- An overload among the declarations of a function is put together with the guard that is found where the
    handle is looked for that owns the result. -/
theorem functionDecls_guarded (standard : env.substitutions = .standard) {depth : Nat}
    {decls : List Declaration} (produced : functionDecls (Links.upTo depth) f env s = .ok decls t)
    (overloaded : .overload o ∈ decls) : ∃ raw outcomes guard, decls = [.entryPoint raw, .overload o] ∧
      resultGuard (Links.upTo depth) f env s = .ok guard t ∧
      Assembled env (HandleFound env (fun _ _ => True) f) f raw outcomes guard o := by
  obtain ⟨raw, u, draft, v, guard, declared, drafted, looked, finished, both⟩ :=
    functionDecls_ok produced overloaded
  have ran : resultGuard (Links.upTo depth) f env s = .ok guard t := by
    rw [resultGuard, Gen.bind_eq, declared]
    dsimp only
    rw [Gen.bind_eq, drafted]
    exact looked
  have handles : ∀ type, Gen.Gives env (handleFor (Links.upTo depth) type f)
      (HandleFound env (fun _ _ => True) f type) := handleFor_tells (J := .all env) fun _ => .any
  have declares : Gen.Gives env (entryPoint (Links.upTo depth) f) (·.Declares (Shown env) f) :=
    entryPoint_declares (J := .all env) (project_shown (functionPointer_unnamed depth) standard)
  have drafts : Gen.Gives env (draftParams (Links.upTo depth) f raw) _ :=
    draftParams_outcomes (J := .all env) handles
  obtain ⟨outcomes, arise, single⟩ := drafts u draft v drafted
  have arises : o.Arises (HandleFound env (fun _ _ => True) f) f raw outcomes guard :=
    ⟨arise, handles f.returns v guard t looked, (single guard).symm.trans finished⟩
  exact ⟨raw, outcomes, guard, both, ran, arises.assembled (declares s raw u declared)⟩

/-- The body of every overload among the declarations of a function with differently named parameters is
    well-formed: what was found where a handle was looked for that owns the result tells what is returned. In
    an open transaction of a state with a faithful memory this is the handle that does own the result. -/
theorem functionDecls_wellFormed {roots : List Markup.Element}
    (built : Index.ofDocuments roots = .ok env.index) (standard : env.substitutions = .standard)
    (distinct : (f.params.map (·.name)).Nodup) {depth : Nat} {decls : List Declaration}
    (produced : functionDecls (Links.upTo depth) f env s = .ok decls t) (overloaded : .overload o ∈ decls) :
    ∃ guard, resultGuard (Links.upTo depth) f env s = .ok guard t ∧
      (∀ id, s.In id → (Upkeep.faithful env).Holds s → f.Guards env guard) ∧
      decls = [.entryPoint o.raw, .overload o] ∧ o.WellFormed guard := by
  obtain ⟨raw, outcomes, guard, both, ran, assembled⟩ := functionDecls_guarded standard produced overloaded
  have entry := (assemble_madeOf assembled.made).entry
  refine ⟨guard, ran, fun id inside holds => ?_, entry ▸ both, ?_⟩
  · exact ((resultGuard_guards (Index.ofDocuments_consistent built) depth).ended inside holds ran).2.2
  · refine assembled.wellFormed distinct (fun _ _ means => means.space built) fun handle same => ?_
    have released := assembled.guarded.released_of (R := fun _ _ => True) (fun _ _ _ => trivial) handle same
    exact released.means

/-- A handle and the function that releases it. -/
def convertingDocument : Markup.Element :=
  oneNamespace "Ns" [
    ⟨"struct", [("name", "HTHING"), ("typedef", "true"), ("release", "CloseThing")], "",
      [⟨"field", [("name", "Value"), ("type", "isize")], "", []⟩]⟩,
    ⟨"function", [("name", "CloseThing"), ("module", "thing"), ("returns", "bool")], "",
      [⟨"param", [("name", "thing"), ("type", "HTHING")], "", []⟩]⟩]

/-- A function that takes a handle, an array with its length, an array of a fixed length and a text, and
    gives two handles. -/
def convertThing : Function where
  name := "ConvertThing"
  space := "Ns"
  module := "thing"
  returns := .handle ⟨"Ns", "HTHING"⟩
  params := [
    { name := "source", type := .handle ⟨"Ns", "HTHING"⟩, usage := { isIn := true } },
    { name := "values", type := .pointer (.primitive "i4") false,
      usage := { isIn := true, extent := some { param := some 2 } } },
    { name := "count", type := .primitive "u4", usage := { isIn := true } },
    { name := "digest", type := .pointer (.primitive "u1") false,
      usage := { isOut := true, extent := some { const := some 16 } } },
    { name := "title", type := .pointer (.primitive "u2") true, usage := { isIn := true, isConst := true } },
    { name := "other", type := .pointer (.handle ⟨"Ns", "HTHING"⟩) false, usage := { isOut := true } }]

/-- A session that has begun a transaction. -/
def State.opened : State := { ledger := { transactions := #[{}] }, current := some 0 }

/-- The overload that a computation declares behind an entry point. -/
def declaredOverload? : EStateM.Result Failure State (List Declaration) → Option Overload
  | .ok [_, .overload o] _ => some o
  | _ => none

theorem declaredOverload?_eq_some {ended : EStateM.Result Failure State (List Declaration)} {o : Overload}
    (found : declaredOverload? ended = some o) : ∃ raw t, ended = .ok [raw, .overload o] t := by
  unfold declaredOverload? at found
  split at found
  · obtain rfl := Option.some.inj found
    exact ⟨_, _, rfl⟩
  · cases found

/-- The guard that a computation finds. -/
def foundGuard? : EStateM.Result Failure State (Option GuardedHandle) → Option GuardedHandle
  | .ok guard _ => guard
  | .error .. => none

/-- The result is wrapped in the handle that the release function backs. -/
theorem functionDecls_wellFormed_convertThing :
    let env := Environment.reading [convertingDocument]
    ∃ decls t o handle, functionDecls (Links.upTo 4) convertThing env .opened = .ok decls t ∧
      .overload o ∈ decls ∧ o.transforms.length = 6 ∧ handle.name = "CloseThingSafeHandle" ∧
      resultGuard (Links.upTo 4) convertThing env .opened = .ok (some handle) t ∧
      Released env (Builds env) convertThing convertThing.returns handle ∧
      decls = [.entryPoint o.raw, .overload o] ∧ o.WellFormed (some handle) := by
  intro env
  have changes : (declaredOverload? (functionDecls (Links.upTo 4) convertThing env .opened)).map
      (·.transforms.length) = some 6 := by decide +kernel
  have guards : (foundGuard? (resultGuard (Links.upTo 4) convertThing env .opened)).map (·.name) =
      some "CloseThingSafeHandle" := by decide +kernel
  obtain ⟨o, found, six⟩ := Option.map_eq_some_iff.mp changes
  obtain ⟨_, t, produced⟩ := declaredOverload?_eq_some found
  have built : Index.ofDocuments [convertingDocument] = .ok env.index := reading_built (by decide +kernel)
  have inside : State.opened.In 0 := ⟨rfl, by decide⟩
  have begun : (Upkeep.faithful env).Holds {} := ⟨⟨rfl, rfl, rfl⟩, nofun⟩
  obtain ⟨guard, ran, owns, both, wellFormed⟩ := functionDecls_wellFormed built rfl (by decide) produced
    (List.mem_cons_of_mem _ List.mem_cons_self)
  rw [ran] at guards
  obtain ⟨handle, rfl, named⟩ := Option.map_eq_some_iff.mp guards
  have released := ((owns 0 inside ((Upkeep.faithful env).alike begun rfl)) handle).mp rfl
  exact ⟨_, t, o, handle, produced, List.mem_cons_of_mem _ List.mem_cons_self, six, named, ran, released.2,
    both, wellFormed⟩

end Bindings
