import Bindings.Proofs.Overload.Body
import Bindings.Proofs.Request.Identity
import Bindings.Proofs.Request.Source

/-!
# Overloads are told apart

A declaration is told from another one by its name and the types of its parameters. An overload that has
the name of its entry point has other parameters: every change that is noted of a parameter gives it
another type, or takes it away. An overload with the same parameters has a name of its own.
-/

namespace Bindings
open Bindings.Metadata

variable {env : Environment} {s t : State} {id : TransactionId} {links : Links} {f : Function}
  {raw : EntryPoint} {o : Overload}

/-! ## Telling declarations apart -/

/-- The parameters of two declarations differ in their number, or in the type at a position. -/
def Overload.Differs (o : Overload) (raw : EntryPoint) : Prop :=
  o.params.length ≠ raw.params.length ∨
    ∃ (i : Nat) (own : ParamDecl) (other : ParamDecl), o.params[i]? = some own ∧
      raw.params[i]? = some other ∧ own.type ≠ other.type

/-- An overload is told from its entry point by its parameters, or else by its name. -/
structure Overload.Distinct (o : Overload) (raw : EntryPoint) : Prop where
  differs : o.name = raw.name → o.Differs raw
  named : o.params.map (·.type) = raw.params.map (·.type) → o.name = raw.name ++ "_SafeHandle"

/-! ## Wrappers -/

/-- What is found for a type is a handle that is backed, for a name that means a type. -/
def WrapsBacked (env : Environment) (type : NativeType) (found : Option GuardedHandle) : Prop :=
  ∀ handle, found = some handle →
    handle.Backed env ∧ ∃ reference d, type = .handle reference ∧ Means env reference d

/-- The name of a wrapper is longer than that of any type that is replaced or special. -/
theorem GuardedHandle.Backed.long {handle : GuardedHandle} (backed : handle.Backed env) :
    10 ≤ handle.name.length := by
  obtain ⟨_, release, -, owned⟩ := backed.releases
  rw [owned.name, String.length_append]
  exact Nat.le_add_left _ _

/-! ## One parameter -/

/-- No parameter has a type that has the full name of a wrapper. -/
def Metadata.Function.NamesNoWrapper (env : Environment) (f : Function) : Prop :=
  ∀ p ∈ f.params, ∀ reference d, p.type = .handle reference → Means env reference d →
    ∀ handle : GuardedHandle, handle.Backed env → d.full ≠ dotted handle.space handle.name

section
variable {p : Param} {r : ParamDecl} {usage : Usage} {type : TargetType}
  (keyed : ∀ name template, env.templates.get? name = some template → template.name = name)
  (spaces : ∀ reference d, Means env reference d → d.space ≠ "")
include keyed

/-- A name that means a type is shown under another name than that of a wrapper. -/
theorem NameShown.ne_wrapper {reference : QualifiedName} {d : TypeDefinition}
    (shown : NameShown env reference usage type) (means : Means env reference d) {handle : GuardedHandle}
    (backed : handle.Backed env) (other : d.full ≠ dotted handle.space handle.name) :
    type ≠ .named ⟨handle.space, handle.name⟩ := by
  have long := backed.long
  intro same
  cases shown with
  | replaced =>
    injection same with same
    injection same with _ name
    rw [← name] at long
    exact absurd long (by decide)
  | text isConst constant held =>
    injection same with same
    injection same with _ name
    rw [← name, keyed _ _ held] at long
    have short : ∀ name ∈ constantTexts, name.length < 10 := by decide
    have := short _ constant
    omega
  | defined means' =>
    have alike := means {}
    rw [means' {}] at alike
    cases alike
    injection same with same
    injection same with space name
    exact other (by rw [TypeDefinition.full, space, name])
  | unnamed outside => exact outside _ same
  | special unmeant held =>
    have found := unmeant {}
    rw [means {}] at found
    cases found

include spaces

/-- What is passed as a text is not shown as one. -/
theorem Shown.ne_string {result : Projection} (shown : Shown env p.type p.usage result) {wide : Bool}
    (encoding : textEncoding? p = some wide) : result.type ≠ .string := by
  unfold textEncoding? at encoding
  split at encoding
  · next reference type =>
    have name := shown.name reference type
    intro same
    rw [same] at name
    generalize text : TargetType.string = shownType at name
    cases name with
    | replaced => simp [TargetType.string, TargetType.word, guidName] at text
    | text isConst constant held =>
      injection text with text
      injection text with _ name
      rw [keyed _ _ held] at name
      have others : ∀ name ∈ constantTexts, name ≠ "string" := by decide
      exact others _ constant name.symm
    | defined means =>
      injection text with text
      injection text with space _
      exact spaces _ _ means space.symm
    | unnamed outside => exact outside _ text.symm
    | special unmeant held =>
      injection text with text
      injection text with _ name
      rw [keyed _ _ held] at name
      simp [← name] at encoding
  · next code isConst type => exact shown.characters code isConst type
  · cases encoding

/-- A change that is noted of a parameter gives it another type. -/
theorem ParamPlan.Arises.differs {index : Nat} {count : Option Nat} {plan : ParamPlan} {result : Projection}
    (arises : plan.Arises (WrapsBacked env) index p r count) (shown : Shown env p.type p.usage result)
    (type : r.type = result.type) (modifier : r.modifier = result.modifier)
    (array : ∀ n, count = some n → r.type.isPointer = true)
    (apart : ∀ reference d, p.type = .handle reference → Means env reference d →
      ∀ handle : GuardedHandle, handle.Backed env → d.full ≠ dotted handle.space handle.name)
    {change : ParamTransform} (noted : plan.transform = some change) : plan.surface.type ≠ r.type := by
  cases arises with
  | countedSpan count =>
    intro same
    have pointer := array count rfl
    rw [← same] at pointer
    cases pointer
  | fixedSpan pointer =>
    intro same
    rw [← same] at pointer
    cases pointer
  | handle wraps =>
    obtain ⟨backed, reference, d, named, means⟩ := wraps _ rfl
    rw [type]
    exact ((shown.name reference named).ne_wrapper keyed means backed
      (apart reference d named means _ backed)).symm
  | handleOut pointer unmodified wraps =>
    obtain ⟨backed, -⟩ := wraps _ rfl
    rw [type]
    rcases shown.pointer _ _ pointer (modifier ▸ unmodified) with object | outside
    · intro same
      have long := backed.long
      rw [object] at same
      injection same with same
      injection same with _ name
      rw [name] at long
      exact absurd long (by decide)
    · exact (outside _).symm
  | text encoding =>
    rw [type]
    exact (shown.ne_string keyed spaces encoding).symm
  | @reference element modifier pointer =>
    intro same
    have cyclic : element = .pointer element := same.trans pointer
    cases cyclic
  | nullable pointer =>
    rw [pointer]
    nofun
  | passing => cases noted

end

/-! ## All parameters -/

/-- Where something is made of each of a row, it stands at the same position. -/
theorem getElem?_filterMap_of_some {α β : Type} {xs : List α} {g : α → Option β}
    (some : ∀ x ∈ xs, g x ≠ none) (i : Nat) : (xs.filterMap g)[i]? = xs[i]?.bind g := by
  induction xs generalizing i with
  | nil => rfl
  | cons x xs ih =>
    obtain ⟨b, made⟩ := Option.ne_none_iff_exists'.mp (some x (by simp))
    rw [List.filterMap_cons_some made]
    cases i with
    | zero => exact made.symm
    | succ i => exact ih (fun y member => some y (List.mem_cons_of_mem x member)) i

section
variable {outcomes : List ParamOutcome} {guard : Option GuardedHandle}
  (assembled : Assembled env (WrapsBacked env) f raw outcomes guard o)
  (keyed : ∀ name template, env.templates.get? name = some template → template.name = name)
  (spaces : ∀ reference d, Means env reference d → d.space ≠ "") (apart : f.NamesNoWrapper env)
include assembled keyed spaces apart

/-- Where a change is noted, the overload has another type or no parameter at all. -/
theorem Assembled.changed {i : Nat} {oc : ParamOutcome} (there : outcomes[i]? = some oc)
    {change : ParamTransform} (noted : oc.transform? = some change) {r : ParamDecl}
    (declared : raw.params[i]? = some r) :
    oc.surface? = none ∨ ∃ own, oc.surface? = some own ∧ own.type ≠ r.type := by
  obtain ⟨p, r', param, declared', arises⟩ := assembled.arises i oc there
  rw [declared] at declared'
  obtain rfl := Option.some.inj declared'
  cases arises with
  | removed some => exact .inl rfl
  | planned none arises =>
    obtain ⟨result, shown, type, modifier⟩ := assembled.params i p r param declared
    refine .inr ⟨_, rfl, arises.differs keyed spaces shown type modifier ?_ ?_ noted⟩
    · intro n counted
      obtain ⟨q, d, param', declared', counts⟩ := lookup_countedParams.mp counted
      rw [declared] at declared'
      obtain rfl := Option.some.inj declared'
      exact (countOf?_eq_some counts).1
    · exact apart p (List.mem_iff_getElem?.mpr ⟨i, param⟩)

/-- A change that is noted makes the parameters differ. -/
theorem Assembled.differs {change : ParamTransform} (noted : change ∈ o.transforms) : o.Differs raw := by
  have made := assemble_madeOf assembled.made
  rw [made.transforms] at noted
  obtain ⟨oc, member, noted⟩ := List.mem_filterMap.mp noted
  obtain ⟨i, there⟩ := List.mem_iff_getElem?.mp member
  by_cases kept : ∀ oc ∈ outcomes, oc.surface? ≠ none
  · obtain ⟨inside, -⟩ := List.getElem?_eq_some_iff.mp there
    have declared := List.getElem?_eq_getElem (assembled.complete ▸ inside)
    rcases assembled.changed keyed spaces apart there noted declared with removed | ⟨own, surface, other⟩
    · exact absurd removed (kept oc member)
    · refine .inr ⟨i, own, _, ?_, declared, other⟩
      rw [made.params, getElem?_filterMap_of_some kept, there]
      exact surface
  · -- a parameter that is removed leaves fewer
    refine .inl (Nat.ne_of_lt ?_)
    rw [made.params, assembled.complete, List.length_filterMap_lt_length_iff_exists]
    simpa using kept

theorem Assembled.distinct : o.Distinct raw := by
  have differs : o.transforms ≠ [] → o.Differs raw := by
    intro some
    obtain ⟨change, noted⟩ := List.exists_mem_of_ne_nil _ some
    exact assembled.differs keyed spaces apart noted
  have named : o.name = if o.transforms.isEmpty then raw.name ++ "_SafeHandle" else raw.name := by
    have made := assembled.made
    unfold assemble at made
    dsimp only at made
    split at made
    · cases made
    · exact Option.some.inj made ▸ rfl
  constructor
  · intro same
    refine differs fun none => ?_
    rw [none, List.isEmpty_nil, if_pos rfl] at named
    have longer := congrArg String.length (named.symm.trans same)
    rw [String.length_append] at longer
    have suffix : "_SafeHandle".length = 11 := by decide
    omega
  · intro same
    by_cases none : o.transforms = []
    · rw [named, none]
      rfl
    · rcases differs none with length | ⟨i, own, other, here, there, type⟩
      · exact absurd (by simpa using congrArg List.length same) length
      · have at_i := congrArg (·[i]?) same
        simp only [List.getElem?_map, here, there, Option.map_some, Option.some.injEq] at at_i
        exact absurd at_i type

end

/-! ## Functions -/

/-- The producer of a function gave every overload that is durable in a session, in an open transaction of a
    state whose memory was right. -/
theorem session_overloaded (consistent : env.index.Consistent) {U : Upkeep env} (begins : U.Holds {})
    (requests : List PublicRequest) {key : EntityKey} {decls : List Declaration}
    (durable : (env.session requests).ledger.committed.get? key = some decls)
    (overloaded : .overload o ∈ decls) : ∃ f : Function, (Entity.function f).key = key ∧
      (Entity.function f).Offered env ∧ ∃ depth id u v, u.In id ∧ U.Holds u ∧
        functionDecls (Links.upTo depth) f env u = .ok decls v := by
  have function : key.kind = .function := by
    have entry := Table.mem_of_lookupIn durable
    rcases session_accounted (.any env) requests _ entry with ⟨_, nothing⟩ | ⟨e, own, _, covers⟩
    · rw [show decls = [] from nothing] at overloaded
      cases overloaded
    · have fits := covers.fits _ overloaded
      cases fits with
      | overload => exact (congrArg EntityKey.kind own).symm
  cases session_sourced consistent begins requests durable with
  | elsewhere _ nothing =>
    rw [show decls = [] from nothing] at overloaded
    cases overloaded
  | @produced e _ own makes =>
    cases e with
    | function f =>
      obtain ⟨depth, id, u, v, inside, holds, ran, -⟩ := makes.ran
      exact ⟨f, own, makes.offered, depth, id, u, v, inside, holds, ran⟩
    | template template =>
      have kind := (congrArg EntityKey.kind own).trans function
      obtain ⟨_, templateKind, _⟩ := template
      cases templateKind <;> cases kind
    | type | constant | guardedHandle | inlineArray =>
      cases (congrArg EntityKey.kind own).trans function

section
variable {roots : List Markup.Element} {templates : List Template}
  (built : Index.ofDocuments roots = .ok env.index) (standard : env.substitutions = .standard)
  (catalog : env.templates = Catalog.ofTemplates templates)
include built standard catalog

theorem functionDecls_traced (apart : f.NamesNoWrapper env) (depth : Nat) :
    Traces (.backing env) (fun decls => ∀ o, .overload o ∈ decls →
      ∃ raw, decls = [.entryPoint raw, .overload o] ∧ o.Distinct raw)
      (functionDecls (Links.upTo depth) f) := by
  have consistent := Index.ofDocuments_consistent built
  have handles := guardedHandle_traced consistent (U := .backing env)
    (Q := fun _ found => ∀ handle, found = some handle → handle.Backed env) (Upkeep.backing env).handle
    (fun backed => backed _ rfl) depth
  have wraps : ∀ type, (Judgement.traced (.backing env)).Tells (handleFor (Links.upTo depth) type f)
      (WrapsBacked env type) := by
    intro type
    refine (Judgement.traced _).imp (handleFor_tells handles type) fun found looked handle same => ?_
    have released := looked.released_of (R := fun _ handle => handle.Backed env)
      (fun _ handle told => told.guarded.2 handle rfl) handle same
    obtain ⟨_, backed⟩ := released.found
    exact ⟨backed, released.means⟩
  have projects : ∀ type usage, (Judgement.traced (.backing env)).Tells
      (project (Links.upTo depth) type env.signatureContext usage) (Shown env type usage) :=
    fun type usage => (project_matches (C := .tracing consistent (.backing env))
      (traced_linked consistent (.backing env) depth) type env.signatureContext usage).told
        (project_shown (functionPointer_unnamed depth) standard type usage)
  have keyed : ∀ name template, env.templates.get? name = some template → template.name = name := by
    rw [catalog]
    exact fun _ _ => Catalog.name_of_get?
  refine (Judgement.traced (.backing env)).imp
    (functionDecls_assembled wraps projects) fun decls made o overloaded => ?_
  obtain ⟨raw, both, outcomes, guard, assembled⟩ := made o overloaded
  exact ⟨raw, both, assembled.distinct keyed (fun _ _ means => means.space built) apart⟩

/-- Every overload that is durable in a session was made for a function, and is told from its entry point. -/
theorem session_overloads (requests : List PublicRequest) {key : EntityKey} {decls : List Declaration}
    (durable : (env.session requests).ledger.committed.get? key = some decls)
    (overloaded : .overload o ∈ decls) : ∃ f : Function, (Entity.function f).key = key ∧
      (Entity.function f).Offered env ∧
      (f.NamesNoWrapper env → ∃ raw, decls = [.entryPoint raw, .overload o] ∧ o.Distinct raw) := by
  have begins : (Upkeep.backing env).Holds {} := ⟨⟨rfl, rfl, rfl⟩, nofun, nofun⟩
  obtain ⟨f, own, offered, depth, id, u, v, inside, holds, ran⟩ :=
    session_overloaded (Index.ofDocuments_consistent built) begins requests durable overloaded
  exact ⟨f, own, offered, fun apart =>
    ((functionDecls_traced built standard catalog apart depth).ended inside holds ran).2.2 o overloaded⟩

/-- An overload among the declarations of a function is told from the entry point that is declared with it,
    if no parameter has a type with the full name of a wrapper. -/
theorem functionDecls_distinct (inside : s.In id) (holds : (Upkeep.backing env).Holds s)
    (apart : f.NamesNoWrapper env) {depth : Nat} {decls : List Declaration}
    (produced : functionDecls (Links.upTo depth) f env s = .ok decls t) (overloaded : .overload o ∈ decls) :
    ∃ raw, decls = [.entryPoint raw, .overload o] ∧ o.Distinct raw := by
  obtain ⟨-, -, made⟩ := (functionDecls_traced built standard catalog apart depth).ended inside holds produced
  exact made o overloaded

/-- The full name of the type that a reference means. -/
def Environment.fullOf? (env : Environment) (reference : QualifiedName) : Option String :=
  match resolve reference env {} with
  | .ok (some d) _ => some d.full
  | _ => none

omit built standard catalog in
/-- The handle that is passed to the function has a shorter name than any wrapper. -/
theorem convertThing_namesNoWrapper : convertThing.NamesNoWrapper (.reading [convertingDocument]) := by
  intro p member reference d type means handle backed same
  have thing : reference = ⟨"Ns", "HTHING"⟩ := by
    simp only [convertThing, List.mem_cons, List.not_mem_nil, or_false] at member
    rcases member with rfl | rfl | rfl | rfl | rfl | rfl <;> cases type
    rfl
  have full : (Environment.reading [convertingDocument]).fullOf? ⟨"Ns", "HTHING"⟩ = some "Ns.HTHING" := by
    decide +kernel
  rw [← thing, Environment.fullOf?, means {}] at full
  have full := Option.some.inj full
  have long := backed.long
  have length := congrArg String.length (full.symm.trans same)
  have short : "Ns.HTHING".length = 9 := by decide
  simp only [dotted, String.length_append] at length
  omega

omit built standard catalog in
theorem functionDecls_distinct_convertThing : ∃ decls t o raw,
    functionDecls (Links.upTo 4) convertThing (.reading [convertingDocument]) .opened = .ok decls t ∧
      decls = [.entryPoint raw, .overload o] ∧ o.name = "ConvertThing" ∧ o.Distinct raw := by
  have named : (declaredOverload? (functionDecls (Links.upTo 4) convertThing
      (.reading [convertingDocument]) .opened)).map (·.name) = some "ConvertThing" := by decide +kernel
  obtain ⟨o, found, named⟩ := Option.map_eq_some_iff.mp named
  obtain ⟨_, t, produced⟩ := declaredOverload?_eq_some found
  have begun : (Upkeep.backing (.reading [convertingDocument])).Holds {} :=
    ⟨⟨rfl, rfl, rfl⟩, nofun, nofun⟩
  have inside : State.opened.In 0 := ⟨rfl, by decide⟩
  have built : Index.ofDocuments [convertingDocument] =
      .ok (Environment.reading [convertingDocument]).index := reading_built (by decide +kernel)
  obtain ⟨raw, both, distinct⟩ := functionDecls_distinct built rfl rfl inside
    ((Upkeep.backing _).alike begun rfl) convertThing_namesNoWrapper produced
    (List.mem_cons_of_mem _ List.mem_cons_self)
  exact ⟨_, t, o, raw, produced, both, named, distinct⟩

end

end Bindings
