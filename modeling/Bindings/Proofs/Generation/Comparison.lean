import Bindings.Generation.Production
import Bindings.Proofs.Generation.BaseChain
import Bindings.Proofs.Generation.Seclusion

/-!
# Comparing computations

Declarations are made in the same way whatever links lead to further entities. A relation of
computations that sequencing keeps, and that relates to themselves the questions on definitions
that the metadata offers, relates the declarations of an entity under links that it relates. The
links are only followed to entities that may be asked for.
-/

namespace Bindings
open Bindings.Metadata

/-! ## Expansions -/

/-- Runs a computation while a delegate is being expanded; there is none inside itself. -/
def inExpansion {α : Type} (name : String) (body : Gen α) : Gen α := do
  if (← get).expanding.contains name then Gen.fault (.selfReferringDelegate name)
  else
    modify fun s => { s with expanding := name :: s.expanding }
    Gen.ensuring body fun s => { s with expanding := s.expanding.filter (· ≠ name) }

theorem inExpansion_eq {α : Type} {env : Environment} (name : String) (body : Gen α) (s : State) :
    inExpansion name body env s =
      if s.expanding.contains name then Gen.fault (.selfReferringDelegate name) env s
      else Gen.ensuring body (fun s => { s with expanding := s.expanding.filter (· ≠ name) }) env
        { s with expanding := name :: s.expanding } := by
  unfold inExpansion
  rw [Gen.get_bind]
  split <;> rfl

/-- An expansion that gives a result ran inside itself. -/
theorem inExpansion_ok {α : Type} {env : Environment} {name : String} {body : Gen α} {s t : State} {a : α}
    (ended : inExpansion name body env s = .ok a t) :
    ∃ u, body env { s with expanding := name :: s.expanding } = .ok a u ∧
      t = { u with expanding := u.expanding.filter (· ≠ name) } := by
  rw [inExpansion_eq] at ended
  split at ended
  · cases ended
  · rw [Gen.ensuring_eq] at ended
    cases ran : body env { s with expanding := name :: s.expanding } with
    | ok b u =>
      rw [ran] at ended
      cases ended
      exact ⟨u, rfl, rfl⟩
    | error e u =>
      rw [ran] at ended
      cases ended

/-- The function pointer that a delegate is written as. -/
def delegateType (links : Links) (t : TypeDefinition) : Gen TargetType := do
  let params ← (delegateSignature t).2.mapM fun p => return (← project links p.type .raw p.usage).type
  let returns ← project links (delegateSignature t).1 .raw {}
  return .functionPointer params returns.type

/-! ## Relations -/

/-- A relation that is kept by the ways in which computations of generation are put together. It
    may depend on which types are asked about, which entities are asked for, and which failures
    there are. -/
structure Comparison (env : Environment) where
  Match : {α : Type} → Gen α → Gen α → Prop
  Listed : TypeDefinition → Prop
  Asked : Entity → Prop
  Fine : Failure → Prop
  plain_fine : ∀ {e}, Failure.Plain e → Fine e
  listed_means : ∀ {reference t}, Means env reference t → Listed t
  listed_asked : ∀ {t unmanaged}, Asked (.type t unmanaged) → Listed t
  asked_type : ∀ {t}, Listed t → ∀ unmanaged, Asked (.type t unmanaged)
  asked_chosen : ∀ {c d}, Offers env c →
    select (·.architectures) c.2 env.options.platformName? c.1 = .ok d → Asked (.ofDefinition d)
  asked_release : ∀ {name f}, select (·.architectures) (env.index.findFunctions name)
    env.options.platformName? name = .ok f → Asked (.function f)
  asked_template : ∀ {name template}, env.templates.get? name = some template →
    Asked (.template template)
  asked_inlineArray : ∀ {element qualified}, (∀ s, isAmbiguousElement element env s = .ok qualified s) →
    ∀ length isChar,
      Asked (.inlineArray (inlineArrayName element length qualified) element length isChar)
  congr : ∀ {α : Type} {x y u v : Gen α}, (∀ s, x env s = u env s) → (∀ s, y env s = v env s) →
    Match u v → Match x y
  pure : ∀ {α : Type} (a : α), Match (pure a : Gen α) (pure a)
  throw : ∀ {α : Type} {e : Failure}, Fine e → Match (throw e : Gen α) (throw e)
  bind : ∀ {α β : Type} {x y : Gen α} {f g : α → Gen β}, Match x y → (∀ a, Match (f a) (g a)) →
    Match (x >>= f) (y >>= g)
  required : ∀ {template requirement}, Asked (.template template) → requirement ∈ template.requires →
    Gen.Constant Fine env (groupsOf requirement)
  chained : ∀ {t}, Listed t → Gen.Constant Fine env (baseChain t)
  conforming : ∀ {t}, Listed t → Match (isConforming t) (isConforming t)
  managed : ∀ {t}, Listed t → Match (isManagedType t true) (isManagedType t true)
  handle : ∀ {β : Type} (name : String) {f g : Option GuardedHandle → Gen β},
    (∀ answer, (∀ handle, answer = some handle → Asked (.guardedHandle handle)) →
      Match (f answer) (g answer)) →
    Match (guardedHandle? name >>= f) (guardedHandle? name >>= g)

namespace Comparison
variable {env : Environment}

/-- A relation that holds of whatever is apart from the ledger, for all entities. -/
def ofSecluded (Match : {α : Type} → Gen α → Gen α → Prop)
    (congr : ∀ {α : Type} {x y u v : Gen α}, (∀ s, x env s = u env s) → (∀ s, y env s = v env s) →
      Match u v → Match x y)
    (secluded : ∀ {α : Type} {x : Gen α}, Gen.Secluded env x → Match x x)
    (bind : ∀ {α β : Type} {x y : Gen α} {f g : α → Gen β}, Match x y →
      (∀ a, Match (f a) (g a)) → Match (x >>= f) (y >>= g)) : Comparison env where
  Match := Match
  Listed _ := True
  Asked _ := True
  Fine := Failure.Unowned
  plain_fine plain := plain.unowned
  listed_means _ := trivial
  listed_asked _ := trivial
  asked_type _ _ := trivial
  asked_chosen _ _ := trivial
  asked_release _ := trivial
  asked_template _ := trivial
  asked_inlineArray _ _ _ := trivial
  congr := congr
  pure a := secluded (.pure a)
  throw unowned := secluded (.throw unowned)
  bind := bind
  required _ _ := groupsOf_fixed _
  chained _ := baseChain_fixed _
  conforming _ := secluded (isConforming_secluded _)
  managed _ := secluded (isManagedType_secluded _ true)
  handle name _ _ rest := bind (secluded (guardedHandle?_secluded name)) fun answer =>
    rest answer fun _ _ => trivial

variable (C : Comparison env) {α β : Type}

theorem fault (f : Fault) : C.Match (Gen.fault f : Gen α) (Gen.fault f) :=
  C.throw (C.plain_fine (.ofFault f))

/-- What a computation gives that ends in the same way in all states is known to what follows. -/
theorem following {x : Gen α} {f g : α → Gen β} (constant : Gen.Constant C.Fine env x)
    (rest : ∀ a, (∀ s, x env s = .ok a s) → C.Match (f a) (g a)) : C.Match (x >>= f) (x >>= g) := by
  obtain ⟨result, fine, always⟩ := constant
  cases result with
  | error e =>
    have fails : ∀ (h : α → Gen β) s, (x >>= h) env s = (MonadExcept.throw e : Gen β) env s := by
      intro h s
      rw [Gen.bind_eq, always s]
      rfl
    exact C.congr (fails f) (fails g) (C.throw (fine e rfl))
  | ok a =>
    have goes : ∀ (h : α → Gen β) s, (x >>= h) env s = h a env s := by
      intro h s
      rw [Gen.bind_eq, always s]
      rfl
    exact C.congr (goes f) (goes g) (rest a always)

theorem knowing {x : Gen α} {f g : α → Gen β} (steady : Gen.Steady env x)
    (rest : ∀ a, (∀ s, x env s = .ok a s) → C.Match (f a) (g a)) : C.Match (x >>= f) (x >>= g) := by
  obtain ⟨result, plain, always⟩ := steady
  exact C.following ⟨result, fun e same => C.plain_fine (plain e same), always⟩ rest

/-- The same question is asked first. -/
theorem after {x : Gen α} {f g : α → Gen β} (steady : Gen.Steady env x)
    (rest : ∀ a, C.Match (f a) (g a)) : C.Match (x >>= f) (x >>= g) :=
  C.knowing steady fun a _ => rest a

/-- The environment is read. -/
theorem read {f g : Environment → Gen α} (rest : C.Match (f env) (g env)) :
    C.Match (read >>= f) (read >>= g) :=
  C.congr (Gen.read_bind f env) (Gen.read_bind g env) rest

/-- The chosen platform is read. -/
theorem platform {f g : Option String → Gen α}
    (rest : C.Match (f env.options.platformName?) (g env.options.platformName?)) :
    C.Match (Gen.platform >>= f) (Gen.platform >>= g) :=
  C.congr (Gen.platform_bind f env) (Gen.platform_bind g env) rest

/-- A variant is chosen. -/
theorem choosing {r : Except SelectionError α} {f g : α → Gen β}
    (rest : ∀ a, r = .ok a → C.Match (f a) (g a)) :
    C.Match (Gen.ofSelection r >>= f) (Gen.ofSelection r >>= g) := by
  cases r with
  | ok a => exact C.congr (fun _ => rfl) (fun _ => rfl) (rest a rfl)
  | error e => exact C.congr (fun _ => rfl) (fun _ => rfl) (C.throw (C.plain_fine (.ofSelection e)))

/-- The definition that a name means is looked for. -/
theorem resolving (reference : QualifiedName) {f g : Option TypeDefinition → Gen β}
    (rest : ∀ found, (∀ t, found = some t → C.Listed t) → C.Match (f found) (g found)) :
    C.Match (resolve reference >>= f) (resolve reference >>= g) := by
  refine C.knowing (resolve_steady reference) fun found always => rest found fun t same => ?_
  subst same
  exact C.listed_means always

/-- The base chain of an interface is looked for. -/
theorem climbing {t : TypeDefinition} (listed : C.Listed t) {f g : List TypeDefinition → Gen β}
    (rest : ∀ chain, (∀ base ∈ chain, C.Listed base) → C.Match (f chain) (g chain)) :
    C.Match (baseChain t >>= f) (baseChain t >>= g) := by
  refine C.following (C.chained listed) fun chain always => rest chain fun base member => ?_
  obtain ⟨⟨_, means⟩, _⟩ := (baseChain_ok (always {})).mem base (List.mem_reverse.mpr member)
  exact C.listed_means means

theorem map {x y : Gen α} (f : α → β) (first : C.Match x y) : C.Match (f <$> x) (f <$> y) := by
  rw [map_eq_pure_bind, map_eq_pure_bind]
  exact C.bind first fun a => C.pure (f a)

/-- The same follows after one of two computations. -/
theorem either {c : Prop} [Decidable c] {x y u v : Gen α} {f g : α → Gen β} (yes : C.Match x u)
    (no : C.Match y v) (rest : ∀ a, C.Match (f a) (g a)) :
    C.Match (if c then x >>= f else y >>= f) (if c then u >>= g else v >>= g) := by
  split
  · exact C.bind yes rest
  · exact C.bind no rest

theorem mapM {f g : α → Gen β} (each : ∀ a, C.Match (f a) (g a)) (xs : List α) :
    C.Match (xs.mapM f) (xs.mapM g) := by
  induction xs with
  | nil =>
    rw [List.mapM_nil, List.mapM_nil]
    exact C.pure []
  | cons a xs ih =>
    rw [List.mapM_cons, List.mapM_cons]
    exact C.bind (each a) fun b => C.bind ih fun bs => C.pure (b :: bs)

theorem forM {f g : α → Gen Unit} (xs : List α) (each : ∀ a ∈ xs, C.Match (f a) (g a)) :
    C.Match (xs.forM f) (xs.forM g) := by
  induction xs with
  | nil => exact C.pure ()
  | cons a xs ih =>
    exact C.bind (each a (by simp)) fun _ => ih fun b member => each b (List.mem_cons_of_mem a member)

theorem isManaged_matches (type : NativeType) :
    C.Match (isManaged type true) (isManaged type true) := by
  unfold isManaged
  split
  · exact C.pure _
  · refine C.resolving _ fun found listed => ?_
    split
    · exact C.pure _
    · exact C.managed (listed _ rfl)

/-- Links that lead to related computations, where they may be followed. -/
structure Linked (links others : Links) : Prop where
  demand : ∀ e, C.Asked e → C.Match (links.demand e) (others.demand e)
  functionPointer : ∀ d, C.Listed d → C.Match (links.functionPointer d) (others.functionPointer d)

end Comparison

variable {env : Environment} {C : Comparison env} {links others : Links}

/-! ## Named types -/

theorem needsUnmanagedVariant_matches {t : TypeDefinition} (listed : C.Listed t) (context : Context) :
    C.Match (needsUnmanagedVariant t context) (needsUnmanagedVariant t context) := by
  unfold needsUnmanagedVariant
  refine C.read ?_
  split
  · exact C.managed listed
  · exact C.pure false

theorem marshalsFields_matches {t : TypeDefinition} (listed : C.Listed t) (r : Record)
    (unmanaged : Bool) : C.Match (marshalsFields t r unmanaged) (marshalsFields t r unmanaged) := by
  unfold marshalsFields
  refine C.read ?_
  split
  · exact C.managed listed
  · exact C.pure false

section
variable (linked : C.Linked links others)
include linked

theorem projectInterface_matches {t : TypeDefinition} (listed : C.Listed t) (context : Context) :
    C.Match (projectInterface links t context) (projectInterface others t context) := by
  unfold projectInterface
  refine C.bind (C.conforming listed) fun conforming => ?_
  split
  · exact C.bind (linked.demand _ (C.asked_type listed _)) fun _ => C.pure _
  · exact C.read (C.bind (linked.demand _ (C.asked_type listed _)) fun _ => C.pure _)

theorem projectDefinition_matches {t : TypeDefinition} (listed : C.Listed t) (context : Context) :
    C.Match (projectDefinition links t context) (projectDefinition others t context) := by
  unfold projectDefinition
  split
  · exact C.bind (linked.demand _ (C.asked_type listed _)) fun _ => C.pure _
  · exact C.bind (needsUnmanagedVariant_matches listed context) fun unmanaged =>
      C.bind (linked.demand _ (C.asked_type listed _)) fun _ => C.pure _
  · exact projectInterface_matches linked listed context
  · split
    · exact C.bind (linked.demand _ (C.asked_type listed _)) fun _ => C.pure _
    · exact C.bind (linked.functionPointer t listed) fun _ => C.pure _

theorem projectUnknown_matches (reference : QualifiedName) :
    C.Match (projectUnknown links reference) (projectUnknown others reference) := by
  unfold projectUnknown
  refine C.read ?_
  split
  · next found =>
    split
    · exact C.bind (linked.demand _ (C.asked_template found)) fun _ => C.pure _
    · exact C.fault _
  · exact C.fault _

theorem special_matches (name : String) : C.Match (links.special name) (others.special name) := by
  unfold Links.special
  refine C.read ?_
  split
  · exact C.fault _
  · next found => exact C.bind (linked.demand _ (C.asked_template found)) fun _ => C.pure _

theorem projectName_matches (reference : QualifiedName) (context : Context) (usage : Usage) :
    C.Match (projectName links reference context usage)
      (projectName others reference context usage) := by
  unfold projectName
  refine C.read ?_
  dsimp only
  split
  · exact C.pure _
  · split
    · exact C.bind (special_matches linked _) fun _ => C.pure _
    · refine C.resolving reference fun found listed => ?_
      split
      · exact projectDefinition_matches linked (listed _ rfl) context
      · exact projectUnknown_matches linked reference

/-! ## Pointers and arrays -/

omit linked in
theorem delegateOf_steady (type : NativeType) : Gen.Steady env (delegateOf type) := by
  unfold delegateOf
  split
  · exact .bind (resolve_steady _) fun _ => .pure _
  · exact .pure none

omit linked in
/-- A delegate that a native type names is meant by the name. -/
theorem delegateOf_means {type : NativeType} {t : TypeDefinition} {s u : State}
    (found : delegateOf type env s = .ok (some t) u) : ∃ reference, Means env reference t := by
  unfold delegateOf at found
  split at found
  · next reference =>
    obtain ⟨answer, v, resolved, found⟩ := Gen.bind_ok found
    obtain ⟨same, _⟩ := Gen.pure_ok found
    obtain ⟨rfl, _⟩ := Option.filter_eq_some_iff.mp same
    exact ⟨reference, ((resolve_steady reference).everywhere resolved).2⟩
  · cases found

theorem projectReferred_matches (target : NativeType) (context : Context) (usage : Usage)
    (element : Projection) :
    C.Match (projectReferred links target context usage element)
      (projectReferred others target context usage element) := by
  unfold projectReferred
  dsimp only
  split
  · exact C.pure _
  · split
    · refine C.read ?_
      split <;> exact C.pure _
    · refine C.knowing (delegateOf_steady target) fun found always => ?_
      split
      · obtain ⟨_, means⟩ := delegateOf_means (always {})
        exact C.bind (linked.functionPointer _ (C.listed_means means)) fun _ => C.pure _
      · split <;> exact C.pure _

theorem projectPointer_matches (target : NativeType) (context : Context) (usage : Usage)
    (element : Projection) :
    C.Match (projectPointer links target context usage element)
      (projectPointer others target context usage element) := by
  unfold projectPointer
  refine C.either (C.isManaged_matches target) (C.pure false) fun managed => ?_
  dsimp only
  split
  · exact projectReferred_matches linked target context usage element
  · split <;> exact C.pure _

theorem inlineArray_matches (element : TargetType) (length : Int) (isChar : Bool) :
    C.Match (links.inlineArray element length isChar) (others.inlineArray element length isChar) := by
  unfold Links.inlineArray
  exact C.knowing (isAmbiguousElement_steady element) fun _ always =>
    C.bind (linked.demand _ (C.asked_inlineArray always length isChar)) fun _ => C.pure _

theorem projectFixedField_matches (elementType : NativeType) (length : Int) (context : Context)
    (element : Projection) :
    C.Match (projectFixedField links elementType length context element)
      (projectFixedField others elementType length context element) := by
  unfold projectFixedField
  refine C.either (C.isManaged_matches elementType) (C.pure false) fun managed => ?_
  dsimp only
  split
  · exact C.pure _
  · exact C.bind (inlineArray_matches linked _ _ _) fun _ => C.pure _

end

/-! ## All native types -/

theorem projectAll_matches (types : List NativeType) (each : ∀ type ∈ types,
    C.Match (project links type .raw {}) (project others type .raw {})) :
    C.Match (projectAll links types) (projectAll others types) := by
  induction types with
  | nil =>
    unfold projectAll
    exact C.pure _
  | cons type rest ih =>
    unfold projectAll
    exact C.bind (each type (by simp)) fun _ =>
      C.bind (ih fun other member => each other (List.mem_cons_of_mem type member)) fun _ => C.pure _

theorem project_matches (linked : C.Linked links others) (type : NativeType) (context : Context)
    (usage : Usage) : C.Match (project links type context usage) (project others type context usage) :=
  match type with
  | .primitive code => by
    unfold project
    split
    · exact C.pure _
    · exact C.fault _
  | .pointer target isConst => by
    unfold project
    exact C.bind (project_matches linked target _ _) fun element =>
      projectPointer_matches linked target _ usage element
  | .array elementType lengths => by
    unfold project
    dsimp only
    split
    · exact C.bind (project_matches linked elementType _ {}) fun element =>
        projectFixedField_matches linked elementType _ context element
    · exact C.bind (project_matches linked elementType _ {}) fun _ => C.pure _
  | .handle reference => by
    unfold project
    exact projectName_matches linked reference context usage
  | .function params returns => by
    unfold project
    refine C.bind (projectAll_matches params fun type member => project_matches linked type .raw {}) fun _ => ?_
    exact C.bind (project_matches linked returns .raw {}) fun _ => C.pure _
termination_by type

section
variable (linked : C.Linked links others)
include linked

/-! ## Overloads -/

theorem guardedHandle_matches (releaseName : String) :
    C.Match (links.guardedHandle releaseName) (others.guardedHandle releaseName) := by
  unfold Links.guardedHandle
  refine C.read ?_
  split
  · exact C.pure _
  · refine C.handle releaseName fun found asked => ?_
    split
    · exact C.pure _
    · exact C.bind (linked.demand _ (asked _ rfl)) fun _ => C.pure _

theorem handleFor_matches (type : NativeType) (function : Function) :
    C.Match (handleFor links type function) (handleFor others type function) := by
  unfold handleFor
  split
  · refine C.after (resolve_steady _) fun found => ?_
    split
    · exact C.pure _
    · refine C.read ?_
      split
      · exact C.pure _
      · split
        · exact C.pure _
        · exact guardedHandle_matches linked _
  · exact C.pure _

theorem handleIn_matches (p : Param) (function : Function) :
    C.Match (handleIn links p function) (handleIn others p function) := by
  unfold handleIn
  split
  · exact C.pure _
  · exact handleFor_matches linked _ _

theorem handleOut_matches (p : Param) (raw : ParamDecl) (function : Function) :
    C.Match (handleOut links p raw function) (handleOut others p raw function) := by
  unfold handleOut
  split
  · split
    · exact handleFor_matches linked _ _
    · exact C.pure _
  · exact C.pure _

omit linked in
theorem planReference_steady (index : Nat) (p : Param) (raw : ParamDecl) :
    Gen.Steady env (planReference index p raw) := by
  unfold planReference
  split
  · refine .bind (isValueType_steady _) fun isValue => ?_
    split
    · exact .pure none
    · split
      · exact .pure _
      · split <;> exact .pure _
  · exact .pure none

theorem planPlain_matches (index : Nat) (p : Param) (raw : ParamDecl) (function : Function) :
    C.Match (planPlain links index p raw function) (planPlain others index p raw function) := by
  unfold planPlain
  split
  · exact C.pure _
  · refine C.bind (handleIn_matches linked p function) fun found => ?_
    split
    · exact C.pure _
    · refine C.bind (handleOut_matches linked p raw function) fun found => ?_
      split
      · exact C.pure _
      · split
        · exact C.pure _
        · exact C.after (planReference_steady index p raw) fun _ => C.pure _

theorem planParam_matches (function : Function) (counted : List (Nat × Nat)) (index : Nat)
    (p : Param) (raw : ParamDecl) :
    C.Match (planParam links function counted index p raw)
      (planParam others function counted index p raw) := by
  unfold planParam
  split
  · exact C.pure _
  · exact planPlain_matches linked index p raw function

theorem planParams_matches (function : Function) (counted : List (Nat × Nat)) (index : Nat)
    (params : List (Param × ParamDecl)) (draft : Draft) :
    C.Match (planParams links function counted index params draft)
      (planParams others function counted index params draft) := by
  induction params generalizing index draft with
  | nil => exact C.pure _
  | cons first rest ih =>
    unfold planParams
    dsimp only
    split
    · exact C.bind (C.map _ (planParam_matches linked function counted index _ _)) (ih (index + 1))
    · exact C.bind (C.pure _) (ih (index + 1))

theorem draftParams_matches (raw : EntryPoint) (function : Function) :
    C.Match (draftParams links function raw) (draftParams others function raw) :=
  planParams_matches linked function _ 0 _ _

theorem overload?_matches (raw : EntryPoint) (function : Function) :
    C.Match (overload? links raw function) (overload? others raw function) := by
  unfold overload?
  exact C.bind (draftParams_matches linked raw function) fun _ =>
    C.bind (handleFor_matches linked function.returns function) fun _ => C.pure _

/-! ## Functions, structs, delegates and constants -/

omit linked in
theorem standardContext_steady : Gen.Steady env standardContext := .bind .read fun _ => .pure _

omit linked in
theorem docs_steady (name : String) : Gen.Steady env (Gen.docs name) := .bind .read fun _ => .pure _

theorem paramDecl_matches (context : Context) (p : Param) :
    C.Match (paramDecl links context p) (paramDecl others context p) := by
  unfold paramDecl
  split
  · exact C.fault _
  · exact C.bind (project_matches linked p.type context p.usage) fun _ => C.pure _

theorem entryPoint_matches (f : Function) : C.Match (entryPoint links f) (entryPoint others f) := by
  unfold entryPoint
  refine C.read (C.after standardContext_steady fun context => ?_)
  refine C.bind (project_matches linked f.returns context {}) fun returns => ?_
  refine C.bind (C.mapM (paramDecl_matches linked context) f.params) fun params => ?_
  exact C.after (docs_steady f.name) fun docs => C.pure _

theorem functionDecls_matches (f : Function) :
    C.Match (functionDecls links f) (functionDecls others f) := by
  unfold functionDecls
  refine C.bind (entryPoint_matches linked f) fun raw => C.bind (overload?_matches linked raw f) fun found => ?_
  split <;> exact C.pure _

theorem structDecl_matches {t : TypeDefinition} (listed : C.Listed t) (r : Record) (unmanaged : Bool) :
    C.Match (structDecl links t r unmanaged) (structDecl others t r unmanaged) := by
  unfold structDecl
  refine C.bind (marshalsFields_matches listed r unmanaged) fun marshaled => ?_
  refine C.bind (C.mapM (fun f => ?_) r.fields) fun fields =>
    C.read (C.after (docs_steady t.name) fun docs => C.pure _)
  unfold fieldDecl
  exact C.bind (project_matches linked f.type _ f.usage) fun _ => C.pure _

omit linked in
theorem enumDecl_steady (t : TypeDefinition) (base : String) (members : List (String × Int))
    (isFlags : Bool) : Gen.Steady env (enumDecl t base members isFlags) := by
  unfold enumDecl
  exact .bind .read fun _ => .bind (docs_steady _) fun _ => .pure _

theorem delegateDecl_matches (t : TypeDefinition) (returns : NativeType) (params : List Param) :
    C.Match (delegateDecl links t returns params) (delegateDecl others t returns params) := by
  unfold delegateDecl
  refine C.after standardContext_steady fun context => ?_
  refine C.bind (project_matches linked returns context {}) fun result => ?_
  exact C.bind (C.mapM (paramDecl_matches linked context) params) fun _ =>
    C.read (C.after (docs_steady t.name) fun _ => C.pure _)

theorem constantDecl_matches (c : Constant) :
    C.Match (constantDecl links c) (constantDecl others c) := by
  unfold constantDecl
  split
  · exact C.fault _
  · refine C.either (C.pure _) (C.map _ (project_matches linked c.type .raw {})) fun type => ?_
    dsimp only
    split
    · exact C.fault _
    · exact C.read (C.after (docs_steady c.name) fun _ => C.pure _)

/-! ## Interfaces -/

theorem interfaceMethod_matches (context : Context) (owner : TypeDefinition) (m : Method)
    (isInherited : Bool) :
    C.Match (interfaceMethod links context owner m isInherited)
      (interfaceMethod others context owner m isInherited) := by
  unfold interfaceMethod
  refine C.after (preservesReturnCode_steady owner m) fun preserved => ?_
  split
  · cases splitResult m.params with
    | mk rest target =>
      dsimp only
      split
      · exact C.bind (project_matches linked _ context {}) fun result =>
          C.bind (C.mapM (paramDecl_matches linked context) rest) fun _ => C.pure _
      · exact C.bind (C.pure _) fun result =>
          C.bind (C.mapM (paramDecl_matches linked context) rest) fun _ => C.pure _
  · exact C.bind (project_matches linked m.returns context {}) fun result =>
      C.bind (C.mapM (paramDecl_matches linked context) _) fun _ => C.pure _

theorem interfaceDecl_matches {t : TypeDefinition} (listed : C.Listed t) :
    C.Match (interfaceDecl links t) (interfaceDecl others t) := by
  unfold interfaceDecl
  refine C.read (C.climbing listed fun chain listed => ?_)
  refine C.bind (C.forM _ fun base member => linked.demand _ (C.asked_type ?_ _)) fun _ => ?_
  · exact listed base (List.mem_filter.mp member).1
  refine C.bind (C.mapM (fun owned => interfaceMethod_matches linked _ _ _ _) _) fun _ => ?_
  exact C.read (C.after (docs_steady t.name) fun _ => C.pure _)

theorem vtableDecl_matches {t : TypeDefinition} (listed : C.Listed t) (name : String) :
    C.Match (vtableDecl links t name) (vtableDecl others t name) := by
  unfold vtableDecl slotMethods
  refine C.bind (C.climbing listed fun _ _ => C.pure _) fun methods => ?_
  refine C.bind (C.mapM (fun entry => ?_) _) fun _ =>
    C.read (C.after (docs_steady t.name) fun _ => C.pure _)
  unfold vtableEntry
  exact C.bind (C.mapM (paramDecl_matches linked .raw) _) fun _ =>
    C.bind (project_matches linked _ .raw {}) fun _ => C.pure _

theorem projectedInterface_matches {t : TypeDefinition} (listed : C.Listed t) (context : Context)
    (name : String) :
    C.Match (projectedInterface links t context name)
      (projectedInterface others t context name) := by
  unfold projectedInterface
  refine C.either (C.conforming listed) (C.pure false) fun conforming => ?_
  dsimp only
  split
  · exact C.bind (interfaceDecl_matches linked listed) fun _ => C.pure _
  · exact C.bind (vtableDecl_matches linked listed name) fun _ => C.pure _

theorem typeDecl_matches {t : TypeDefinition} (listed : C.Listed t) (unmanaged : Bool) :
    C.Match (typeDecl links t unmanaged) (typeDecl others t unmanaged) := by
  unfold typeDecl
  split
  · exact C.bind (structDecl_matches linked listed _ unmanaged) fun _ => C.pure _
  · exact C.after (enumDecl_steady t _ _ _) fun _ => C.pure _
  · exact C.read (projectedInterface_matches linked listed _ _)
  · exact C.bind (delegateDecl_matches linked t _ _) fun _ => C.pure _

/-! ## Names, handles and templates -/

theorem candidate_matches {c : Candidate} (asked : ∀ d,
      select (·.architectures) c.2 env.options.platformName? c.1 = .ok d → C.Asked (.ofDefinition d)) :
    C.Match (links.candidate c) (others.candidate c) := by
  unfold Links.candidate
  exact C.platform (C.choosing fun d chosen => linked.demand _ (asked d chosen))

theorem name_matches {name : String} (grouped : Gen.Constant C.Fine env (groupsOf name)) :
    C.Match (links.name name) (others.name name) := by
  unfold Links.name
  refine C.following grouped fun groups always => ?_
  split
  · refine C.read ?_
    split
    · exact C.pure _
    · next found => exact C.bind (linked.demand _ (C.asked_template found)) fun _ => C.pure _
  · refine C.bind (C.forM _ fun c member => candidate_matches linked fun d => ?_) fun _ => C.pure _
    exact C.asked_chosen (groupsOf_offers (always {}) c member)

theorem guardedHandleDecl_matches (handle : GuardedHandle) :
    C.Match (guardedHandleDecl links handle) (guardedHandleDecl others handle) := by
  unfold guardedHandleDecl
  refine C.read (C.platform (C.choosing fun release chosen => ?_))
  exact C.bind (linked.demand _ (C.asked_release chosen)) fun _ => C.read (C.pure _)

theorem requireNames_matches {template : Template} (asked : C.Asked (.template template)) :
    C.Match (requireNames links template) (requireNames others template) := by
  unfold requireNames
  refine C.forM _ fun requirement member => ?_
  refine C.bind (name_matches linked (C.required asked member)) fun found => ?_
  split
  · exact C.pure _
  · exact C.fault _

/-! ## All entities -/

/-- The declarations of an entity are made in related ways under related links. -/
theorem declarationsOf_matches {e : Entity} (asked : C.Asked e) :
    C.Match (declarationsOf links e) (declarationsOf others e) := by
  unfold declarationsOf
  cases e with
  | function f => exact functionDecls_matches linked f
  | type t unmanaged =>
    exact C.bind (typeDecl_matches linked (C.listed_asked asked) unmanaged) fun _ => C.pure _
  | constant c => exact C.bind (constantDecl_matches linked c) fun _ => C.pure _
  | template template => exact C.bind (requireNames_matches linked asked) fun _ => C.pure _
  | guardedHandle handle =>
    exact C.bind (guardedHandleDecl_matches linked handle) fun _ => C.pure _
  | inlineArray name element length isChar => exact C.read (C.pure _)

theorem delegateType_matches (t : TypeDefinition) :
    C.Match (delegateType links t) (delegateType others t) := by
  unfold delegateType
  refine C.bind (C.mapM (fun p => ?_) _) fun _ =>
    C.bind (project_matches linked _ .raw {}) fun _ => C.pure _
  exact C.bind (project_matches linked p.type .raw p.usage) fun _ => C.pure _

end

/-! ## Tying the links -/

/-- The links to chains of at most the given number of entities, with something done around each
    production. -/
def Links.around (wrap : EntityKey → Gen Unit → Gen Unit) : Nat → Links
  | 0 => Links.upTo 0
  | depth + 1 =>
    let inner := Links.around wrap depth
    { demand := fun e => wrap e.key (produce e.key (declarationsOf inner e))
      functionPointer := expandDelegate inner }

theorem around_nothing (depth : Nat) : Links.around (fun _ body => body) depth = Links.upTo depth := by
  induction depth with
  | zero => rfl
  | succ depth ih => rw [Links.around, Links.upTo, ih]

/-- Links to chains of any length are related to those with something around each production, if
    the production of an entity is related to what is around it. -/
theorem around_linked (C : Comparison env) {wrap : EntityKey → Gen Unit → Gen Unit}
    (exhausted : C.Fine .depthExceeded)
    (produces : ∀ key x y, C.Match x y → C.Match (produce key x) (wrap key (produce key y)))
    (expands : ∀ name {x y : Gen TargetType}, C.Match x y →
      C.Match (inExpansion name x) (inExpansion name y))
    (depth : Nat) : C.Linked (Links.upTo depth) (Links.around wrap depth) := by
  induction depth with
  | zero => exact ⟨fun _ _ => C.throw exhausted, fun _ _ => C.throw exhausted⟩
  | succ depth ih =>
    refine ⟨fun e asked => produces e.key _ _ (declarationsOf_matches ih asked), fun t _ => ?_⟩
    exact expands t.full (delegateType_matches ih t)

end Bindings
