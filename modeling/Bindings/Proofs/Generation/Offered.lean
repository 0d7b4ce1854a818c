import Bindings.Proofs.Generation.Comparison
import Bindings.Proofs.Generation.Descent
import Bindings.Proofs.Generation.Handle

/-!
# What generation asks for

The entities that generation comes to are made from definitions that the metadata offers, from
templates of the catalog, from handles that release functions back, and from inline arrays with the
names that belong to them. Comparisons of computations need to look at these only.
-/

namespace Bindings
open Bindings.Metadata

variable {env : Environment}

/-! ## Entities -/

/-- A name finds a release function that backs a handle. -/
def Builds (env : Environment) (name : String) (handle : GuardedHandle) : Prop :=
  ∀ s, buildHandle name env s = .ok (some handle) s

/-- A release function backs a handle. -/
def GuardedHandle.Backed (env : Environment) (handle : GuardedHandle) : Prop :=
  ∃ name, ∀ s, buildHandle name env s = .ok (some handle) s

/-- A handle that is backed is released by a function. -/
theorem GuardedHandle.Backed.releases {handle : GuardedHandle} (backed : handle.Backed env) :
    handle.Releases env := by
  obtain ⟨name, built⟩ := backed
  have leads : Gen.Leads env {} (buildHandle name) _ _ := buildHandle_leads name
  rw [Gen.Leads, built] at leads
  exact (leads handle rfl).1

/-- An entity that generation comes to. -/
inductive Entity.Offered (env : Environment) : Entity → Prop
  | candidate {c : Candidate} {d : Definition} (offers : Offers env c)
      (chosen : select (·.architectures) c.2 env.options.platformName? c.1 = .ok d) :
      Offered env (.ofDefinition d)
  | type {t : TypeDefinition} (chosen : env.index.Chooses env.options.platformName? t)
      (unmanaged : Bool) : Offered env (.type t unmanaged)
  | release {name : String} {f : Function}
      (chosen : select (·.architectures) (env.index.findFunctions name) env.options.platformName? name =
        .ok f) : Offered env (.function f)
  | template {name : String} {t : Template} (held : env.templates.get? name = some t) :
      Offered env (.template t)
  | guardedHandle {handle : GuardedHandle} (backed : handle.Backed env) :
      Offered env (.guardedHandle handle)
  | inlineArray {element : TargetType} {qualified : Bool}
      (ambiguous : ∀ s, isAmbiguousElement element env s = .ok qualified s) (length : Int)
      (isChar : Bool) :
      Offered env (.inlineArray (inlineArrayName element length qualified) element length isChar)

/-- A constant that is asked for is chosen from a candidate. -/
theorem Entity.Offered.constant_chosen {k : Constant} (offered : Entity.Offered env (.constant k)) :
    ∃ c, Offers env c ∧ select (·.architectures) c.2 env.options.platformName? c.1 = .ok (.constant k) := by
  generalize same : Entity.constant k = e at offered
  cases offered with
  | @candidate c d offers chosen =>
    cases d with
    | constant k =>
      cases same
      exact ⟨c, offers, chosen⟩
    | function f => cases same
    | type t => cases same
  | type | release | template | guardedHandle | inlineArray => cases same

/-- A handle that is asked for is backed. -/
theorem Entity.Offered.handle_backed {handle : GuardedHandle}
    (offered : Entity.Offered env (.guardedHandle handle)) : handle.Backed env := by
  generalize same : Entity.guardedHandle handle = e at offered
  cases offered with
  | guardedHandle backed =>
    cases same
    exact backed
  | @candidate c d offers chosen => cases d <;> cases same
  | type | release | template | inlineArray => cases same

/-- A template that is asked for is in the catalog. -/
theorem Entity.Offered.template_held {t : Template} (offered : Entity.Offered env (.template t)) :
    ∃ name, env.templates.get? name = some t := by
  generalize same : Entity.template t = e at offered
  cases offered with
  | @template name t held =>
    cases same
    exact ⟨name, held⟩
  | @candidate c d offers chosen => cases d <;> cases same
  | type | release | guardedHandle | inlineArray => cases same

section
variable (consistent : env.index.Consistent)
include consistent

/-- A type that is asked for is the variant that all references to it mean. -/
theorem Entity.Offered.chooses {t : TypeDefinition} {unmanaged : Bool}
    (offered : Entity.Offered env (.type t unmanaged)) :
    env.index.Chooses env.options.platformName? t := by
  generalize same : Entity.type t unmanaged = e at offered
  cases offered with
  | @candidate c d offers chosen =>
    cases d with
    | function f => cases same
    | constant c => cases same
    | type u =>
      cases same
      exact offers.chooses consistent chosen
  | type chosen unmanaged =>
    cases same
    exact chosen
  | release | template | guardedHandle | inlineArray => cases same

end

/-! ## Comparisons -/

theorem groupsOf_regular (name : String) :
    Gen.Constant (fun e => e.Plain ∨ e.Ambiguous) env (groupsOf name) :=
  (groupsOf_constant name).weaken fun _ => .inr

/-- A relation that sequencing keeps, compared on the entities that generation comes to. -/
def Comparison.offered (consistent : env.index.Consistent)
    (Match : {α : Type} → Gen α → Gen α → Prop)
    (congr : ∀ {α : Type} {x y u v : Gen α}, (∀ s, x env s = u env s) → (∀ s, y env s = v env s) →
      Match u v → Match x y)
    (pure : ∀ {α : Type} (a : α), Match (Pure.pure a : Gen α) (Pure.pure a))
    (throw : ∀ {α : Type} {e : Failure}, e.Plain ∨ e.Ambiguous →
      Match (MonadExcept.throw e : Gen α) (MonadExcept.throw e))
    (bind : ∀ {α β : Type} {x y : Gen α} {f g : α → Gen β}, Match x y →
      (∀ a, Match (f a) (g a)) → Match (x >>= f) (y >>= g))
    (conforming : ∀ {t}, env.index.Chooses env.options.platformName? t →
      Match (isConforming t) (isConforming t))
    (managed : ∀ {t}, env.index.Chooses env.options.platformName? t →
      Match (isManagedType t true) (isManagedType t true))
    (handle : ∀ {β : Type} (name : String) {f g : Option GuardedHandle → Gen β},
      (∀ answer, (∀ handle, answer = some handle → handle.Backed env) → Match (f answer) (g answer)) →
      Match (guardedHandle? name >>= f) (guardedHandle? name >>= g)) : Comparison env where
  Match := Match
  Listed := env.index.Chooses env.options.platformName?
  Asked := Entity.Offered env
  Fine e := e.Plain ∨ e.Ambiguous
  plain_fine := .inl
  listed_means means := (means.chooses consistent).1
  listed_asked offered := offered.chooses consistent
  asked_type := .type
  asked_chosen := .candidate
  asked_release := .release
  asked_template := .template
  asked_inlineArray := .inlineArray
  congr := congr
  pure := pure
  throw := throw
  bind := bind
  required _ _ := groupsOf_regular _
  chained _ := (baseChain_steady consistent _).weaken fun _ => .inl
  conforming := conforming
  managed := managed
  handle name _ _ rest := handle name fun answer backed =>
    rest answer fun handle same => .guardedHandle (backed handle same)

end Bindings
