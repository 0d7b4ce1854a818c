import Bindings.Proofs.Generation.Outcome
import Bindings.Proofs.Generation.Source
import Bindings.Proofs.Generation.Verdict

/-!
# Computations that are repeated

A computation that gave a result gives it again in a later state, if nothing that it knew has failed
since: the questions that it asks are answered by what is remembered of them, and whatever it needs
can be had as before. What a later state has recorded of other entities makes no difference.
-/

namespace Bindings
open Bindings.Metadata

variable {env : Environment} {α β : Type} {s t u v later : State} {id other : TransactionId}

/-! ## What lasts -/

/-- All that is remembered in a state is remembered in another one, where nothing is under analysis. -/
structure Retains (s t : State) : Prop where
  calm : t.Calm
  conforms : ∀ d answer, s.Conforms d answer → t.Conforms d answer
  judges : ∀ d verdict, s.Judges d verdict → t.Judges d verdict
  handles : ∀ name answer, s.handles.get? name = some answer → t.handles.get? name = some answer

theorem Retains.refl (calm : s.Calm) : Retains s s :=
  ⟨calm, fun _ _ h => h, fun _ _ h => h, fun _ _ h => h⟩

theorem Retains.trans (first : Retains s t) (second : Retains t u) : Retains s u where
  calm := second.calm
  conforms d answer held := second.conforms d answer (first.conforms d answer held)
  judges d verdict held := second.judges d verdict (first.judges d verdict held)
  handles name answer held := second.handles name answer (first.handles name answer held)

/-- It only matters what is remembered. -/
theorem Retains.alike (retains : Retains s t) (before : u.memory = s.memory) (after : v.memory = t.memory) :
    Retains u v := by
  have analysis : u.analysis = s.analysis := congrArg Memory.analysis before
  have conformance : u.conformance = s.conformance := congrArg Memory.conformance before
  have handles : u.handles = s.handles := congrArg Memory.handles before
  have analysis' : v.analysis = t.analysis := congrArg Memory.analysis after
  have conformance' : v.conformance = t.conformance := congrArg Memory.conformance after
  have handles' : v.handles = t.handles := congrArg Memory.handles after
  refine ⟨retains.calm.alike analysis', fun d answer held => ?_, fun d verdict held => ?_, ?_⟩
  · rw [State.Conforms, conformance] at held
    rw [State.Conforms, conformance']
    exact retains.conforms d answer held
  · rw [State.Judges, analysis] at held
    rw [State.Judges, analysis']
    exact retains.judges d verdict held
  · rw [handles, handles']
    exact retains.handles

/-- All that a state remembers is remembered in a later one, and nothing that it knows has failed
    there. -/
structure Outlasts (s later : State) : Prop extends Retains s later where
  spared : ∀ key, s.Knows key → later.ledger.failures.get? key = none

/-! ## Questions that are asked again -/

theorem guardedHandle?_known {name : String} {answer : Option GuardedHandle}
    (known : s.handles.get? name = some answer) : guardedHandle? name env s = .ok answer s := by
  unfold guardedHandle?
  rw [Gen.get_bind, known]
  rfl

theorem isConforming_retains (calm : s.Calm) (d : TypeDefinition) : Gen.Leads env s (isConforming d)
    (fun answer t => Retains s t ∧ t.Conforms d answer) (Retains s) := by
  refine (isConforming_leads (D := .any env) trivial fun _ _ _ => trivial).imp ?_ ?_
  · rintro answer t ⟨⟨same, conforms, _⟩, known⟩
    refine ⟨?_, known⟩
    rw [same] at conforms ⊢
    exact ⟨calm.alike rfl, conforms, fun _ _ h => h,
      fun _ _ h => h⟩
  · rintro t rfl
    exact .refl calm

theorem isManagedType_retains (calm : s.Calm) (d : TypeDefinition) : Gen.Leads env s (isManagedType d true)
    (fun verdict t => Retains s t ∧ t.Judges d verdict) (Retains s) := by
  have retains : ∀ t, Analysed (.any env) true s t → Retains s t := by
    rintro t ⟨same, calm, conforms, _, verdicts, _⟩
    rw [same] at calm conforms verdicts ⊢
    exact ⟨calm, conforms, fun _ _ h => verdicts _ _ h, fun _ _ h => h⟩
  exact (isManagedType_leads (safe_any calm) true trivial).imp
    (fun _ t ended => ⟨retains t ended.1, ended.2⟩) retains

theorem guardedHandle?_retains (calm : s.Calm) (name : String) : Gen.Leads env s (guardedHandle? name)
    (fun answer t => Retains s t ∧ t.handles.get? name = some answer) (Retains s) := by
  unfold guardedHandle?
  refine .get ?_
  cases known : s.handles.get? name with
  | some answer => exact .pure ⟨.refl calm, known⟩
  | none =>
    refine .bind (.steady (buildHandle_steady name) (Q := fun _ t => t = s) (fun _ _ => rfl)
      (.refl calm)) ?_
    rintro answer t rfl
    refine .modify (.pure ⟨⟨calm.alike rfl, fun _ _ h => h,
      fun _ _ h => h, fun found held before => ?_⟩, Table.get?_put_self _ _ _⟩)
    have apart : name ≠ found := by
      rintro rfl
      rw [known] at before
      cases before
    exact (Table.get?_put_of_ne _ answer apart).trans before

/-! ## Repeating -/

/-- A state repeats another one. It remembers and has recorded what a later one has, and knows the same
    of whatever has not failed there. -/
structure Repeats (later : State) (id other : TransactionId) (s t : State) : Prop where
  inside : s.In id
  opposite : t.In other
  memory : t.memory = later.memory
  failures : t.ledger.failures = later.ledger.failures
  expanding : t.expanding = s.expanding
  pending : t.pending = s.pending
  entry : ∀ key, later.ledger.failures.get? key = none → t.entry key = s.entry key

/-- What is remembered in the state that is repeated does not matter. -/
theorem Repeats.remember (repeats : Repeats later id other s t) (m : Memory) :
    Repeats later id other (s.remember m) t where
  inside := ⟨repeats.inside.current, repeats.inside.opened⟩
  opposite := repeats.opposite
  memory := repeats.memory
  failures := repeats.failures
  expanding := repeats.expanding
  pending := repeats.pending
  entry := repeats.entry

theorem Repeats.expand (repeats : Repeats later id other s t) (expanding : List String) :
    Repeats later id other { s with expanding } { t with expanding } where
  inside := repeats.inside.expansion expanding
  opposite := repeats.opposite.expansion expanding
  memory := repeats.memory
  failures := repeats.failures
  expanding := rfl
  pending := repeats.pending
  entry := repeats.entry

theorem Repeats.marked (repeats : Repeats later id other s t) (key : EntityKey) :
    Repeats later id other (s.marked id key) (t.marked other key) where
  inside := repeats.inside.marked key
  opposite := repeats.opposite.marked key
  memory := repeats.memory
  failures := repeats.failures
  expanding := repeats.expanding
  pending := by rw [marked_pending repeats.opposite, marked_pending repeats.inside, repeats.pending]
  entry k unfailed := by
    rw [marked_entry repeats.opposite, marked_entry repeats.inside, repeats.entry k unfailed]

theorem Repeats.completed (repeats : Repeats later id other s t) (key : EntityKey)
    (declarations : List Declaration) :
    Repeats later id other (s.completed id key declarations) (t.completed other key declarations) where
  inside := repeats.inside.completed key declarations
  opposite := repeats.opposite.completed key declarations
  memory := repeats.memory
  failures := repeats.failures
  expanding := repeats.expanding
  pending := by
    rw [completed_pending repeats.opposite, completed_pending repeats.inside, repeats.pending]
  entry k unfailed := by
    rw [completed_entry repeats.opposite, completed_entry repeats.inside, repeats.entry k unfailed]

/-- A computation leaves what it should in the ledger and forgets nothing, and another one repeats it
    if it gave a result that has outlasted in a later state. -/
structure Repeatable (env : Environment) (x y : Gen α) : Prop where
  outcome : ∀ id s, s.In id → Outcome id s (x env s)
  retains : ∀ id s, s.In id → s.Calm → Gen.Leads env s x (fun _ t => Retains s t) (Retains s)
  again : ∀ {later id other s t a u}, s.Calm → Repeats later id other s t → x env s = .ok a u →
    Outlasts u later → ∃ v, y env t = .ok a v ∧ Repeats later id other u v

namespace Repeatable
variable {x y : Gen α} {f g : α → Gen β}

theorem runs (repeatable : Repeatable env x y) : Runs env x x :=
  fun id s inside => ⟨repeatable.outcome id s inside, fun _ => rfl⟩

/-- What is in place, remembered and known once a computation has given its result. -/
theorem ended (repeatable : Repeatable env x y) (inside : s.In id) (calm : s.Calm) {a : α}
    (ended : x env s = .ok a t) : t.In id ∧ Retains s t ∧ ∀ key, s.Knows key → t.Knows key := by
  have outcome := repeatable.outcome id s inside
  have retains := repeatable.retains id s inside calm
  rw [ended] at outcome
  rw [Gen.Leads, ended] at retains
  obtain ⟨more, produces⟩ := outcome
  exact ⟨produces.inside inside, retains, produces.knows inside⟩

theorem congr {u v : Gen α} (left : ∀ s, x env s = u env s) (right : ∀ s, y env s = v env s)
    (repeatable : Repeatable env u v) : Repeatable env x y where
  outcome id s inside := left s ▸ repeatable.outcome id s inside
  retains id s inside calm := by
    rw [Gen.Leads, left]
    exact repeatable.retains id s inside calm
  again calm repeats ended outlasts := by
    obtain ⟨v, again, after⟩ := repeatable.again calm repeats ((left _).symm.trans ended) outlasts
    exact ⟨v, (right _).trans again, after⟩

/-- A question that is apart from the ledger, and whose answer is remembered. -/
theorem asking {R : State → α → Prop} (secluded : Gen.Secluded env x)
    (retains : ∀ {s}, s.Calm → Gen.Leads env s x (fun a t => Retains s t ∧ R t a) (Retains s))
    (lasts : ∀ {s t a}, Retains s t → R s a → R t a)
    (known : ∀ {s a}, s.Calm → R s a → x env s = .ok a s) : Repeatable env x x where
  outcome id s inside := (Runs.secluded secluded id s inside).1
  retains id s _ calm := (retains calm).imp (fun _ _ ended => ended.1) fun _ kept => kept
  again {later id other s t a u} calm repeats ended outlasts := by
    obtain ⟨result, m, _, ends⟩ := secluded s.memory
    have same := ends s rfl
    rw [ended] at same
    have answered := retains calm
    rw [Gen.Leads, ended] at answered
    obtain rfl : u = s.remember m := by
      cases result with
      | ok b => exact (EStateM.Result.ok.inj same).2
      | error e => cases same
    have here : Retains (s.remember m) t := outlasts.toRetains.alike rfl repeats.memory
    exact ⟨t, known here.calm (lasts here answered.2), repeats.remember m⟩

theorem pure (a : α) : Repeatable env (Pure.pure a : Gen α) (Pure.pure a) :=
  asking (R := fun _ b => b = a) (.pure a) (fun calm => Gen.Leads.pure ⟨.refl calm, rfl⟩) (fun _ h => h)
    (by rintro s b _ rfl; rfl)

theorem throw {e : Failure} (unowned : e.Unowned) :
    Repeatable env (MonadExcept.throw e : Gen α) (MonadExcept.throw e) :=
  asking (R := fun _ _ => False) (.throw unowned) (fun calm => Retains.refl calm) (fun _ h => h)
    fun _ h => h.elim

theorem bind (first : Repeatable env x y) (rest : ∀ a, Repeatable env (f a) (g a)) :
    Repeatable env (x >>= f) (y >>= g) where
  outcome id s inside := (Runs.bind first.runs (fun a => (rest a).runs) id s inside).1
  retains id s inside calm := by
    have retains := first.retains id s inside calm
    rw [Gen.Leads] at retains ⊢
    rw [Gen.bind_eq]
    cases ended : x env s with
    | error e t =>
      rw [ended] at retains
      exact retains
    | ok a t =>
      obtain ⟨insideT, before, _⟩ := first.ended inside calm ended
      exact ((rest a).retains id t insideT before.calm).imp (fun _ _ after => before.trans after)
        fun _ after => before.trans after
  again {later id other s t b w} calm repeats ended outlasts := by
    obtain ⟨a, u, early, late⟩ := Gen.bind_ok ended
    obtain ⟨insideU, before, _⟩ := first.ended repeats.inside calm early
    obtain ⟨_, after, knows⟩ := (rest a).ended insideU before.calm late
    have outlastsU : Outlasts u later :=
      ⟨after.trans outlasts.toRetains, fun key known => outlasts.spared key (knows key known)⟩
    obtain ⟨v, again, repeatsV⟩ := first.again calm repeats early outlastsU
    obtain ⟨v', againLater, repeatsLater⟩ := (rest a).again before.calm repeatsV late outlasts
    exact ⟨v', by rw [Gen.bind_eq, again]; exact againLater, repeatsLater⟩

theorem expansion (name : String) (repeatable : Repeatable env x y) :
    Repeatable env (inExpansion name x) (inExpansion name y) where
  outcome id s inside := (Runs.expansion name repeatable.runs id s inside).1
  retains id s inside calm := by
    unfold Gen.Leads
    rw [inExpansion_eq]
    by_cases there : s.expanding.contains name
    · rw [if_pos there]
      exact .refl calm
    · have calmE : State.Calm { s with expanding := name :: s.expanding } := calm.alike rfl
      have retains := repeatable.retains id _ (inside.expansion (name :: s.expanding)) calmE
      rw [Gen.Leads] at retains
      rw [if_neg there, Gen.ensuring_eq]
      cases ended : x env { s with expanding := name :: s.expanding } with
      | ok a t =>
        rw [ended] at retains
        exact retains.alike rfl rfl
      | error e t =>
        rw [ended] at retains
        exact retains.alike rfl rfl
  again {later id other s t a w} calm repeats ended outlasts := by
    have free : ¬ s.expanding.contains name := by
      intro there
      rw [inExpansion_eq, if_pos there] at ended
      cases ended
    obtain ⟨u, ran, rfl⟩ := inExpansion_ok ended
    have outlastsU : Outlasts u later := ⟨outlasts.toRetains.alike rfl rfl, outlasts.spared⟩
    have calmE : State.Calm { s with expanding := name :: s.expanding } := calm.alike rfl
    obtain ⟨v, again, after⟩ :=
      repeatable.again calmE (repeats.expand (name :: s.expanding)) ran outlastsU
    refine ⟨{ v with expanding := v.expanding.filter (· ≠ name) }, ?_, ?_⟩
    · rw [inExpansion_eq, repeats.expanding, if_neg free, Gen.ensuring_eq, again]
    · rw [after.expanding]
      exact after.expand _

end Repeatable

/-! ## Production -/

namespace Repeatable
variable {x y : Gen (List Declaration)}

/-- What the production of an entity remembers. -/
theorem produce_retains (repeatable : Repeatable env x y) (key : EntityKey) (inside : s.In id)
    (calm : s.Calm) : Gen.Leads env s (Bindings.produce key x) (fun _ t => Retains s t) (Retains s) := by
  unfold Gen.Leads
  rw [produce_eq inside]
  cases s.entry key with
  | committed | inFlight | failed => exact .refl calm
  | notStarted =>
    by_cases available : env.available.contains key.name.full
    · simp only [if_pos available]
      exact (Retains.refl calm).alike rfl rfl
    · have calmM : (s.marked id key).Calm := calm.alike rfl
      have retains := repeatable.retains id (s.marked id key) (inside.marked key) calmM
      rw [Gen.Leads] at retains
      simp only [if_neg available]
      cases ended : x env (s.marked id key) with
      | ok declarations t =>
        obtain ⟨insideT, _⟩ := repeatable.ended (inside.marked key) calmM ended
        rw [ended] at retains
        simp only [insideT.complete_eq]
        exact retains.alike rfl rfl
      | error e t =>
        rw [ended] at retains
        cases e <;> exact retains.alike rfl rfl

/-- An entity that has been produced is produced again, or it is there already. -/
theorem produce (repeatable : Repeatable env x y) (key : EntityKey) :
    Repeatable env (Bindings.produce key x) (Bindings.produce key y) where
  outcome id s inside := (produce_outcome repeatable.runs inside).1
  retains id s inside calm := repeatable.produce_retains key inside calm
  again {later id other s t a w} calm repeats ended outlasts := by
    -- the entity is known by then, so it has not failed later, and as much is known of it in both states
    have known := produce_known repeatable.runs repeats.inside ended
    have entry := repeats.entry key (outlasts.spared key known)
    rw [produce_eq repeats.inside] at ended
    rw [produce_eq repeats.opposite, entry]
    cases met : s.entry key with
    | committed declarations =>
      rw [met] at ended
      cases ended
      exact ⟨t, rfl, repeats⟩
    | inFlight =>
      rw [met] at ended
      cases ended
      exact ⟨t, rfl, repeats⟩
    | failed failure =>
      rw [met] at ended
      cases ended
    | notStarted =>
      simp only [met] at ended ⊢
      by_cases available : env.available.contains key.name.full
      · rw [if_pos available] at ended ⊢
        cases ended
        exact ⟨_, rfl, repeats.completed key []⟩
      · rw [if_neg available] at ended ⊢
        have calmM : (s.marked id key).Calm := calm.alike rfl
        cases ran : x env (s.marked id key) with
        | error e u =>
          rw [ran] at ended
          cases e <;> cases ended
        | ok declarations u =>
          obtain ⟨insideU, _⟩ := repeatable.ended (repeats.inside.marked key) calmM ran
          simp only [ran, insideU.complete_eq] at ended
          cases ended
          have outlastsU : Outlasts u later := by
            refine ⟨outlasts.toRetains.alike rfl rfl, fun k before => outlasts.spared k ?_⟩
            rw [State.Knows, completed_entry insideU]
            split
            · rfl
            · exact before
          obtain ⟨v, again, after⟩ := repeatable.again calmM (repeats.marked key) ran outlastsU
          simp only [again, after.opposite.complete_eq]
          exact ⟨_, rfl, after.completed key declarations⟩

end Repeatable

/-! ## Links -/

/-- Computations that are repeated. -/
def Comparison.repeating (env : Environment) : Comparison env where
  Match := Repeatable env
  Listed _ := True
  Asked _ := True
  Fine := Failure.Unowned
  plain_fine plain := plain.unowned
  listed_means _ := trivial
  listed_asked _ := trivial
  asked_type _ _ := trivial
  asked_chosen _ _ := trivial
  asked_release _ := trivial
  asked_template _ := trivial
  asked_inlineArray _ _ _ := trivial
  congr := .congr
  pure := .pure
  throw := .throw
  bind := .bind
  required _ _ := groupsOf_fixed _
  chained _ := baseChain_fixed _
  conforming {d} _ := .asking (R := fun s answer => s.Conforms d answer) (isConforming_secluded d)
    (fun calm => isConforming_retains calm d) (fun retains held => retains.conforms d _ held)
    fun _ known => isConforming_known known
  managed {d} _ := .asking (R := fun s verdict => s.Judges d verdict) (isManagedType_secluded d true)
    (fun calm => isManagedType_retains calm d) (fun retains held => retains.judges d _ held)
    fun calm judged => isManagedType_known calm judged
  handle name _ _ rest := .bind (.asking (R := fun s answer => s.handles.get? name = some answer)
    (guardedHandle?_secluded name) (fun calm => guardedHandle?_retains calm name)
    (fun retains held => retains.handles name _ held) fun _ known => guardedHandle?_known known)
    fun answer => rest answer fun _ _ => trivial

/-- What the links of a session lead to is repeated. -/
theorem repeating_linked (depth : Nat) :
    (Comparison.repeating env).Linked (Links.upTo depth) (Links.upTo depth) := by
  have linked : (Comparison.repeating env).Linked (Links.upTo depth)
      (Links.around (fun _ body => body) depth) := by
    refine around_linked (.repeating env) .depthExceeded (fun key _ _ repeatable => ?_)
      (fun name _ _ repeatable => repeatable.expansion name) depth
    exact Repeatable.produce repeatable key
  rwa [around_nothing] at linked

end Bindings
