import Bindings.Proofs.Generation.Offered
import Bindings.Proofs.Generation.Outcome

/-!
# What is under way

The productions and expansions that are under way are those of a stack, and none of them is begun
again inside itself. So the links of a session, that lead only so far, are the same as links that
lead on as long as there is something that is not under way yet.
-/

namespace Bindings
open Bindings.Metadata

variable {env : Environment} {s t : State} {id : TransactionId}

/-! ## Frames -/

/-- Something that is under way: the production of an entity, or the expansion of a delegate. -/
inductive Frame
  | production (key : EntityKey)
  | expansion (name : String)
  deriving DecidableEq

/-- The key of the handle that a function releases. -/
def Metadata.Function.handleKey (f : Function) : EntityKey :=
  ⟨.guardedHandle, ⟨f.space, f.name ++ "SafeHandle"⟩, false⟩

/-- All that can be under way and need anything else: there is nothing that an inline array needs. -/
def Environment.frames (env : Environment) : List Frame :=
  env.functions.flatMap (fun f => [.production (Entity.function f).key, .production f.handleKey])
    ++ env.types.flatMap (fun t => [.production (Entity.type t false).key,
      .production (Entity.type t true).key, .expansion t.full])
    ++ env.constants.map (fun c => .production (Entity.constant c).key)
    ++ env.templates.values.map fun t => .production (Entity.template t).key

theorem frames_length (env : Environment) : env.frames.length + 3 = env.depth := by
  have functions : env.countIn (·.functions) = env.functions.length := rfl
  have types : env.countIn (·.types) = env.types.length := rfl
  have constants : env.countIn (·.constants) = env.constants.length := rfl
  simp only [Environment.frames, Environment.depth, Environment.typeCount, functions, types, constants,
    List.length_append, List.length_flatMap, List.length_map, List.length_cons, List.length_nil,
    List.map_const', List.sum_replicate_nat, Table.values, Table.size]
  omega

/-- What generation comes to has a place among what can be under way, or needs nothing. -/
theorem Entity.Offered.mem_frames (consistent : env.index.Consistent) {e : Entity}
    (offered : e.Offered env) :
    .production e.key ∈ env.frames ∨
      ∃ name element length isChar, e = .inlineArray name element length isChar := by
  have functions : ∀ {f : Function}, .function f ∈ env.index.ofName f.name →
      Frame.production (Entity.function f).key ∈ env.frames ∧
        Frame.production f.handleKey ∈ env.frames := by
    intro f held
    have member := mem_functions consistent held
    simp only [Environment.frames, List.mem_append, List.mem_flatMap]
    exact ⟨.inl (.inl (.inl ⟨f, member, by simp⟩)), .inl (.inl (.inl ⟨f, member, by simp⟩))⟩
  have types : ∀ {t : TypeDefinition} (unmanaged : Bool),
      env.index.Chooses env.options.platformName? t →
        Frame.production (Entity.type t unmanaged).key ∈ env.frames := by
    intro t unmanaged chosen
    simp only [Environment.frames, List.mem_append, List.mem_flatMap]
    exact .inl (.inl (.inr ⟨t, mem_types chosen, by cases unmanaged <;> simp⟩))
  have released : ∀ {name : String} {f : Function}, select (·.architectures)
      (env.index.findFunctions name) env.options.platformName? name = .ok f →
        .function f ∈ env.index.ofName f.name := by
    intro name f chosen
    obtain ⟨_, held, same⟩ := List.mem_filterMap.mp (mem_of_select chosen).1
    obtain rfl := Definition.function?_eq_some_iff.mp same
    exact consistent.lookup held
  cases offered with
  | @candidate c d offers chosen =>
    have held := offers.held consistent d (mem_of_select chosen).1
    cases d with
    | function f => exact .inl (functions held).1
    | type t => exact .inl (types false (offers.chooses consistent chosen))
    | constant c =>
      refine .inl ?_
      simp only [Environment.frames, List.mem_append, List.mem_map]
      exact .inl (.inr ⟨c, mem_constants consistent held, rfl⟩)
  | type chosen unmanaged => exact .inl (types unmanaged chosen)
  | release chosen => exact .inl (functions (released chosen)).1
  | @template name t held =>
    refine .inl ?_
    simp only [Environment.frames, List.mem_append, List.mem_map]
    exact .inr ⟨t, List.mem_map.mpr ⟨_, Table.mem_of_lookupIn held, rfl⟩, rfl⟩
  | @guardedHandle handle backed =>
    obtain ⟨name, built⟩ := backed
    obtain ⟨release, chosen, made⟩ := buildHandle_ok (built {})
    have leads : Gen.Leads env {} (handleOfRelease release) _ _ := handleOfRelease_leads release
    rw [Gen.Leads, made] at leads
    have owned := (leads handle rfl).1
    have same : (Entity.guardedHandle handle).key = release.handleKey := by
      rw [Entity.key, Metadata.Function.handleKey, owned.name, owned.space]
    rw [same]
    exact .inl (functions (released chosen)).2
  | inlineArray ambiguous length isChar => exact .inr ⟨_, _, _, _, rfl⟩

theorem expansion_mem_frames {t : TypeDefinition}
    (chosen : env.index.Chooses env.options.platformName? t) : .expansion t.full ∈ env.frames := by
  simp only [Environment.frames, List.mem_append, List.mem_flatMap]
  exact .inl (.inl (.inr ⟨t, mem_types chosen, by simp⟩))

/-! ## Links without an end -/

/-- Links that are not followed. -/
def Links.refusing (alarm : Failure) : Links where
  demand _ := throw alarm
  functionPointer _ := throw alarm

/-- Something is begun. An alarm is raised if it is under way already. -/
def entering {α : Type} (alarm : Failure) (stack : List Frame) (frame : Frame) (body : Gen α) : Gen α :=
  if frame ∈ stack then throw alarm else body

theorem entering_fresh {α : Type} {alarm : Failure} {stack : List Frame} {frame : Frame} {body : Gen α}
    (fresh : frame ∉ stack) : entering alarm stack frame body = body := if_neg fresh

/-- Links that lead on as long as there is something that is not under way yet. An alarm is raised
    where something is begun inside itself. -/
def Links.within (env : Environment) (alarm : Failure) (stack : List Frame) : Links :=
  let further (frame : Frame) : Links :=
    if _h : frame ∈ env.frames ∧ frame ∉ stack then Links.within env alarm (frame :: stack)
    else .refusing alarm
  { demand := fun e => produce e.key (entering alarm stack (.production e.key)
      (declarationsOf (further (.production e.key)) e))
    functionPointer := fun t => inExpansion t.full (entering alarm stack (.expansion t.full)
      (delegateType (further (.expansion t.full)) t)) }
termination_by unmet env.frames stack
decreasing_by exact unmet_lt (‹_ ∧ _›).1 (‹_ ∧ _›).2

/-! ## Running on a stack -/

/-- A discipline that asks of handles that they are backed. -/
def Discipline.backing (env : Environment) : Discipline env :=
  { Discipline.any env with
    Backed := GuardedHandle.Backed env
    backed_built := fun built => ⟨_, ((buildHandle_steady _).everywhere built).2⟩ }

/-- What is under way in a transaction is on a stack, nothing is under analysis, and the handles
    that are remembered are backed. -/
structure Running (env : Environment) (id : TransactionId) (stack : List Frame) (s : State) : Prop
    extends s.In id where
  inFlight : ∀ key, s.entry key = .inFlight ↔ .production key ∈ stack
  expanding : ∀ name, name ∈ s.expanding ↔ .expansion name ∈ stack
  safe : (Discipline.backing env).Safe s

section
variable {stack : List Frame} {key : EntityKey}

/-- What has not been started is not under way. -/
theorem Running.fresh (running : Running env id stack s) (fresh : s.entry key = .notStarted) :
    .production key ∉ stack := by
  intro under
  rw [(running.inFlight key).mpr under] at fresh
  cases fresh

theorem Running.marked (running : Running env id stack s) (key : EntityKey) :
    Running env id (.production key :: stack) (s.marked id key) where
  toIn := running.toIn.marked key
  inFlight other := by
    rw [marked_entry running.toIn, List.mem_cons, ← running.inFlight]
    by_cases same : key = other
    · simp [same]
    · simp [same, Ne.symm same]
  expanding name := by
    rw [List.mem_cons, ← running.expanding]
    exact ⟨.inr, fun h => h.resolve_left nofun⟩
  safe := running.safe.onLedger _

/-- A production has come to its end. -/
theorem Running.completed (running : Running env id (.production key :: stack) s)
    (fresh : .production key ∉ stack) (declarations : List Declaration) :
    Running env id stack (s.completed id key declarations) where
  toIn := running.toIn.completed key declarations
  inFlight other := by
    rw [completed_entry running.toIn]
    by_cases same : key = other
    · subst same
      simp [fresh]
    · rw [if_neg same, running.inFlight]
      simp [Ne.symm same]
  expanding name := by
    rw [show (s.completed id key declarations).expanding = s.expanding from rfl, running.expanding]
    simp
  safe := running.safe.onLedger _

/-- An entity is complete without being produced. -/
theorem Running.elsewhere (running : Running env id stack s) (fresh : .production key ∉ stack)
    (declarations : List Declaration) : Running env id stack (s.completed id key declarations) where
  toIn := running.toIn.completed key declarations
  inFlight other := by
    rw [completed_entry running.toIn]
    by_cases same : key = other
    · subst same
      simp [fresh]
    · rw [if_neg same, running.inFlight]
  expanding := running.expanding
  safe := running.safe.onLedger _

/-- More is remembered, and the ledger is as it was. -/
theorem Running.remembering (running : Running env id stack s) {u : State}
    (current : u.current = s.current) (ledger : u.ledger = s.ledger)
    (expanding : u.expanding = s.expanding) (safe : (Discipline.backing env).Safe u) :
    Running env id stack u where
  current := current.trans running.current
  opened := by
    rw [ledger]
    exact running.opened
  inFlight key := by
    rw [← running.inFlight, State.entry, State.entry, current, ledger]
  expanding name := by rw [expanding, running.expanding]
  safe := safe

/-! ## Computations on a stack -/

section
variable {α : Type} {x y : Gen (List Declaration)}

/-- Producing an entity follows a production that raises an alarm inside itself. -/
theorem produce_follows {alarm : Failure} (running : Running env id stack s)
    (makes : ∀ t, .production key ∉ stack → Running env id (.production key :: stack) t →
      Follows env t x y (Running env id (.production key :: stack))) :
    Follows env s (produce key x) (produce key (entering alarm stack (.production key) y))
      (Running env id stack) := by
  unfold Follows Pursues
  rw [produce_eq running.toIn, produce_eq running.toIn]
  cases known : s.entry key with
  | committed declarations => exact ⟨rfl, running⟩
  | inFlight => exact ⟨rfl, running⟩
  | failed failure => exact ⟨rfl, trivial⟩
  | notStarted =>
    have fresh := running.fresh known
    rw [entering_fresh fresh]
    dsimp only
    split
    · exact ⟨rfl, running.elsewhere fresh []⟩
    · obtain ⟨alike, ends⟩ := makes _ fresh (running.marked key)
      rw [alike]
      refine ⟨rfl, ?_⟩
      cases ended : x env (s.marked id key) with
      | ok declarations t =>
        rw [ended] at ends
        simp only [ends.toIn.complete_eq]
        exact ends.completed fresh declarations
      | error e t =>
        rw [ended] at ends
        cases e with
        | structural failure => trivial
        | platformMismatch | input | cancelled | ledger | badLimit | depthExceeded => exact ends

/-- Expanding a delegate follows an expansion that raises an alarm inside itself. -/
theorem inExpansion_follows {alarm : Failure} {name : String} {x y : Gen α}
    (running : Running env id stack s)
    (makes : ∀ t, .expansion name ∉ stack → Running env id (.expansion name :: stack) t →
      Follows env t x y (Running env id (.expansion name :: stack))) :
    Follows env s (inExpansion name x) (inExpansion name (entering alarm stack (.expansion name) y))
      (Running env id stack) := by
  unfold Follows Pursues
  rw [inExpansion_eq, inExpansion_eq]
  by_cases under : s.expanding.contains name = true
  · rw [if_pos under, if_pos under]
    exact ⟨rfl, trivial⟩
  · rw [if_neg under, if_neg under]
    have fresh : .expansion name ∉ stack := by
      rw [← running.expanding]
      simpa using under
    have inside : Running env id (.expansion name :: stack) { s with expanding := name :: s.expanding } := {
      current := running.current
      opened := running.opened
      inFlight := fun key => by
        rw [List.mem_cons, ← running.inFlight]
        exact ⟨.inr, fun h => h.resolve_left nofun⟩
      expanding := fun other => by simp [← running.expanding]
      safe := running.safe.expanding _ }
    rw [entering_fresh fresh]
    refine Pursues.ensuring ((makes _ fresh inside).imp fun t after => ?_)
    exact {
      current := after.current
      opened := after.opened
      inFlight := fun key => (after.inFlight key).trans (by simp)
      expanding := fun other => by
        have still : other ∈ t.expanding ↔ _ := after.expanding other
        by_cases same : other = name
        · simp [same, fresh]
        · simp [still, same]
      safe := after.safe.expanding _ }

end

section
variable (consistent : env.index.Consistent)
include consistent

/-- The question whether a type is managed is answered, or not for a regular reason. -/
theorem isManagedType_follows {t : TypeDefinition}
    (chosen : env.index.Chooses env.options.platformName? t) (marshaling : Bool)
    (running : Running env id stack s) :
    Follows env s (isManagedType t marshaling) (isManagedType t marshaling) (Running env id stack) := by
  have regular : Follows env s (isManagedType t marshaling) (isManagedType t marshaling) fun _ => True := by
    have walks : Follows env s (walk marshaling (env.typeCount + 2) t) _ _ :=
      walk_follows consistent .cancelled chosen (unmet_typeNames []) running.safe.calm.visiting
    have walks : Follows env s (walk marshaling (env.typeCount + 2) t) _ _ := ⟨rfl, walks.2⟩
    unfold isManagedType
    refine .read (.get (.bind (?_ : Follows env s _ _ fun _ => True) fun _ _ _ => .get (.pure trivial)))
    exact .ensuring (walks.imp fun _ _ => trivial)
  have leads := isManagedType_leads running.safe marshaling (d := t) trivial
  unfold Gen.Leads at leads
  refine ⟨rfl, ?_⟩
  have ends := regular.2
  cases ended : isManagedType t marshaling env s with
  | error e u =>
    rw [ended] at ends
    exact ends
  | ok verdict u =>
    rw [ended] at leads
    obtain ⟨same, calm, _, answers, _⟩ := leads.1
    rw [same] at calm answers ⊢
    exact running.remembering rfl rfl rfl ⟨calm, running.safe.backed, answers⟩

theorem isConforming_running (t : TypeDefinition) (running : Running env id stack s) :
    Follows env s (isConforming t) (isConforming t) (Running env id stack) := by
  refine isConforming_follows consistent t (fun answer => ?_) running
  have calm := running.safe.calm
  exact running.remembering rfl rfl rfl
    ⟨calm.alike rfl, running.safe.backed, fun _ _ _ => trivial⟩

omit consistent in
/-- What follows the search for a handle is given one that is backed. -/
theorem guardedHandle?_follows {β : Type} (name : String) {f g : Option GuardedHandle → Gen β}
    (rest : ∀ answer, (∀ handle, answer = some handle → handle.Backed env) →
      ∀ t, Running env id stack t → Follows env t (f answer) (g answer) (Running env id stack))
    (running : Running env id stack s) :
    Follows env s (guardedHandle? name >>= f) (guardedHandle? name >>= g) (Running env id stack) := by
  unfold guardedHandle?
  rw [bind_assoc, bind_assoc]
  refine .get ?_
  cases known : s.handles.get? name with
  | some answer =>
    refine rest answer (fun handle same => ?_) s running
    subst same
    exact running.safe.backed name handle known
  | none =>
    dsimp only
    rw [bind_assoc, bind_assoc]
    refine .knowing (buildHandle_steady name) fun answer always => ?_
    rw [bind_assoc, bind_assoc]
    have backed : ∀ handle, answer = some handle → handle.Backed env := by
      rintro handle rfl
      exact ⟨name, always⟩
    refine .modify (rest answer backed _ ?_)
    have calm := running.safe.calm
    refine running.remembering rfl rfl rfl
      ⟨calm.alike rfl, fun other handle found => ?_, fun _ _ _ => trivial⟩
    rw [Table.get?_put] at found
    split at found
    · exact backed handle (Option.some.inj found)
    · exact running.safe.backed other handle found

end
end

/-! ## Sessions on a stack -/

section
variable (consistent : env.index.Consistent)
include consistent

/-- Computations on a stack, compared with what they follow. -/
def Comparison.running (id : TransactionId) (stack : List Frame) : Comparison env :=
  .offered consistent
    (fun x y => ∀ s, Running env id stack s → Follows env s x y (Running env id stack))
    (fun left right follows s running => .congr (left s) (right s) (follows s running))
    (fun _ _ running => .pure running)
    (fun fine _ _ => .throw (fine.elim (·.regular) (·.regular)))
    (fun first rest s running => .bind (first s running) rest)
    (fun _ _ running => isConforming_running consistent _ running)
    (fun chosen _ running => isManagedType_follows consistent chosen true running)
    (fun name _ _ rest _ running => guardedHandle?_follows name rest running)

/-- Links to chains of any length that is enough are followed by links without an end. -/
theorem within_linked (alarm : Failure) {depth : Nat} {stack : List Frame}
    (enough : unmet env.frames stack < depth) :
    (Comparison.running consistent id stack).Linked (Links.upTo depth)
      (Links.within env alarm stack) := by
  induction depth generalizing stack with
  | zero => omega
  | succ depth ih =>
    rw [Links.upTo, Links.within]
    dsimp only
    refine ⟨fun e offered s running => ?_, fun t chosen s running => ?_⟩
    · refine produce_follows running fun t fresh running => ?_
      rcases offered.mem_frames consistent with known | ⟨name, element, length, isChar, rfl⟩
      · have fewer := unmet_lt known fresh
        rw [dif_pos ⟨known, fresh⟩]
        have linked : (Comparison.running consistent id (.production e.key :: stack)).Linked _ _ :=
          ih (by omega)
        exact declarationsOf_matches linked offered t running
      · exact .read (.pure running)
    · refine inExpansion_follows running fun u fresh running => ?_
      have known := expansion_mem_frames chosen
      have fewer := unmet_lt known fresh
      rw [dif_pos ⟨known, fresh⟩]
      have linked : (Comparison.running consistent id (.expansion t.full :: stack)).Linked _ _ :=
        ih (by omega)
      exact delegateType_matches linked t u running

end
end Bindings
