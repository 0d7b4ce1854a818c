import Bindings.Proofs.Generation.Marshaling
import Bindings.Proofs.Generation.Seclusion
import Bindings.Proofs.Generation.Spreading

/-!
# Searches without fuel

The line of first bases and the walk of the analysis go from type to type with a bound on the
depth. They are the same as searches that end because each step goes to a type that the search has
not met on its way, and there are only so many types. The bound is never reached.
-/

namespace Bindings
open Bindings.Metadata

/-! ## What has not been met -/

section
variable {α : Type} [DecidableEq α] {all met : List α} {a : α}

/-- The number of places at which a list has something that has not been met. -/
def unmet (all met : List α) : Nat := all.countP (· ∉ met)

theorem unmet_lt (member : a ∈ all) (fresh : a ∉ met) : unmet all (a :: met) < unmet all met := by
  unfold unmet
  refine Analysis.countP_lt (fun b _ other => ?_) member (by simpa using fresh) (by simp)
  simp only [List.mem_cons, not_or, decide_eq_true_eq] at other ⊢
  exact other.2

theorem unmet_le (all met : List α) : unmet all met ≤ all.length := List.countP_le_length

end

/-! ## Computations that follow each other -/

/-- Failures that come from the metadata or from what is requested. -/
def Failure.Regular : Failure → Prop
  | .structural _ | .platformMismatch .. | .input _ => True
  | .cancelled | .ledger _ | .badLimit _ | .depthExceeded => False

theorem Failure.Plain.regular {e : Failure} (plain : e.Plain) : e.Regular := by
  cases e <;> trivial

theorem Failure.Ambiguous.regular {e : Failure} (ambiguous : e.Ambiguous) : e.Regular := by
  obtain ⟨name, names, rfl⟩ := ambiguous
  trivial

theorem Failure.Unasked.plain {e : Failure} (unasked : e.Unasked) (regular : e.Regular) : e.Plain := by
  cases e with
  | structural failure => exact unasked.unowned failure rfl
  | platformMismatch => trivial
  | input problem => exact unasked.unasked problem rfl
  | cancelled | ledger | badLimit | depthExceeded => exact regular.elim

/-- What ends in the same way in all states is steady if its failures are regular and none is due to what
    is asked for. -/
theorem Gen.Constant.steady {α : Type} {env : Environment} {x : Gen α}
    (constant : Gen.Constant Failure.Unasked env x)
    (regular : ∀ e, (∀ s, x env s = .error e s) → e.Regular) : Gen.Steady env x := by
  obtain ⟨result, unasked, always⟩ := constant
  refine ⟨result, fun e same => (unasked e same).plain (regular e ?_), always⟩
  subst same
  exact always

/-- From a state on, a computation is not told from another one. If it succeeds the state after it
    is as it should be, and if it fails the failure is. -/
def Pursues {α : Type} (Fine : Failure → Prop) (env : Environment) (s : State) (x y : Gen α)
    (after : State → Prop) : Prop :=
  y env s = x env s ∧ match x env s with
    | .ok _ t => after t
    | .error e _ => Fine e

/-- A computation is not told from another one, and fails for a regular reason if it fails. -/
abbrev Follows {α : Type} (env : Environment) (s : State) (x y : Gen α) (after : State → Prop) : Prop :=
  Pursues Failure.Regular env s x y after

namespace Pursues
variable {α β : Type} {Fine : Failure → Prop} {env : Environment} {s : State} {x y : Gen α}
  {after : State → Prop}

theorem pure {a : α} (holds : after s) : Pursues Fine env s (pure a) (pure a) after := ⟨rfl, holds⟩

theorem throw {e : Failure} (fine : Fine e) :
    Pursues Fine env s (throw e : Gen α) (throw e) after := ⟨rfl, fine⟩

theorem bind {f g : α → Gen β} {middle : State → Prop} (first : Pursues Fine env s x y middle)
    (rest : ∀ a t, middle t → Pursues Fine env t (f a) (g a) after) :
    Pursues Fine env s (x >>= f) (y >>= g) after := by
  obtain ⟨alike, ends⟩ := first
  unfold Pursues
  rw [Gen.bind_eq, Gen.bind_eq, alike]
  cases ended : x env s with
  | error e t =>
    rw [ended] at ends
    exact ⟨rfl, ends⟩
  | ok a t =>
    rw [ended] at ends
    exact rest a t ends

theorem imp {weaker : State → Prop} (pursues : Pursues Fine env s x y after)
    (implies : ∀ t, after t → weaker t) : Pursues Fine env s x y weaker := by
  obtain ⟨alike, ends⟩ := pursues
  refine ⟨alike, ?_⟩
  cases ended : x env s with
  | error e t =>
    rw [ended] at ends
    exact ends
  | ok a t =>
    rw [ended] at ends
    exact implies t ends

theorem weaken {Weaker : Failure → Prop} (pursues : Pursues Fine env s x y after)
    (implies : ∀ e, Fine e → Weaker e) : Pursues Weaker env s x y after := by
  obtain ⟨alike, ends⟩ := pursues
  refine ⟨alike, ?_⟩
  cases ended : x env s with
  | error e t =>
    rw [ended] at ends
    exact implies e ends
  | ok a t =>
    rw [ended] at ends
    exact ends

theorem congr {u v : Gen α} (left : x env s = u env s) (right : y env s = v env s)
    (pursues : Pursues Fine env s u v after) : Pursues Fine env s x y after := by
  obtain ⟨alike, ends⟩ := pursues
  exact ⟨by rw [left, right, alike], by rw [left]; exact ends⟩

theorem read {f g : Environment → Gen α} (rest : Pursues Fine env s (f env) (g env) after) :
    Pursues Fine env s (read >>= f) (read >>= g) after := rest

theorem get {f g : State → Gen α} (rest : Pursues Fine env s (f s) (g s) after) :
    Pursues Fine env s (get >>= f) (get >>= g) after := rest

theorem modify {change : State → State} {f g : Unit → Gen α}
    (rest : Pursues Fine env (change s) (f ()) (g ()) after) :
    Pursues Fine env s (modify change >>= f) (modify change >>= g) after := rest

theorem ensuring {change : State → State}
    (pursues : Pursues Fine env s x y fun t => after (change t)) :
    Pursues Fine env s (Gen.ensuring x change) (Gen.ensuring y change) after := by
  obtain ⟨alike, ends⟩ := pursues
  unfold Pursues
  rw [Gen.ensuring_eq, Gen.ensuring_eq, alike]
  cases ended : x env s <;> rw [ended] at ends <;> exact ⟨rfl, ends⟩

/-- There is a result, or a failure that is as it should be. -/
theorem ends (pursues : Pursues Fine env s x y after) :
    (∃ a t, x env s = .ok a t) ∨ ∃ e t, x env s = .error e t ∧ Fine e := by
  obtain ⟨_, ends⟩ := pursues
  cases ended : x env s with
  | ok a t => exact .inl ⟨a, t, rfl⟩
  | error e t =>
    rw [ended] at ends
    exact .inr ⟨e, t, rfl, ends⟩

theorem fault (f : Fault) : Follows env s (Gen.fault f : Gen α) (Gen.fault f) after := .throw trivial

/-- What a steady computation gives is known to what follows. -/
theorem knowing {f g : α → Gen β} (steady : Gen.Steady env x)
    (rest : ∀ a, (∀ u, x env u = .ok a u) → Follows env s (f a) (g a) after) :
    Follows env s (x >>= f) (x >>= g) after := by
  obtain ⟨result, plain, always⟩ := steady
  unfold Follows Pursues
  rw [Gen.bind_eq, Gen.bind_eq, always s]
  cases result with
  | error e => exact ⟨rfl, (plain e rfl).regular⟩
  | ok a => exact rest a always

end Pursues

variable {env : Environment}

/-! ## Lines of bases -/

/-- The full names of all types. -/
def Environment.typeNames (env : Environment) : List String := env.types.map (·.full)

theorem mem_typeNames {t : TypeDefinition}
    (chosen : env.index.Chooses env.options.platformName? t) : t.full ∈ env.typeNames :=
  List.mem_map_of_mem (mem_types chosen)

theorem unmet_typeNames (met : List String) : unmet env.typeNames met < env.typeCount + 2 := by
  have few := unmet_le env.typeNames met
  rw [Environment.typeNames, List.length_map] at few
  rw [typeCount_eq]
  exact Nat.lt_add_right 1 (Nat.lt_succ_of_le few)

/-- The bases of an interface, nearest first, where each is one of the types and has a name that has
    not been met. There is no bound. -/
def ascend (env : Environment) (alarm : Failure) (met : List String) (t : TypeDefinition) :
    Gen (List TypeDefinition) :=
  match t.bases with
  | [] => return []
  | reference :: _ => do
    match ← resolve reference with
    | none => Gen.fault (.unknownBase reference.full t.full)
    | some base =>
      if !base.isInterface then Gen.fault (.unknownBase reference.full t.full)
      else if _h : base.full ∈ met then Gen.fault (.inheritanceCycle base.full)
      else if _h : base.full ∈ env.typeNames then
        return base :: (← ascend env alarm (base.full :: met) base)
      else throw alarm
termination_by unmet env.typeNames met
decreasing_by exact unmet_lt ‹_› ‹_›

section
variable (consistent : env.index.Consistent)
include consistent

/-- The bound on a line is never reached. -/
theorem climb_follows (alarm : Failure) {depth : Nat} {met : List String} (t : TypeDefinition)
    (enough : unmet env.typeNames met < depth) (s : State) :
    Follows env s (climb depth met t) (ascend env alarm met t) (s = ·) := by
  induction depth generalizing met t with
  | zero => omega
  | succ depth ih =>
    rw [climb.eq_2, ascend]
    cases t.bases with
    | nil => exact .pure rfl
    | cons reference more =>
      refine .knowing (resolve_steady reference) fun found always => ?_
      cases found with
      | none => exact .fault _
      | some base =>
        have known := mem_typeNames (Means.chooses consistent always).1
        by_cases shape : base.isInterface = true
        · by_cases fresh : base.full ∈ met
          · simp only [shape, fresh, List.contains_iff_mem]
            exact .fault _
          · have fewer := unmet_lt known fresh
            simp only [shape, fresh, known, List.contains_iff_mem]
            refine .bind (ih base (by omega)) ?_
            rintro chain _ rfl
            exact .pure rfl
        · simp only [shape]
          exact .fault _

/-- The base chain of an interface is found, or not for a plain reason. -/
theorem baseChain_steady (t : TypeDefinition) : Gen.Steady env (baseChain t) := by
  refine (baseChain_unasked t).steady fun e fails => ?_
  have follows := climb_follows consistent .cancelled t (unmet_typeNames [t.full]) {}
  have failed := fails {}
  unfold baseChain at failed
  rw [Gen.read_bind, Gen.bind_eq] at failed
  cases ended : climb (env.typeCount + 2) [t.full] t env {} with
  | ok chain u =>
    rw [ended] at failed
    cases failed
  | error f u =>
    rw [ended] at failed
    cases failed
    have regular := follows.2
    rwa [ended] at regular

theorem reachesUniversalBase_steady (t : TypeDefinition) :
    Gen.Steady env (reachesUniversalBase t) := by
  unfold reachesUniversalBase
  refine .bind .read fun _ => ?_
  dsimp only
  split
  · exact .pure true
  · refine .bind (baseChain_steady consistent t) fun chain => ?_
    split <;> exact .pure _

theorem isConforming_follows (t : TypeDefinition) {s : State} {after : State → Prop}
    (keeps : ∀ answer, after { s with conformance := s.conformance.put t.full answer })
    (holds : after s) : Follows env s (isConforming t) (isConforming t) after := by
  unfold isConforming
  refine .get ?_
  cases s.conformance.get? t.full with
  | some answer => exact .pure holds
  | none =>
    refine .knowing (reachesUniversalBase_steady consistent t) fun answer _ => ?_
    exact .modify (.pure (keeps answer))

end

/-- The names on a line have not been met before, and each is there once. -/
theorem climb_distinct {depth : Nat} {met : List String} {t : TypeDefinition}
    {chain : List TypeDefinition} {s u : State} (ends : climb depth met t env s = .ok chain u) :
    (chain.map (·.full)).Nodup ∧ ∀ base ∈ chain, base.full ∉ met := by
  induction depth generalizing met t chain s u with
  | zero => cases ends
  | succ depth ih =>
    rw [climb.eq_2] at ends
    cases first : t.bases with
    | nil =>
      rw [first] at ends
      obtain ⟨rfl, _⟩ := Gen.pure_ok ends
      simp
    | cons reference more =>
      rw [first] at ends
      obtain ⟨found, v, _, ends⟩ := Gen.bind_ok ends
      cases found with
      | none => cases ends
      | some base =>
        by_cases shape : base.isInterface = true
        · by_cases fresh : base.full ∈ met
          · simp only [shape, fresh, List.contains_iff_mem] at ends
            cases ends
          · simp only [shape, fresh, List.contains_iff_mem] at ends
            obtain ⟨rest, w, further, ends⟩ := Gen.bind_ok ends
            obtain ⟨rfl, _⟩ := Gen.pure_ok ends
            obtain ⟨distinct, others⟩ := ih further
            refine ⟨?_, fun other member => ?_⟩
            · rw [List.map_cons, List.nodup_cons]
              refine ⟨fun again => ?_, distinct⟩
              obtain ⟨other, there, same⟩ := List.mem_map.mp again
              exact others other there (by simp [same])
            · rcases List.mem_cons.mp member with rfl | later
              · exact fresh
              · exact fun before => others other later (List.mem_cons_of_mem _ before)
        · simp only [shape] at ends
          cases ends

/-! ## The walk -/

/-- A step of the walk to a type, and on to the types of its fields by further steps. -/
def visit (marshaling : Bool) (enter : Gen Unit) (onward : TypeDefinition → Gen (Option Bool))
    (t : TypeDefinition) : Gen (Option Bool) := do
  let key := (marshaling, t.full)
  let analysis := (← get).analysis
  match analysis.verdicts.get? key with
  | some verdict => return some verdict
  | none =>
    if analysis.visiting.contains key then return none
    else
      let verdict ← match t.shape with
        | .enum .. => pure false
        | .delegate .. => pure marshaling
        | .interface .. => if marshaling then isConforming t else pure false
        | .record r =>
          if r.explicitLayout then pure false
          else do
            enter
            modify (·.analyse fun a => { a with visiting := key :: a.visiting })
            Gen.ensuring (anyFieldIsManaged onward marshaling key r.fields)
              (·.analyse fun a => { a with visiting := a.visiting.filter (· ≠ key) })
      modify (·.analyse fun a => { a with verdicts := a.verdicts.put key verdict })
      return some verdict

theorem walk_succ (marshaling : Bool) (depth : Nat) (t : TypeDefinition) :
    walk marshaling (depth + 1) t = visit marshaling (pure ()) (walk marshaling depth) t := rfl

/-- The walk without a bound, along a path of types. An alarm is raised where a struct is entered that
    is on the path already, or that is none of the types. -/
def explore (env : Environment) (alarm : Failure) (marshaling : Bool) (path : List String)
    (t : TypeDefinition) : Gen (Option Bool) :=
  visit marshaling (if t.full ∈ path then throw alarm else pure ())
    (if _h : t.full ∈ env.typeNames ∧ t.full ∉ path then
      explore env alarm marshaling (t.full :: path)
    else fun _ => throw alarm) t
termination_by unmet env.typeNames path
decreasing_by exact unmet_lt (‹_ ∧ _›).1 (‹_ ∧ _›).2

/-- The types that are under way are those on a path. -/
def State.OnPath (marshaling : Bool) (path : List String) (s : State) : Prop :=
  s.analysis.visiting = path.map (marshaling, ·)

section
variable (consistent : env.index.Consistent) {marshaling : Bool} {path : List String}
  {step other : TypeDefinition → Gen (Option Bool)}
  (goes : ∀ t s, env.index.Chooses env.options.platformName? t → s.OnPath marshaling path →
    Follows env s (step t) (other t) (State.OnPath marshaling path))
include consistent goes

theorem fieldIsManaged_follows (owner : AnalysisKey) (type : NativeType) {s : State}
    (on : s.OnPath marshaling path) :
    Follows env s (fieldIsManaged step marshaling owner type)
      (fieldIsManaged other marshaling owner type) (State.OnPath marshaling path) := by
  unfold fieldIsManaged
  cases heldReference? type with
  | none => exact .pure on
  | some reference =>
    refine .knowing (resolve_steady reference) fun found always => ?_
    cases found with
    | none => exact .pure on
    | some t =>
      refine .bind (goes t s (Means.chooses consistent always).1 on) fun verdict u on => ?_
      split
      · exact .pure on
      · refine .get ?_
        dsimp only
        split
        · exact .modify (.pure on)
        · exact .pure on

theorem anyFieldIsManaged_follows (owner : AnalysisKey) (fields : List Field) {s : State}
    (on : s.OnPath marshaling path) :
    Follows env s (anyFieldIsManaged step marshaling owner fields)
      (anyFieldIsManaged other marshaling owner fields) (State.OnPath marshaling path) := by
  induction fields generalizing s with
  | nil => exact .pure on
  | cons f rest ih =>
    unfold anyFieldIsManaged
    refine .bind (fieldIsManaged_follows consistent goes owner f.type on) fun managed u on => ?_
    split
    · exact .pure on
    · exact ih on

end

section
variable (consistent : env.index.Consistent)
include consistent

/-- The bound on the walk is never reached, and no struct is entered that is under way. -/
theorem walk_follows (alarm : Failure) {marshaling : Bool} {depth : Nat} {path : List String}
    {t : TypeDefinition} (chosen : env.index.Chooses env.options.platformName? t)
    (enough : unmet env.typeNames path < depth) {s : State} (on : s.OnPath marshaling path) :
    Follows env s (walk marshaling depth t) (explore env alarm marshaling path t)
      (State.OnPath marshaling path) := by
  induction depth generalizing path t s with
  | zero => omega
  | succ depth ih =>
    rw [walk_succ, explore]
    unfold visit
    refine .get ?_
    dsimp only
    cases s.analysis.verdicts.get? (marshaling, t.full) with
    | some verdict => exact .pure on
    | none =>
      dsimp only
      have under : s.analysis.visiting.contains (marshaling, t.full) = true ↔ t.full ∈ path := by
        rw [show s.analysis.visiting = _ from on]
        simp
      by_cases fresh : t.full ∈ path
      · rw [if_pos (under.mpr fresh), if_pos (under.mpr fresh)]
        exact .pure on
      · rw [if_neg (mt under.mp fresh), if_neg (mt under.mp fresh)]
        have finish : ∀ verdict u, u.OnPath marshaling path → Follows env u
            (do
              modify (·.analyse fun a =>
                { a with verdicts := a.verdicts.put (marshaling, t.full) verdict })
              return some verdict)
            (do
              modify (·.analyse fun a =>
                { a with verdicts := a.verdicts.put (marshaling, t.full) verdict })
              return some verdict) (State.OnPath marshaling path) :=
          fun _ _ on => .modify (.pure on)
        cases t.shape with
        | enum base members isFlags => exact .bind (.pure on) finish
        | delegate returns params => exact .bind (.pure on) finish
        | interface bases methods guid =>
          dsimp only
          split
          · exact .bind (isConforming_follows consistent t (fun _ => on) on) finish
          · exact .bind (.pure on) finish
        | record r =>
          dsimp only
          split
          · exact .bind (.pure on) finish
          · have known := mem_typeNames chosen
            have fewer := unmet_lt known fresh
            rw [dif_pos ⟨known, fresh⟩]
            refine .bind (.pure on) fun _ u on => .modify (.bind (.ensuring ?_) finish)
            -- the struct is on the path while its fields are looked at
            have inside : State.OnPath marshaling (t.full :: path)
                (u.analyse fun a => { a with visiting := (marshaling, t.full) :: a.visiting }) :=
              congrArg ((marshaling, t.full) :: ·) on
            refine (anyFieldIsManaged_follows consistent (fun v w chosen on =>
              ih chosen (by omega) on) (marshaling, t.full) r.fields inside).imp fun v on => ?_
            have absent : (marshaling, t.full) ∉ path.map (marshaling, ·) := by simpa using fresh
            exact (congrArg (List.filter (· ≠ (marshaling, t.full))) on).trans (filter_visiting absent)

end
end Bindings
