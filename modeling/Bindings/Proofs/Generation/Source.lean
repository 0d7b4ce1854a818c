import Bindings.Proofs.Generation.Stack

/-!
# Where declarations come from

What a computation completes was declared by the producers of entities that generation comes to, in
states whose memory is right. Nothing that such a producer needed is forgotten later.
-/

namespace Bindings
open Bindings.Metadata

variable {env : Environment} {α β : Type} {s t u : State} {id : TransactionId}

/-! ## What is remembered of questions -/

/-- From a state where nothing is under analysis a computation that gives a result loses nothing. -/
def Gen.Recalling (env : Environment) (x : Gen α) : Prop :=
  ∀ {s : State}, s.Calm → Gen.Leads env s x (fun _ t => Carries s t) fun _ => True

/-- What is known is carried on, and so is all of the memory if that stays the same. -/
theorem Carries.of_memory (knows : ∀ key, s.Knows key → t.Knows key) (same : t.memory = s.memory) :
    Carries s t where
  knows := knows
  conforms d answer held := by
    have conformance : t.conformance = s.conformance := congrArg Memory.conformance same
    rwa [State.Conforms, conformance]
  judges d verdict held := by
    have analysis : t.analysis = s.analysis := congrArg Memory.analysis same
    rwa [State.Judges, analysis]

theorem isConforming_recalling (d : TypeDefinition) : Gen.Recalling env (isConforming d) := by
  intro s calm
  have learns := isConforming_leads (D := .any env) (s := s) (d := d) trivial fun _ _ _ => trivial
  refine learns.imp (fun answer t ended => ?_) fun _ _ => trivial
  exact ended.1.grows.carries

theorem isManagedType_recalling (d : TypeDefinition) : Gen.Recalling env (isManagedType d true) := by
  intro s calm
  have safe : (Discipline.any env).Safe s := safe_any calm
  have analysed := isManagedType_leads safe true (d := d) trivial
  refine analysed.imp (fun verdict t ended => ?_) fun _ _ => trivial
  exact ended.1.grows.carries

theorem guardedHandle?_recalling (name : String) : Gen.Recalling env (guardedHandle? name) := by
  intro s calm
  unfold guardedHandle?
  refine .get ?_
  split
  · exact .pure (.refl s)
  · refine .bind (.steady (buildHandle_steady name) (Q := fun _ t => t = s) (fun _ _ => rfl) trivial) ?_
    rintro answer t rfl
    exact .modify (.pure ⟨fun _ known => known, fun _ _ held => held, fun _ _ held => held⟩)

/-- What is remembered of handles is what would be found out anew. -/
def State.Faithful (env : Environment) (s : State) : Prop :=
  ∀ name answer, s.handles.get? name = some answer → ∀ u, buildHandle name env u = .ok answer u

theorem guardedHandle?_leads (faithful : s.Faithful env) (name : String) :
    Gen.Leads env s (guardedHandle? name) (fun answer t => t = { s with handles := t.handles } ∧
      t.Faithful env ∧ ∀ u, buildHandle name env u = .ok answer u) fun t => t = s := by
  unfold guardedHandle?
  refine .get ?_
  cases known : s.handles.get? name with
  | some answer => exact .pure ⟨rfl, faithful, faithful name answer known⟩
  | none =>
    refine .bind (.steady (buildHandle_steady name) (Q := fun answer t =>
      t = s ∧ ∀ u, buildHandle name env u = .ok answer u) (fun _ always => ⟨rfl, always⟩) rfl) ?_
    rintro answer t ⟨rfl, always⟩
    refine .modify (.pure ⟨rfl, fun other found held => ?_, always⟩)
    rw [Table.get?_put] at held
    split at held
    · next same => exact same ▸ Option.some.inj held ▸ always
    · exact faithful other found held

/-! ## What is kept of the memory -/

/-- Something that is true of what a session remembers, and that the questions on definitions that
    are asked while declarations are made keep true, whether they are answered or not. -/
structure Upkeep (env : Environment) where
  Holds : State → Prop
  alike : ∀ {s t}, Holds s → t.memory = s.memory → Holds t
  calm : ∀ {s}, Holds s → s.Calm
  conforming : ∀ {t}, env.index.Chooses env.options.platformName? t → ∀ {s}, Holds s →
    Gen.Leads env s (isConforming t) (fun _ => Holds) Holds
  managed : ∀ {t}, env.index.Chooses env.options.platformName? t → ∀ {s}, Holds s →
    Gen.Leads env s (isManagedType t true) (fun _ => Holds) Holds
  handle : ∀ name {s}, Holds s → Gen.Leads env s (guardedHandle? name)
    (fun answer t => Holds t ∧ ∀ handle, answer = some handle → handle.Backed env) Holds

section
variable {D : Discipline env}

/-- A state is safe by what it remembers. -/
theorem Discipline.Safe.alike (safe : D.Safe s) (same : t.memory = s.memory) : D.Safe t := by
  have analysis : t.analysis = s.analysis := congrArg Memory.analysis same
  have conformance : t.conformance = s.conformance := congrArg Memory.conformance same
  have handles : t.handles = s.handles := congrArg Memory.handles same
  refine ⟨⟨?_, ?_, ?_⟩, ?_, ?_⟩
  · exact analysis ▸ safe.calm.visiting
  · exact analysis ▸ safe.calm.provisional
  · exact analysis ▸ safe.calm.dependents
  · rw [handles]
    exact safe.backed
  · rw [conformance]
    exact safe.answers

theorem Discipline.Safe.isConforming (safe : D.Safe s) {d : TypeDefinition} (listed : D.Listed (.type d)) :
    Gen.Leads env s (isConforming d) (fun _ => D.Safe) D.Safe := by
  refine (isConforming_leads listed safe.answers).imp ?_ ?_
  · rintro answer t ⟨⟨same, _, answers⟩, _⟩
    rw [same] at answers ⊢
    exact ⟨⟨safe.calm.visiting, safe.calm.provisional, safe.calm.dependents⟩, safe.backed, answers⟩
  · rintro t rfl
    exact safe

theorem Discipline.Safe.isManagedType (safe : D.Safe s) {d : TypeDefinition}
    (listed : D.Listed (.type d)) : Gen.Leads env s (isManagedType d true) (fun _ => D.Safe) D.Safe := by
  have after : ∀ t, Analysed D true s t → D.Safe t := by
    rintro t ⟨same, calm, _, answers, _⟩
    rw [same] at calm answers ⊢
    exact ⟨calm, safe.backed, answers⟩
  exact (isManagedType_leads safe true listed).imp (fun _ t h => after t h.1) after

theorem Discipline.Safe.guardedHandle? (safe : D.Safe s) (name : String) :
    Gen.Leads env s (guardedHandle? name)
      (fun answer t => D.Safe t ∧ ∀ handle, answer = some handle → D.Backed handle) D.Safe := by
  unfold Bindings.guardedHandle?
  refine .get ?_
  cases known : s.handles.get? name with
  | some answer =>
    refine .pure ⟨safe, fun handle same => ?_⟩
    subst same
    exact safe.backed name handle known
  | none =>
    refine .bind (.steady (buildHandle_steady name) (Q := fun answer t =>
      t = s ∧ ∀ handle, answer = some handle → D.Backed handle) (fun answer always => ⟨rfl, ?_⟩) safe) ?_
    · rintro handle rfl
      exact D.backed_built (always {})
    · rintro answer t ⟨rfl, backed⟩
      refine .modify (.pure ⟨⟨⟨safe.calm.visiting, safe.calm.provisional, safe.calm.dependents⟩,
        fun other handle found => ?_, safe.answers⟩, backed⟩)
      rw [Table.get?_put] at found
      split at found
      · exact backed handle (Option.some.inj found)
      · exact safe.backed other handle found

/-- What a discipline asks of what is remembered is kept, if it asks of handles that they are backed
    and of types no more than that they are chosen. -/
def Upkeep.ofDiscipline (D : Discipline env)
    (listed : ∀ {t}, env.index.Chooses env.options.platformName? t → D.Listed (.type t))
    (backed : ∀ {handle}, D.Backed handle → handle.Backed env) : Upkeep env where
  Holds := D.Safe
  alike safe same := safe.alike same
  calm safe := safe.calm
  conforming chosen _ safe := safe.isConforming (listed chosen)
  managed chosen _ safe := safe.isManagedType (listed chosen)
  handle name _ safe := (safe.guardedHandle? name).imp
    (fun _ _ ended => ⟨ended.1, fun handle same => backed (ended.2 handle same)⟩) fun _ safe => safe

end

theorem State.Faithful.guardedHandle? (calm : s.Calm) (faithful : s.Faithful env) (name : String) :
    Gen.Leads env s (guardedHandle? name)
      (fun answer t => (t.Calm ∧ t.Faithful env) ∧ ∀ u, buildHandle name env u = .ok answer u)
      fun t => t.Calm ∧ t.Faithful env := by
  refine (guardedHandle?_leads faithful name).imp ?_ ?_
  · rintro answer t ⟨same, kept, always⟩
    refine ⟨⟨?_, kept⟩, always⟩
    rw [same]
    exact calm.alike rfl
  · rintro t rfl
    exact ⟨calm, faithful⟩

/-- What is remembered of handles stays what would be found out anew. -/
def Upkeep.faithful (env : Environment) : Upkeep env where
  Holds s := s.Calm ∧ s.Faithful env
  alike := by
    rintro s t ⟨calm, faithful⟩ same
    have handles : t.handles = s.handles := congrArg Memory.handles same
    have safe : (Discipline.any env).Safe s := safe_any calm
    refine ⟨(safe.alike same).calm, ?_⟩
    rwa [State.Faithful, handles]
  calm holds := holds.1
  conforming {d} _ {s} := by
    rintro ⟨calm, faithful⟩
    refine (isConforming_leads (D := .any env) (s := s) (d := d) trivial fun _ _ _ => trivial).imp ?_ ?_
    · rintro answer t ⟨⟨same, _, _⟩, _⟩
      rw [same]
      exact ⟨calm.alike rfl, faithful⟩
    · rintro t rfl
      exact ⟨calm, faithful⟩
  managed {d} _ {s} := by
    rintro ⟨calm, faithful⟩
    have after : ∀ t, Analysed (.any env) true s t → t.Calm ∧ t.Faithful env := by
      rintro t ⟨same, calm, _⟩
      refine ⟨calm, ?_⟩
      rw [same]
      exact faithful
    exact (isManagedType_leads (safe_any calm) true trivial).imp (fun _ t ended => after t ended.1) after
  handle name _ holds := (holds.2.guardedHandle? holds.1 name).imp
    (fun _ _ ended => ⟨ended.1, fun _ same => ⟨name, same ▸ ended.2⟩⟩) fun _ kept => kept

/-- Handles that are remembered stay backed. -/
def Upkeep.backing (env : Environment) : Upkeep env :=
  .ofDiscipline (.backing env) (fun _ => trivial) fun backed => backed

/-! ## Sources -/

variable {U : Upkeep env} {P : α → Prop} {Q : β → Prop}

/-- Declarations are those that the producer of an entity gives, in an open transaction of a state
    whose memory is right. What the producer knew and remembered in the end is not lost since. -/
structure Makes (U : Upkeep env) (t : State) (e : Entity) (declarations : List Declaration) : Prop where
  offered : e.Offered env
  ran : ∃ depth id u v, u.In id ∧ U.Holds u ∧
    declarationsOf (Links.upTo depth) e env u = .ok declarations v ∧ Carries v t

/-- A completion has a source: it is available elsewhere, or an entity with its key was produced. -/
inductive Sourced (U : Upkeep env) (t : State) (c : Completion) : Prop
  | elsewhere (available : env.available.contains c.1.name.full = true) (nothing : c.2 = [])
  | produced {e : Entity} (missing : env.available.contains c.1.name.full = false) (key : e.key = c.1)
      (makes : Makes U t e c.2)

theorem Makes.later {e : Entity} {declarations : List Declaration} (makes : Makes U t e declarations)
    (carries : Carries t u) : Makes U u e declarations where
  offered := makes.offered
  ran := by
    obtain ⟨depth, id, v, w, inside, holds, ended, kept⟩ := makes.ran
    exact ⟨depth, id, v, w, inside, holds, ended, kept.trans carries⟩

theorem Sourced.later {c : Completion} (sourced : Sourced U t c) (carries : Carries t u) :
    Sourced U u c := by
  cases sourced with
  | elsewhere available nothing => exact .elsewhere available nothing
  | produced missing key makes => exact .produced missing key (makes.later carries)

/-- In every open transaction a computation keeps what is true of the memory, loses nothing of it, and
    whatever it completes has a source. -/
def Traces (U : Upkeep env) (P : α → Prop) (x : Gen α) : Prop :=
  ∀ id s, s.In id → U.Holds s → Gen.Leads env s x
    (fun a t => U.Holds t ∧ P a ∧ Carries s t ∧
      ∃ more, Produces id s t more ∧ ∀ c ∈ more, Sourced U t c) U.Holds

/-- The state after a computation is as good as the state before. -/
theorem Traces.ended {x : Gen α} (traces : Traces U P x) (inside : s.In id) (holds : U.Holds s) {a : α}
    (ended : x env s = .ok a t) : t.In id ∧ U.Holds t ∧ P a := by
  have leads := traces id s inside holds
  rw [Gen.Leads, ended] at leads
  obtain ⟨kept, known, _, _, produces, _⟩ := leads
  exact ⟨produces.inside inside, kept, known⟩

/-- What is known and remembered stays so. -/
theorem Traces.carries {x : Gen α} (traces : Traces U P x) (inside : s.In id) (holds : U.Holds s) {a : α}
    (ended : x env s = .ok a t) : Carries s t := by
  have leads := traces id s inside holds
  rw [Gen.Leads, ended] at leads
  exact leads.2.2.1

theorem Traces.congr {x y : Gen α} (same : ∀ s, x env s = y env s) (traces : Traces U P y) :
    Traces U P x := by
  intro id s inside holds
  rw [Gen.Leads, same]
  exact traces id s inside holds

/-- A question apart from the ledger completes nothing. -/
theorem Traces.asking {x : Gen α} (secluded : Gen.Secluded env x) (recalls : Gen.Recalling env x)
    (keeps : ∀ {s}, U.Holds s → Gen.Leads env s x (fun a t => U.Holds t ∧ P a) U.Holds) :
    Traces U P x := by
  intro id s inside holds
  obtain ⟨result, m, _, ends⟩ := secluded s.memory
  have kept := keeps holds
  have carries := recalls (U.calm holds)
  rw [Gen.Leads, ends s rfl] at kept carries ⊢
  cases result with
  | ok a => exact ⟨kept.1, kept.2, carries, [], .same rfl rfl, by simp⟩
  | error e => exact kept

theorem Traces.conforming {d : TypeDefinition} (chosen : env.index.Chooses env.options.platformName? d) :
    Traces U (fun _ => True) (isConforming d) :=
  .asking (isConforming_secluded d) (isConforming_recalling d) fun holds =>
    (U.conforming chosen holds).imp (fun _ _ kept => ⟨kept, trivial⟩) fun _ kept => kept

theorem Traces.managed {d : TypeDefinition} (chosen : env.index.Chooses env.options.platformName? d) :
    Traces U (fun _ => True) (isManagedType d true) :=
  .asking (isManagedType_secluded d true) (isManagedType_recalling d) fun holds =>
    (U.managed chosen holds).imp (fun _ _ kept => ⟨kept, trivial⟩) fun _ kept => kept

theorem Traces.pure {a : α} (holds : P a) : Traces U P (pure a : Gen α) :=
  .asking (.pure a) (fun _ => .pure (.refl _)) fun kept => .pure ⟨kept, holds⟩

theorem Traces.throw (e : Failure) : Traces U P (throw e : Gen α) := fun _ _ _ holds => holds

theorem Traces.bind {x : Gen α} {f : α → Gen β} (first : Traces U P x)
    (rest : ∀ a, P a → Traces U Q (f a)) : Traces U Q (x >>= f) := by
  intro id s inside holds
  refine Gen.Leads.bind (first id s inside holds) ?_
  rintro a t ⟨kept, known, carries, more, produces, sourced⟩
  refine (rest a known id t (produces.inside inside) kept).imp ?_ fun _ h => h
  rintro b u ⟨keptU, knownU, carriesU, later, producesLater, sourcedLater⟩
  refine ⟨keptU, knownU, carries.trans carriesU, more ++ later, produces.trans producesLater inside,
    fun c member => ?_⟩
  rcases List.mem_append.mp member with early | late
  · exact (sourced c early).later carriesU
  · exact sourcedLater c late

/-- What the production of an entity completes has a source, if this holds of its producer. -/
theorem Traces.produce {e : Entity} {depth : Nat} (offered : e.Offered env)
    (makes : Traces U (fun _ => True) (declarationsOf (Links.upTo depth) e)) :
    Traces U (fun _ => True) (produce e.key (declarationsOf (Links.upTo depth) e)) := by
  intro id s inside holds
  unfold Gen.Leads
  rw [produce_eq inside]
  cases known : s.entry e.key with
  | committed declarations => exact ⟨holds, trivial, .refl s, [], .same rfl rfl, by simp⟩
  | inFlight => exact ⟨holds, trivial, .refl s, [], .same rfl rfl, by simp⟩
  | failed failure => exact holds
  | notStarted =>
    dsimp only
    by_cases available : env.available.contains e.key.name.full = true
    · rw [if_pos available]
      have produces : Produces id s (s.completed id e.key []) _ := .completed known []
      refine ⟨U.alike holds rfl, trivial, .of_memory (produces.knows inside) rfl, _, produces,
        fun c member => ?_⟩
      rw [List.mem_singleton.mp member]
      exact .elsewhere available rfl
    · rw [if_neg available]
      have insideM := inside.marked e.key
      have holdsM : U.Holds (s.marked id e.key) := U.alike holds rfl
      have leads := makes id _ insideM holdsM
      unfold Gen.Leads at leads
      cases ended : declarationsOf (Links.upTo depth) e env (s.marked id e.key) with
      | error failure t =>
        rw [ended] at leads
        cases failure with
        | structural failure => exact U.alike leads rfl
        | platformMismatch | input | cancelled | ledger | badLimit | depthExceeded =>
          exact U.alike leads rfl
      | ok declarations t =>
        rw [ended] at leads
        obtain ⟨kept, _, carries, more, produces, sourced⟩ := leads
        have insideT := produces.inside insideM
        have knows : ∀ key, t.Knows key → (t.completed id e.key declarations).Knows key := by
          intro key known
          rw [State.Knows, completed_entry insideT]
          split
          · rfl
          · exact known
        have finish : Carries t (t.completed id e.key declarations) := .of_memory knows rfl
        have encloses := produces.enclosing inside known declarations
        simp only [insideT.complete_eq]
        refine ⟨U.alike kept rfl, trivial, ⟨encloses.knows inside, ?_, ?_⟩, _, encloses,
          fun c member => ?_⟩
        · exact fun d answer held => (carries.trans finish).conforms d answer held
        · exact fun d verdict held => (carries.trans finish).judges d verdict held
        · rcases List.mem_append.mp member with nested | own
          · exact (sourced c nested).later finish
          · rw [List.mem_singleton.mp own]
            exact .produced (by simpa using available) rfl
              ⟨offered, depth, id, _, t, insideM, holdsM, ended, finish⟩

/-- Whatever is completed while a delegate is expanded has a source. -/
theorem Traces.expansion {x : Gen α} (name : String) (traces : Traces U P x) :
    Traces U P (inExpansion name x) := by
  intro id s inside holds
  unfold Gen.Leads
  rw [inExpansion_eq]
  by_cases under : s.expanding.contains name = true
  · rw [if_pos under]
    exact holds
  · rw [if_neg under]
    have leads := traces id _ (inside.expansion (name :: s.expanding)) (U.alike holds rfl)
    unfold Gen.Leads at leads
    rw [Gen.ensuring_eq]
    cases ended : x env { s with expanding := name :: s.expanding } with
    | error e t =>
      rw [ended] at leads
      exact U.alike leads rfl
    | ok a t =>
      rw [ended] at leads
      obtain ⟨kept, known, carries, more, produces, sourced⟩ := leads
      refine ⟨U.alike kept rfl, known, ⟨carries.knows, carries.conforms, carries.judges⟩, more,
        ⟨produces.current, produces.ledger, produces.fresh⟩, fun c member => (sourced c member).later ?_⟩
      exact .of_memory (fun key known => known) rfl

section
variable (consistent : env.index.Consistent)
include consistent

/-- Computations that complete nothing without a source. -/
def Comparison.tracing (U : Upkeep env) : Comparison env :=
  .offered consistent (fun x _ => Traces U (fun _ => True) x)
    (fun left _ traces => .congr left traces)
    (fun _ => .pure trivial)
    (fun _ => .throw _)
    (fun first rest => .bind first fun a _ => rest a)
    .conforming
    .managed
    (fun name _ _ rest =>
      .bind (.asking (guardedHandle?_secluded name) (guardedHandle?_recalling name) (U.handle name)) rest)

theorem traced_linked (U : Upkeep env) (depth : Nat) :
    (Comparison.tracing consistent U).Linked (Links.upTo depth) (Links.upTo depth) := by
  induction depth with
  | zero => exact ⟨fun _ _ => .throw _, fun _ _ => .throw _⟩
  | succ depth ih =>
    refine ⟨fun e offered => ?_, fun t _ => ?_⟩
    · exact .produce offered (declarationsOf_matches (C := .tracing consistent U) ih offered)
    · exact .expansion t.full (delegateType_matches ih t)

end
end Bindings
