import Bindings.Proofs.Generation.Memory

/-!
# Computations apart from the ledger

Questions on definitions are answered out of the metadata and of what is remembered, whatever
the ledger holds and whichever delegates are being expanded. Where they fail, the failure is not
yet one of an entity, and not due to what is asked for.
-/

namespace Bindings
open Bindings.Metadata

/-! ## What is remembered -/

/-- What a session remembers beside its ledger and the delegates that are being expanded. -/
structure Memory where
  analysis : Analysis := {}
  conformance : Table String Bool := {}
  handles : Table String (Option GuardedHandle) := {}

namespace State

def memory (s : State) : Memory := ⟨s.analysis, s.conformance, s.handles⟩

/-- The state with something else remembered. -/
def remember (s : State) (m : Memory) : State :=
  { s with analysis := m.analysis, conformance := m.conformance, handles := m.handles }

end State

/-! ## The computations -/

namespace Gen
variable {α β : Type} {env : Environment} {Fine : Failure → Prop}

/-- A computation that reads and writes only what is remembered. What it may fail with is told. -/
def Apart (Fine : Failure → Prop) (env : Environment) (x : Gen α) : Prop :=
  ∀ m : Memory, ∃ (result : Except Failure α) (n : Memory), (∀ e, result = .error e → Fine e) ∧
    ∀ s : State, s.memory = m → x env s = ended result (s.remember n)

/-- A computation that reads and writes only what is remembered, and fails for no entity in
    particular. -/
abbrev Secluded (env : Environment) (x : Gen α) : Prop := Apart Failure.Unowned env x

theorem Constant.apart {x : Gen α} (constant : Constant Fine env x) : Apart Fine env x := by
  obtain ⟨result, fine, always⟩ := constant
  intro m
  refine ⟨result, m, fine, ?_⟩
  rintro s rfl
  exact always s

theorem Apart.weaken {Weaker : Failure → Prop} {x : Gen α} (apart : Apart Fine env x)
    (implies : ∀ e, Fine e → Weaker e) : Apart Weaker env x := by
  intro m
  obtain ⟨result, n, fine, ends⟩ := apart m
  exact ⟨result, n, fun e same => implies e (fine e same), ends⟩

theorem Apart.secluded {x : Gen α} (apart : Apart Failure.Unasked env x) : Secluded env x :=
  apart.weaken fun _ unasked => unasked.unowned

theorem Apart.pure (a : α) : Apart Fine env (pure a : Gen α) := Constant.apart (.pure a)

theorem Apart.throw {e : Failure} (fine : Fine e) : Apart Fine env (throw e : Gen α) :=
  Constant.apart (.throw fine)

theorem Apart.read : Apart Fine env (read : Gen Environment) := Constant.apart .read

theorem Secluded.fault (f : Fault) : Secluded env (fault f : Gen α) := Apart.throw (.ofFault f)

theorem Apart.bind {x : Gen α} {f : α → Gen β} (first : Apart Fine env x)
    (rest : ∀ a, Apart Fine env (f a)) : Apart Fine env (x >>= f) := by
  intro m
  obtain ⟨result, n, fine, ends⟩ := first m
  cases result with
  | error e =>
    refine ⟨.error e, n, ?_, fun s same => ?_⟩
    · rintro _ ⟨⟩
      exact fine e rfl
    · rw [bind_eq, ends s same]
      rfl
  | ok a =>
    obtain ⟨next, o, fineNext, endsNext⟩ := rest a n
    refine ⟨next, o, fineNext, fun s same => ?_⟩
    rw [bind_eq, ends s same]
    exact endsNext (s.remember n) rfl

/-- The state is read, but only for what is remembered. -/
theorem Apart.get {f : State → Gen α} (blind : ∀ s t, s.memory = t.memory → f s = f t)
    (rest : ∀ s, Apart Fine env (f s)) : Apart Fine env (get >>= f) := by
  intro m
  obtain ⟨result, n, fine, ends⟩ := rest (State.remember {} m) m
  refine ⟨result, n, fine, fun s same => ?_⟩
  have alike : f s = f (State.remember {} m) := blind _ _ same
  exact (congrArg (fun x : Gen α => x env s) alike).trans (ends s same)

/-- A change of what is remembered. -/
theorem Apart.change {after : State → State} (g : Memory → Memory)
    (same : ∀ s, after s = s.remember (g s.memory)) : Apart Fine env (modify after) := by
  intro m
  refine ⟨.ok (), g m, Gen.ended_ok (), ?_⟩
  rintro s rfl
  exact congrArg (EStateM.Result.ok ()) (same s)

/-- The analysis changes. -/
theorem Apart.analyse (f : Analysis → Analysis) :
    Apart Fine env (modify (·.analyse f) : Gen Unit) :=
  .change (fun m => { m with analysis := f m.analysis }) fun _ => rfl

theorem Apart.ensuring {x : Gen α} (apart : Apart Fine env x) {after : State → State}
    (g : Memory → Memory) (same : ∀ s, after s = s.remember (g s.memory)) :
    Apart Fine env (Gen.ensuring x after) := by
  intro m
  obtain ⟨result, n, fine, ends⟩ := apart m
  refine ⟨result, g n, fine, fun s alike => ?_⟩
  rw [ensuring_eq, ends s alike]
  cases result <;> exact congrArg _ (same (s.remember n))

end Gen

/-! ## Questions on interfaces and types -/

variable {env : Environment}

theorem isConforming_apart (t : TypeDefinition) :
    Gen.Apart Failure.Unasked env (isConforming t) := by
  unfold isConforming
  refine .get (fun s u same => ?_) fun s => ?_
  · rw [show s.conformance = u.conformance from congrArg Memory.conformance same]
  · split
    · exact .pure _
    · refine .bind (reachesUniversalBase_unasked t).apart fun answer => ?_
      exact .bind (.change (fun m => { m with conformance := m.conformance.put t.full answer })
        fun _ => rfl) fun _ => .pure _

theorem isConforming_secluded (t : TypeDefinition) : Gen.Secluded env (isConforming t) :=
  (isConforming_apart t).secluded

section
variable {step : TypeDefinition → Gen (Option Bool)} (goes : ∀ t, Gen.Apart Failure.Unasked env (step t))
  (marshaling : Bool) (owner : AnalysisKey)
include goes

theorem fieldIsManaged_apart (type : NativeType) :
    Gen.Apart Failure.Unasked env (fieldIsManaged step marshaling owner type) := by
  unfold fieldIsManaged
  split
  · exact .pure _
  · refine .bind (resolve_steady _).unasked.apart fun found => ?_
    split
    · exact .pure _
    · refine .bind (goes _) fun verdict => ?_
      split
      · exact .pure _
      · refine .get (fun s u same => ?_) fun s => ?_
        · rw [show s.analysis = u.analysis from congrArg Memory.analysis same]
        · dsimp only
          split
          · exact .bind (.analyse _) fun _ => .pure _
          · exact .pure _

theorem anyFieldIsManaged_apart (fields : List Field) :
    Gen.Apart Failure.Unasked env (anyFieldIsManaged step marshaling owner fields) := by
  induction fields with
  | nil => exact .pure _
  | cons f rest ih =>
    unfold anyFieldIsManaged
    refine .bind (fieldIsManaged_apart goes marshaling owner f.type) fun managed => ?_
    split
    · exact .pure _
    · exact ih

end

theorem walk_apart (marshaling : Bool) (depth : Nat) (t : TypeDefinition) :
    Gen.Apart Failure.Unasked env (walk marshaling depth t) := by
  induction depth generalizing t with
  | zero => exact .throw .depthExceeded
  | succ depth ih =>
    have decide : ∀ {x : Gen Bool}, Gen.Apart Failure.Unasked env x → Gen.Apart Failure.Unasked env (do
        let verdict ← x
        modify (·.analyse fun a => { a with verdicts := a.verdicts.put (marshaling, t.full) verdict })
        return some verdict) := fun apart =>
      .bind apart fun _ => .bind (.analyse _) fun _ => .pure _
    unfold walk
    refine .get (fun s u same => ?_) fun s => ?_
    · rw [show s.analysis = u.analysis from congrArg Memory.analysis same]
    · dsimp only
      split
      · exact .pure _
      · split
        · exact .pure _
        · split
          · exact decide (.pure _)
          · exact decide (.pure _)
          · split
            · exact decide (isConforming_apart t)
            · exact decide (.pure _)
          · split
            · exact decide (.pure _)
            · rw [← bind_assoc]
              refine decide (.bind (.analyse _) fun _ => ?_)
              exact .ensuring (anyFieldIsManaged_apart ih marshaling _ _)
                (fun m => { m with analysis := { m.analysis with
                  visiting := m.analysis.visiting.filter (· ≠ (marshaling, t.full)) } }) fun _ => rfl

theorem isManagedType_apart (t : TypeDefinition) (marshaling : Bool) :
    Gen.Apart Failure.Unasked env (isManagedType t marshaling) := by
  unfold isManagedType
  refine .bind .read fun e => .get (fun s u same => ?_) fun s => ?_
  · rw [show s.analysis = u.analysis from congrArg Memory.analysis same]
  · dsimp only
    refine .bind (.ensuring (walk_apart marshaling _ t) (fun m => { m with
      analysis := if s.analysis.visiting.isEmpty then m.analysis.settle else m.analysis })
      fun u => ?_) fun _ => ?_
    · split <;> rfl
    · refine .get (fun u v same => ?_) fun u => .pure _
      rw [show u.analysis = v.analysis from congrArg Memory.analysis same]

theorem isManagedType_secluded (t : TypeDefinition) (marshaling : Bool) :
    Gen.Secluded env (isManagedType t marshaling) :=
  (isManagedType_apart t marshaling).secluded

theorem guardedHandle?_apart (releaseName : String) :
    Gen.Apart Failure.Unasked env (guardedHandle? releaseName) := by
  unfold guardedHandle?
  refine .get (fun s u same => ?_) fun s => ?_
  · rw [show s.handles = u.handles from congrArg Memory.handles same]
  · split
    · exact .pure _
    · refine .bind (buildHandle_steady releaseName).unasked.apart fun answer => ?_
      exact .bind (.change (fun m => { m with handles := m.handles.put releaseName answer })
        fun _ => rfl) fun _ => .pure _

theorem guardedHandle?_secluded (releaseName : String) :
    Gen.Secluded env (guardedHandle? releaseName) :=
  (guardedHandle?_apart releaseName).secluded

end Bindings
