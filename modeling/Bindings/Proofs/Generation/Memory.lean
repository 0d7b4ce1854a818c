import Bindings.Proofs.Generation.Ends

/-!
# What is remembered

The questions that computations ask about definitions. Most leave the state alone; those whose
answers are remembered give the answer that is remembered from then on.
-/

namespace Bindings
open Bindings.Metadata

variable {env : Environment}

/-! ## Questions to the metadata -/

theorem resolve_steady (reference : QualifiedName) : Gen.Steady env (resolve reference) := by
  unfold resolve
  refine .bind .read fun _ => ?_
  split
  · exact .pure none
  · exact .bind (.ofSelection _) fun _ => .pure _

theorem climb_unasked (depth : Nat) (seen : List String) (t : TypeDefinition) :
    Gen.Constant Failure.Unasked env (climb depth seen t) := by
  induction depth generalizing seen t with
  | zero => exact .throw .depthExceeded
  | succ depth ih =>
    unfold climb
    split
    · exact .pure []
    · refine .bind (resolve_steady _).unasked fun found => ?_
      split
      · exact (Gen.Constant.fault _).unasked
      · split
        · exact (Gen.Constant.fault _).unasked
        · split
          · exact (Gen.Constant.fault _).unasked
          · exact .bind (ih _ _) fun _ => .pure _

theorem baseChain_unasked (t : TypeDefinition) : Gen.Constant Failure.Unasked env (baseChain t) := by
  unfold baseChain
  exact .bind .read fun _ => .bind (climb_unasked _ _ _) fun _ => .pure _

theorem baseChain_fixed (t : TypeDefinition) : Gen.Fixed env (baseChain t) :=
  (baseChain_unasked t).weaken fun _ unasked => unasked.unowned

theorem reachesUniversalBase_unasked (t : TypeDefinition) :
    Gen.Constant Failure.Unasked env (reachesUniversalBase t) := by
  unfold reachesUniversalBase
  refine .bind .read fun _ => ?_
  dsimp only
  split
  · exact .pure true
  · refine .bind (baseChain_unasked t) fun chain => ?_
    split <;> exact .pure _

theorem reachesUniversalBase_fixed (t : TypeDefinition) : Gen.Fixed env (reachesUniversalBase t) :=
  (reachesUniversalBase_unasked t).weaken fun _ unasked => unasked.unowned

theorem isValueType_steady (type : NativeType) : Gen.Steady env (isValueType type) := by
  unfold isValueType
  split
  · exact .pure _
  · exact .bind (resolve_steady _) fun _ => .pure _
  · exact .pure false

theorem isAmbiguousElement_steady (element : TargetType) :
    Gen.Steady env (isAmbiguousElement element) := by
  unfold isAmbiguousElement
  split
  · exact .pure false
  · split
    · exact .pure false
    · exact .bind .read fun _ => .pure _

theorem preservesReturnCode_steady (owner : TypeDefinition) (m : Method) :
    Gen.Steady env (preservesReturnCode owner m) := by
  unfold preservesReturnCode
  exact .bind .read fun _ => .pure _

/-! ## Release functions -/

theorem handleTarget_steady (type : NativeType) : Gen.Steady env (handleTarget type) := by
  induction type using handleTarget.induct with
  | case1 code name found => simp only [handleTarget, found]; exact .pure _
  | case2 code absent => simp only [handleTarget, absent]; exact .fault _
  | case3 element isConst ih => simp only [handleTarget]; exact .bind ih fun _ => .pure _
  | case4 reference => simp only [handleTarget]; exact .pure _
  | case5 type notPrimitive notPointer notHandle =>
    unfold handleTarget
    split
    · exact absurd rfl (notPrimitive _)
    · exact absurd rfl (notPointer _ _)
    · exact absurd rfl (notHandle _)
    · exact .fault _

theorem successCheck_steady (release : Function) : Gen.Steady env (successCheck release) := by
  unfold successCheck
  split
  · exact .pure _
  · exact .pure _
  · split
    · exact .pure _
    · split
      · exact .pure _
      · exact .fault _
  · split
    · exact .pure _
    · split
      · exact .pure _
      · refine .bind .read fun _ => ?_
        split
        · exact .pure _
        · exact .fault _
  · exact .fault _

theorem handleOfRelease_steady (release : Function) : Gen.Steady env (handleOfRelease release) := by
  unfold handleOfRelease
  split
  · dsimp only
    split
    · refine .bind (resolve_steady _) fun _ => ?_
      split
      · exact .bind (handleTarget_steady _) fun _ => .bind (successCheck_steady _) fun _ => .pure _
      · exact .pure none
    · refine .bind (.pure none) fun _ => ?_
      split
      · exact .bind (handleTarget_steady _) fun _ => .bind (successCheck_steady _) fun _ => .pure _
      · exact .pure none
  · exact .pure none

theorem buildHandle_steady (releaseName : String) : Gen.Steady env (buildHandle releaseName) := by
  unfold buildHandle
  refine .bind .read fun _ => ?_
  split
  · exact .pure none
  · refine .bind .platform fun _ => ?_
    split
    · exact handleOfRelease_steady _
    · exact .pure none
    · exact .throw (.ofSelection _)

/-! ## Names -/

theorem exactGroups_constant (name : String) :
    Gen.Constant Failure.Ambiguous env (exactGroups name) := by
  unfold exactGroups
  refine .bind .read fun _ => ?_
  dsimp only
  split
  · exact .throw ⟨_, _, rfl⟩
  · exact .pure _

/-- What a name stands for is the same in every state. It is not found only if a name is ambiguous. -/
theorem groupsOf_constant (name : String) : Gen.Constant Failure.Ambiguous env (groupsOf name) := by
  have letters : ∀ letters : List String,
      Gen.Constant Failure.Ambiguous env (letters.mapM (groupsWithLetter name)) := by
    intro letters
    induction letters with
    | nil =>
      rw [List.mapM_nil]
      exact .pure []
    | cons letter rest ih =>
      rw [List.mapM_cons]
      exact .bind (.bind (exactGroups_constant _) fun _ => .pure _) fun _ => .bind ih fun _ => .pure _
  unfold groupsOf
  refine .bind (exactGroups_constant name) fun exact => ?_
  split
  · exact .pure _
  · exact .bind .read fun e => .bind (letters _) fun _ => .pure _

theorem groupsOf_fixed (name : String) : Gen.Fixed env (groupsOf name) :=
  (groupsOf_constant name).weaken fun _ ambiguous => ambiguous.unowned

/-- What a name stands for is offered. -/
theorem groupsOf_offers {name : String} {groups : List Candidate} {s t : State}
    (found : groupsOf name env s = .ok groups t) : ∀ c ∈ groups, Offers env c := by
  have letters : ∀ (letters : List String) {more : List (List Candidate)} {s t : State},
      letters.mapM (groupsWithLetter name) env s = .ok more t →
        ∀ groups ∈ more, ∀ c ∈ groups, Offers env c := by
    intro letters
    induction letters with
    | nil =>
      intro more s t found
      obtain ⟨rfl, _⟩ := Gen.pure_ok found
      simp
    | cons letter rest ih =>
      intro more s t found
      rw [List.mapM_cons] at found
      obtain ⟨first, u, here, found⟩ := Gen.bind_ok found
      obtain ⟨later, v, there, found⟩ := Gen.bind_ok found
      obtain ⟨rfl, _⟩ := Gen.pure_ok found
      obtain ⟨exact, w, own, here⟩ := Gen.bind_ok here
      obtain ⟨rfl, _⟩ := Gen.pure_ok here
      have always := ((exactGroups_constant _).everywhere own).2
      intro groups member c held
      rcases List.mem_cons.mp member with rfl | other
      · exact .named (always {}) (List.mem_filter.mp held).1
      · exact ih there groups other c held
  unfold groupsOf at found
  obtain ⟨exact, u, own, found⟩ := Gen.bind_ok found
  have always := ((exactGroups_constant _).everywhere own).2
  split at found
  · obtain ⟨rfl, _⟩ := Gen.pure_ok found
    exact fun c member => .named (always {}) member
  · obtain ⟨_, v, _, found⟩ := Gen.bind_ok found
    obtain ⟨more, w, further, found⟩ := Gen.bind_ok found
    obtain ⟨rfl, _⟩ := Gen.pure_ok found
    intro c member
    obtain ⟨groups, there, held⟩ := List.mem_flatten.mp member
    exact letters _ further groups there c held

/-! ## Conforming interfaces -/

variable {D : Discipline env} {s t : State}

/-- A state that only knows more answers on interfaces. -/
structure Learns (D : Discipline env) (s t : State) : Prop where
  same : t = { s with conformance := t.conformance }
  conforms : ∀ d answer, s.Conforms d answer → t.Conforms d answer
  answers : ∀ name answer, t.conformance.get? name = some answer → D.Answers name answer

theorem isConforming_leads {d : TypeDefinition} (listed : D.Listed (.type d))
    (answers : ∀ name answer, s.conformance.get? name = some answer → D.Answers name answer) :
    Gen.Leads env s (isConforming d) (fun answer t => Learns D s t ∧ t.Conforms d answer)
      (fun t => t = s) := by
  unfold isConforming
  refine .get ?_
  cases found : s.conformance.get? d.full with
  | some answer => exact ⟨⟨rfl, fun _ _ h => h, answers⟩, found⟩
  | none =>
    refine .bind (.steady (reachesUniversalBase_fixed d) (Q := fun answer t =>
      t = s ∧ ∀ u, reachesUniversalBase d env u = .ok answer u)
      (fun _ always => ⟨rfl, always⟩) rfl) ?_
    rintro answer t ⟨rfl, always⟩
    refine ⟨⟨rfl, fun other held before => ?_, fun name held after => ?_⟩, Table.get?_put_self _ _ _⟩
    · have apart : d.full ≠ other.full := by
        intro same
        rw [State.Conforms, ← same, found] at before
        cases before
      exact (Table.get?_put_of_ne _ answer apart).trans before
    · rw [Table.get?_put] at after
      split at after
      · next same =>
        cases after
        exact same ▸ D.answers_reached listed always
      · exact answers name held after

/-- More is remembered, and all else is as it was. -/
theorem Discipline.Grows.of_memory (current : t.current = s.current) (ledger : t.ledger = s.ledger)
    (expanding : t.expanding = s.expanding)
    (conforms : ∀ d answer, s.Conforms d answer → t.Conforms d answer)
    (judges : ∀ d verdict, s.Judges d verdict → t.Judges d verdict)
    (unasked : ∀ name,
      t.analysis.verdicts.get? (false, name) = s.analysis.verdicts.get? (false, name)) :
    D.Grows s t where
  toExtends := .of_memory current ledger expanding conforms judges unasked
  added := by
    refine ⟨[], ?_, by simp, fun key declarations found => .inl ?_⟩
    · simp only [State.pending, current, ledger, List.append_nil]
    · simpa only [State.entry, current, ledger] using found

theorem Learns.grows (learns : Learns D s t) : D.Grows s t := by
  obtain ⟨same, conforms, _⟩ := learns
  rw [same] at conforms ⊢
  exact .of_memory rfl rfl rfl conforms (fun _ _ h => h) fun _ => rfl

theorem Learns.sound (learns : Learns D s t) (sound : D.Sound s) : D.Sound t := by
  obtain ⟨same, _, answers⟩ := learns
  rw [same] at answers ⊢
  exact { sound with
    calm := sound.calm.alike rfl
    answers }

theorem isConforming_ends (sound : D.Sound s) {d : TypeDefinition} (listed : D.Listed (.type d)) :
    D.Ends s (isConforming d) fun answer t => t.Conforms d answer := by
  refine (isConforming_leads listed sound.answers).imp ?_ ?_
  · rintro answer t ⟨learns, conforms⟩
    exact ⟨learns.sound sound, learns.grows, conforms⟩
  · rintro t rfl
    exact ⟨sound.toSafe, .refl t⟩

/-! ## Guarded handles -/

theorem guardedHandle?_ends (sound : D.Sound s) (name : String) :
    D.Ends s (guardedHandle? name) fun answer _ => ∀ handle, answer = some handle →
      D.Backed handle := by
  unfold guardedHandle?
  refine .get ?_
  cases found : s.handles.get? name with
  | some answer =>
    refine .pure sound fun handle same => ?_
    subst same
    exact sound.backed name handle found
  | none =>
    refine Gen.Leads.bind (.steady (buildHandle_steady name) (Q := fun answer t =>
      t = s ∧ ∀ u, buildHandle name env u = .ok answer u) (fun _ always => ⟨rfl, always⟩)
      ⟨sound.toSafe, .refl s⟩) ?_
    rintro answer t ⟨rfl, always⟩
    have backed : ∀ handle, answer = some handle → D.Backed handle := by
      rintro handle rfl
      exact D.backed_built (always t)
    refine ⟨{ sound with
      calm := sound.calm.alike rfl
      backed := fun other handle after => ?_ }, ?_, backed⟩
    · rw [Table.get?_put] at after
      split at after
      · cases after
        exact backed handle rfl
      · exact sound.backed other handle after
    · exact .of_memory rfl rfl rfl (fun _ _ h => h) (fun _ _ h => h) fun _ => rfl

end Bindings
