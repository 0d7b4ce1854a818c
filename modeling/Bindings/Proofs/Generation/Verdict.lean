import Bindings.Proofs.Generation.Analysis

/-!
# What a session answers on types

Between requests a question on a type is answered by what is remembered of it. Without
marshaling the answer is never that a type is managed.
-/

namespace Bindings
open Bindings.Metadata

variable {env : Environment} {s t u : State}

/-! ## Remembered answers -/

/-- What is remembered on whether an interface conforms is the answer. -/
theorem isConforming_known {d : TypeDefinition} {answer : Bool} (known : s.Conforms d answer) :
    isConforming d env s = .ok answer s := by
  rw [State.Conforms] at known
  unfold isConforming
  rw [Gen.get_bind, known]
  rfl

/-- Where nothing is under analysis there is nothing to settle. -/
theorem State.Calm.settle (calm : s.Calm) : s.analyse (·.settle) = s := by
  obtain ⟨visiting, provisional, dependents⟩ := calm
  obtain ⟨ledger, current, expanding, ⟨verdicts, _, _, _⟩, conformance, handles⟩ := s
  cases visiting
  cases provisional
  cases dependents
  rfl

/-- A verdict that is remembered is the answer. -/
theorem isManagedType_known (calm : s.Calm) {marshaling : Bool} {d : TypeDefinition} {verdict : Bool}
    (judged : s.analysis.verdicts.get? (marshaling, d.full) = some verdict) :
    isManagedType d marshaling env s = .ok verdict s := by
  have walked : ∀ depth, walk marshaling (depth + 1) d env s = .ok (some verdict) s := by
    intro depth
    unfold walk
    rw [Gen.get_bind]
    simp only [judged]
    rfl
  have outermost : s.analysis.visiting.isEmpty = true := by rw [calm.visiting]; rfl
  unfold isManagedType
  rw [Gen.read_bind, Gen.get_bind, outermost, if_pos rfl, Gen.bind_eq, Gen.ensuring_eq, walked]
  dsimp only
  rw [calm.settle, Gen.get_bind, judged]
  rfl

/-! ## Without marshaling -/

/-- Without marshaling no type is found to be managed, and only such types have dependents. -/
structure Unmarshaling (s : State) : Prop where
  verdicts : ∀ name, s.analysis.verdicts.get? (false, name) ≠ some true
  dependents : ∀ e ∈ s.analysis.dependents.entries, e.1.1 = false

/-- A part of a walk finds nothing to be managed. -/
def Spares {α : Type} (env : Environment) (s : State) (x : Gen α) (result : α → Prop) : Prop :=
  Gen.Leads env s x (fun a t => Unmarshaling t ∧ result a) fun _ => True

theorem Unmarshaling.visit (unmarshaling : Unmarshaling s) (visiting : List AnalysisKey) :
    Unmarshaling (s.analyse fun a => { a with visiting }) :=
  ⟨unmarshaling.verdicts, unmarshaling.dependents⟩

theorem Unmarshaling.depend (unmarshaling : Unmarshaling s) (name : String) (owner : AnalysisKey) :
    Unmarshaling (s.analyse (·.depend (false, name) owner)) where
  verdicts := unmarshaling.verdicts
  dependents := by
    intro e member
    simp only [State.analyse, Analysis.depend] at member
    split at member
    · exact unmarshaling.dependents e member
    · rcases Table.mem_putIn member with old | rfl
      · exact unmarshaling.dependents e old
      · rfl

theorem Unmarshaling.decide (unmarshaling : Unmarshaling s) (key : AnalysisKey) :
    Unmarshaling (s.analyse fun a => { a with verdicts := a.verdicts.put key false }) where
  verdicts name := by
    simp only [State.analyse, Table.get?_put]
    split
    · exact fun same => Bool.noConfusion (Option.some.inj same)
    · exact unmarshaling.verdicts name
  dependents := unmarshaling.dependents

/-- Nothing is handed on. -/
theorem Unmarshaling.spreadAll (unmarshaling : Unmarshaling s) (rounds : Nat) :
    Analysis.spreadAll s.analysis.dependents.entries rounds s.analysis.verdicts = s.analysis.verdicts := by
  have once : ∀ dependents : List (AnalysisKey × List AnalysisKey), (∀ e ∈ dependents, e.1.1 = false) →
      Analysis.spread dependents s.analysis.verdicts = s.analysis.verdicts := by
    intro dependents keys
    unfold Analysis.spread
    induction dependents with
    | nil => rfl
    | cons e rest ih =>
      obtain ⟨⟨marshaling, name⟩, owners⟩ := e
      obtain rfl : marshaling = false := keys ((marshaling, name), owners) (by simp)
      rw [List.foldl_cons]
      simp only [unmarshaling.verdicts name, if_false]
      exact ih fun e member => keys e (List.mem_cons_of_mem _ member)
  induction rounds with
  | zero => rfl
  | succ rounds ih => rw [Analysis.spreadAll, once _ unmarshaling.dependents, ih]

theorem Unmarshaling.settle (unmarshaling : Unmarshaling s) : Unmarshaling (s.analyse (·.settle)) where
  verdicts name := by
    simp only [State.analyse, Analysis.settle, unmarshaling.spreadAll]
    exact unmarshaling.verdicts name
  dependents e member := by cases member

theorem Spares.fieldIsManaged {step : TypeDefinition → Gen (Option Bool)}
    (goes : ∀ d t, Unmarshaling t → Spares env t (step d) (· ≠ some true))
    (unmarshaling : Unmarshaling s) (owner : AnalysisKey) (type : NativeType) :
    Spares env s (fieldIsManaged step false owner type) (· = false) := by
  unfold Bindings.fieldIsManaged
  split
  · exact .pure ⟨unmarshaling, rfl⟩
  · next reference _ =>
    refine Gen.Leads.bind (Gen.Leads.steady (resolve_steady reference) (fun _ _ => unmarshaling) trivial)
      fun found t unmarshaling => ?_
    split
    · exact .pure ⟨unmarshaling, rfl⟩
    · next d =>
      refine Gen.Leads.bind (goes d t unmarshaling) ?_
      rintro verdict u ⟨unmarshaling, spared⟩
      split
      · exact absurd rfl spared
      · refine Gen.Leads.get ?_
        dsimp only
        split
        · exact ⟨unmarshaling.depend _ owner, rfl⟩
        · exact .pure ⟨unmarshaling, rfl⟩

theorem Spares.anyFieldIsManaged {step : TypeDefinition → Gen (Option Bool)}
    (goes : ∀ d t, Unmarshaling t → Spares env t (step d) (· ≠ some true))
    (unmarshaling : Unmarshaling s) (owner : AnalysisKey) (fields : List Field) :
    Spares env s (anyFieldIsManaged step false owner fields) (· = false) := by
  induction fields generalizing s with
  | nil => exact .pure ⟨unmarshaling, rfl⟩
  | cons f rest ih =>
    refine Gen.Leads.bind (Spares.fieldIsManaged goes unmarshaling owner f.type)
      fun managed t ⟨unmarshaling, spared⟩ => ?_
    rw [spared]
    exact ih unmarshaling

theorem Spares.decide {x : Gen Bool} (spares : Spares env s x (· = false)) (key : AnalysisKey) :
    Spares env s (do
      let verdict ← x
      modify (·.analyse fun a => { a with verdicts := a.verdicts.put key verdict })
      return some verdict) (· ≠ some true) := by
  refine Gen.Leads.bind spares fun verdict t ⟨unmarshaling, spared⟩ => ?_
  subst spared
  exact Gen.Leads.modify ⟨unmarshaling.decide key, nofun⟩

theorem Spares.walk (depth : Nat) {d : TypeDefinition} (unmarshaling : Unmarshaling s) :
    Spares env s (walk false depth d) (· ≠ some true) := by
  induction depth generalizing d s with
  | zero => trivial
  | succ depth ih =>
    have plain : Spares env s (pure false) (· = false) := .pure ⟨unmarshaling, rfl⟩
    unfold Bindings.walk
    refine Gen.Leads.get ?_
    dsimp only
    split
    · next verdict found =>
      refine .pure ⟨unmarshaling, ?_⟩
      rw [← found]
      exact unmarshaling.verdicts d.full
    · split
      · exact .pure ⟨unmarshaling, nofun⟩
      · split
        · exact plain.decide _
        · exact plain.decide _
        · exact plain.decide _
        · split
          · exact plain.decide _
          · rw [← bind_assoc]
            refine Spares.decide (Gen.Leads.modify (.ensuring ?_)) _
            refine (Spares.anyFieldIsManaged (fun d t unmarshaling => ih unmarshaling)
              (unmarshaling.visit _) _ _).imp ?_ fun _ _ => trivial
            rintro managed t ⟨unmarshaling, spared⟩
            exact ⟨unmarshaling.visit _, spared⟩

/-- Without marshaling the answer is not that a type is managed. -/
theorem isManagedType_unmarshaled (unmarshaling : Unmarshaling s) (d : TypeDefinition) :
    Gen.Leads env s (isManagedType d false) (fun answer _ => answer = false) fun _ => True := by
  unfold isManagedType
  refine .read (.get (.bind (Q := fun _ t => Unmarshaling t) (.ensuring ?_) fun _ t unmarshaling => ?_))
  · refine (Spares.walk _ unmarshaling).imp (fun _ t ⟨unmarshaling, _⟩ => ?_) fun _ _ => trivial
    split
    · exact unmarshaling.settle
    · exact unmarshaling
  · refine .get (.pure ?_)
    have spared := unmarshaling.verdicts d.full
    cases found : t.analysis.verdicts.get? (false, d.full) with
    | none => rfl
    | some verdict =>
      rw [found] at spared
      cases verdict with
      | true => exact absurd rfl spared
      | false => rfl

end Bindings
