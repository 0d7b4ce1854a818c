import Bindings.Proofs.Generation.Analysis

/-!
# Handing verdicts on

The verdict that a type is managed is handed on to its dependents as often as there are types
with dependents. That is often enough: afterwards every dependent of a managed type is managed.
Nothing else changes.
-/

namespace Bindings.Analysis

variable {dependents : List (AnalysisKey × List AnalysisKey)} {verdicts : Table AnalysisKey Bool}
  {key : AnalysisKey}

/-! ## One round -/

theorem spread_cons (dependency : AnalysisKey) (owners : List AnalysisKey)
    (rest : List (AnalysisKey × List AnalysisKey)) (verdicts : Table AnalysisKey Bool) :
    spread ((dependency, owners) :: rest) verdicts = spread rest
      (if verdicts.get? dependency = some true then
        owners.foldl (fun verdicts owner => verdicts.put owner true) verdicts else verdicts) := rfl

/-- What is managed stays so. -/
theorem spread_keeps (managed : verdicts.get? key = some true) :
    (spread dependents verdicts).get? key = some true := by
  induction dependents generalizing verdicts with
  | nil => exact managed
  | cons e rest ih =>
    rw [spread_cons]
    refine ih ?_
    split
    · rw [get?_putAll]
      split
      · rfl
      · exact managed
    · exact managed

/-- The owners of a managed type are managed after one round. -/
theorem spread_hands {e : AnalysisKey × List AnalysisKey} (member : e ∈ dependents)
    (managed : verdicts.get? e.1 = some true) :
    ∀ owner ∈ e.2, (spread dependents verdicts).get? owner = some true := by
  induction dependents generalizing verdicts with
  | nil => cases member
  | cons first rest ih =>
    intro owner held
    rw [spread_cons]
    rcases List.mem_cons.mp member with rfl | later
    · rw [if_pos managed]
      refine spread_keeps ?_
      rw [get?_putAll, if_pos held]
    · refine ih later ?_ owner held
      split
      · rw [get?_putAll]
        split
        · rfl
        · exact managed
      · exact managed

/-- A property that owners have when what they depend on has it, is one of all that is managed. -/
theorem spread_true {P : AnalysisKey → Prop} (hands : ∀ e ∈ dependents, P e.1 → ∀ owner ∈ e.2, P owner)
    (holds : ∀ key, verdicts.get? key = some true → P key) :
    ∀ key, (spread dependents verdicts).get? key = some true → P key := by
  induction dependents generalizing verdicts with
  | nil => exact holds
  | cons e rest ih =>
    rw [spread_cons]
    refine ih (fun e member => hands e (List.mem_cons_of_mem _ member)) fun key managed => ?_
    split at managed
    · next dependency =>
      rw [get?_putAll] at managed
      split at managed
      · next held => exact hands e (by simp) (holds e.1 dependency) key held
      · exact holds key managed
    · exact holds key managed

/-- No type is found not to be managed. -/
theorem spread_false (plain : (spread dependents verdicts).get? key = some false) :
    verdicts.get? key = some false := by
  induction dependents generalizing verdicts with
  | nil => exact plain
  | cons e rest ih =>
    rw [spread_cons] at plain
    have before := ih plain
    split at before
    · rw [get?_putAll] at before
      split at before
      · cases before
      · exact before
    · exact before

/-! ## All rounds -/

theorem spreadAll_true {P : AnalysisKey → Prop}
    (hands : ∀ e ∈ dependents, P e.1 → ∀ owner ∈ e.2, P owner) (rounds : Nat)
    (holds : ∀ key, verdicts.get? key = some true → P key) :
    ∀ key, (spreadAll dependents rounds verdicts).get? key = some true → P key := by
  induction rounds generalizing verdicts with
  | zero => exact holds
  | succ rounds ih => exact ih (spread_true hands holds)

theorem spreadAll_false (rounds : Nat)
    (plain : (spreadAll dependents rounds verdicts).get? key = some false) :
    verdicts.get? key = some false := by
  induction rounds generalizing verdicts with
  | zero => exact plain
  | succ rounds ih => exact spread_false (ih plain)

/-- Every dependent of a managed type is managed. -/
def HandedOn (dependents : List (AnalysisKey × List AnalysisKey))
    (verdicts : Table AnalysisKey Bool) : Prop :=
  ∀ e ∈ dependents, verdicts.get? e.1 = some true → ∀ owner ∈ e.2, verdicts.get? owner = some true

/-- Whether a type with dependents waits for a verdict that it is managed. -/
def waits (verdicts : Table AnalysisKey Bool) (e : AnalysisKey × List AnalysisKey) : Bool :=
  verdicts.get? e.1 ≠ some true

theorem waits_eq_false_iff {e : AnalysisKey × List AnalysisKey} :
    waits verdicts e = false ↔ verdicts.get? e.1 = some true := by
  simp [waits]

theorem HandedOn.spread (handed : HandedOn dependents verdicts) :
    HandedOn dependents (spread dependents verdicts) := by
  intro e member managed owner held
  refine spread_keeps ?_
  -- what is managed after the round was managed before it, since all has been handed on
  have before := spread_true (P := fun key => verdicts.get? key = some true) handed
    (fun _ h => h) e.1 managed
  exact handed e member before owner held

theorem HandedOn.spreadAll (handed : HandedOn dependents verdicts) (rounds : Nat) :
    HandedOn dependents (spreadAll dependents rounds verdicts) := by
  induction rounds generalizing verdicts with
  | zero => exact handed
  | succ rounds ih => exact ih handed.spread

/-- When no type with dependents becomes managed in a round, all has been handed on by it. -/
theorem handedOn_of_waits (still : ∀ e ∈ dependents, waits verdicts e = true →
      waits (spread dependents verdicts) e = true) :
    HandedOn dependents (Analysis.spread dependents verdicts) := by
  intro e member managed owner held
  refine spread_hands member ?_ owner held
  cases waiting : waits verdicts e with
  | false => exact waits_eq_false_iff.mp waiting
  | true =>
    have later := still e member waiting
    rw [waits_eq_false_iff.mpr managed] at later
    cases later

theorem countP_lt {α : Type} {p q : α → Bool} {xs : List α} (weaker : ∀ x ∈ xs, q x = true → p x = true)
    {x : α} (member : x ∈ xs) (holds : p x = true) (fails : q x = false) :
    xs.countP q < xs.countP p := by
  induction xs with
  | nil => cases member
  | cons y rest ih =>
    have mono := List.countP_mono_left fun x h => weaker x (List.mem_cons_of_mem y h)
    rw [List.countP_cons, List.countP_cons]
    rcases List.mem_cons.mp member with rfl | later
    · rw [if_pos holds, fails]
      simpa using Nat.lt_succ_of_le mono
    · have strict := ih (fun x h => weaker x (List.mem_cons_of_mem y h)) later
      have here := weaker y (by simp)
      split <;> split <;> first | omega | simp_all

/-- One round more hands all on than there are types with dependents that wait. -/
theorem spreadAll_handedOn_of_le {verdicts : Table AnalysisKey Bool} (rounds : Nat)
    (few : dependents.countP (waits verdicts) ≤ rounds) :
    HandedOn dependents (Analysis.spreadAll dependents (rounds + 1) verdicts) := by
  by_cases still : ∀ e ∈ dependents, waits verdicts e = true →
      waits (Analysis.spread dependents verdicts) e = true
  · exact (handedOn_of_waits still).spreadAll rounds
  · -- a type with dependents has become managed, so fewer wait
    obtain ⟨e, member, waiting, managed⟩ : ∃ e ∈ dependents, waits verdicts e = true ∧
        waits (Analysis.spread dependents verdicts) e = false := by
      simpa only [Classical.not_forall, exists_prop, Bool.not_eq_true] using still
    have weaker : ∀ x ∈ dependents, waits (Analysis.spread dependents verdicts) x = true →
        waits verdicts x = true := by
      intro x _ waitsLater
      cases waitsBefore : waits verdicts x with
      | true => rfl
      | false =>
        rw [waits_eq_false_iff.mpr (spread_keeps (waits_eq_false_iff.mp waitsBefore))] at waitsLater
        exact waitsLater
    have fewer := countP_lt weaker member waiting managed
    cases rounds with
    | zero => exact absurd (Nat.lt_of_lt_of_le fewer few) (Nat.not_lt_zero _)
    | succ rounds =>
      exact spreadAll_handedOn_of_le rounds (Nat.le_of_lt_succ (Nat.lt_of_lt_of_le fewer few))

/-- Every dependent of a managed type is managed in the end. -/
theorem spreadAll_handedOn (dependents : List (AnalysisKey × List AnalysisKey))
    (verdicts : Table AnalysisKey Bool) :
    HandedOn dependents (Analysis.spreadAll dependents dependents.length verdicts) := by
  by_cases all : dependents.countP (waits verdicts) = dependents.length
  · -- no type with dependents is managed
    have handed : HandedOn dependents verdicts := by
      intro e member managed
      have waiting := List.countP_eq_length.mp all e member
      rw [waits_eq_false_iff.mpr managed] at waiting
      cases waiting
    exact handed.spreadAll _
  · have few := Nat.lt_of_le_of_ne List.countP_le_length all
    cases length : dependents.length with
    | zero =>
      rw [length] at few
      exact absurd few (Nat.not_lt_zero _)
    | succ rounds =>
      rw [length] at few
      exact spreadAll_handedOn_of_le rounds (Nat.le_of_lt_succ few)

end Bindings.Analysis
