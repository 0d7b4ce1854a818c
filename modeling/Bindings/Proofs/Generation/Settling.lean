import Bindings.Proofs.Generation.Search

/-!
# Verdicts at the end of a walk

When the outermost walk is over, the verdicts that are handed on make all of them founded. A clear
type that still has the verdict that it is not managed holds no type that is, so the verdicts on clear
types are the least that types with marshaling force on those that hold them. Each question begins and
ends so, also one that fails.
-/

namespace Bindings
open Bindings.Metadata

variable {env : Environment} {among clear : TypeDefinition → Prop} {marshaling : Bool} {s : State}
  {d : TypeDefinition}

/-- All that is remembered is founded, and no type is under analysis. -/
structure Settled (env : Environment) (among clear : TypeDefinition → Prop) (s : State) : Prop where
  calm : s.Calm
  verdicts : ∀ d, among d → ∀ flag verdict,
    s.analysis.verdicts.get? (flag, d.full) = some verdict → Founded env clear flag d verdict
  conformance : ∀ d, among d → d.isInterface = true → ∀ answer,
    s.conformance.get? d.full = some answer → (answer = true ↔ Reaches env d)

/-- At first nothing is remembered. -/
theorem Settled.init : Settled env among clear {} where
  calm := ⟨rfl, rfl, rfl⟩
  verdicts _ _ _ _ found := by cases found
  conformance _ _ _ _ found := by cases found

/-- A walk begins with what is founded. -/
theorem Settled.sifted (clearing : Clearing env among clear) (settled : Settled env among clear s)
    (marshaling : Bool) : Sifted env among clear marshaling [] s where
  others d amongD flag verdict _ := settled.verdicts d amongD flag verdict
  managed d amongD found := (settled.verdicts d amongD marshaling true found).managed rfl
  unmanaged d clearD found := by
    have founded := settled.verdicts d (clearing.inside d clearD) marshaling false found
    refine .inl ⟨founded.unmanaged clearD rfl, ?_⟩
    rw [settled.calm.provisional]
    simp
  dependents entry member := by
    rw [settled.calm.dependents] at member
    cases member
  underWay key member := by cases member
  conformance := settled.conformance

/-! ## The last verdicts -/

/-- The verdicts after all have been handed on. -/
def State.lastVerdicts (s : State) : Table AnalysisKey Bool := s.analysis.settle.verdicts

section
variable (clearing : Clearing env among clear) (sifted : Sifted env among clear marshaling [] s)
include sifted

/-- The verdicts with the other choice of marshaling stay. -/
theorem Sifted.last_others {flag : Bool} (other : flag ≠ marshaling) (name : String) :
    s.lastVerdicts.get? (flag, name) = s.analysis.verdicts.get? (flag, name) := by
  refine Analysis.get?_spreadAll (fun entry member held => ?_) _
  obtain ⟨_, d, e, _, _, _, owner, _⟩ := sifted.dependents entry member _ held
  exact other (congrArg Prod.fst owner)

include clearing

/-- What is managed in the end needs marshaling: owners hold what they depend on. -/
theorem Sifted.last_managed (amongD : among d)
    (managed : s.lastVerdicts.get? (marshaling, d.full) = some true) : Wanted env marshaling d := by
  let right : AnalysisKey → Prop := fun key =>
    ∀ d, among d → key = (marshaling, d.full) → Wanted env marshaling d
  have hands : ∀ entry ∈ s.analysis.dependents.entries, right entry.1 → ∀ owner ∈ entry.2, right owner := by
    intro entry member wanted owner held other amongOther same
    obtain ⟨_, d, e, amongD, amongE, holds, isOwner, isHeld⟩ := sifted.dependents entry member owner held
    obtain rfl := clearing.alone d other amongD amongOther (congrArg Prod.snd (isOwner.symm.trans same))
    obtain ⟨allowed, needs⟩ := wanted e amongE isHeld
    exact ⟨allowed, .held holds needs⟩
  refine Analysis.spreadAll_true hands _ (fun key found d amongD same => ?_) _ managed d amongD rfl
  subst same
  exact sifted.managed d amongD found

/-- A clear type that needs marshaling is not left unmanaged, by induction on the chain that ends with
    a type that is marshaled. -/
theorem Sifted.last_unmanaged (allowed : marshaling = true) (needs : NeedsMarshaling env d)
    (clearD : clear d) : s.lastVerdicts.get? (marshaling, d.full) ≠ some false := by
  intro plain
  have before := Analysis.spreadAll_false _ plain
  have wanted : Wanted env marshaling d := ⟨allowed, needs⟩
  induction needs with
  | itself marshaled =>
    rcases sifted.unmanaged _ clearD before with ⟨unwanted, _⟩ | ⟨unmarshaled, _⟩
    · exact unwanted wanted
    · exact unmarshaled allowed marshaled
  | @held d e holds needs ih =>
    have clearE := clearing.heldClear d e clearD holds
    have notPlain : s.lastVerdicts.get? (marshaling, e.full) ≠ some false := fun plain =>
      ih clearE plain (Analysis.spreadAll_false _ plain) ⟨allowed, needs⟩
    rcases sifted.unmanaged d clearD before with ⟨unwanted, _⟩ | ⟨_, accounted⟩
    · exact unwanted wanted
    · rcases accounted e holds with ⟨settled, final⟩ | ⟨depends, known⟩
      · -- no verdict is handed on to what depends on nothing
        refine notPlain ((Analysis.get?_spreadAll (fun entry member held => ?_) _).trans settled)
        exact final (sifted.dependents entry member _ held).1
      · -- what is held is managed in the end, and so is its owner
        have there : (s.analysis.verdicts.get? (marshaling, e.full)).isSome = true :=
          known.resolve_right (by simp)
        obtain ⟨verdict, last⟩ : ∃ verdict, s.lastVerdicts.get? (marshaling, e.full) = some verdict :=
          Option.isSome_iff_exists.mp (Analysis.isSome_spreadAll there _)
        obtain ⟨owners, member, held⟩ := Analysis.exists_of_mem_dependentsOf depends
        cases verdict with
        | false => exact notPlain last
        | true =>
          have managed : s.lastVerdicts.get? (marshaling, d.full) = some true :=
            Analysis.spreadAll_handedOn _ _ _ member last _ held
          rw [managed] at plain
          cases plain

/-- At the end of the outermost walk all verdicts are founded. -/
theorem Sifted.settled (ended : s.analysis.visiting = []) :
    Settled env among clear (s.analyse (·.settle)) where
  calm := ⟨ended, rfl, rfl⟩
  verdicts d amongD flag verdict found := by
    have found : s.lastVerdicts.get? (flag, d.full) = some verdict := found
    by_cases same : flag = marshaling
    · subst same
      refine ⟨fun managed => ?_, fun clearD plain ⟨allowed, needs⟩ => ?_⟩
      · subst managed
        exact sifted.last_managed clearing amongD found
      · subst plain
        exact sifted.last_unmanaged clearing allowed needs clearD found
    · rw [sifted.last_others same] at found
      exact sifted.others d amongD flag verdict same found
  conformance := sifted.conformance

end

/-! ## Questions -/

/-- A question is answered with a founded verdict. Where there are answers for all clear types, it
    fails only on a type that is not clear, and what is remembered is founded then as well. -/
theorem Settled.asked (clearing : Clearing env among clear) (settled : Settled env among clear s)
    (amongD : among d) (marshaling : Bool) :
    Gen.Leads env s (isManagedType d marshaling)
      (fun answer t => Settled env among clear t ∧ Founded env clear marshaling d answer)
      fun t => (∀ d, clear d → Answerable env d) → ¬clear d ∧ Settled env among clear t := by
  have outermost : s.analysis.visiting.isEmpty = true := by rw [settled.calm.visiting]; rfl
  unfold Bindings.isManagedType
  refine .read (.get ?_)
  dsimp only
  rw [outermost, if_pos rfl]
  refine .bind (Q := fun _ t => Settled env among clear t ∧
    (t.analysis.verdicts.get? (marshaling, d.full)).isSome = true) (.ensuring ?_) ?_
  · refine (Searches.walk clearing _ amongD (settled.sifted clearing marshaling) settled.calm.visiting
      ⟨List.nodup_nil, by simp⟩ (by simp)).imp ?_ ?_
    · rintro verdict t ⟨sifted, further, answered⟩
      refine ⟨sifted.settled clearing (further.visiting.trans settled.calm.visiting),
        Analysis.isSome_spreadAll ?_ _⟩
      cases verdict with
      | some verdict => exact Option.isSome_iff_exists.mpr ⟨verdict, answered⟩
      | none => cases answered
    · intro t failed all
      obtain ⟨unclear, sifted, path⟩ := failed all
      exact ⟨unclear, sifted.settled clearing (path.trans settled.calm.visiting)⟩
  · rintro _ t ⟨settledT, there⟩
    obtain ⟨verdict, found⟩ := Option.isSome_iff_exists.mp there
    refine .get ⟨settledT, ?_⟩
    rw [found]
    exact settledT.verdicts d amongD marshaling verdict found

/-- A question is answered right where there are answers. -/
theorem Settled.isManagedType (ground : Ground env among) (settled : Settled env among among s)
    (amongD : among d) (marshaling : Bool) :
    Gen.Leads env s (isManagedType d marshaling)
      (fun answer t => Settled env among among t ∧ (answer = true ↔ Wanted env marshaling d))
      fun _ => False :=
  (settled.asked ground.toTerrain.clearing amongD marshaling).imp
    (fun _ _ ⟨settledT, founded⟩ => ⟨settledT, founded.right amongD⟩)
    fun _ failed => (failed ground.answerable).1 amongD

/-- Questions whether types are managed, one after the other, with a choice of marshaling each. -/
def ask (queries : List (TypeDefinition × Bool)) : Gen (List Bool) :=
  queries.mapM fun q => isManagedType q.1 q.2

/-- Question after question is answered right. -/
theorem Settled.questions (ground : Ground env among) (settled : Settled env among among s)
    {queries : List (TypeDefinition × Bool)} (inside : ∀ q ∈ queries, among q.1) :
    Gen.Leads env s (ask queries)
      (fun answers _ => answers.length = queries.length ∧
        ∀ p ∈ queries.zip answers, p.2 = true ↔ Wanted env p.1.2 p.1.1)
      fun _ => False := by
  induction queries generalizing s with
  | nil => exact ⟨rfl, by simp⟩
  | cons q rest ih =>
    rw [ask, List.mapM_cons]
    refine .bind (settled.isManagedType ground (inside q (by simp)) q.2) ?_
    rintro answer t ⟨settledT, right⟩
    refine .bind (ih settledT fun q member => inside q (List.mem_cons_of_mem _ member)) ?_
    rintro answers u ⟨length, rights⟩
    refine .pure ⟨by simp [length], fun p member => ?_⟩
    rcases List.mem_cons.mp member with rfl | there
    · exact right
    · exact rights p there

end Bindings
