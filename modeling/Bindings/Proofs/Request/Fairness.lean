import Bindings.Proofs.Generation.Concurrence
import Bindings.Proofs.Generation.Recall
import Bindings.Proofs.Request.Closure

/-!
# Memory that makes no difference

If the types of a session have full names of their own and each question whether a type is managed is
answered in a new session, all that a session remembers is what it would find out anew. So an entity
that is produced in two sessions has the same declarations in both, whatever they remember and
whatever has been produced in them before.
-/

namespace Bindings
open Bindings.Metadata

variable {env : Environment} {α β : Type} {s t : State} {d : TypeDefinition}

/-! ## What is remembered -/

/-- The discipline by which what is remembered is true: definitions and answers are those by which all
    names are known, and nothing is asked of types. -/
def Discipline.truthful (consistent : env.index.Consistent) : Discipline env :=
  { Discipline.backing env with
    Listed := (Discipline.named consistent).Listed
    Answers := (Discipline.named consistent).Answers
    good_entity := fun _ _ _ => trivial
    listed_means := (Discipline.named consistent).listed_means
    listed_chosen := (Discipline.named consistent).listed_chosen
    listed_release := (Discipline.named consistent).listed_release
    listed_flat := fun _ _ _ => trivial
    answers_reached := (Discipline.named consistent).answers_reached }

/-- All that is remembered is what would be found out anew. -/
structure Fair (consistent : env.index.Consistent) (s : State) : Prop where
  safe : (Discipline.truthful consistent).Safe s
  settled : Settled env (env.index.Chooses env.options.platformName?)
    (env.index.Chooses env.options.platformName?) s
  handles : ∀ name answer, s.handles.get? name = some answer → ∀ u, buildHandle name env u = .ok answer u

section
variable {consistent : env.index.Consistent}

theorem Fair.init : Fair consistent {} where
  safe := ⟨⟨rfl, rfl, rfl⟩, nofun, nofun⟩
  settled := .init
  handles _ _ found := by cases found

/-- A state is fair by what it remembers. -/
theorem Fair.alike (fair : Fair consistent s) (same : t.memory = s.memory) : Fair consistent t := by
  have analysis : t.analysis = s.analysis := congrArg Memory.analysis same
  have conformance : t.conformance = s.conformance := congrArg Memory.conformance same
  have handles : t.handles = s.handles := congrArg Memory.handles same
  have safe := fair.safe.alike same
  refine ⟨safe, ⟨safe.calm, ?_, ?_⟩, ?_⟩
  · rw [analysis]
    exact fair.settled.verdicts
  · rw [conformance]
    exact fair.settled.conformance
  · rw [handles]
    exact fair.handles

theorem Fair.guardedHandle? (fair : Fair consistent s) (name : String) :
    Gen.Leads env s (guardedHandle? name)
      (fun answer t => Fair consistent t ∧ ∀ u, buildHandle name env u = .ok answer u)
      (Fair consistent) := by
  refine (guardedHandle?_leads fair.handles name).imp ?_ ?_
  · rintro answer t ⟨same, faithful, always⟩
    have calm := fair.safe.calm
    refine ⟨?_, always⟩
    rw [same] at faithful ⊢
    exact {
      safe := ⟨calm.alike rfl, fun other handle found => ⟨other, faithful other _ found⟩,
        fair.safe.answers⟩
      settled := ⟨calm.alike rfl, fair.settled.verdicts, fair.settled.conformance⟩
      handles := faithful }
  · rintro t rfl
    exact fair

end

section
variable {consistent : env.index.Consistent}
  (terrain : Terrain env (env.index.Chooses env.options.platformName?))
  (chosen : env.index.Chooses env.options.platformName? d)
include terrain chosen

/-- A chosen interface is found to conform if it reaches the universal base. -/
theorem Fair.isConforming (fair : Fair consistent s) :
    Gen.Leads env s (isConforming d)
      (fun answer t => Fair consistent t ∧ (answer = true ↔ Reaches env d)) (Fair consistent) := by
  have listed : (Discipline.truthful consistent).Listed (.type d) := fun _ same =>
    Definition.type.inj same ▸ chosen
  have right : ∀ {e : TypeDefinition} {name : String} {answer : Bool},
      env.index.Chooses env.options.platformName? e → e.full = name →
        (Discipline.truthful consistent).Answers name answer → (answer = true ↔ Reaches env e) := by
    rintro e name answer chosenE own ⟨u, named, chosenU, reaches⟩
    obtain rfl := terrain.alone e u chosenE chosenU (own.trans named.symm)
    exact reaches
  refine (isConforming_leads listed fair.safe.answers).imp ?_ ?_
  · rintro answer t ⟨⟨same, _, answers⟩, conforms⟩
    refine ⟨?_, right chosen rfl (answers _ _ conforms)⟩
    have calm := fair.safe.calm
    rw [same] at answers ⊢
    exact {
      safe := ⟨calm.alike rfl, fair.safe.backed, answers⟩
      settled := ⟨calm.alike rfl, fair.settled.verdicts,
        fun e chosenE _ other found => right chosenE rfl (answers _ _ found)⟩
      handles := fair.handles }
  · rintro t rfl
    exact fair

/-- A chosen type is found to be managed if it needs marshaling. -/
theorem Fair.isManagedType (replies : Replies env (env.index.Chooses env.options.platformName?))
    (fair : Fair consistent s) :
    Gen.Leads env s (isManagedType d true)
      (fun answer t => Fair consistent t ∧ (answer = true ↔ NeedsMarshaling env d))
      (Fair consistent) := by
  have listed : (Discipline.truthful consistent).Listed (.type d) := fun _ same =>
    Definition.type.inj same ▸ chosen
  have safe := fair.safe.isManagedType listed
  have analysed := isManagedType_leads fair.safe true listed
  obtain ⟨answer, t, ended, settled, right⟩ :=
    (fair.settled.replied terrain replies chosen).returns
  rw [Gen.Leads, ended] at safe analysed ⊢
  have handles : t.handles = s.handles := by rw [analysed.1.same]
  refine ⟨⟨safe, settled, ?_⟩, right⟩
  rw [handles]
  exact fair.handles

end

/-! ## Two runs -/

section
variable (consistent : env.index.Consistent)
  (terrain : Terrain env (env.index.Chooses env.options.platformName?))
  (replies : Replies env (env.index.Chooses env.options.platformName?))

/-- Fairness is kept by all questions. -/
def Upkeep.fair : Upkeep env where
  Holds := Fair consistent
  alike fair same := fair.alike same
  calm fair := fair.safe.calm
  conforming chosen _ fair := (fair.isConforming terrain chosen).imp (fun _ _ ended => ended.1) fun _ h => h
  managed chosen _ fair := (fair.isManagedType terrain chosen replies).imp (fun _ _ ended => ended.1)
    fun _ h => h
  handle name _ fair := (fair.guardedHandle? name).imp
    (fun _ _ ended => ⟨ended.1, fun _ same => ⟨name, same ▸ ended.2⟩⟩) fun _ h => h

/-- In states that are fair each question has one answer. -/
theorem Upkeep.fair_answers (H : Horizon) : (Upkeep.fair consistent terrain replies).Answers H where
  conforming {d} chosen := .question (P := fun answer => answer = true ↔ Reaches env d)
    (.asking (isConforming_secluded d) (isConforming_recalling d) fun fair =>
      Fair.isConforming terrain chosen fair)
    fun _ _ yes no => Bool.eq_iff_iff.mpr (yes.trans no.symm)
  managed {d} chosen := .question (P := fun answer => answer = true ↔ NeedsMarshaling env d)
    (.asking (isManagedType_secluded d true) (isManagedType_recalling d) fun fair =>
      Fair.isManagedType terrain chosen replies fair)
    fun _ _ yes no => Bool.eq_iff_iff.mpr (yes.trans no.symm)
  handle name := .asking (guardedHandle?_secluded name) (guardedHandle?_recalling name) fun fair =>
    Fair.guardedHandle? fair name

include terrain replies in
/-- An entity has the same declarations in all states that are fair. -/
theorem Fair.declarations_eq {e : Entity} (offered : e.Offered env) {depth other : Nat}
    {i j : TransactionId} {u v : State} {declarations others : List Declaration} (insideS : s.In i)
    (insideT : t.In j) (fairS : Fair consistent s) (fairT : Fair consistent t)
    (first : declarationsOf (Links.upTo depth) e env s = .ok declarations u)
    (second : declarationsOf (Links.upTo other) e env t = .ok others v) : declarations = others :=
  have concurs : Concurs (.fair consistent terrain replies) .open _ _ :=
    declarationsOf_matches (concurring_linked consistent (Upkeep.fair_answers consistent terrain replies _)
      depth other) offered
  concurs.same insideS insideT fairS fairT first second trivial trivial

end
end Bindings
