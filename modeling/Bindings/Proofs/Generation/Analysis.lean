import Bindings.Proofs.Generation.Memory

/-!
# The analysis of managed types

A walk through the fields of types gives verdicts only to types that had none, and hands
verdicts on only to such types. So a verdict that is remembered while no type is under analysis
never changes, and after each question no type is under analysis.
-/

namespace Bindings
open Bindings.Metadata

/-! ## Handing verdicts on -/

namespace Analysis

variable {dependents : List (AnalysisKey × List AnalysisKey)} {verdicts : Table AnalysisKey Bool}
  {key : AnalysisKey}

/-- Only verdicts of owners are changed, and only to say that they are managed. -/
theorem get?_putAll (owners : List AnalysisKey) (verdicts : Table AnalysisKey Bool)
    (key : AnalysisKey) :
    (owners.foldl (fun verdicts owner => verdicts.put owner true) verdicts).get? key =
      if key ∈ owners then some true else verdicts.get? key := by
  induction owners generalizing verdicts with
  | nil => rfl
  | cons owner rest ih =>
    rw [List.foldl_cons, ih, Table.get?_put]
    by_cases here : owner = key
    · simp [here]
    · by_cases later : key ∈ rest <;> simp [here, Ne.symm here, later]

theorem get?_spread (other : ∀ e ∈ dependents, key ∉ e.2) :
    (spread dependents verdicts).get? key = verdicts.get? key := by
  unfold spread
  induction dependents generalizing verdicts with
  | nil => rfl
  | cons e rest ih =>
    obtain ⟨dependency, owners⟩ := e
    rw [List.foldl_cons, ih fun e member => other e (List.mem_cons_of_mem _ member)]
    dsimp only
    split
    · exact (get?_putAll ..).trans (if_neg (other (dependency, owners) (by simp)))
    · rfl

theorem isSome_spread (there : (verdicts.get? key).isSome) :
    ((spread dependents verdicts).get? key).isSome := by
  unfold spread
  induction dependents generalizing verdicts with
  | nil => exact there
  | cons e rest ih =>
    refine ih ?_
    dsimp only
    split
    · rw [get?_putAll]
      split
      · rfl
      · exact there
    · exact there

/-- Types that depend on no other keep their verdicts. -/
theorem get?_spreadAll (other : ∀ e ∈ dependents, key ∉ e.2) (rounds : Nat) :
    (spreadAll dependents rounds verdicts).get? key = verdicts.get? key := by
  induction rounds generalizing verdicts with
  | zero => rfl
  | succ rounds ih => rw [spreadAll, ih, get?_spread other]

theorem isSome_spreadAll (there : (verdicts.get? key).isSome) (rounds : Nat) :
    ((spreadAll dependents rounds verdicts).get? key).isSome := by
  induction rounds generalizing verdicts with
  | zero => exact there
  | succ rounds ih => exact ih (isSome_spread there)

end Analysis

/-! ## The walk -/

variable {env : Environment} {D : Discipline env} {marshaling : Bool} {s t : State}

/-- A type had no verdict when the analysis began. -/
def Undecided (marshaling : Bool) (s : State) (key : AnalysisKey) : Prop :=
  key.1 = marshaling ∧ s.analysis.verdicts.get? key = none

/-- A state in the middle of an analysis that began in a state where no type was under way. -/
structure Walking (D : Discipline env) (marshaling : Bool) (s t : State) : Prop where
  same : t = { s with conformance := t.conformance, analysis := t.analysis }
  conforms : ∀ d answer, s.Conforms d answer → t.Conforms d answer
  answers : ∀ name answer, t.conformance.get? name = some answer → D.Answers name answer
  verdicts : ∀ key verdict, s.analysis.verdicts.get? key = some verdict →
    t.analysis.verdicts.get? key = some verdict
  apart : ∀ key, key.1 ≠ marshaling →
    t.analysis.verdicts.get? key = s.analysis.verdicts.get? key
  owners : ∀ e ∈ t.analysis.dependents.entries, ∀ owner ∈ e.2, Undecided marshaling s owner

/-- A part of a walk keeps the types that are under way. -/
def Walks {α : Type} (D : Discipline env) (marshaling : Bool) (s t : State) (x : Gen α)
    (result : α → State → Prop) : Prop :=
  Gen.Leads env t x
    (fun a u => Walking D marshaling s u ∧ u.analysis.visiting = t.analysis.visiting ∧ result a u)
    fun u => Walking D marshaling s u ∧ u.analysis.visiting = t.analysis.visiting

theorem Walking.undecided (walking : Walking D marshaling s t) {name : String}
    (none : t.analysis.verdicts.get? (marshaling, name) = none) :
    Undecided marshaling s (marshaling, name) := by
  refine ⟨rfl, ?_⟩
  cases found : s.analysis.verdicts.get? (marshaling, name) with
  | none => rfl
  | some verdict =>
    rw [walking.verdicts _ _ found] at none
    cases none

theorem Walks.bind {α β : Type} {x : Gen α} {f : α → Gen β} {Q : α → State → Prop}
    {final : β → State → Prop} (first : Walks D marshaling s t x Q)
    (rest : ∀ a u, Walking D marshaling s u → u.analysis.visiting = t.analysis.visiting →
      Q a u → Walks D marshaling s u (f a) final) :
    Walks D marshaling s t (x >>= f) final := by
  refine Gen.Leads.bind first fun a u ⟨walking, visiting, holds⟩ => ?_
  refine (rest a u walking visiting holds).imp ?_ ?_
  · rintro b v ⟨walkingV, visitingV, holdsV⟩
    exact ⟨walkingV, visitingV.trans visiting, holdsV⟩
  · rintro v ⟨walkingV, visitingV⟩
    exact ⟨walkingV, visitingV.trans visiting⟩

theorem Walks.get {α : Type} {f : State → Gen α} {final : α → State → Prop}
    (rest : Walks D marshaling s t (f t) final) : Walks D marshaling s t (get >>= f) final := rest

theorem Walks.pure {α : Type} (walking : Walking D marshaling s t) {a : α}
    {Q : α → State → Prop} (holds : Q a t) :
    Walks D marshaling s t (pure a) Q := ⟨walking, rfl, holds⟩

theorem Walks.steady {α : Type} {x : Gen α} (steady : Gen.Steady env x)
    (walking : Walking D marshaling s t) :
    Walks D marshaling s t x fun a _ => ∀ u, x env u = .ok a u :=
  Gen.Leads.steady steady (fun _ always => ⟨walking, rfl, always⟩) ⟨walking, rfl⟩

theorem Walks.isConforming (walking : Walking D marshaling s t) {d : TypeDefinition}
    (listed : D.Listed (.type d)) :
    Walks D marshaling s t (isConforming d) fun _ u => u.analysis = t.analysis := by
  refine (isConforming_leads listed walking.answers).imp ?_ ?_
  · rintro answer u ⟨⟨same, conforms, answers⟩, _⟩
    rw [same] at conforms answers ⊢
    refine ⟨{ walking with same := ?_, conforms := fun d a h => ?_, answers }, rfl, rfl⟩
    · rw [walking.same]
    · exact conforms d a (walking.conforms d a h)
  · rintro u rfl
    exact ⟨walking, rfl⟩

/-- A dependency is noted for a type without a verdict. -/
theorem Walking.depend (walking : Walking D marshaling s t) {owner : AnalysisKey}
    (undecided : Undecided marshaling s owner) (dependency : AnalysisKey) :
    Walking D marshaling s (t.analyse (·.depend dependency owner)) where
  same := by
    rw [walking.same]
    rfl
  conforms := walking.conforms
  answers := walking.answers
  verdicts := walking.verdicts
  apart := walking.apart
  owners := by
    intro e member other held
    simp only [State.analyse, Analysis.depend] at member
    split at member
    · exact walking.owners e member other held
    · rcases Table.mem_push member other held with ⟨_, rfl⟩ | ⟨old, there, _, heldOld⟩
      · exact undecided
      · exact walking.owners old there other heldOld

theorem Walks.fieldIsManaged {step : TypeDefinition → Gen (Option Bool)} {owner : AnalysisKey}
    (undecided : Undecided marshaling s owner)
    (goes : ∀ d t, D.Listed (.type d) → Walking D marshaling s t →
      Walks D marshaling s t (step d) fun _ _ => True)
    (walking : Walking D marshaling s t) (type : NativeType) :
    Walks D marshaling s t (fieldIsManaged step marshaling owner type) fun _ _ => True := by
  unfold Bindings.fieldIsManaged
  split
  · exact .pure walking trivial
  · refine .bind (.steady (resolve_steady _) walking) fun found u walking _ means => ?_
    split
    · exact .pure walking trivial
    · next d =>
      refine .bind (goes d u (D.listed_means means) walking) fun verdict v walking _ _ => ?_
      split
      · exact .pure walking trivial
      · refine .get ?_
        dsimp only
        split
        · exact ⟨walking.depend undecided _, rfl, trivial⟩
        · exact .pure walking trivial

theorem Walks.anyFieldIsManaged {step : TypeDefinition → Gen (Option Bool)} {owner : AnalysisKey}
    (undecided : Undecided marshaling s owner)
    (goes : ∀ d t, D.Listed (.type d) → Walking D marshaling s t →
      Walks D marshaling s t (step d) fun _ _ => True)
    (walking : Walking D marshaling s t) (fields : List Field) :
    Walks D marshaling s t (anyFieldIsManaged step marshaling owner fields) fun _ _ => True := by
  induction fields generalizing t with
  | nil => exact .pure walking trivial
  | cons f rest ih =>
    refine .bind (.fieldIsManaged undecided goes walking f.type) fun managed u walking _ _ => ?_
    split
    · exact .pure walking trivial
    · exact ih walking

/-- A verdict for a type without one is remembered. -/
theorem Walking.decide (walking : Walking D marshaling s t) {key : AnalysisKey}
    (undecided : Undecided marshaling s key) (verdict : Bool) :
    Walking D marshaling s
      (t.analyse fun a => { a with verdicts := a.verdicts.put key verdict }) where
  same := by
    rw [walking.same]
    rfl
  conforms := walking.conforms
  answers := walking.answers
  verdicts other answer found := by
    have apart : key ≠ other := by
      rintro rfl
      rw [undecided.2] at found
      cases found
    exact (Table.get?_put_of_ne _ verdict apart).trans (walking.verdicts other answer found)
  apart other different := by
    have apart : key ≠ other := by
      rintro rfl
      exact different undecided.1
    exact (Table.get?_put_of_ne _ verdict apart).trans (walking.apart other different)
  owners := walking.owners

/-- A change of the types under way changes nothing else. -/
theorem Walking.visit (walking : Walking D marshaling s t) (visiting : List AnalysisKey) :
    Walking D marshaling s (t.analyse fun a => { a with visiting }) where
  same := by
    rw [walking.same]
    rfl
  conforms := walking.conforms
  answers := walking.answers
  verdicts := walking.verdicts
  apart := walking.apart
  owners := walking.owners

/-- When a type is no longer under way, the types are under way that were before it. -/
theorem filter_visiting {key : AnalysisKey} {visiting : List AnalysisKey} (fresh : key ∉ visiting) :
    (key :: visiting).filter (· ≠ key) = visiting := by
  rw [List.filter_cons_of_neg (by simp), List.filter_eq_self]
  intro other member
  have other : other ≠ key := by
    rintro rfl
    exact fresh member
  simpa using other

/-- The fields of a record are walked through while it is under way. -/
theorem Walks.fields {step : TypeDefinition → Gen (Option Bool)} {key : AnalysisKey}
    (undecided : Undecided marshaling s key) (fresh : key ∉ t.analysis.visiting)
    (goes : ∀ d t, D.Listed (.type d) → Walking D marshaling s t →
      Walks D marshaling s t (step d) fun _ _ => True)
    (walking : Walking D marshaling s t) (fields : List Field) :
    Walks D marshaling s t (do
      modify (·.analyse fun a => { a with visiting := key :: a.visiting })
      Gen.ensuring (Bindings.anyFieldIsManaged step marshaling key fields)
        (·.analyse fun a => { a with visiting := a.visiting.filter (· ≠ key) })) fun _ _ => True := by
  have under := walking.visit (key :: t.analysis.visiting)
  have restored := filter_visiting fresh
  refine Gen.Leads.modify (.ensuring ?_)
  refine (Walks.anyFieldIsManaged undecided goes under fields).imp ?_ ?_
  · rintro managed u ⟨walking, visiting, _⟩
    refine ⟨walking.visit _, ?_, trivial⟩
    simp only [State.analyse, visiting]
    exact restored
  · rintro u ⟨walking, visiting⟩
    refine ⟨walking.visit _, ?_⟩
    simp only [State.analyse, visiting]
    exact restored

/-- A walk gives a verdict on a type, unless that is under way already. -/
def Decided (marshaling : Bool) (d : TypeDefinition) (t : State) (verdict : Option Bool)
    (u : State) : Prop :=
  match verdict with
  | some _ => (u.analysis.verdicts.get? (marshaling, d.full)).isSome = true
  | none => (marshaling, d.full) ∈ t.analysis.visiting

theorem Walks.decide (walking : Walking D marshaling s t) {d : TypeDefinition}
    (undecided : Undecided marshaling s (marshaling, d.full)) (verdict : Bool) (start : State) :
    Walks D marshaling s t (do
      modify (·.analyse fun a => { a with verdicts := a.verdicts.put (marshaling, d.full) verdict })
      return some verdict) (Decided marshaling d start) := by
  refine Gen.Leads.modify ⟨walking.decide undecided verdict, rfl, ?_⟩
  simp [Decided, State.analyse]

theorem Walks.walk (depth : Nat) {d : TypeDefinition} (listed : D.Listed (.type d))
    (walking : Walking D marshaling s t) :
    Walks D marshaling s t (walk marshaling depth d) (Decided marshaling d t) := by
  induction depth generalizing d t with
  | zero => exact ⟨walking, rfl⟩
  | succ depth ih =>
    unfold Bindings.walk
    refine .get ?_
    dsimp only
    split
    · next verdict found => exact .pure walking (by simp [Decided, found])
    · next absent =>
      have undecided := walking.undecided absent
      split
      · next underWay => exact .pure walking (by simpa [Decided] using underWay)
      · next fresh =>
        split
        · exact .bind (.pure walking (Q := fun _ _ => True) trivial)
            fun verdict u walking _ _ => .decide walking undecided verdict t
        · exact .bind (.pure walking (Q := fun _ _ => True) trivial)
            fun verdict u walking _ _ => .decide walking undecided verdict t
        · split
          · exact .bind (.isConforming walking listed)
              fun verdict u walking _ _ => .decide walking undecided verdict t
          · exact .bind (.pure walking (Q := fun _ _ => True) trivial)
              fun verdict u walking _ _ => .decide walking undecided verdict t
        · split
          · exact .bind (.pure walking (Q := fun _ _ => True) trivial)
              fun verdict u walking _ _ => .decide walking undecided verdict t
          · rw [← bind_assoc]
            refine .bind (.fields undecided (by simpa using fresh) (fun d t listed walking => ?_) walking _)
              fun verdict u walking _ _ => .decide walking undecided verdict t
            exact (ih listed walking).imp (fun _ _ h => ⟨h.1, h.2.1, trivial⟩) fun _ h => h

/-! ## Questions -/

theorem Walking.start (safe : D.Safe s) : Walking D marshaling s s where
  same := rfl
  conforms _ _ h := h
  answers := safe.answers
  verdicts _ _ h := h
  apart _ _ := rfl
  owners e member := by
    rw [safe.calm.dependents] at member
    cases member

/-- A state after an analysis. -/
structure Analysed (D : Discipline env) (marshaling : Bool) (s t : State) : Prop where
  same : t = { s with conformance := t.conformance, analysis := t.analysis }
  calm : t.Calm
  conforms : ∀ d answer, s.Conforms d answer → t.Conforms d answer
  answers : ∀ name answer, t.conformance.get? name = some answer → D.Answers name answer
  verdicts : ∀ key verdict, s.analysis.verdicts.get? key = some verdict →
    t.analysis.verdicts.get? key = some verdict
  apart : ∀ key, key.1 ≠ marshaling →
    t.analysis.verdicts.get? key = s.analysis.verdicts.get? key

/-- Verdicts are handed on only to types that had none when the analysis began. -/
theorem Walking.settle (walking : Walking D marshaling s t) (none : t.analysis.visiting = []) :
    Analysed D marshaling s (t.analyse (·.settle)) where
  same := by
    rw [walking.same]
    rfl
  calm := ⟨none, rfl, rfl⟩
  conforms := walking.conforms
  answers := walking.answers
  verdicts key verdict found := by
    have other : ∀ e ∈ t.analysis.dependents.entries, key ∉ e.2 := by
      intro e member held
      rw [(walking.owners e member key held).2] at found
      cases found
    exact (Analysis.get?_spreadAll other _).trans (walking.verdicts key verdict found)
  apart key different := by
    have other : ∀ e ∈ t.analysis.dependents.entries, key ∉ e.2 := by
      intro e member held
      exact different (walking.owners e member key held).1
    exact (Analysis.get?_spreadAll other _).trans (walking.apart key different)

/-- The verdict that a question gives is remembered. -/
theorem isManagedType_leads (safe : D.Safe s) (marshaling : Bool) {d : TypeDefinition}
    (listed : D.Listed (.type d)) :
    Gen.Leads env s (isManagedType d marshaling)
      (fun verdict t => Analysed D marshaling s t ∧
        t.analysis.verdicts.get? (marshaling, d.full) = some verdict)
      (Analysed D marshaling s) := by
  have outermost : s.analysis.visiting.isEmpty = true := by rw [safe.calm.visiting]; rfl
  unfold isManagedType
  refine .read (.get ?_)
  dsimp only
  rw [outermost, if_pos rfl]
  refine .bind (Q := fun _ t => Analysed D marshaling s t ∧
    (t.analysis.verdicts.get? (marshaling, d.full)).isSome = true) (.ensuring ?_) ?_
  · refine (Walks.walk _ listed (Walking.start safe)).imp ?_ ?_
    · rintro verdict u ⟨walking, visiting, decided⟩
      refine ⟨walking.settle (visiting.trans safe.calm.visiting), Analysis.isSome_spreadAll ?_ _⟩
      cases verdict with
      | some verdict => exact decided
      | none =>
        rw [Decided, safe.calm.visiting] at decided
        cases decided
    · rintro u ⟨walking, visiting⟩
      exact walking.settle (visiting.trans safe.calm.visiting)
  · rintro _ t ⟨analysed, there⟩
    refine .get ⟨analysed, ?_⟩
    obtain ⟨verdict, found⟩ := Option.isSome_iff_exists.mp there
    rw [found]
    rfl

theorem Analysed.grows (analysed : Analysed D true s t) : D.Grows s t := by
  obtain ⟨same, _, conforms, _, verdicts, apart⟩ := analysed
  rw [same] at conforms verdicts apart ⊢
  exact .of_memory rfl rfl rfl conforms (fun _ _ h => verdicts _ _ h)
    fun name => apart (false, name) (by simp)

theorem Analysed.sound (analysed : Analysed D true s t) (sound : D.Sound s) : D.Sound t := by
  obtain ⟨same, calm, _, answers, _, _⟩ := analysed
  rw [same] at calm answers ⊢
  exact { sound with calm, answers }

theorem isManagedType_ends (sound : D.Sound s) {d : TypeDefinition} (listed : D.Listed (.type d)) :
    D.Ends s (isManagedType d true) fun verdict t => t.Judges d verdict := by
  refine (isManagedType_leads sound.toSafe true listed).imp ?_ ?_
  · rintro verdict t ⟨analysed, found⟩
    exact ⟨analysed.sound sound, analysed.grows, found⟩
  · intro t analysed
    exact ⟨(analysed.sound sound).toSafe, analysed.grows.toKeeps⟩

/-- What a question on a native type tells when the answer is no: the type that it holds in place
    was found not to be managed. -/
def Plain (env : Environment) (type : NativeType) (s : State) : Prop :=
  ∀ reference d, heldReference? type = some reference → Means env reference d → s.Judges d false

theorem isManaged_ends (sound : D.Sound s) (type : NativeType) :
    D.Ends s (isManaged type true) fun verdict t => verdict = false → Plain env type t := by
  unfold isManaged
  cases held : heldReference? type with
  | none =>
    refine .pure sound fun _ reference d other => ?_
    rw [held] at other
    cases other
  | some reference =>
    refine .bind (.steady (resolve_steady reference) sound (Q := fun found _ =>
      ∀ u, resolve reference env u = .ok found u) fun _ always => always) ?_
    intro found t sound grown always
    have only : ∀ d, Means env reference d → found = some d := by
      intro d means
      have same := (always t).symm.trans (means t)
      cases same
      rfl
    cases found with
    | none =>
      refine .pure sound fun _ other d there means => ?_
      rw [held] at there
      cases there
      cases only d means
    | some found =>
      refine (isManagedType_ends sound (D.listed_means always)).imp ?_
      rintro verdict u _ judged rfl other d there means
      rw [held] at there
      cases there
      cases only d means
      exact judged

end Bindings
