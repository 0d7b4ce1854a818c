import Bindings.Proofs.Generation.Marshaling
import Bindings.Proofs.Generation.Spreading

/-!
# What a walk finds out

A walk gives every type that it meets a verdict, and does not fail where there are answers. A
verdict that a type is managed is right at once. One that it is not is right for good, or the type
is noted as a dependent of what it holds and may still be found to be managed. A walk that fails may
leave verdicts of the second kind that are wrong, but only on types that are not clear: those that
hold, at some depth, a type for which there is no answer.
-/

namespace Bindings
open Bindings.Metadata

variable {env : Environment} {among clear : TypeDefinition → Prop} {marshaling : Bool}
  {visiting : List AnalysisKey} {s t u : State} {d e : TypeDefinition}

/-! ## What is known in a walk -/

/-- The types that depend on the verdict of a type. -/
def Analysis.dependentsOf (a : Analysis) (key : AnalysisKey) : List AnalysisKey :=
  (a.dependents.get? key).getD []

theorem Analysis.exists_of_mem_dependentsOf {a : Analysis} {key owner : AnalysisKey}
    (depends : owner ∈ a.dependentsOf key) : ∃ owners, (key, owners) ∈ a.dependents.entries ∧ owner ∈ owners := by
  unfold Analysis.dependentsOf at depends
  cases found : a.dependents.get? key with
  | none => simp [found] at depends
  | some owners =>
    rw [found] at depends
    exact ⟨owners, Table.mem_of_lookupIn found, depends⟩

/-- The answer on a type: it needs marshaling, and that is allowed. -/
def Wanted (env : Environment) (marshaling : Bool) (d : TypeDefinition) : Prop :=
  marshaling = true ∧ NeedsMarshaling env d

/-- A verdict is founded: that a type is managed is right, and that it is not is right if the type is
    clear. -/
structure Founded (env : Environment) (clear : TypeDefinition → Prop) (marshaling : Bool)
    (d : TypeDefinition) (verdict : Bool) : Prop where
  managed : verdict = true → Wanted env marshaling d
  unmanaged : clear d → verdict = false → ¬Wanted env marshaling d

/-- A founded verdict on a clear type is right. -/
theorem Founded.right {verdict : Bool} (founded : Founded env clear marshaling d verdict)
    (clearD : clear d) : verdict = true ↔ Wanted env marshaling d := by
  refine ⟨founded.managed, fun wanted => ?_⟩
  cases verdict with
  | true => rfl
  | false => exact absurd wanted (founded.unmanaged clearD rfl)

/-- What a type holds does not make it managed so far: it was found not to be managed for good, or
    the type depends on its verdict. -/
def Accounted (marshaling : Bool) (visiting : List AnalysisKey) (a : Analysis)
    (d e : TypeDefinition) : Prop :=
  a.verdicts.get? (marshaling, e.full) = some false ∧ (marshaling, e.full) ∉ a.provisional ∨
    (marshaling, d.full) ∈ a.dependentsOf (marshaling, e.full) ∧
      ((a.verdicts.get? (marshaling, e.full)).isSome = true ∨ (marshaling, e.full) ∈ visiting)

/-- What is known in a walk that began when all verdicts were founded. -/
structure Sifted (env : Environment) (among clear : TypeDefinition → Prop) (marshaling : Bool)
    (visiting : List AnalysisKey) (s : State) : Prop where
  others : ∀ d, among d → ∀ flag verdict, flag ≠ marshaling →
    s.analysis.verdicts.get? (flag, d.full) = some verdict → Founded env clear flag d verdict
  managed : ∀ d, among d → s.analysis.verdicts.get? (marshaling, d.full) = some true →
    Wanted env marshaling d
  unmanaged : ∀ d, clear d → s.analysis.verdicts.get? (marshaling, d.full) = some false →
    ¬Wanted env marshaling d ∧ (marshaling, d.full) ∉ s.analysis.provisional ∨
      (marshaling = true → ¬IsMarshaled env d) ∧
        ∀ e, HoldsInPlace env d e → Accounted marshaling visiting s.analysis d e
  dependents : ∀ entry ∈ s.analysis.dependents.entries, ∀ owner ∈ entry.2,
    owner ∈ s.analysis.provisional ∧ ∃ d e, among d ∧ among e ∧ HoldsInPlace env d e ∧
      owner = (marshaling, d.full) ∧ entry.1 = (marshaling, e.full)
  underWay : ∀ key ∈ visiting, s.analysis.verdicts.get? key = none
  conformance : ∀ d, among d → d.isInterface = true → ∀ answer,
    s.conformance.get? d.full = some answer → (answer = true ↔ Reaches env d)

/-- A state is further in a walk: nothing is forgotten, and whether a verdict is provisional stays
    as it is. -/
structure Further (s t : State) : Prop where
  visiting : t.analysis.visiting = s.analysis.visiting
  verdicts : ∀ key verdict, s.analysis.verdicts.get? key = some verdict →
    t.analysis.verdicts.get? key = some verdict
  provisional : ∀ key, (s.analysis.verdicts.get? key).isSome = true →
    key ∉ s.analysis.provisional → key ∉ t.analysis.provisional
  dependents : ∀ key owner, owner ∈ s.analysis.dependentsOf key →
    owner ∈ t.analysis.dependentsOf key

theorem Further.refl (s : State) : Further s s where
  visiting := rfl
  verdicts _ _ h := h
  provisional _ _ h := h
  dependents _ _ h := h

theorem Further.trans (first : Further s t) (second : Further t u) : Further s u where
  visiting := second.visiting.trans first.visiting
  verdicts key verdict h := second.verdicts key verdict (first.verdicts key verdict h)
  provisional key there h := by
    obtain ⟨verdict, found⟩ := Option.isSome_iff_exists.mp there
    refine second.provisional key ?_ (first.provisional key there h)
    rw [first.verdicts key verdict found]
    rfl
  dependents key owner h := second.dependents key owner (first.dependents key owner h)

theorem Accounted.further (accounted : Accounted marshaling visiting s.analysis d e)
    (further : Further s t) : Accounted marshaling visiting t.analysis d e := by
  rcases accounted with ⟨plain, settled⟩ | ⟨depends, known⟩
  · exact .inl ⟨further.verdicts _ _ plain, further.provisional _ (by rw [plain]; rfl) settled⟩
  · refine .inr ⟨further.dependents _ _ depends, known.imp_left fun there => ?_⟩
    obtain ⟨verdict, found⟩ := Option.isSome_iff_exists.mp there
    rw [further.verdicts _ _ found]
    rfl

/-! ## Steps -/

theorem mem_dependentsOf_depend {a : Analysis} {dependency owner key other : AnalysisKey} :
    other ∈ (a.depend dependency owner).dependentsOf key ↔
      other ∈ a.dependentsOf key ∨ dependency = key ∧ other = owner := by
  unfold Analysis.depend Analysis.dependentsOf
  dsimp only
  split
  · next there =>
    refine ⟨.inl, ?_⟩
    rintro (old | ⟨rfl, rfl⟩)
    · exact old
    · simpa using there
  · rw [Table.getD_push, List.mem_append]
    by_cases same : dependency = key <;> simp [same]

theorem mem_provisional_depend {a : Analysis} {dependency owner other : AnalysisKey} :
    other ∈ (a.depend dependency owner).provisional ↔ other = owner ∨ other ∈ a.provisional := by
  unfold Analysis.depend
  dsimp only
  split
  · next there =>
    refine ⟨.inr, ?_⟩
    rintro (rfl | old)
    · simpa using there
    · exact old
  · exact List.mem_cons

/-- A dependency is noted for a type without a verdict. -/
theorem Further.depend {owner : AnalysisKey} (absent : s.analysis.verdicts.get? owner = none)
    (dependency : AnalysisKey) : Further s (s.analyse (·.depend dependency owner)) where
  visiting := rfl
  verdicts _ _ h := h
  provisional key there settled provisional := by
    rcases mem_provisional_depend.mp provisional with rfl | old
    · rw [absent] at there
      cases there
    · exact settled old
  dependents _ _ h := mem_dependentsOf_depend.mpr (.inl h)

theorem Sifted.depend (sifted : Sifted env among clear marshaling visiting s) (amongD : among d)
    (amongE : among e) (holds : HoldsInPlace env d e)
    (absent : s.analysis.verdicts.get? (marshaling, d.full) = none) :
    Sifted env among clear marshaling visiting
      (s.analyse (·.depend (marshaling, e.full) (marshaling, d.full))) where
  others := sifted.others
  managed := sifted.managed
  unmanaged other clearOther plain := by
    rcases sifted.unmanaged other clearOther plain with ⟨unwanted, settled⟩ | ⟨unmarshaled, accounted⟩
    · refine .inl ⟨unwanted, fun provisional => ?_⟩
      rcases mem_provisional_depend.mp provisional with same | old
      · have known : s.analysis.verdicts.get? (marshaling, other.full) = some false := plain
        rw [same, absent] at known
        cases known
      · exact settled old
    · exact .inr ⟨unmarshaled, fun e holds => (accounted e holds).further (.depend absent _)⟩
  dependents entry member owner held := by
    have old : ∀ old ∈ s.analysis.dependents.entries, old.1 = entry.1 → owner ∈ old.2 →
        owner ∈ (s.analysis.depend (marshaling, e.full) (marshaling, d.full)).provisional ∧
          ∃ d e, among d ∧ among e ∧ HoldsInPlace env d e ∧
            owner = (marshaling, d.full) ∧ entry.1 = (marshaling, e.full) := by
      intro old there same inside
      obtain ⟨provisional, known⟩ := sifted.dependents old there owner inside
      exact ⟨mem_provisional_depend.mpr (.inr provisional), same ▸ known⟩
    simp only [State.analyse, Analysis.depend] at member
    split at member
    · exact old entry member rfl held
    · rcases Table.mem_push member owner held with ⟨here, rfl⟩ | ⟨before, there, same, inside⟩
      · exact ⟨mem_provisional_depend.mpr (.inl rfl), d, e, amongD, amongE, holds, rfl, here⟩
      · exact old before there same inside
  underWay := sifted.underWay
  conformance := sifted.conformance

theorem Accounted.more (accounted : Accounted marshaling visiting s.analysis d e)
    (key : AnalysisKey) : Accounted marshaling (key :: visiting) s.analysis d e :=
  accounted.imp_right fun ⟨depends, known⟩ => ⟨depends, known.imp_right (List.mem_cons_of_mem key)⟩

/-- A type without a verdict comes under way. -/
theorem Sifted.visit (sifted : Sifted env among clear marshaling visiting s) {key : AnalysisKey}
    (absent : s.analysis.verdicts.get? key = none) :
    Sifted env among clear marshaling (key :: visiting) s where
  others := sifted.others
  managed := sifted.managed
  unmanaged d clearD plain := (sifted.unmanaged d clearD plain).imp_right fun ⟨unmarshaled, accounted⟩ =>
    ⟨unmarshaled, fun e holds => (accounted e holds).more key⟩
  dependents := sifted.dependents
  underWay other member := by
    rcases List.mem_cons.mp member with rfl | before
    · exact absent
    · exact sifted.underWay other before
  conformance := sifted.conformance

/-- A state with a verdict on a type. -/
def State.deciding (s : State) (key : AnalysisKey) (verdict : Bool) : State :=
  s.analyse fun a => { a with verdicts := a.verdicts.put key verdict }

theorem Further.decide {key : AnalysisKey} (absent : s.analysis.verdicts.get? key = none)
    (verdict : Bool) : Further s (s.deciding key verdict) where
  visiting := rfl
  verdicts other answer found := by
    have apart : key ≠ other := by
      rintro rfl
      rw [absent] at found
      cases found
    exact (Table.get?_put_of_ne _ verdict apart).trans found
  provisional _ _ h := h
  dependents _ _ h := h

/-- What was under way has a verdict now. -/
theorem Accounted.decide {key : AnalysisKey} (absent : s.analysis.verdicts.get? key = none)
    (verdict : Bool) (accounted : Accounted marshaling (key :: visiting) s.analysis d e) :
    Accounted marshaling visiting (s.deciding key verdict).analysis d e := by
  rcases accounted.further (.decide absent verdict) with settled | ⟨depends, known⟩
  · exact .inl settled
  · refine .inr ⟨depends, ?_⟩
    rcases known with there | under
    · exact .inl there
    · rcases List.mem_cons.mp under with rfl | before
      · exact .inl (by simp [State.deciding, State.analyse])
      · exact .inr before

/-- A type that was under way gets a verdict. -/
theorem Sifted.decide (clearing : Clearing env among clear) (amongD : among d)
    (sifted : Sifted env among clear marshaling ((marshaling, d.full) :: visiting) s)
    (fresh : (marshaling, d.full) ∉ visiting) {verdict : Bool}
    (managed : verdict = true → Wanted env marshaling d)
    (unmanaged : verdict = false → (marshaling = true → ¬IsMarshaled env d) ∧
      ∀ e, HoldsInPlace env d e →
        Accounted marshaling ((marshaling, d.full) :: visiting) s.analysis d e) :
    Sifted env among clear marshaling visiting (s.deciding (marshaling, d.full) verdict) := by
  have absent := sifted.underWay _ (List.mem_cons_self ..)
  have verdicts : ∀ key, (s.deciding (marshaling, d.full) verdict).analysis.verdicts.get? key =
      if (marshaling, d.full) = key then some verdict else s.analysis.verdicts.get? key :=
    fun key => Table.get?_put ..
  refine {
    others := fun other amongOther flag answer different found => ?_
    managed := fun other amongOther found => ?_
    unmanaged := fun other clearOther found => ?_
    dependents := sifted.dependents
    underWay := fun key member => ?_
    conformance := sifted.conformance }
  · rw [verdicts, if_neg fun same => different (congrArg Prod.fst same).symm] at found
    exact sifted.others other amongOther flag answer different found
  · rw [verdicts] at found
    split at found
    · next same =>
      obtain rfl := clearing.alone d other amongD amongOther (congrArg Prod.snd same)
      exact managed (Option.some.inj found)
    · exact sifted.managed other amongOther found
  · rw [verdicts] at found
    split at found
    · next same =>
      obtain rfl := clearing.alone d other amongD (clearing.inside other clearOther)
        (congrArg Prod.snd same)
      obtain ⟨unmarshaled, accounted⟩ := unmanaged (Option.some.inj found)
      exact .inr ⟨unmarshaled, fun e holds => (accounted e holds).decide absent verdict⟩
    · exact (sifted.unmanaged other clearOther found).imp_right fun ⟨unmarshaled, accounted⟩ =>
        ⟨unmarshaled, fun e holds => (accounted e holds).decide absent verdict⟩
  · have apart : (marshaling, d.full) ≠ key := by
      rintro rfl
      exact fresh member
    rw [verdicts, if_neg apart]
    exact sifted.underWay key (List.mem_cons_of_mem _ member)

/-- A type that was under way and is not clear is given up. No clear type waits for it. -/
theorem Sifted.abandon (clearing : Clearing env among clear) (amongD : among d) (unclear : ¬clear d)
    (sifted : Sifted env among clear marshaling ((marshaling, d.full) :: visiting) s) :
    Sifted env among clear marshaling visiting s :=
  { sifted with
    unmanaged := fun other clearOther plain => by
      refine (sifted.unmanaged other clearOther plain).imp_right fun ⟨unmarshaled, accounted⟩ =>
        ⟨unmarshaled, fun e holds => (accounted e holds).imp_right fun ⟨depends, known⟩ => ⟨depends, ?_⟩⟩
      refine known.imp_right fun under => (List.mem_cons.mp under).resolve_left fun same => ?_
      have clearE := clearing.heldClear other e clearOther holds
      obtain rfl := clearing.alone e d (clearing.inside e clearE) amongD (congrArg Prod.snd same)
      exact unclear clearE
    underWay := fun key member => sifted.underWay key (List.mem_cons_of_mem _ member) }

end Bindings
