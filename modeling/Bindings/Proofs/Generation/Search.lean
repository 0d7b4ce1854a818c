import Bindings.Proofs.Generation.Sifting

/-!
# Walks that do not fail

A walk from a clear type, where there are answers for all clear types, gives one for each type that it
meets. It goes on to types that are not under way, and those under way are no more than there are types.
A walk that fails knows what one that ends does.
-/

namespace Bindings
open Bindings.Metadata

variable {env : Environment} {among clear : TypeDefinition → Prop} {marshaling : Bool}
  {visiting : List AnalysisKey} {s t : State} {d e : TypeDefinition}

/-! ## Types under way -/

/-- The types under way are among those that the walk may meet, each once. -/
structure UnderWay (among : TypeDefinition → Prop) (marshaling : Bool)
    (visiting : List AnalysisKey) : Prop where
  nodup : visiting.Nodup
  known : ∀ key ∈ visiting, ∃ d, among d ∧ key = (marshaling, d.full)

theorem UnderWay.cons (under : UnderWay among marshaling visiting) (amongD : among d)
    (fresh : (marshaling, d.full) ∉ visiting) :
    UnderWay among marshaling ((marshaling, d.full) :: visiting) where
  nodup := List.nodup_cons.mpr ⟨fresh, under.nodup⟩
  known key member := by
    rcases List.mem_cons.mp member with rfl | before
    · exact ⟨d, amongD, rfl⟩
    · exact under.known key before

/-- No more types are under way than there are. -/
theorem UnderWay.length_le (under : UnderWay among marshaling visiting) (terrain : Terrain env among) :
    visiting.length ≤ env.typeCount := by
  obtain ⟨names, few, named⟩ := terrain.names
  have inside : visiting ⊆ names.map fun name => (marshaling, name) := by
    intro key member
    obtain ⟨d, amongD, rfl⟩ := under.known key member
    exact List.mem_map_of_mem (named d amongD)
  have bounded := under.nodup.length_le_of_subset inside
  rw [List.length_map] at bounded
  exact Nat.le_trans bounded few

/-! ## Parts of a walk -/

/-- A part of the walk on `owner` gives a result and goes further. Where there are answers for all clear
    types, it fails only if the owner is not one of them. -/
def Searches {α : Type} (env : Environment) (among clear : TypeDefinition → Prop) (marshaling : Bool)
    (visiting : List AnalysisKey) (owner : TypeDefinition) (s : State) (x : Gen α)
    (result : α → State → Prop) : Prop :=
  Gen.Leads env s x
    (fun a t => Sifted env among clear marshaling visiting t ∧ Further s t ∧ result a t)
    fun t => (∀ d, clear d → Answerable env d) →
      ¬clear owner ∧ Sifted env among clear marshaling visiting t ∧
        t.analysis.visiting = s.analysis.visiting

/-- The answer on a type in a walk: its verdict, or nothing if it is under way. -/
def Answered (marshaling : Bool) (visiting : List AnalysisKey) (e : TypeDefinition)
    (answer : Option Bool) (t : State) : Prop :=
  match answer with
  | some verdict => t.analysis.verdicts.get? (marshaling, e.full) = some verdict
  | none => (marshaling, e.full) ∈ visiting

/-- A step of a walk answers on every type, while some are under way. -/
def Answers (env : Environment) (among clear : TypeDefinition → Prop) (marshaling : Bool)
    (visiting : List AnalysisKey) (step : TypeDefinition → Gen (Option Bool)) : Prop :=
  ∀ e s, among e → Sifted env among clear marshaling visiting s → s.analysis.visiting = visiting →
    Searches env among clear marshaling visiting e s (step e) (Answered marshaling visiting e)

theorem Searches.bind {α β : Type} {x : Gen α} {f : α → Gen β}
    {Q : α → State → Prop} {final : β → State → Prop}
    (first : Searches env among clear marshaling visiting d s x Q)
    (rest : ∀ a t, Sifted env among clear marshaling visiting t → Further s t → Q a t →
      Searches env among clear marshaling visiting d t (f a) final) :
    Searches env among clear marshaling visiting d s (x >>= f) final := by
  refine Gen.Leads.bind first fun a t ⟨sifted, further, holds⟩ => ?_
  refine (rest a t sifted further holds).imp ?_ fun u failed all => ?_
  · rintro b u ⟨siftedU, furtherU, holdsU⟩
    exact ⟨siftedU, further.trans furtherU, holdsU⟩
  · obtain ⟨unclear, siftedU, path⟩ := failed all
    exact ⟨unclear, siftedU, path.trans further.visiting⟩

/-- A part of the walk on a type that is under way is followed by one after it. -/
theorem Searches.bindUnder {α β : Type} {x : Gen α} {f : α → Gen β}
    {Q : α → State → Prop} {final : β → State → Prop} (clearing : Clearing env among clear)
    (amongD : among d)
    (first : Searches env among clear marshaling ((marshaling, d.full) :: visiting) d s x Q)
    (rest : ∀ a t, Sifted env among clear marshaling ((marshaling, d.full) :: visiting) t →
      Further s t → Q a t → Searches env among clear marshaling visiting d t (f a) final) :
    Searches env among clear marshaling visiting d s (x >>= f) final := by
  refine Gen.Leads.bind (first.imp (fun _ _ h => h) fun t failed all => ?_)
    fun a t ⟨sifted, further, holds⟩ => ?_
  · obtain ⟨unclear, sifted, path⟩ := failed all
    exact ⟨unclear, sifted.abandon clearing amongD unclear, path⟩
  · refine (rest a t sifted further holds).imp ?_ fun u failed all => ?_
    · rintro b u ⟨siftedU, furtherU, holdsU⟩
      exact ⟨siftedU, further.trans furtherU, holdsU⟩
    · obtain ⟨unclear, siftedU, path⟩ := failed all
      exact ⟨unclear, siftedU, path.trans further.visiting⟩

/-- The walk on a type is a part of the walk on one that holds it. -/
theorem Searches.within {α : Type} {x : Gen α} {Q : α → State → Prop}
    (searches : Searches env among clear marshaling visiting e s x Q) (clears : clear d → clear e) :
    Searches env among clear marshaling visiting d s x Q := by
  refine searches.imp (fun _ _ h => h) fun t failed all => ?_
  obtain ⟨unclear, rest⟩ := failed all
  exact ⟨fun clearD => unclear (clears clearD), rest⟩

theorem Searches.get {α : Type} {f : State → Gen α} {final : α → State → Prop}
    (rest : Searches env among clear marshaling visiting d s (f s) final) :
    Searches env among clear marshaling visiting d s (get >>= f) final := rest

theorem Searches.pure {α : Type} (sifted : Sifted env among clear marshaling visiting s) {a : α}
    {Q : α → State → Prop} (holds : Q a s) :
    Searches env among clear marshaling visiting d s (pure a) Q := ⟨sifted, .refl s, holds⟩

/-- A part that only reads gives the same answer everywhere. -/
theorem Searches.asking {α β : Type} {Fine : Failure → Prop} {x : Gen α} {f : α → Gen β}
    {final : β → State → Prop} (sifted : Sifted env among clear marshaling visiting s)
    (steady : Gen.Constant Fine env x)
    (answers : (∀ d, clear d → Answerable env d) → clear d → ∃ a, ∀ s, x env s = .ok a s)
    (rest : ∀ a, (∀ s, x env s = .ok a s) → Searches env among clear marshaling visiting d s (f a) final) :
    Searches env among clear marshaling visiting d s (x >>= f) final := by
  obtain ⟨outcome, _, always⟩ := steady
  unfold Searches Gen.Leads at rest ⊢
  rw [Gen.bind_eq, always s]
  cases outcome with
  | ok a => exact rest a always
  | error e =>
    refine fun all => ⟨fun clearD => ?_, sifted, rfl⟩
    obtain ⟨a, answered⟩ := answers all clearD
    cases (always s).symm.trans (answered s)

/-- An interface is found to conform or not. -/
theorem Searches.isConforming (clearing : Clearing env among clear) (amongD : among d)
    (shape : d.isInterface = true) (sifted : Sifted env among clear marshaling visiting s) :
    Searches env among clear marshaling visiting d s (isConforming d)
      fun answer _ => answer = true ↔ Reaches env d := by
  unfold Bindings.isConforming
  refine .get ?_
  cases found : s.conformance.get? d.full with
  | some answer => exact .pure sifted (sifted.conformance d amongD shape answer found)
  | none =>
    refine .asking sifted (reachesUniversalBase_fixed d)
      (fun all clearD => (all d clearD).reaches shape) fun answer always => ?_
    have right := reachesUniversalBase_ok (always s)
    refine Gen.Leads.modify ⟨{ sifted with conformance := fun other amongOther _ a known => ?_ },
      { Further.refl s with }, right⟩
    rw [Table.get?_put] at known
    split at known
    · next same =>
      obtain rfl := clearing.alone d other amongD amongOther same
      cases known
      exact right
    · exact sifted.conformance other amongOther ‹_› a known

section
variable {step : TypeDefinition → Gen (Option Bool)}

/-- A field tells that its owner is managed, or it is accounted for. -/
theorem Searches.fieldIsManaged (clearing : Clearing env among clear) (amongD : among d)
    (under : (marshaling, d.full) ∈ visiting)
    (goes : Answers env among clear marshaling visiting step)
    (sifted : Sifted env among clear marshaling visiting s) (path : s.analysis.visiting = visiting)
    {type : NativeType} (holds : ∀ e, Contains env type e → HoldsInPlace env d e)
    (resolves : (∀ t, clear t → Answerable env t) → clear d →
      ∀ reference, heldReference? type = some reference → ∃ found, ∀ s, resolve reference env s = .ok found s) :
    Searches env among clear marshaling visiting d s (fieldIsManaged step marshaling (marshaling, d.full) type)
      fun managed t => (managed = true → Wanted env marshaling d) ∧
        (managed = false → ∀ e, Contains env type e → Accounted marshaling visiting t.analysis d e) := by
  unfold Bindings.fieldIsManaged
  split
  · next absent =>
    refine .pure sifted ⟨by simp, fun _ e ⟨reference, held, _⟩ => ?_⟩
    rw [absent] at held
    cases held
  · next reference held =>
    refine .asking sifted (resolve_steady reference)
      (fun all clearD => resolves all clearD reference held)
      fun found always => ?_
    have only : ∀ e, Contains env type e → found = some e := by
      rintro e ⟨other, heldOther, means⟩
      rw [held] at heldOther
      cases heldOther
      obtain ⟨same, _⟩ := EStateM.Result.ok.inj ((always s).symm.trans (means s))
      exact same
    split
    · exact .pure sifted ⟨by simp, fun _ e contains => by cases only e contains⟩
    · next e =>
      have contains : Contains env type e := ⟨reference, held, always⟩
      have amongE := clearing.held d e amongD (holds e contains)
      have same : ∀ other, Contains env type other → other = e := fun other there =>
        (Option.some.inj (only other there)).symm
      have clears : clear d → clear e := fun clearD => clearing.heldClear d e clearD (holds e contains)
      refine .bind ((goes e s amongE sifted path).within clears)
        fun answer t siftedT further answered => ?_
      have absent := siftedT.underWay _ under
      split
      · -- what the field holds is managed, and so is its owner
        obtain ⟨allowed, needs⟩ := siftedT.managed e amongE answered
        exact .pure siftedT ⟨fun _ => ⟨allowed, .held (holds e contains) needs⟩, by simp⟩
      · next unmanaged =>
        refine .get ?_
        dsimp only
        split
        · have depended := siftedT.depend amongD amongE (holds e contains) absent
          refine Gen.Leads.modify ⟨depended, .depend absent _, by simp, fun _ other there => ?_⟩
          obtain rfl := same other there
          refine .inr ⟨mem_dependentsOf_depend.mpr (.inr ⟨rfl, rfl⟩), ?_⟩
          cases answer with
          | none => exact .inr answered
          | some verdict =>
            refine .inl ?_
            have known : t.analysis.verdicts.get? (marshaling, other.full) = some verdict := answered
            exact Option.isSome_iff_exists.mpr ⟨verdict, known⟩
        · next settled =>
          refine .pure siftedT ⟨by simp, fun _ other there => .inl ?_⟩
          obtain rfl := same other there
          cases answer with
          | none => simp at settled
          | some verdict =>
            cases verdict with
            | true => exact absurd rfl unmanaged
            | false => exact ⟨answered, by simpa using settled⟩

/-- The fields tell that their owner is managed, or all of them are accounted for. -/
theorem Searches.anyFieldIsManaged (clearing : Clearing env among clear) (amongD : among d)
    (under : (marshaling, d.full) ∈ visiting)
    (goes : Answers env among clear marshaling visiting step)
    (sifted : Sifted env among clear marshaling visiting s) (path : s.analysis.visiting = visiting)
    {fields : List Field} (holds : ∀ f ∈ fields, ∀ e, Contains env f.type e → HoldsInPlace env d e)
    (resolves : (∀ t, clear t → Answerable env t) → clear d → ∀ f ∈ fields, ∀ reference,
      heldReference? f.type = some reference → ∃ found, ∀ s, resolve reference env s = .ok found s) :
    Searches env among clear marshaling visiting d s
      (anyFieldIsManaged step marshaling (marshaling, d.full) fields)
      fun managed t => (managed = true → Wanted env marshaling d) ∧
        (managed = false → ∀ f ∈ fields, ∀ e, Contains env f.type e →
          Accounted marshaling visiting t.analysis d e) := by
  induction fields generalizing s with
  | nil => exact .pure sifted ⟨by simp, fun _ f member => by cases member⟩
  | cons f rest ih =>
    refine .bind (.fieldIsManaged clearing amongD under goes sifted path (holds f (by simp))
      (fun all clearD => resolves all clearD f (by simp))) fun managed t siftedT further ⟨wanted, accounted⟩ => ?_
    split
    · next found => exact .pure siftedT ⟨fun _ => wanted found, by simp⟩
    · next plain =>
      refine (ih siftedT (further.visiting.trans path)
        (fun f member => holds f (List.mem_cons_of_mem _ member))
        (fun all clearD f member => resolves all clearD f (List.mem_cons_of_mem _ member))).imp ?_ fun _ h => h
      rintro later u ⟨siftedU, furtherU, wantedU, accountedU⟩
      refine ⟨siftedU, furtherU, wantedU, fun none g member e contains => ?_⟩
      rcases List.mem_cons.mp member with rfl | there
      · exact (accounted (by simpa using plain) e contains).further furtherU
      · exact accountedU none g there e contains

end

/-! ## The walk -/

/-- A change of the types under way changes nothing of what is known. -/
theorem Sifted.visits (sifted : Sifted env among clear marshaling visiting s) (path : List AnalysisKey) :
    Sifted env among clear marshaling visiting (s.analyse fun a => { a with visiting := path }) :=
  { sifted with }

/-- The fields of a struct are walked through while it is under way. -/
theorem Searches.fields {step : TypeDefinition → Gen (Option Bool)} {r : Record}
    (clearing : Clearing env among clear) (amongD : among d) (struct : IsPlainStruct d r)
    (fresh : (marshaling, d.full) ∉ visiting)
    (goes : Answers env among clear marshaling ((marshaling, d.full) :: visiting) step)
    (sifted : Sifted env among clear marshaling ((marshaling, d.full) :: visiting) s)
    (path : s.analysis.visiting = visiting) :
    Searches env among clear marshaling ((marshaling, d.full) :: visiting) d s (do
      modify (·.analyse fun a => { a with visiting := (marshaling, d.full) :: a.visiting })
      Gen.ensuring (Bindings.anyFieldIsManaged step marshaling (marshaling, d.full) r.fields)
        (·.analyse fun a => { a with visiting := a.visiting.filter (· ≠ (marshaling, d.full)) }))
      fun managed t => (managed = true → Wanted env marshaling d) ∧
        (managed = false → ∀ e, HoldsInPlace env d e →
          Accounted marshaling ((marshaling, d.full) :: visiting) t.analysis d e) := by
  subst path
  have restored : ∀ t : State, t.analysis.visiting = (marshaling, d.full) :: s.analysis.visiting →
      t.analysis.visiting.filter (· ≠ (marshaling, d.full)) = s.analysis.visiting := by
    intro t under
    rw [under]
    exact filter_visiting fresh
  refine Gen.Leads.modify (.ensuring ?_)
  refine (Searches.anyFieldIsManaged clearing amongD (List.mem_cons_self ..) goes (sifted.visits _) rfl
    (fun f member e contains => ⟨r, struct, f, member, contains⟩)
    (fun all clearD f member reference held => (all d clearD).resolves struct member held)).imp ?_ ?_
  · rintro managed t ⟨siftedT, further, wanted, accounted⟩
    refine ⟨siftedT.visits _, { further with visiting := restored t further.visiting }, wanted, ?_⟩
    rintro none e ⟨other, structE, f, member, contains⟩
    have same : other = r := by
      have shape := structE.1.symm.trans struct.1
      cases shape
      rfl
    subst same
    exact accounted none f member e contains
  · intro t failed all
    obtain ⟨unclear, siftedT, path⟩ := failed all
    exact ⟨unclear, siftedT.visits _, restored t path⟩

/-- The verdict on a type that was under way. -/
theorem Searches.decide (clearing : Clearing env among clear) (amongD : among d)
    (sifted : Sifted env among clear marshaling ((marshaling, d.full) :: visiting) s)
    (fresh : (marshaling, d.full) ∉ visiting) {verdict : Bool}
    (managed : verdict = true → Wanted env marshaling d)
    (unmanaged : verdict = false → (marshaling = true → ¬IsMarshaled env d) ∧
      ∀ e, HoldsInPlace env d e →
        Accounted marshaling ((marshaling, d.full) :: visiting) s.analysis d e) :
    Searches env among clear marshaling visiting d s (do
      modify (·.analyse fun a => { a with verdicts := a.verdicts.put (marshaling, d.full) verdict })
      return some verdict) (Answered marshaling visiting d) := by
  have absent := sifted.underWay _ (List.mem_cons_self ..)
  refine Gen.Leads.modify ⟨sifted.decide clearing amongD fresh managed unmanaged, .decide absent verdict, ?_⟩
  exact Table.get?_put_self ..

/-- The verdict on a type that holds no other. -/
theorem Searches.judge (clearing : Clearing env among clear) (amongD : among d)
    (sifted : Sifted env among clear marshaling ((marshaling, d.full) :: visiting) s)
    (fresh : (marshaling, d.full) ∉ visiting) (bare : ∀ r, ¬IsPlainStruct d r) {verdict : Bool}
    (right : verdict = true ↔ marshaling = true ∧ IsMarshaled env d) :
    Searches env among clear marshaling visiting d s (do
      modify (·.analyse fun a => { a with verdicts := a.verdicts.put (marshaling, d.full) verdict })
      return some verdict) (Answered marshaling visiting d) := by
  refine .decide clearing amongD sifted fresh (fun managed => ?_) fun unmanaged => ?_
  · obtain ⟨allowed, marshaled⟩ := right.mp managed
    exact ⟨allowed, .itself marshaled⟩
  · refine ⟨fun allowed marshaled => ?_, fun e ⟨r, struct, _⟩ => absurd struct (bare r)⟩
    rw [right.mpr ⟨allowed, marshaled⟩] at unmanaged
    cases unmanaged

/-- A walk answers on every type, since fewer types are under way than its depth allows. -/
theorem Searches.walk (clearing : Clearing env among clear) (depth : Nat) (amongD : among d)
    (sifted : Sifted env among clear marshaling visiting s) (path : s.analysis.visiting = visiting)
    (under : UnderWay among marshaling visiting)
    (deep : env.typeCount + 1 ≤ depth + visiting.length) :
    Searches env among clear marshaling visiting d s (walk marshaling depth d)
      (Answered marshaling visiting d) := by
  induction depth generalizing d s visiting with
  | zero =>
    have few := under.length_le clearing.toTerrain
    omega
  | succ depth ih =>
    unfold Bindings.walk
    refine .get ?_
    dsimp only
    split
    · next verdict found => exact .pure sifted found
    · next absent =>
      split
      · next member =>
        have member : (marshaling, d.full) ∈ visiting := by simpa [path] using member
        exact .pure sifted member
      · next fresh =>
        have fresh : (marshaling, d.full) ∉ visiting := by simpa [path] using fresh
        have begun := sifted.visit absent
        split
        · next shape =>
          rw [pure_bind]
          refine .judge clearing amongD begun fresh (fun r struct => ?_) ?_
          · cases shape.symm.trans struct.1
          · simp [IsMarshaled, TypeDefinition.isDelegate, TypeDefinition.isInterface, shape]
        · next shape =>
          rw [pure_bind]
          refine .judge clearing amongD begun fresh (fun r struct => ?_) ?_
          · cases shape.symm.trans struct.1
          · simp [IsMarshaled, TypeDefinition.isDelegate, shape]
        · next shape =>
          have bare : ∀ r, ¬IsPlainStruct d r := fun r struct => by cases shape.symm.trans struct.1
          have interface : d.isInterface = true := by simp [TypeDefinition.isInterface, shape]
          have delegate : d.isDelegate = false := by simp [TypeDefinition.isDelegate, shape]
          split
          · next allowed =>
            refine .bindUnder clearing amongD (.isConforming clearing amongD interface begun)
              fun answer t siftedT _ right => .judge clearing amongD siftedT fresh bare ?_
            simp [allowed, IsMarshaled, interface, delegate, right]
          · next forbidden =>
            rw [pure_bind]
            exact .judge clearing amongD begun fresh bare (by simp [forbidden])
        · next r shape =>
          have only : ∀ other, IsPlainStruct d other → other = r := by
            intro other struct
            cases shape.symm.trans struct.1
            rfl
          have unmarshaled : ¬IsMarshaled env d := by
            simp [IsMarshaled, TypeDefinition.isDelegate, TypeDefinition.isInterface, shape]
          split
          · next layout =>
            rw [pure_bind]
            refine .judge clearing amongD begun fresh (fun other struct => ?_) (by simp [unmarshaled])
            obtain rfl := only other struct
            rw [struct.2.2] at layout
            cases layout
          · next layout =>
            have struct := clearing.plain d r amongD shape (by simpa using layout)
            rw [← bind_assoc]
            refine .bindUnder clearing amongD
              (.fields clearing amongD struct fresh (fun e t amongE siftedT pathT => ?_) begun path)
              fun managed t siftedT _ known => ?_
            · refine ih amongE siftedT pathT (under.cons amongD fresh) ?_
              rw [List.length_cons]
              omega
            · obtain ⟨wanted, accounted⟩ := known
              exact .decide clearing amongD siftedT fresh wanted
                fun none => ⟨fun _ => unmarshaled, accounted none⟩

end Bindings
