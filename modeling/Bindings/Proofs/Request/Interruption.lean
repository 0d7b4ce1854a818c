import Bindings.Proofs.Generation.Verdict
import Bindings.Proofs.Request.Questions

/-!
# Questions that fail

A question whether a type is managed fails where what a struct holds cannot be resolved, or where the
base chain of an interface is broken. Whatever fails, an answer that a type is managed is right, and a
clear type, from which no such place is reached, is answered as in a new session. What a failed walk
leaves undecided on other types is not taken back: such a type may be found not to be managed although
it is.
-/

namespace Bindings
open Bindings.Metadata

variable {env : Environment} {s t : State} {q : TypeDefinition × Bool}

/-! ## Runs of questions -/

/-- A question with what came of it. -/
abbrev Asked := (TypeDefinition × Bool) × Except Failure Bool

/-- Questions whether types are managed, one after the other, each of which may fail. -/
def askEach (queries : List (TypeDefinition × Bool)) : Gen (List (Except Failure Bool)) :=
  queries.mapM fun q => Gen.attempt (isManagedType q.1 q.2)

/-- Questions that are asked from one state to another. -/
inductive Asking (env : Environment) : State → List Asked → State → Prop
  | nil {s : State} : Asking env s [] s
  | cons {s u t : State} {q : TypeDefinition × Bool} {outcome : Except Failure Bool} {later : List Asked}
      (asked : Gen.attempt (isManagedType q.1 q.2) env s = .ok outcome u) (rest : Asking env u later t) :
      Asking env s ((q, outcome) :: later) t

/-- Questions that may fail are all asked. -/
theorem askEach_asks (env : Environment) (queries : List (TypeDefinition × Bool)) (s : State) :
    ∃ asked t, asked.map (·.1) = queries ∧ askEach queries env s = .ok (asked.map (·.2)) t ∧
      Asking env s asked t := by
  induction queries generalizing s with
  | nil => exact ⟨[], s, rfl, rfl, .nil⟩
  | cons q rest ih =>
    obtain ⟨outcome, u, first⟩ :
        ∃ outcome u, Gen.attempt (isManagedType q.1 q.2) env s = .ok outcome u := by
      rw [Gen.attempt_eq]
      cases isManagedType q.1 q.2 env s with
      | ok answer u => exact ⟨_, u, rfl⟩
      | error e u => exact ⟨_, u, rfl⟩
    obtain ⟨asked, t, same, ended, asking⟩ := ih u
    refine ⟨(q, outcome) :: asked, t, by simp [same], ?_, .cons first asking⟩
    unfold askEach at ended ⊢
    rw [List.mapM_cons, Gen.bind_eq, first]
    dsimp only
    rw [Gen.bind_eq, ended]
    rfl

/-- Questions are asked up to one of them, then that one, and then the rest. -/
theorem Asking.split {before after : List Asked} {row : Asked}
    (asking : Asking env s (before ++ row :: after) t) :
    ∃ u v, Asking env s before u ∧ Gen.attempt (isManagedType row.1.1 row.1.2) env u = .ok row.2 v := by
  induction before generalizing s with
  | nil =>
    cases asking with
    | cons asked _ => exact ⟨s, _, .nil, asked⟩
  | cons first before ih =>
    cases asking with
    | cons asked rest =>
      obtain ⟨u, v, asking, here⟩ := ih rest
      exact ⟨u, v, .cons asked asking, here⟩

/-- What each question keeps, all of them keep. -/
theorem Asking.keeps {I : State → Prop} {asked : List Asked} (asking : Asking env s asked t)
    (each : ∀ row ∈ asked, ∀ u v, I u →
      Gen.attempt (isManagedType row.1.1 row.1.2) env u = .ok row.2 v → I v) (holds : I s) : I t := by
  induction asking with
  | nil => exact holds
  | cons first rest ih =>
    exact ih (fun row member => each row (List.mem_cons_of_mem _ member))
      (each _ (List.mem_cons_self ..) _ _ holds first)

/-! ## One question -/

/-- What a question leads to when it may fail. -/
theorem attempt_leads {ok : Bool → State → Prop} {failed : State → Prop}
    (leads : Gen.Leads env s (isManagedType q.1 q.2) ok failed) {outcome : Except Failure Bool}
    (asked : Gen.attempt (isManagedType q.1 q.2) env s = .ok outcome t) :
    (∃ answer, outcome = .ok answer ∧ ok answer t) ∨ (∃ e, outcome = .error e) ∧ failed t := by
  rw [Gen.attempt_eq] at asked
  unfold Gen.Leads at leads
  cases ended : isManagedType q.1 q.2 env s with
  | ok answer u =>
    rw [ended] at asked leads
    cases asked
    exact .inl ⟨answer, rfl, leads⟩
  | error e u =>
    rw [ended] at asked leads
    cases asked
    exact .inr ⟨⟨e, rfl⟩, leads⟩

/-- Verdicts that are remembered stay, whether questions fail or not. -/
theorem Asking.verdicts {asked : List Asked} (asking : Asking env s asked t) (calm : s.Calm)
    {key : AnalysisKey} {verdict : Bool} (found : s.analysis.verdicts.get? key = some verdict) :
    t.Calm ∧ t.analysis.verdicts.get? key = some verdict := by
  refine asking.keeps (I := fun u => u.Calm ∧ u.analysis.verdicts.get? key = some verdict)
    (fun row _ u v ⟨calm, found⟩ here => ?_) ⟨calm, found⟩
  have analysed : Analysed (.any env) row.1.2 u v := by
    rcases attempt_leads (isManagedType_leads (safe_any calm) row.1.2 trivial) here with
      ⟨_, _, analysed, _⟩ | ⟨_, analysed⟩ <;> exact analysed
  exact ⟨analysed.calm, analysed.verdicts key verdict found⟩

/-- A question that was answered is answered in the same way again. -/
theorem Asking.again {asked : List Asked} (asking : Asking env s asked t) (calm : s.Calm) {row : Asked}
    (member : row ∈ asked) {answer : Bool} (answered : row.2 = .ok answer) :
    isManagedType row.1.1 row.1.2 env t = .ok answer t := by
  induction asking with
  | nil => cases member
  | @cons s u t q outcome later first rest ih =>
    rcases attempt_leads (isManagedType_leads (safe_any calm) q.2 trivial) first with
      ⟨given, same, analysed, found⟩ | ⟨⟨e, failed⟩, analysed⟩
    · rcases List.mem_cons.mp member with rfl | further
      · obtain rfl := Except.ok.inj (same.symm.trans answered)
        obtain ⟨calmT, foundT⟩ := rest.verdicts analysed.calm found
        exact isManagedType_known calmT foundT
      · exact ih analysed.calm further
    · rcases List.mem_cons.mp member with rfl | further
      · cases failed.symm.trans answered
      · exact ih analysed.calm further

/-! ## Clear types -/

/-- A type is clear: there are answers for it and for all that it holds, at any depth. -/
def Clear (env : Environment) (d : TypeDefinition) : Prop :=
  ∀ t, Involved env [(d, true)] t → Answerable env t

theorem Clear.held {d e : TypeDefinition} (clear : Clear env d) (holds : HoldsInPlace env d e) :
    Clear env e := by
  intro t involved
  refine clear t ?_
  induction involved with
  | asked member =>
    obtain rfl := List.mem_singleton.mp member
    exact .held (.asked (List.mem_singleton.mpr rfl)) holds
  | held _ further ih => exact .held ih further

theorem Clear.answerable {d : TypeDefinition} (clear : Clear env d) : Answerable env d :=
  clear d (.asked (List.mem_singleton.mpr rfl))

section
variable {among : TypeDefinition → Prop} (terrain : Terrain env among)
include terrain

/-- The clear types of a terrain hold only clear ones. -/
theorem Terrain.clears : Clearing env among fun d => among d ∧ Clear env d where
  toTerrain := terrain
  inside _ h := h.1
  heldClear d e h holds := ⟨terrain.held d e h.1 holds, h.2.held holds⟩

/-- What is remembered stays founded whatever question is asked, and a question on a clear type is
    answered. -/
theorem Settled.attempted (settled : Settled env among (fun d => among d ∧ Clear env d) s)
    (amongD : among q.1) {outcome : Except Failure Bool}
    (asked : Gen.attempt (Bindings.isManagedType q.1 q.2) env s = .ok outcome t) :
    Settled env among (fun d => among d ∧ Clear env d) t ∧
      ((∃ answer, outcome = .ok answer ∧
          Founded env (fun d => among d ∧ Clear env d) q.2 q.1 answer) ∨
        (∃ e, outcome = .error e) ∧ ¬Clear env q.1) := by
  rcases attempt_leads (settled.asked terrain.clears amongD q.2) asked with
    ⟨answer, same, settledT, founded⟩ | ⟨failed, unclear⟩
  · exact ⟨settledT, .inl ⟨answer, same, founded⟩⟩
  · obtain ⟨unclear, settledT⟩ := unclear fun d h => h.2.answerable
    exact ⟨settledT, .inr ⟨failed, fun clear => unclear ⟨amongD, clear⟩⟩⟩

/-- A question on a clear type is answered in a new session. -/
theorem Clear.answered (clear : Clear env q.1) (amongD : among q.1) :
    ∃ answer u, isManagedType q.1 q.2 env {} = .ok answer u ∧ (answer = true ↔ Wanted env q.2 q.1) := by
  have leads := Settled.init.asked terrain.clears amongD q.2
  unfold Gen.Leads at leads
  cases ended : isManagedType q.1 q.2 env {} with
  | ok answer u =>
    rw [ended] at leads
    exact ⟨answer, u, rfl, leads.2.right ⟨amongD, clear⟩⟩
  | error e u =>
    rw [ended] at leads
    exact absurd ⟨amongD, clear⟩ (leads fun d h => h.2.answerable).1

/-- As long as each question is answered, all that is remembered is right. -/
theorem Settled.unbroken (settled : Settled env among among s) (amongD : among q.1) {answer : Bool}
    (asked : Gen.attempt (Bindings.isManagedType q.1 q.2) env s = .ok (.ok answer) t) :
    Settled env among among t ∧ (answer = true ↔ Wanted env q.2 q.1) := by
  rcases attempt_leads (settled.asked terrain.clearing amongD q.2) asked with
    ⟨given, same, settledT, founded⟩ | ⟨⟨e, failed⟩, _⟩
  · obtain rfl := Except.ok.inj same
    exact ⟨settledT, founded.right amongD⟩
  · cases failed

end

/-- Questions are asked one after the other in a new session, on types whose full names tell them and
    what they hold apart. Whatever fails, an answer that a type is managed is right; a question on a
    clear type is answered, in the same way as in a new session; as long as no question has failed
    before, each answer is right; and a question that was answered is answered in the same way again. -/
theorem askEach_founded {roots : List Markup.Element} (built : Index.ofDocuments roots = .ok env.index)
    (queries : List (TypeDefinition × Bool))
    (chosen : ∀ q ∈ queries, env.index.Chooses env.options.platformName? q.1)
    (apart : ∀ t u, Involved env queries t → Involved env queries u → t.full = u.full →
      t.space = u.space) :
    ∃ (asked : List Asked) (t : State),
      asked.map (·.1) = queries ∧ askEach queries env {} = .ok (asked.map (·.2)) t ∧
      ∀ before row after, asked = before ++ row :: after →
        (row.2 = .ok true → row.1.2 = true ∧ NeedsMarshaling env row.1.1) ∧
        (Clear env row.1.1 → ∃ answer u, isManagedType row.1.1 row.1.2 env {} = .ok answer u ∧
          row.2 = .ok answer ∧ (answer = true ↔ row.1.2 = true ∧ NeedsMarshaling env row.1.1)) ∧
        ((∀ r ∈ before, ∃ given, r.2 = .ok given) → ∀ answer, row.2 = .ok answer →
          (answer = true ↔ row.1.2 = true ∧ NeedsMarshaling env row.1.1)) ∧
        ∀ r ∈ before, r.1 = row.1 → ∀ answer, r.2 = .ok answer → row.2 = .ok answer := by
  obtain ⟨asked, t, same, ended, asking⟩ := askEach_asks env queries {}
  refine ⟨asked, t, same, ended, fun before row after cut => ?_⟩
  have terrain : Terrain env (Involved env queries) :=
    terrain_of_chooses built (fun _ involved => involved.chooses built chosen)
      (fun _ _ involved holds => .held involved holds) apart
  have involved : ∀ r ∈ asked, Involved env queries r.1.1 := by
    intro r member
    exact .asked (same ▸ List.mem_map_of_mem member)
  have inside : ∀ r ∈ before, r ∈ asked := fun r member => cut ▸ List.mem_append_left _ member
  have amongRow : Involved env queries row.1.1 :=
    involved row (cut ▸ List.mem_append_right _ (List.mem_cons_self ..))
  rw [cut] at asking
  obtain ⟨u, v, earlier, here⟩ := asking.split
  have calm : State.Calm {} := ⟨rfl, rfl, rfl⟩
  have settled := earlier.keeps (I := Settled env (Involved env queries) _)
    (fun r member u v settled here =>
      (settled.attempted terrain (involved r (inside r member)) here).1) .init
  obtain ⟨_, outcome⟩ := settled.attempted terrain amongRow here
  refine ⟨fun managed => ?_, fun clear => ?_, fun unbroken answer answered => ?_,
    fun r member again answer answered => ?_⟩
  · obtain ⟨answer, given, founded⟩ | ⟨⟨e, failed⟩, _⟩ := outcome
    · exact founded.managed (Except.ok.inj (given.symm.trans managed))
    · cases failed.symm.trans managed
  · obtain ⟨answer, given, founded⟩ | ⟨_, unclear⟩ := outcome
    · obtain ⟨fresh, w, ended, right⟩ := clear.answered terrain amongRow
      have same : answer = fresh := by
        rw [Bool.eq_iff_iff, right]
        exact founded.right ⟨amongRow, clear⟩
      exact ⟨fresh, w, ended, same ▸ given, right⟩
    · exact absurd clear unclear
  · have right := earlier.keeps (I := Settled env (Involved env queries) (Involved env queries))
      (fun r member u v settled here => by
        obtain ⟨given, same⟩ := unbroken r member
        rw [same] at here
        exact (settled.unbroken terrain (involved r (inside r member)) here).1) .init
    rw [answered] at here
    exact (right.unbroken terrain amongRow here).2
  · have known := earlier.again calm member answered
    rw [again] at known
    rw [Gen.attempt_eq, known] at here
    exact (EStateM.Result.ok.inj here).1.symm

/-! ## A loop that is interrupted -/

/-- Structs that hold each other in two loops. One of them holds a delegate, and another one a struct that
    is not available. -/
def interruptedDocument : Markup.Element :=
  oneNamespace "Ns" [
    ⟨"struct", [("name", "OUTER")], "",
      [⟨"field", [("name", "middle"), ("type", "MIDDLE")], "", []⟩,
        ⟨"field", [("name", "call"), ("type", "CALL")], "", []⟩]⟩,
    ⟨"struct", [("name", "MIDDLE")], "",
      [⟨"field", [("name", "inner"), ("type", "INNER")], "", []⟩,
        ⟨"field", [("name", "other"), ("type", "OTHER")], "", []⟩,
        ⟨"field", [("name", "lost"), ("type", "LOST")], "", []⟩]⟩,
    ⟨"struct", [("name", "INNER")], "", [⟨"field", [("name", "middle"), ("type", "MIDDLE[2]")], "", []⟩]⟩,
    ⟨"struct", [("name", "OTHER")], "", [⟨"field", [("name", "outer"), ("type", "OUTER[2]")], "", []⟩]⟩,
    ⟨"struct", [("name", "LOST"), ("arch", "arm64")], "", []⟩,
    ⟨"delegate", [("name", "CALL"), ("returns", "void")], "", []⟩]

instance : DecidableEq (Except Failure Bool)
  | .ok a, .ok b => decidable_of_iff (a = b) (by simp)
  | .error a, .error b => decidable_of_iff (a = b) (by simp)
  | .ok _, .error _ => isFalse nofun
  | .error _, .ok _ => isFalse nofun

/-- What comes of questions in a new session. -/
def outcomesOf (env : Environment) (queries : List (TypeDefinition × Bool)) :
    Option (List (Except Failure Bool)) :=
  match askEach queries env {} with
  | .ok outcomes _ => some outcomes
  | .error .. => none

theorem outcomesOf_eq_some {queries : List (TypeDefinition × Bool)} {outcomes : List (Except Failure Bool)}
    (given : outcomesOf env queries = some outcomes) : ∃ s, askEach queries env {} = .ok outcomes s := by
  unfold outcomesOf at given
  cases ended : askEach queries env {} with
  | ok found s =>
    rw [ended] at given
    exact ⟨s, by rw [Option.some.inj given]⟩
  | error e s =>
    rw [ended] at given
    cases given

/-- The types of the document that are asked about. -/
def interruptedNames : List (QualifiedName × Bool) := [(⟨"Ns", "OUTER"⟩, true), (⟨"Ns", "CALL"⟩, true)]

/-- A delegate is clear: it holds nothing. -/
theorem clear_of_isDelegate {d : TypeDefinition} (delegate : d.isDelegate = true)
    (answers : Answerable env d) : Clear env d := by
  have only : ∀ t, Involved env [(d, true)] t → t = d := by
    intro t involved
    induction involved with
    | asked member => exact congrArg Prod.fst (List.mem_singleton.mp member)
    | held _ holds ih =>
      obtain ⟨r, struct, _⟩ := ih ▸ holds
      simp [TypeDefinition.isDelegate, struct.1] at delegate
  exact fun t involved => only t involved ▸ answers

/-- The question on the outer struct fails, and the one on the delegate after it is answered as in a new
    session. -/
theorem askEach_founded_interrupted :
    let env := Environment.reading [interruptedDocument]
    ∃ outer call, env.queries interruptedNames = [(outer, true), (call, true)] ∧
      outcomesOf env [(outer, true), (call, true)] =
        some [.error (.platformMismatch "Ns.LOST" none ["arm64"]), .ok true] ∧
      NeedsMarshaling env call ∧ ∃ u, isManagedType call true env {} = .ok true u := by
  intro env
  have built : Index.ofDocuments [interruptedDocument] = .ok env.index := reading_built (by decide +kernel)
  have single : ∀ n ∈ interruptedNames, env.Single n.1 := by decide +kernel
  have spaces : ∀ t ∈ env.types, ∀ u ∈ env.types, t.full = u.full → t.space = u.space := by
    decide +kernel
  have flags : (env.queries interruptedNames).map (·.2) = [true, true] := by decide +kernel
  have bare : ∀ q ∈ (env.queries interruptedNames).drop 1,
      q.1.isDelegate = true ∧ Answerable env q.1 := by decide +kernel
  have computed : outcomesOf env (env.queries interruptedNames) =
      some [.error (.platformMismatch "Ns.LOST" none ["arm64"]), .ok true] := by decide +kernel
  obtain ⟨asked, t, same, ended, each⟩ := askEach_founded built (env.queries interruptedNames)
    (chooses_of_single single) (fun t u first second => spaces t (involved_mem built single first) u
      (involved_mem built single second))
  obtain ⟨_, given⟩ := outcomesOf_eq_some computed
  rw [ended] at given
  have outcomes := (EStateM.Result.ok.inj given).1
  obtain ⟨⟨outer, _⟩, rest, two, rfl, flags⟩ := List.map_eq_cons_iff.mp flags
  obtain ⟨⟨call, _⟩, last, rfl, rfl, nothing⟩ := List.map_eq_cons_iff.mp flags
  obtain rfl := List.map_eq_nil_iff.mp nothing
  rw [two] at same bare computed
  have rows : asked = [((outer, true), .error (.platformMismatch "Ns.LOST" none ["arm64"]))] ++
      ((call, true), .ok true) :: [] := by
    rw [← List.zip_unzip asked, List.unzip_eq_map, same, outcomes]
    rfl
  obtain ⟨managed, clear, _⟩ := each _ _ _ rows
  obtain ⟨delegate, answers⟩ := bare (call, true) (by simp)
  obtain ⟨answer, u, fresh, answered, _⟩ := clear (clear_of_isDelegate delegate answers)
  obtain rfl := Except.ok.inj answered
  exact ⟨outer, call, two, computed, (managed rfl).2, u, fresh⟩

/-- A question that fails leaves a verdict that is wrong: the inner struct needs marshaling and is found
    to be managed in a new session, but not after the question on the outer struct has failed. -/
theorem interrupted_unmanaged :
    let env := Environment.reading [interruptedDocument]
    Index.ofDocuments [interruptedDocument] = .ok env.index ∧
      ∃ outer inner,
        env.queries [(⟨"Ns", "OUTER"⟩, true), (⟨"Ns", "INNER"⟩, true)] = [(outer, true), (inner, true)] ∧
        outcomesOf env [(outer, true), (inner, true)] =
          some [.error (.platformMismatch "Ns.LOST" none ["arm64"]), .ok false] ∧
        outcomesOf env [(inner, true)] = some [.ok true] := by
  intro env
  have built : Index.ofDocuments [interruptedDocument] = .ok env.index := reading_built (by decide +kernel)
  have flags : (env.queries [(⟨"Ns", "OUTER"⟩, true), (⟨"Ns", "INNER"⟩, true)]).map (·.2) =
      [true, true] := by decide +kernel
  obtain ⟨⟨outer, _⟩, rest, two, rfl, flags⟩ := List.map_eq_cons_iff.mp flags
  obtain ⟨⟨inner, _⟩, last, rfl, rfl, nothing⟩ := List.map_eq_cons_iff.mp flags
  obtain rfl := List.map_eq_nil_iff.mp nothing
  have both : outcomesOf env (env.queries [(⟨"Ns", "OUTER"⟩, true), (⟨"Ns", "INNER"⟩, true)]) =
      some [.error (.platformMismatch "Ns.LOST" none ["arm64"]), .ok false] := by decide +kernel
  have alone : outcomesOf env ((env.queries [(⟨"Ns", "OUTER"⟩, true), (⟨"Ns", "INNER"⟩, true)]).drop 1) =
      some [.ok true] := by decide +kernel
  rw [two] at both alone
  exact ⟨built, outer, inner, two, both, alone⟩

end Bindings
