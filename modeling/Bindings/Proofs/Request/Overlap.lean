import Bindings.Proofs.Generation.Choice
import Bindings.Proofs.Metadata.Documents
import Bindings.Proofs.Overload.Wrapping
import Bindings.Proofs.Request.Order
import Bindings.Proofs.Request.Reporting

/-!
# Functions that two sweeps share

The sweep of a module and the sweep of a namespace may have a function of one full name as a candidate. Each
chooses among the variants that it reaches, those of the module or those of the namespace. The choices are
the same exactly if both reach the same variants that apply on the platform, or each reaches several.
-/

namespace Bindings
open Bindings.Metadata Bindings.Metadata.Index Bindings.Text

variable {env : Environment} {c other : Candidate} {module space : String} {f g : Function}
  {functions others : List Function}

/-! ## Choices -/

/-- What variants that apply on a platform lead to: the only one is taken, the candidate is skipped if there
    is none, and it is ambiguous if there are several. -/
inductive Choice
  | taken (f : Function)
  | skipped
  | ambiguous

/-- The choice among variants that apply. -/
def Choice.among : List Function → Choice
  | [] => skipped
  | [f] => taken f
  | _ :: _ :: _ => ambiguous

namespace Choice

theorem among_eq_taken_iff : among functions = taken f ↔ functions = [f] := by
  match functions with
  | [] => simp [among]
  | [g] => simp [among]
  | _ :: _ :: _ => simp [among]

theorem among_eq_iff : among functions = among others ↔
    functions = others ∨ 2 ≤ functions.length ∧ 2 ≤ others.length := by
  match functions, others with
  | [], [] => simp
  | [], [g] => simp [among]
  | [], _ :: _ :: _ => simp [among]
  | [f], [] => simp [among]
  | [f], [g] => simp [among]
  | [f], _ :: _ :: _ => simp [among]
  | _ :: _ :: _, [] => simp [among]
  | _ :: _ :: _, [g] => simp [among]
  | _ :: _ :: _, _ :: _ :: _ => simp [among]

/-- Parts of variants lead to the same choice exactly if they are the same or each has several. -/
theorem among_filter_eq_iff (p q : Function → Bool) :
    among (functions.filter p) = among (functions.filter q) ↔
      (∀ f ∈ functions, p f = q f) ∨
        2 ≤ (functions.filter p).length ∧ 2 ≤ (functions.filter q).length := by
  rw [among_eq_iff]
  refine or_congr_left ⟨fun same f member => ?_, List.filter_congr⟩
  have told : f ∈ functions.filter p ↔ f ∈ functions.filter q := by rw [same]
  simp only [List.mem_filter, member, true_and] at told
  exact Bool.eq_iff_iff.mpr told

end Choice

/-- What a sweep makes of a candidate on the chosen platform: it selects the function that is taken, skips the
    candidate since no variant is for the platform, or finds it to be ambiguous. -/
inductive Environment.Makes (env : Environment) (c : Candidate) : Choice → Prop
  | taken {f : Function}
      (selected : select (·.architectures) c.2 env.options.platformName? c.1 = .ok (.function f)) :
      Makes env c (.taken f)
  | skipped {architectures : List String}
      (refused : select (·.architectures) c.2 env.options.platformName? c.1 =
        .error (.platformMismatch c.1 env.options.platformName? architectures)) :
      Makes env c .skipped
  | ambiguous {n : Nat} (several : 2 ≤ n)
      (refused : select (·.architectures) c.2 env.options.platformName? c.1 =
        .error (.fault (.ambiguousVariants n c.1))) :
      Makes env c .ambiguous

/-- The functions that apply on the chosen platform. -/
def Environment.applying (env : Environment) (functions : List Function) : List Function :=
  functions.filter fun f => applies env.options.platformName? f.architectures

theorem applying_definitions (functions : List Function) :
    (functions.map Definition.function).filter
      (fun d => applies env.options.platformName? d.architectures) =
    (env.applying functions).map .function := by
  rw [List.filter_map]
  rfl

/-- What is selected from a candidate of functions is decided by those that apply. -/
theorem select_functions (env : Environment) (some : functions ≠ [])
    (variants : c.2 = functions.map .function) :
    select (·.architectures) c.2 env.options.platformName? c.1 = match env.applying functions with
      | [] => .error (.platformMismatch c.1 env.options.platformName?
          (sortedSet (c.2.flatMap (·.architectures))))
      | [f] => .ok (.function f)
      | matching => .error (.fault (.ambiguousVariants matching.length c.1)) := by
  have nonempty : c.2.isEmpty = false := by simpa [variants] using some
  have fitting : c.2.filter (fun d => applies env.options.platformName? d.architectures) =
      (env.applying functions).map .function := variants ▸ applying_definitions functions
  simp only [select, nonempty, fitting]
  cases env.applying functions with
  | nil => rfl
  | cons f rest =>
    cases rest with
    | nil => rfl
    | cons g rest => simp

/-- A candidate of functions comes to the choice among those that apply. -/
theorem makes_among (env : Environment) (some : functions ≠ []) (variants : c.2 = functions.map .function) :
    env.Makes c (.among (env.applying functions)) := by
  have selects := select_functions env some variants
  cases applied : env.applying functions with
  | nil =>
    rw [applied] at selects
    exact .skipped selects
  | cons f rest =>
    cases rest with
    | nil =>
      rw [applied] at selects
      exact .taken selects
    | cons g rest =>
      rw [applied] at selects
      exact .ambiguous (Nat.le_add_left 2 _) selects

theorem Environment.Makes.unique {first second : Choice} (makes : env.Makes c first)
    (also : env.Makes c second) : first = second := by
  cases makes <;> cases also <;> simp_all

/-- Candidates of functions come to the same exactly if the choices are the same. -/
theorem makes_same_iff (some : functions ≠ []) (variants : c.2 = functions.map .function)
    (someOther : others ≠ []) (variantsOther : other.2 = others.map .function) :
    (∃ choice, env.Makes c choice ∧ env.Makes other choice) ↔
      Choice.among (env.applying functions) = .among (env.applying others) := by
  have makes := makes_among env some variants
  have makesOther := makes_among env someOther variantsOther
  constructor
  · rintro ⟨choice, first, second⟩
    rw [makes.unique first, makesOther.unique second]
  · intro same
    exact ⟨_, makes, same ▸ makesOther⟩

/-! ## Variants that a sweep reaches -/

theorem mem_functionsAmong {definitions : List Definition} :
    f ∈ functionsAmong definitions ↔ .function f ∈ definitions := by
  simp [functionsAmong, Definition.function?_eq_some_iff]

theorem mem_map_function : Definition.function f ∈ functions.map .function ↔ f ∈ functions := by
  simp

/-- The sweep of a module reaches the variants of the module. -/
theorem module_reaches {definitions : List Definition} (lists : env.index.Lists definitions)
    (member : c ∈ (SweepRequest.ofModule module).candidatesIn env) :
    c.2 ≠ [] ∧ c.2 = (((functionsAmong definitions).filter (·.full = c.1)).filter
      (moduleName ·.module = moduleName module)).map .function := by
  have inside := mem_inKeyOrder.mp (List.mem_filter.mp member).1
  refine ⟨Table.foldl_push_filled Definition.full _ c inside, ?_⟩
  rw [Table.foldl_push_groups Definition.full _ c inside, lists.modules, List.filter_map, List.filter_filter,
    List.filter_filter]
  refine congrArg (List.map Definition.function) (List.filter_congr fun f _ => Bool.and_comm _ _)

theorem dotted_right_inj {name same : String} : dotted space name = dotted space same ↔ name = same := by
  constructor
  · intro full
    have rows := congrArg String.toList full
    simp only [dotted, String.toList_append, List.append_cancel_left_eq] at rows
    exact String.toList_inj.mp rows
  · rintro rfl
    rfl

/-- A condition on definitions sifts their functions if it is a condition on functions. -/
theorem functionsAmong_filter {definitions : List Definition} {kept : Definition → Bool}
    {keptFunction : Function → Bool} (agree : ∀ f, kept (.function f) = keptFunction f) :
    functionsAmong (definitions.filter kept) = (functionsAmong definitions).filter keptFunction := by
  rw [functionsAmong, functionsAmong, List.filterMap_filter, List.filter_filterMap]
  refine congrArg (List.filterMap · definitions) (funext fun d => ?_)
  cases d with
  | function f => by_cases keeps : keptFunction f <;> simp [Definition.function?, Option.filter, agree, keeps]
  | type t => simp [Definition.function?]
  | constant k => simp [Definition.function?]

/-- The sweep of a namespace reaches the variants of the namespace. -/
theorem namespace_reaches {definitions : List Definition} (consistent : env.index.Consistent)
    (lists : env.index.Lists definitions) (member : c ∈ (SweepRequest.everyIn space).candidatesIn env)
    (function : .function f ∈ c.2) :
    c.2 = (((functionsAmong definitions).filter (·.full = c.1)).filter
      (·.space = space)).map .function := by
  simp only [SweepRequest.candidatesIn] at member
  cases found : env.index.namespaces.get? space with
  | none =>
    rw [found] at member
    cases member
  | some members =>
    rw [found] at member
    obtain ⟨name, full, functions | types | constants⟩ :=
      mem_namespaceCandidates consistent (Table.mem_of_lookupIn found) member
    · rw [functions, consistent.functions, lists.named, within, List.filter_filter, List.filter_filter, full]
      refine congrArg (List.map Definition.function) (functionsAmong_filter fun f => ?_)
      rw [Bool.eq_iff_iff]
      -- in one namespace the full name tells the simple name
      by_cases here : f.space = space
      · simp [Definition.space, Definition.name, Function.full, here, dotted_right_inj]
        exact decide_eq_true_iff
      · simp [Definition.space, here]
    · rw [types] at function
      obtain ⟨_, _, same⟩ := List.mem_map.mp function
      cases same
    · rw [constants] at function
      obtain ⟨_, _, same⟩ := List.mem_map.mp function
      cases same

/-! ## Sweeps that do the same -/

/-- A savepoint is refused, or the computation runs in it. -/
theorem inSavepoint_runs (env : Environment) (s : State) :
    (∃ e t, ∀ x : Gen Unit, inSavepoint x env s = .error e t) ∨
      ∃ id outer t, ∀ x : Gen Unit, inSavepoint x env s = runIn id outer x env t := by
  unfold inSavepoint
  simp only [Gen.bind_eq, currentTransaction_eq]
  cases s.current with
  | none => exact .inl ⟨_, _, fun _ => rfl⟩
  | some outer =>
    simp only [Gen.onLedger_eq]
    cases s.ledger.savepoint outer with
    | error e => exact .inl ⟨_, _, fun _ => rfl⟩
    | ok made => exact .inr ⟨_, _, _, fun _ => rfl⟩

theorem Failure.conclusion_congr (label : c.1 = other.1) (e : Failure) :
    e.conclusion c = e.conclusion other := by
  cases e <;> simp [Failure.conclusion, label]

/-- Two candidates of one name do the same in a sweep if the functions that apply are the same. -/
theorem sweepCandidate_alike (label : c.1 = other.1) (some : functions ≠ [])
    (variants : c.2 = functions.map .function) (someOther : others ≠ [])
    (variantsOther : other.2 = others.map .function)
    (same : env.applying functions = env.applying others) (links : Links) (s : State) :
    sweepCandidate links c env s = sweepCandidate links other env s := by
  have selects := select_functions env some variants
  have selectsOther := select_functions env someOther variantsOther
  rw [← same, ← label] at selectsOther
  rw [sweepCandidate_eq, sweepCandidate_eq]
  rcases inSavepoint_runs env s with ⟨e, t, refused⟩ | ⟨id, outer, t, runs⟩
  · simp only [refused, Failure.conclusion_congr label]
  · simp only [runs, runIn_eq, candidate_eq, Environment.askedBy, ← label]
    cases applied : env.applying functions with
    | nil =>
      -- the failures may list different architectures, but either skips the candidate
      rw [applied] at selects selectsOther
      simp only [selects, selectsOther]
      change Gen.ended (.ok (CandidateOutcome.skipped c.1)) _ =
        Gen.ended (.ok (CandidateOutcome.skipped other.1)) _
      rw [label]
    | cons f rest =>
      have equal : select (·.architectures) c.2 env.options.platformName? c.1 =
          select (·.architectures) other.2 env.options.platformName? c.1 := by
        rw [selects, selectsOther, applied]
        cases rest <;> rfl
      simp only [equal, Failure.conclusion_congr label]

/-! ## Sweeps that meet -/

/-- The functions of a full name that apply on the chosen platform. -/
def Environment.applyingNamed (env : Environment) (definitions : List Definition) (full : String) :
    List Function :=
  env.applying ((functionsAmong definitions).filter (·.full = full))

/-- Of the variants that a sweep reaches, those apply that it reaches among all that apply. -/
theorem applying_reached (definitions : List Definition) (full : String) (reached : Function → Bool) :
    env.applying (((functionsAmong definitions).filter (·.full = full)).filter reached) =
      (env.applyingNamed definitions full).filter reached := by
  simp only [Environment.applyingNamed, Environment.applying, List.filter_filter]
  exact List.filter_congr fun f _ => Bool.and_left_comm _ _ _

/-- A module and a namespace have the same variants of a full name that apply. -/
def Environment.SameVariants (env : Environment) (definitions : List Definition) (module space full : String) :
    Prop :=
  ∀ f ∈ env.applyingNamed definitions full, moduleName f.module = moduleName module ↔ f.space = space

/-- A module and a namespace have each several variants of a full name that apply. -/
def Environment.Several (env : Environment) (definitions : List Definition) (module space full : String) :
    Prop :=
  2 ≤ ((env.applyingNamed definitions full).filter (moduleName ·.module = moduleName module)).length ∧
    2 ≤ ((env.applyingNamed definitions full).filter (·.space = space)).length

/-- What the sweep of a module and the sweep of a namespace make of a function that both have as a
    candidate. -/
structure Environment.Meet (env : Environment) (definitions : List Definition) (module space : String)
    (c other : Candidate) : Prop where
  /-- They come to the same exactly if they reach the same variants that apply, or each reaches several. -/
  agree : (∃ choice, env.Makes c choice ∧ env.Makes other choice) ↔
    env.SameVariants definitions module space c.1 ∨ env.Several definitions module space c.1
  /-- If they reach the same variants that apply, they do the same in every state. -/
  alike : env.SameVariants definitions module space c.1 →
    ∀ links s, sweepCandidate links c env s = sweepCandidate links other env s
  /-- They do not take different functions for one key. -/
  same : ∀ f g, env.Makes c (.taken f) → env.Makes other (.taken g) →
    (Entity.function f).key = (Entity.function g).key → f = g
  /-- If simple names have no points, all variants are of the namespace. -/
  inside : (∀ d ∈ definitions, '.' ∉ d.name.toList) →
    ∀ f ∈ env.applyingNamed definitions c.1, f.space = space

/-- In each session on documents, the sweep of a module and the sweep of a namespace may both have a function
    of one full name as a candidate. They come to the same just as far as the variants that apply are those
    of the module and those of the namespace. -/
theorem sweeps_meet {roots : List Markup.Element} (built : Index.ofDocuments roots = .ok env.index)
    (member : c ∈ (SweepRequest.ofModule module).candidatesIn env)
    (memberOther : other ∈ (SweepRequest.everyIn space).candidatesIn env) (label : c.1 = other.1)
    (function : .function f ∈ other.2) :
    ∃ definitions, readDocuments roots = .ok definitions ∧ env.Meet definitions module space c other := by
  obtain ⟨definitions, read, lists⟩ := ofDocuments_lists built
  obtain ⟨some, reached⟩ := module_reaches lists member
  have reachedOther := namespace_reaches (ofDocuments_consistent built) lists memberOther function
  have someOther : other.2 ≠ [] := List.ne_nil_of_mem function
  have there := reachedOther ▸ function
  rw [← label] at reachedOther there
  rw [reached, Ne, List.map_eq_nil_iff] at some
  rw [reachedOther, Ne, List.map_eq_nil_iff] at someOther
  refine ⟨definitions, read, { agree := ?agree, alike := ?alike, same := ?same, inside := ?inside }⟩
  case agree =>
    rw [makes_same_iff some reached someOther reachedOther, applying_reached, applying_reached,
      Choice.among_filter_eq_iff]
    simp only [decide_eq_decide]
    exact Iff.rfl
  case alike =>
    intro same links s
    refine sweepCandidate_alike label some reached someOther reachedOther ?_ links s
    rw [applying_reached, applying_reached]
    exact List.filter_congr fun f held => decide_eq_decide.mpr (same f held)
  case same =>
    intro f g takes takesOther key
    have one := Choice.among_eq_taken_iff.mp ((makes_among env some reached).unique takes)
    have oneOther := Choice.among_eq_taken_iff.mp ((makes_among env someOther reachedOther).unique takesOther)
    rw [applying_reached] at one oneOther
    -- by its key the function of the module is one of the namespace, which has no other that applies
    have among := List.mem_filter.mp (one.symm ▸ List.mem_singleton_self f)
    have amongOther := List.mem_filter.mp (oneOther.symm ▸ List.mem_singleton_self g)
    simp only [Entity.key, EntityKey.mk.injEq, QualifiedName.mk.injEq, true_and, and_true] at key
    have here : f.space = space := key.1.trans (of_decide_eq_true amongOther.2)
    exact List.mem_singleton.mp (oneOther ▸ List.mem_filter.mpr ⟨among.1, decide_eq_true here⟩)
  case inside =>
    intro plain g held
    obtain ⟨full, here⟩ := List.mem_filter.mp (mem_map_function.mp there)
    obtain ⟨listed, called⟩ := List.mem_filter.mp full
    obtain ⟨listedOther, calledOther⟩ := List.mem_filter.mp (List.mem_filter.mp held).1
    have alike : dotted g.space g.name = dotted f.space f.name :=
      (of_decide_eq_true calledOther).trans (of_decide_eq_true called).symm
    have one := (dotted_inj (plain _ (mem_functionsAmong.mp listedOther))
      (plain _ (mem_functionsAmong.mp listed)) alike).1
    exact one.trans (of_decide_eq_true here)

/-- A function of a namespace is a candidate of its sweep, unless it is left out for a wide one. -/
theorem function_candidate {members : Members} {name : String} {variants : List Function}
    (found : env.index.namespaces.get? space = some members)
    (held : members.functions.get? name = some variants)
    (shown : isSuppressedNarrow env.options name members.functions.keys = false) :
    (dotted space name, variants.map .function) ∈ (SweepRequest.everyIn space).candidatesIn env := by
  rw [SweepRequest.candidatesIn, found]
  refine List.mem_append_left _ (List.mem_append_left _ ?_)
  refine List.mem_map.mpr ⟨(name, variants), List.mem_filter.mpr ⟨?_, by simp [shown]⟩, rfl⟩
  exact mem_inKeyOrder.mpr (Table.mem_of_lookupIn held)

/-- A function with a variant in each of two modules, for different architectures. -/
def drawingDocument : Markup.Element :=
  let variant (module architecture : String) : Markup.Element :=
    ⟨"function", [("name", "Draw"), ("module", module), ("arch", architecture)], "", []⟩
  oneNamespace "Ns" [variant "alpha.dll" "x64", variant "beta" "arm64"]

/-- The sweep of the namespace has the function as a candidate, of which one variant applies. -/
theorem drawing_candidate :
    let env := Environment.onX64 [drawingDocument]
    ∃ variants f,
      ("Ns.Draw", variants.map Definition.function) ∈ (SweepRequest.everyIn "Ns").candidatesIn env ∧
      env.applying variants = [f] ∧ f.module = "alpha.dll" := by
  intro env
  have drawn : ((env.index.namespaces.get? "Ns").bind (·.functions.get? "Draw")).map
      (fun variants => (env.applying variants).map (·.module)) = some ["alpha.dll"] := by decide +kernel
  obtain ⟨variants, drawn, modules⟩ := Option.map_eq_some_iff.mp drawn
  obtain ⟨members, found, held⟩ := Option.bind_eq_some_iff.mp drawn
  obtain ⟨f, one, module⟩ := List.map_eq_singleton_iff.mp modules
  have plain : ends "A" "Draw" = false := by decide +kernel
  exact ⟨variants, f, function_candidate found held (by simp [isSuppressedNarrow, plain]), one, module⟩

/-- The sweep of the module of the variant that applies and the sweep of the namespace meet. -/
theorem sweeps_meet_drawing :
    let env := Environment.onX64 [drawingDocument]
    ∃ c other f definitions, Index.ofDocuments [drawingDocument] = .ok env.index ∧
      c ∈ (SweepRequest.ofModule "Alpha").candidatesIn env ∧
      other ∈ (SweepRequest.everyIn "Ns").candidatesIn env ∧ c.1 = other.1 ∧ .function f ∈ other.2 ∧
      readDocuments [drawingDocument] = .ok definitions ∧ env.Meet definitions "Alpha" "Ns" c other := by
  intro env
  have built : Index.ofDocuments [drawingDocument] = .ok env.index := reading_built (by decide +kernel)
  have candidates : (SweepRequest.ofModule "Alpha").candidatesIn env = _ :=
    candidatesIn_sorted rfl (by decide +kernel)
  have listed : ∃ c ∈ (SweepRequest.ofModule "Alpha").candidatesIn env, c.1 = "Ns.Draw" := by
    rw [candidates]
    decide +kernel
  obtain ⟨c, member, label⟩ := listed
  obtain ⟨variants, f, memberOther, one, -⟩ := drawing_candidate
  have inside : f ∈ variants := (List.mem_filter.mp (one.symm ▸ List.mem_singleton_self f)).1
  have function := mem_map_function.mpr inside
  obtain ⟨definitions, read, meet⟩ := sweeps_meet built member memberOther label function
  exact ⟨c, _, f, definitions, built, member, memberOther, label, function, read, meet⟩

/-- The sweep of the module of the other variant skips the function that the sweep of the namespace takes. -/
theorem sweeps_part_drawing :
    let env := Environment.onX64 [drawingDocument]
    ∃ c other f, Index.ofDocuments [drawingDocument] = .ok env.index ∧
      c ∈ (SweepRequest.ofModule "beta").candidatesIn env ∧
      other ∈ (SweepRequest.everyIn "Ns").candidatesIn env ∧ c.1 = "Ns.Draw" ∧ other.1 = "Ns.Draw" ∧
      env.Makes c .skipped ∧ env.Makes other (.taken f) ∧ f.module = "alpha.dll" ∧
      ¬ ∃ choice, env.Makes c choice ∧ env.Makes other choice := by
  intro env
  have built : Index.ofDocuments [drawingDocument] = .ok env.index := reading_built (by decide +kernel)
  have candidates : (SweepRequest.ofModule "beta").candidatesIn env = _ :=
    candidatesIn_sorted rfl (by decide +kernel)
  have listed : ∃ c ∈ (SweepRequest.ofModule "beta").candidatesIn env, c.1 = "Ns.Draw" ∧
      c.2.filter (fun d => applies env.options.platformName? d.architectures) = [] := by
    rw [candidates]
    decide +kernel
  obtain ⟨c, member, label, nothing⟩ := listed
  obtain ⟨variants, f, memberOther, one, module⟩ := drawing_candidate
  obtain ⟨definitions, -, lists⟩ := ofDocuments_lists built
  obtain ⟨some, reached⟩ := module_reaches lists member
  rw [reached, applying_definitions, List.map_eq_nil_iff] at nothing
  rw [reached, Ne, List.map_eq_nil_iff] at some
  have skips : env.Makes c (.among []) := nothing ▸ makes_among env some reached
  have someOther : variants ≠ [] := by
    rintro rfl
    cases one
  have takes : env.Makes ("Ns.Draw", variants.map .function) (.among [f]) :=
    one ▸ makes_among env someOther rfl
  refine ⟨c, _, f, built, member, memberOther, label, rfl, skips, takes, module, ?_⟩
  rintro ⟨choice, first, second⟩
  cases (skips.unique first).trans (second.unique takes)

end Bindings
