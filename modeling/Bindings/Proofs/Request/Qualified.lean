import Bindings.Proofs.Metadata.Documents
import Bindings.Proofs.Request.Apart
import Bindings.Proofs.Request.Identity
import Bindings.Proofs.Request.Order
import Bindings.Proofs.Request.Reporting

/-!
# Qualified names

What a request for a qualified name finds, and that it is durable once the request has told so: the
definitions of the namespace and the name. Where there is none, the catalog is asked for the simple name,
and its template is taken whatever its namespace is.
-/

namespace Bindings
open Bindings.Metadata Bindings.Metadata.Index Bindings.Text

variable {env : Environment} {s t : State} {space name : String}

/-! ## Definitions of a qualified name -/

/-- A definition is among several if it is among those of its sort. -/
theorem mem_sorts {definitions : List Definition} {d : Definition} :
    d ∈ (functionsAmong definitions).map .function ++ (typesAmong definitions).map .type
      ++ (constantsAmong definitions).map .constant ↔ d ∈ definitions := by
  cases d <;> simp [functionsAmong, typesAmong, constantsAmong, Definition.function?_eq_some_iff,
    Definition.type?_eq_some_iff, Definition.constant?_eq_some_iff]

/-- What a qualified name is called by: as a whole by definitions or, if there are none, in its parts. -/
def calledBy (space name : String) (definitions : List Definition) : List Definition :=
  if definitions.any (·.name = dotted space name) then definitions.filter (·.name = dotted space name)
  else definedAs space name definitions

/-- What is looked up for a qualified name. -/
theorem mem_lookup_dotted {index : Index} {definitions : List Definition} (lists : index.Lists definitions)
    (consistent : index.Consistent) (plain : '.' ∉ name.toList) {d : Definition} :
    d ∈ index.lookup (dotted space name) ↔ d ∈ calledBy space name definitions := by
  unfold calledBy
  split
  · next named =>
    obtain ⟨other, inside, same⟩ := List.any_eq_true.mp named
    have listed : other ∈ index.ofName (dotted space name) := by
      rw [lists.named]
      exact List.mem_filter.mpr ⟨inside, same⟩
    rw [← lists.named, Index.lookup]
    unfold ofName at listed ⊢
    cases found : index.byName.get? (dotted space name) with
    | none => simp [found] at listed
    | some held => rfl
  · next unnamed =>
    have unnamed : ∀ other ∈ definitions, other.name ≠ dotted space name := by simpa using unnamed
    rw [lists.lookup_qualified consistent unnamed plain, mem_sorts]

/-! ## What a qualified name asks for -/

/-- The candidates that a name stands for as it is. -/
def Environment.exactly (env : Environment) (name : String) : List Candidate :=
  (grouped (env.index.lookup name)).entries.map fun entry => (dotted entry.1.2.1 entry.1.2.2, entry.2)

theorem exactGroups_eq (env : Environment) (name : String) :
    (∃ e, ∀ s, exactGroups name env s = .error e s) ∨
      ∀ s, exactGroups name env s = .ok (env.exactly name) s := by
  unfold exactGroups
  by_cases several : 1 < ((grouped (env.index.lookup name)).keys.map (·.2.1)).eraseDups.length
  · let names := (grouped (env.index.lookup name)).keys.map fun key => dotted key.2.1 key.2.2
    refine .inl ⟨.input (.ambiguous name (sortedSet names)), fun s => ?_⟩
    rw [Gen.read_bind]
    simp only [if_pos several]
    rfl
  · refine .inr fun s => ?_
    rw [Gen.read_bind]
    simp only [if_neg several]
    rfl

/-- Definitions that are grouped together have one key. -/
theorem key_of_groupKey {d other : Definition} (same : groupKey d = groupKey other) :
    (Entity.ofDefinition d).key = (Entity.ofDefinition other).key := by
  cases d <;> cases other <;>
    simp_all [groupKey, Entity.ofDefinition, Entity.key, Definition.space, Definition.name]

/-- Each definition that is looked up is in a candidate whose definitions all have its key. -/
theorem exactly_holds {d : Definition} (member : d ∈ env.index.lookup name) :
    ∃ c ∈ env.exactly name, d ∈ c.2 ∧
      ∀ other ∈ c.2, (Entity.ofDefinition other).key = (Entity.ofDefinition d).key := by
  have present : groupKey d ∈ (grouped (env.index.lookup name)).keys :=
    (Table.mem_keys_foldl_push groupKey _ {} _).mpr (.inr ⟨d, member, rfl⟩)
  obtain ⟨entry, inside, key⟩ := List.mem_map.mp present
  have values := Table.foldl_push_groups groupKey (env.index.lookup name) entry inside
  refine ⟨_, List.mem_map.mpr ⟨entry, inside, rfl⟩, ?_, fun other there => ?_⟩
  · rw [values]
    exact List.mem_filter.mpr ⟨member, by simp [key]⟩
  · rw [values] at there
    exact key_of_groupKey ((of_decide_eq_true (List.mem_filter.mp there).2).trans key)

/-- What a name asks for as it is: the candidates that it stands for or, if there are none, the template of
    its last part. -/
def Environment.asksFor (env : Environment) (name : String) : List (Except Failure Entity) :=
  match env.exactly name with
  | [] => ((env.templates.get? (lastSegment name)).map fun template => .ok (.template template)).toList
  | c :: others => (c :: others).map env.askedBy

theorem asksFor_of_found {d : Definition} (member : d ∈ env.index.lookup name) :
    env.asksFor name = (env.exactly name).map env.askedBy := by
  obtain ⟨c, inside, _⟩ := exactly_holds member
  unfold Environment.asksFor
  cases exact : env.exactly name with
  | nil =>
    rw [exact] at inside
    cases inside
  | cons first others => rfl

theorem asksFor_of_missing (missing : env.index.lookup name = []) : env.asksFor name =
    ((env.templates.get? (lastSegment name)).map fun template => .ok (.template template)).toList := by
  have exact : env.exactly name = [] := by
    rw [Environment.exactly, missing]
    rfl
  rw [Environment.asksFor, exact]

/-- What a candidate asks for is one of its definitions. -/
theorem mem_of_askedBy {c : Candidate} {e : Entity} (asked : env.askedBy c = .ok e) :
    ∃ d ∈ c.2, e = .ofDefinition d := by
  unfold Environment.askedBy at asked
  split at asked
  · next chosen selected =>
    cases asked
    exact ⟨chosen, (mem_of_select selected).1, rfl⟩
  · cases asked

/-- A qualified name is ambiguous, or it is found if it asks for something. -/
theorem name_qualified (env : Environment) (pointed : holds name '.' = true) :
    (∃ e, ∀ links s, Links.name links name env s = .error e s) ∨
      ∀ links s, Links.name links name env s = ((env.asksFor name).forM links.ask >>= fun _ =>
        pure !(env.asksFor name).isEmpty : Gen Bool) env s := by
  have exact : ∀ s, groupsOf name env s = exactGroups name env s := by
    intro s
    rw [groupsOf, Gen.bind_eq]
    cases exactGroups name env s with
    | error e u => rfl
    | ok groups u => simp only [pointed, Bool.or_true, if_true]; rfl
  unfold Links.name
  rcases exactGroups_eq env name with ⟨e, fails⟩ | found
  · exact .inl ⟨e, fun links s => by rw [Gen.bind_eq, exact, fails]⟩
  · refine .inr fun links s => ?_
    simp only [Gen.bind_eq, exact, found, Environment.asksFor]
    cases env.exactly name with
    | nil =>
      simp only [Gen.read_bind]
      cases env.templates.get? (lastSegment name) with
      | none => rfl
      | some template =>
        change (links.demand (.template template) >>= fun _ => pure true : Gen Bool) env s = _
        dsimp only [Option.map_some, Option.toList_some]
        rw [Gen.bind_eq, asks_cons]
        simp only [Links.ask]
        cases links.demand (.template template) env s <;> rfl
    | cons c others =>
      change ((c :: others).forM links.candidate >>= fun _ => pure true : Gen Bool) env s = _
      rw [Gen.bind_eq, candidates_eq]
      rfl

theorem transaction_returns {x : Gen Unit} {answer found : Bool} (rest : s.AtRest)
    (ended : inTransaction (x >>= fun _ => pure answer) env s = .ok found t) :
    found = answer ∧ inTransaction x env s = .ok () t := by
  rw [inTransaction_eq rest, Gen.bind_eq] at ended
  rw [inTransaction_eq rest]
  cases inside : x env s.begun with
  | error e u =>
    rw [inside] at ended
    cases ended
  | ok a u =>
    have returns : (pure answer : Gen Bool) env u = .ok answer u := rfl
    simp only [inside, returns] at ended ⊢
    cases closed : u.ledger.commit s.ledger.transactions.size with
    | error e =>
      rw [closed] at ended
      cases ended
    | ok l =>
      rw [closed] at ended
      obtain ⟨rfl, rfl⟩ := EStateM.Result.ok.inj ended
      exact ⟨rfl, rfl⟩

/-- A request that has found a name asks for something, and all that it asks for is durable. -/
theorem requestByName_asks (rest : s.AtRest) (pointed : holds (strip name) '.' = true)
    (single : env.index.hasNamespace (strip name) = false)
    (found : requestByName name env s = .ok true t) : env.asksFor (strip name) ≠ [] ∧
      ∀ a ∈ env.asksFor (strip name), ∃ e declarations, a = .ok e ∧
        t.ledger.committed.get? e.key = some declarations := by
  have named : inTransaction ((Links.upTo env.depth).name (strip name)) env s = .ok true t := by
    unfold requestByName validName at found
    split at found
    · change (if env.index.hasNamespace (strip name) then _ else _ : Gen Bool) env s = _ at found
      rwa [single, if_neg Bool.false_ne_true, requestName, Gen.bind_eq, sessionLinks_eq] at found
    · cases found
  rcases name_qualified env pointed with ⟨e, fails⟩ | asks
  · rw [inTransaction_eq rest, fails] at named
    cases named
  · rw [inTransaction_eq rest, asks, ← inTransaction_eq rest] at named
    obtain ⟨some, ended⟩ := transaction_returns rest named
    exact ⟨by simpa using some.symm, asked_durable rest ended⟩

/-! ## What has been found -/

/-- An entity has durable declarations. -/
def State.Durable (t : State) (e : Entity) : Prop :=
  ∃ declarations, t.ledger.committed.get? e.key = some declarations

/-- Once all that a name asks for is durable, each definition that it finds is. -/
theorem durable_of_found {d : Definition} (member : d ∈ env.index.lookup name)
    (asked : ∀ a ∈ env.asksFor name, ∃ e declarations, a = .ok e ∧
      t.ledger.committed.get? e.key = some declarations) : t.Durable (.ofDefinition d) := by
  obtain ⟨c, inside, _, alike⟩ := exactly_holds member
  rw [asksFor_of_found member] at asked
  obtain ⟨e, declarations, same, durable⟩ := asked _ (List.mem_map_of_mem inside)
  obtain ⟨chosen, among, rfl⟩ := mem_of_askedBy same
  exact ⟨declarations, alike chosen among ▸ durable⟩

/-- What a request for a qualified name has found: all definitions that are called by it or, if there are
    none, the template of the simple name. -/
inductive State.Finds (t : State) (definitions : List Definition) (templates : Catalog)
    (space name : String) : Prop
  | defined (called : calledBy space name definitions ≠ [])
      (held : ∀ d ∈ calledBy space name definitions, t.Durable (.ofDefinition d))
  | template {template : Template} (uncalled : calledBy space name definitions = [])
      (found : templates.get? name = some template) (own : template.name = name)
      (held : t.Durable (.template template))

/-- The entity is a definition or a template, with the namespace and the name. -/
def Entity.Called (definitions : List Definition) (templates : Catalog) (space name : String) (e : Entity) :
    Prop :=
  (∃ d ∈ definitions, d.space = space ∧ d.name = name ∧ e = .ofDefinition d) ∨
    ∃ template, templates.get? name = some template ∧ template.space = space ∧ template.name = name ∧
      e = .template template

/-- What is found is called by the namespace and the name, unless a definition has the whole name for its
    own or the template of the name is one of another namespace. -/
theorem State.Finds.called {definitions : List Definition} {templates : Catalog}
    (finds : t.Finds definitions templates space name)
    (unnamed : ∀ d ∈ definitions, d.name ≠ dotted space name)
    (inside : ∀ template, templates.get? name = some template → template.space = space) :
    ∃ e : Entity, e.Called definitions templates space name ∧ t.Durable e := by
  cases finds with
  | defined called held =>
    obtain ⟨d, member⟩ := List.exists_mem_of_ne_nil _ called
    have parts : d ∈ definedAs space name definitions := by
      rwa [calledBy, if_neg (by simpa using unnamed)] at member
    obtain ⟨named, there⟩ := List.mem_filter.mp parts
    obtain ⟨listed, same⟩ := List.mem_filter.mp named
    exact ⟨_, .inl ⟨d, listed, of_decide_eq_true there, of_decide_eq_true same, rfl⟩, held d member⟩
  | template uncalled found own held =>
    exact ⟨_, .inr ⟨_, found, inside _ found, own, rfl⟩, held⟩

/-- In each session on documents and a catalog of templates, and in each state between requests, a request
    for a qualified name that is no namespace tells that it has found something only if definitions are
    called by the name or else a template has the simple name, and these are durable then. If nothing else
    has the whole name for its own and the template is one of the namespace, then an entity is durable that
    has exactly the namespace and the name. -/
theorem requestByName_finds {roots : List Markup.Element} {templates : List Template}
    (built : Index.ofDocuments roots = .ok env.index) (catalog : env.templates = .ofTemplates templates)
    (rest : s.AtRest) {text : String} (qualified : strip text = dotted space name)
    (plain : '.' ∉ name.toList) (single : env.index.hasNamespace (strip text) = false)
    (returns : requestByName text env s = .ok true t) :
    ∃ definitions, readDocuments roots = .ok definitions ∧
      t.Finds definitions env.templates space name ∧
      ((∀ d ∈ definitions, d.name ≠ dotted space name) →
        (∀ template, env.templates.get? name = some template → template.space = space) →
        ∃ e : Entity, e.Called definitions env.templates space name ∧ t.Durable e) := by
  obtain ⟨definitions, read, lists⟩ := ofDocuments_lists built
  have consistent := ofDocuments_consistent built
  have pointed : holds (strip text) '.' = true := by simp [qualified, holds, dotted]
  obtain ⟨some, asked⟩ := requestByName_asks rest pointed single returns
  rw [qualified] at some asked
  have lookup : ∀ {d : Definition},
      d ∈ env.index.lookup (dotted space name) ↔ d ∈ calledBy space name definitions :=
    mem_lookup_dotted lists consistent plain
  have found : t.Finds definitions env.templates space name := by
    by_cases called : calledBy space name definitions = []
    · have missing : env.index.lookup (dotted space name) = [] :=
        List.eq_nil_iff_forall_not_mem.mpr fun d member => by simpa [called] using lookup.mp member
      have last : lastSegment (dotted space name) = name := congrArg Prod.snd (cutLast_dotted plain)
      rw [asksFor_of_missing missing, last] at some asked
      cases held : env.templates.get? name with
      | none => simp [held] at some
      | some template =>
        obtain ⟨e, declarations, same, durable⟩ := asked (.ok (.template template)) (by simp [held])
        obtain rfl := Except.ok.inj same
        exact .template called held (Catalog.name_of_get? (catalog ▸ held)) ⟨declarations, durable⟩
    · exact .defined called fun d member => durable_of_found (lookup.mpr member) asked
  exact ⟨definitions, read, found, found.called⟩

/-- A function, by a name with blanks around it. -/
theorem requestByName_finds_function :
    let env := Environment.reading [mixedDocument]
    Index.ofDocuments [mixedDocument] = .ok env.index ∧ env.templates = .standard ∧ State.AtRest {} ∧
      strip " Ns.Draw " = dotted "Ns" "Draw" ∧ '.' ∉ "Draw".toList ∧
      env.index.hasNamespace (strip " Ns.Draw ") = false ∧
      ∃ t definitions, requestByName " Ns.Draw " env {} = .ok true t ∧
        readDocuments [mixedDocument] = .ok definitions ∧
        t.Finds definitions env.templates "Ns" "Draw" ∧
        ((∀ d ∈ definitions, d.name ≠ dotted "Ns" "Draw") →
          (∀ template, env.templates.get? "Draw" = some template → template.space = "Ns") →
          ∃ e : Entity, e.Called definitions env.templates "Ns" "Draw" ∧ t.Durable e) := by
  intro env
  have built : Index.ofDocuments [mixedDocument] = .ok env.index := reading_built (by decide +kernel)
  have qualified : strip " Ns.Draw " = dotted "Ns" "Draw" := by decide +kernel
  have single : env.index.hasNamespace (strip " Ns.Draw ") = false := by decide +kernel
  have asked : Gen.gives env {} (requestByName " Ns.Draw ") id = true := by decide +kernel
  obtain ⟨found, t, returns, rfl⟩ := Gen.gives_ok asked
  obtain ⟨definitions, finds⟩ := requestByName_finds built rfl .empty qualified (by decide) single returns
  exact ⟨built, rfl, .empty, qualified, by decide, single, t, definitions, returns, finds⟩

/-- The keys that a request for a name has made durable once it tells that it has found something. -/
def Gen.keysFound? (env : Environment) (name : String) : Option (List EntityKey) :=
  match requestByName name env {} with
  | .ok true t => some t.ledger.committed.keys
  | _ => none

theorem Gen.keysFound?_eq_some {keys : List EntityKey} (found : Gen.keysFound? env name = some keys) :
    ∃ t, requestByName name env {} = .ok true t ∧ t.ledger.committed.keys = keys := by
  unfold Gen.keysFound? at found
  split at found
  · next returns => exact ⟨_, returns, Option.some.inj found⟩
  · cases found

/-- A name in a namespace that has nothing of the name, which finds the template of another namespace. -/
theorem template_elsewhere :
    let env := Environment.reading [mixedDocument]
    Index.ofDocuments [mixedDocument] = .ok env.index ∧ State.AtRest {} ∧
      env.index.hasNamespace "Ns.PCWSTR" = false ∧
      (∃ definitions, readDocuments [mixedDocument] = .ok definitions ∧
        ∀ e : Entity, ¬ e.Called definitions env.templates "Ns" "PCWSTR") ∧
      ∃ t, requestByName "Ns.PCWSTR" env {} = .ok true t ∧
        t.ledger.committed.keys = [⟨.special, ⟨"Windows.Win32.Foundation", "PCWSTR"⟩, false⟩] := by
  intro env
  have built : Index.ofDocuments [mixedDocument] = .ok env.index := reading_built (by decide +kernel)
  obtain ⟨definitions, read, lists⟩ := ofDocuments_lists built
  have single : env.index.hasNamespace "Ns.PCWSTR" = false := by decide +kernel
  have keys : Gen.keysFound? env "Ns.PCWSTR" =
      some [⟨.special, ⟨"Windows.Win32.Foundation", "PCWSTR"⟩, false⟩] := by decide +kernel
  refine ⟨built, .empty, single, ⟨definitions, read, ?_⟩, Gen.keysFound?_eq_some keys⟩
  rintro e (⟨d, member, -, named, -⟩ | ⟨template, held, space, -⟩)
  · have none : env.index.ofName "PCWSTR" = [] := by decide +kernel
    have listed : d ∈ env.index.ofName "PCWSTR" := by
      rw [lists.named]
      exact List.mem_filter.mpr ⟨member, by simp [named]⟩
    rw [none] at listed
    cases listed
  · have elsewhere : (env.templates.get? "PCWSTR").map (·.space) = some "Windows.Win32.Foundation" := by
      decide +kernel
    rw [held, Option.map_some, space] at elsewhere
    exact absurd (Option.some.inj elsewhere) (by decide)

end Bindings
