import Bindings.Proofs.Metadata.Selection
import Bindings.Proofs.Native.RoundTrip

/-!
# The index describes the documents

The reference is one list: the definitions of all documents in the order in which they are read. Each
table of the index is that list, sifted, so each look-up finds exactly the definitions that it asks for.
-/

namespace Bindings.Metadata
open Bindings.Markup Bindings.Text

/-! ## What the documents hold -/

/-- The definitions of a namespace element. -/
def readNamespace (e : Element) : Except Fault (List Definition) := do
  let space ← required e "name"
  e.children.mapM (Definition.read space)

/-- The definitions of a document. -/
def readDocument (root : Element) : Except Fault (List Definition) := do
  return (← (root.childrenTagged "namespace").mapM readNamespace).flatten

/-- The definitions of several documents. -/
def readDocuments (roots : List Element) : Except Fault (List Definition) := do
  return (← roots.mapM readDocument).flatten

theorem required_some {e : Element} {name value : String} (read : required e name = .ok value) :
    value ≠ "" := by
  unfold required at read
  split at read
  · split at read
    · cases read
    · next some => exact Except.ok.inj read ▸ some
  · cases read

theorem Definition.read_space {space : String} {e : Element} {d : Definition}
    (read : Definition.read space e = .ok d) : d.space = space := by
  unfold Definition.read at read
  split at read
  · obtain ⟨f, readFunction, read⟩ := bind_eq_ok read
    obtain rfl := Except.ok.inj read
    unfold Function.read at readFunction
    obtain ⟨_, _, readFunction⟩ := bind_eq_ok readFunction
    obtain ⟨_, _, readFunction⟩ := bind_eq_ok readFunction
    obtain ⟨_, _, readFunction⟩ := bind_eq_ok readFunction
    obtain ⟨_, _, readFunction⟩ := bind_eq_ok readFunction
    obtain rfl := Except.ok.inj readFunction
    rfl
  · split at read
    · obtain ⟨t, readType, read⟩ := bind_eq_ok read
      obtain rfl := Except.ok.inj read
      unfold TypeDefinition.read at readType
      obtain ⟨_, _, readType⟩ := bind_eq_ok readType
      obtain ⟨_, _, readType⟩ := bind_eq_ok readType
      obtain rfl := Except.ok.inj readType
      rfl
    · split at read
      · obtain ⟨c, readConstant, read⟩ := bind_eq_ok read
        obtain rfl := Except.ok.inj read
        unfold Constant.read at readConstant
        obtain ⟨_, _, readConstant⟩ := bind_eq_ok readConstant
        obtain ⟨_, _, readConstant⟩ := bind_eq_ok readConstant
        obtain ⟨_, _, readConstant⟩ := bind_eq_ok readConstant
        obtain rfl := Except.ok.inj readConstant
        rfl
      · cases read

/-! ## From the documents to the index -/

namespace Index
section
variable {R : Index → List Definition → Prop} {index next : Index} {definitions : List Definition}

/-- A fold that keeps a relation to what has been read so far, element by element, relates its end to what
    is read of all elements. -/
theorem foldlM_reads {α β : Type} {step : Index → α → Except Fault Index} {reads : α → Except Fault β}
    (parts : β → List Definition)
    (one : ∀ index definitions a next, R index definitions → step index a = .ok next →
      ∃ b, reads a = .ok b ∧ R next (definitions ++ parts b))
    (xs : List α) (start : R index definitions) (ends : xs.foldlM step index = .ok next) :
    ∃ more, xs.mapM reads = .ok more ∧ R next (definitions ++ more.flatMap parts) := by
  induction xs generalizing index definitions with
  | nil =>
    rw [List.foldlM_nil] at ends
    obtain rfl := Except.ok.inj ends
    exact ⟨[], rfl, by simpa using start⟩
  | cons a xs ih =>
    rw [List.foldlM_cons] at ends
    obtain ⟨after, stepped, ends⟩ := bind_eq_ok ends
    obtain ⟨b, readOne, reached⟩ := one index definitions a after start stepped
    obtain ⟨more, readRest, reached⟩ := ih reached ends
    refine ⟨b :: more, ?_, ?_⟩
    · rw [List.mapM_cons, readOne, readRest]
      rfl
    · rwa [List.flatMap_cons, ← List.append_assoc]

variable (addNamespace : ∀ {index definitions} space, R index definitions →
    R (index.addNamespace space) definitions)
  (add : ∀ {index definitions d}, R index definitions → d.space ≠ "" →
    R (index.add d) (definitions ++ [d]))
include addNamespace add

theorem addNamespaceElement_reads {e : Element} (start : R index definitions)
    (added : index.addNamespaceElement e = .ok next) :
    ∃ more, readNamespace e = .ok more ∧ R next (definitions ++ more) := by
  unfold Index.addNamespaceElement at added
  obtain ⟨space, named, added⟩ := bind_eq_ok added
  have one : ∀ (index : Index) definitions child next, R index definitions →
      (return index.add (← Definition.read space child)) = Except.ok next →
      ∃ d, Definition.read space child = .ok d ∧ R next (definitions ++ [d]) := by
    intro index definitions child next start stepped
    obtain ⟨d, read, stepped⟩ := bind_eq_ok stepped
    obtain rfl := Except.ok.inj stepped
    exact ⟨d, read, add start (Definition.read_space read ▸ required_some named)⟩
  obtain ⟨more, read, reached⟩ :=
    foldlM_reads (fun d => [d]) one e.children (addNamespace space start) added
  refine ⟨more, ?_, by simpa using reached⟩
  rw [readNamespace, named]
  exact read

theorem addDocument_reads {root : Element} (start : R index definitions)
    (added : index.addDocument root = .ok next) :
    ∃ more, readDocument root = .ok more ∧ R next (definitions ++ more) := by
  unfold Index.addDocument at added
  split at added
  · obtain ⟨more, read, reached⟩ := foldlM_reads id
      (fun _ _ _ _ start added => addNamespaceElement_reads addNamespace add start added) _ start added
    refine ⟨more.flatten, ?_, by simpa using reached⟩
    rw [readDocument, read]
    rfl
  · cases added

/-- The index of documents is related to their definitions, if the empty index is related to none and the
    relation is kept by one more definition. -/
theorem ofDocuments_reads (empty : R {} []) {roots : List Element} (built : ofDocuments roots = .ok index) :
    ∃ definitions, readDocuments roots = .ok definitions ∧ R index definitions := by
  obtain ⟨more, read, reached⟩ := foldlM_reads id
    (fun _ _ _ _ start added => addDocument_reads addNamespace add start added) roots empty built
  refine ⟨more.flatten, ?_, by simpa using reached⟩
  rw [readDocuments, read]
  rfl

end
end Index

/-! ## The tables -/

/-- The definitions of a name that belong to a namespace. -/
def definedAs (space name : String) (definitions : List Definition) : List Definition :=
  within space (definitions.filter (·.name = name))

/-- The functions of definitions, in their order. -/
def functionsAmong (definitions : List Definition) : List Function := definitions.filterMap (·.function?)

/-- The types of definitions, in their order. -/
def typesAmong (definitions : List Definition) : List TypeDefinition := definitions.filterMap (·.type?)

/-- The constants of definitions, in their order. -/
def constantsAmong (definitions : List Definition) : List Constant :=
  definitions.filterMap (·.constant?)

theorem functionsAmong_append (early late : List Definition) :
    functionsAmong (early ++ late) = functionsAmong early ++ functionsAmong late :=
  List.filterMap_append

theorem typesAmong_cons (d : Definition) (rest : List Definition) :
    typesAmong (d :: rest) = d.type?.toList ++ typesAmong rest := by
  cases d <;> rfl

/-- A condition on definitions sifts their types if it is a condition on types. -/
theorem typesAmong_filter {definitions : List Definition} {kept : Definition → Bool}
    {keptType : TypeDefinition → Bool}
    (agree : ∀ t, .type t ∈ definitions → kept (.type t) = keptType t) :
    typesAmong (definitions.filter kept) = (typesAmong definitions).filter keptType := by
  induction definitions with
  | nil => rfl
  | cons d rest ih =>
    have later := ih fun t member => agree t (List.mem_cons_of_mem d member)
    rw [typesAmong_cons, List.filter_append, ← later, List.filter_cons]
    cases d with
    | type t =>
      rw [agree t (by simp)]
      by_cases keeps : keptType t <;> simp [keeps, typesAmong_cons, Definition.type?]
    | function f => split <;> simp [typesAmong_cons, Definition.type?]
    | constant c => split <;> simp [typesAmong_cons, Definition.type?]

theorem constantsAmong_append (early late : List Definition) :
    constantsAmong (early ++ late) = constantsAmong early ++ constantsAmong late :=
  List.filterMap_append

namespace Index

variable {index : Index} {definitions : List Definition}

/-- Each table of an index holds what one list of definitions has for it. -/
structure Lists (index : Index) (definitions : List Definition) : Prop where
  named : ∀ name, index.ofName name = definitions.filter (·.name = name)
  present : ∀ name, index.byName.get? name ≠ some []
  modules : ∀ module, index.functionsInModule module =
    (functionsAmong definitions).filter (moduleName ·.module = moduleName module)
  constants : ∀ start, (index.constantsWithPrefix start).Perm
    ((constantsAmong definitions).filter (begins start ·.name))
  restrictedOnce : index.restricted.Nodup
  restricted : ∀ full, full ∈ index.restricted ↔
    ∃ d ∈ definitions, d.architectures ≠ [] ∧ d.full = full
  spaces : ∀ d ∈ definitions, d.space ≠ ""

theorem Lists.empty : Index.Lists {} [] where
  named _ := rfl
  present _ held := by cases held
  modules _ := rfl
  constants _ := .refl _
  restrictedOnce := List.nodup_nil
  restricted _ := by simp
  spaces _ member := by cases member

/-- What a prefix finds in an entry of a table of constants. -/
def foundBy (start : String) (entry : String × List Constant) : List Constant :=
  if begins start entry.1 then entry.2 else []

theorem filter_flatMap_found (start : String) (entries : List (String × List Constant)) :
    ((entries.filter fun (name, _) => begins start name).flatMap (·.2)) =
      entries.flatMap (foundBy start) := by
  induction entries with
  | nil => rfl
  | cons entry entries ih =>
    by_cases found : begins start entry.1
    · simp [found, foundBy, ih]
    · simp [found, foundBy, ih]

theorem constantsWithPrefix_eq (index : Index) (start : String) :
    index.constantsWithPrefix start =
      index.namespaces.entries.flatMap fun entry => entry.2.constants.entries.flatMap (foundBy start) := by
  simp only [constantsWithPrefix, Table.values, List.flatMap_map, filter_flatMap_found]

/-- One more constant among the members of a namespace is found behind the others. -/
theorem Members.add_found (m : Members) (d : Definition) (start : String) :
    ((m.add d).constants.entries.flatMap (foundBy start)).Perm
      (m.constants.entries.flatMap (foundBy start) ++
        (constantsAmong [d]).filter (begins start ·.name)) := by
  cases d with
  | function f => simp [Members.add, constantsAmong, Definition.constant?]
  | type t => simp [Members.add, constantsAmong, Definition.constant?]
  | constant c =>
    have listed : (constantsAmong [.constant c]).filter (begins start ·.name) =
        if begins start c.name then [c] else [] := by
      by_cases found : begins start c.name <;> simp [constantsAmong, Definition.constant?, found]
    rw [listed]
    refine Table.flatMap_putIn c.name _ m.constants.entries ?_
    rw [← Table.get?]
    by_cases found : begins start c.name
    · cases m.constants.get? c.name <;> simp [foundBy, found]
    · cases m.constants.get? c.name <;> simp [foundBy, found]

theorem Lists.addNamespace (lists : Lists index definitions) (space : String) :
    Lists (index.addNamespace space) definitions where
  named := lists.named
  present := lists.present
  modules := lists.modules
  constants start := by
    have same : (index.addNamespace space).constantsWithPrefix start = index.constantsWithPrefix start := by
      rw [constantsWithPrefix_eq, constantsWithPrefix_eq, Index.addNamespace, Table.entries_putNew]
      split <;> simp
    rw [same]
    exact lists.constants start
  restrictedOnce := lists.restrictedOnce
  restricted := lists.restricted
  spaces := lists.spaces

theorem restricted_add (index : Index) (d : Definition) :
    (index.add d).restricted = if d.architectures.isEmpty || index.restricted.contains d.full
      then index.restricted else index.restricted ++ [d.full] := rfl

theorem Lists.add (lists : Lists index definitions) {d : Definition} (some : d.space ≠ "") :
    Lists (index.add d) (definitions ++ [d]) where
  named name := by
    rw [ofName_add, lists.named, List.filter_append]
    by_cases same : d.name = name <;> simp [same]
  present name held := by
    have written : (index.byName.push d.name d).get? name = Option.some [] := held
    rw [Table.push, Table.get?_put] at written
    split at written
    · simp at written
    · exact lists.present name written
  modules module := by
    have before := lists.modules module
    unfold functionsInModule at before ⊢
    rw [functionsAmong_append, List.filter_append, ← before]
    cases d with
    | function f =>
      rw [Index.add, Table.getD_push]
      by_cases same : moduleName f.module = moduleName module <;>
        simp [same, functionsAmong, Definition.function?]
    | type t => simp [Index.add, functionsAmong, Definition.function?]
    | constant c => simp [Index.add, functionsAmong, Definition.function?]
  constants start := by
    rw [constantsAmong_append, List.filter_append, constantsWithPrefix_eq]
    refine .trans ?_ ((lists.constants start).append_right _)
    rw [constantsWithPrefix_eq]
    refine Table.flatMap_putIn d.space _ index.namespaces.entries ?_
    have grows := Members.add_found ((index.namespaces.get? d.space).getD {}) d start
    rw [← Table.get?]
    cases there : index.namespaces.get? d.space with
    | none =>
      rw [there] at grows
      simpa using grows
    | some members =>
      rw [there] at grows
      exact grows
  restrictedOnce := by
    have once := lists.restrictedOnce
    rw [restricted_add]
    split
    · exact once
    · next fresh =>
      rw [Bool.or_eq_true, not_or, List.contains_iff_mem] at fresh
      rw [List.nodup_append]
      refine ⟨once, by simp, fun full old other new same => fresh.2 ?_⟩
      rwa [← List.mem_singleton.mp new, ← same]
  restricted full := by
    rw [restricted_add]
    have before := lists.restricted full
    have more : (∃ other ∈ definitions ++ [d], other.architectures ≠ [] ∧ other.full = full) ↔
        full ∈ index.restricted ∨ d.architectures ≠ [] ∧ d.full = full := by
      simp [or_and_right, exists_or, before]
    rw [more]
    by_cases any : d.architectures = []
    · simp [any]
    · by_cases held : d.full ∈ index.restricted
      · rw [if_pos (by simp [held])]
        exact ⟨.inl, fun either => either.elim id fun new => new.2 ▸ held⟩
      · rw [if_neg (by simp [held, any])]
        simp [any, eq_comm]
  spaces other member := by
    rcases List.mem_append.mp member with old | new
    · exact lists.spaces other old
    · rwa [List.mem_singleton.mp new]

theorem ofDocuments_lists {roots : List Element} (built : ofDocuments roots = .ok index) :
    ∃ definitions, readDocuments roots = .ok definitions ∧ Lists index definitions :=
  ofDocuments_reads (fun space lists => lists.addNamespace space) (fun lists some => lists.add some) .empty
    built

/-! ## Look-ups -/

/-- A namespace and a name behind it are told apart at the last point. -/
theorem cutLast_dotted {space name : String} (plain : '.' ∉ name.toList) :
    cutLast '.' (dotted space name) = (space, name) := by
  have row : (dotted space name).toList = space.toList ++ '.' :: name.toList := by simp [dotted]
  simp [cutLast, row, Signature.cutLast?_append _ plain]

/-- A name without a point is no full name. -/
theorem cutLast_plain {name : String} (plain : '.' ∉ name.toList) : cutLast '.' name = ("", name) := by
  simp [cutLast, Signature.cutLast?_of_not_mem plain]

/-- A name that is cut behind some namespace is a full name. -/
theorem eq_dotted_of_cutLast {full space name : String} (cut : cutLast '.' full = (space, name))
    (some : space ≠ "") : full = dotted space name := by
  unfold cutLast at cut
  rcases Signature.cutLast?_eq '.' full.toList with ⟨-, uncut⟩ | ⟨before, after, whole, -, found⟩
  · rw [uncut] at cut
    exact absurd (congrArg Prod.fst cut).symm some
  · rw [found] at cut
    obtain ⟨rfl, rfl⟩ := Prod.mk.inj cut
    exact String.toList_inj.mp (by simp [dotted, whole])

/-- A function that is found by a name has it as its simple name or as its full name. -/
theorem Consistent.findFunctions_named (consistent : index.Consistent) {name : String} {f : Function}
    (member : f ∈ index.findFunctions name) : f.name = name ∨ f.full = name := by
  obtain ⟨_, found, same⟩ := List.mem_filterMap.mp member
  obtain rfl := Definition.function?_eq_some_iff.mp same
  exact (consistent.lookup_cases found).2.imp_right fun ⟨nonempty, cut⟩ =>
    (eq_dotted_of_cutLast cut nonempty).symm

theorem dotted_inj {space other name same : String} (plain : '.' ∉ name.toList)
    (plainSame : '.' ∉ same.toList)
    (full : dotted space name = dotted other same) : space = other ∧ name = same := by
  have cut : cutLast '.' (dotted space name) = (space, name) := cutLast_dotted plain
  rw [full, cutLast_dotted plainSame] at cut
  exact ⟨(congrArg Prod.fst cut).symm, (congrArg Prod.snd cut).symm⟩

/-- Every look-up finds what it asks for among the definitions of the documents. -/
structure Describes (index : Index) (definitions : List Definition) : Prop where
  simple : ∀ name, '.' ∉ name.toList → index.lookup name = definitions.filter (·.name = name)
  qualified : ∀ space name, '.' ∉ name.toList → index.lookup (dotted space name) =
    (functionsAmong (definedAs space name definitions)).map .function
      ++ (typesAmong (definedAs space name definitions)).map .type
      ++ (constantsAmong (definedAs space name definitions)).map .constant
  modules : ∀ module, index.functionsInModule module =
    (functionsAmong definitions).filter (moduleName ·.module = moduleName module)
  constants : ∀ start, (index.constantsWithPrefix start).Perm
    ((constantsAmong definitions).filter (begins start ·.name))
  restrictedOnce : index.restricted.Nodup
  restricted : ∀ full, full ∈ index.restricted ↔
    ∃ d ∈ definitions, d.architectures ≠ [] ∧ d.full = full
  resolves : ∀ reference : QualifiedName, '.' ∉ reference.name.toList → index.resolve reference = [] ∨
    ∃ t ∈ typesAmong definitions,
      index.resolve reference = (typesAmong definitions).filter (·.full = t.full)
  prefers : ∀ reference : QualifiedName, '.' ∉ reference.name.toList →
    (∃ t ∈ typesAmong definitions, t.full = reference.full) →
      index.resolve reference = (typesAmong definitions).filter (·.full = reference.full)

theorem Lists.lookup_simple (lists : Lists index definitions) {name : String} (plain : '.' ∉ name.toList) :
    index.lookup name = definitions.filter (·.name = name) := by
  rw [← lists.named, Index.lookup, ofName, cutLast_plain plain]
  cases index.byName.get? name <;> rfl

theorem Lists.lookup_qualified (lists : Lists index definitions) (consistent : index.Consistent)
    {space name : String} (unnamed : ∀ d ∈ definitions, d.name ≠ dotted space name)
    (plain : '.' ∉ name.toList) : index.lookup (dotted space name) =
      (functionsAmong (definedAs space name definitions)).map .function
        ++ (typesAmong (definedAs space name definitions)).map .type
        ++ (constantsAmong (definedAs space name definitions)).map .constant := by
  -- it is no simple name, so the full name is looked up among the members of the namespace
  have unknown : index.byName.get? (dotted space name) = none := by
    cases found : index.byName.get? (dotted space name) with
    | none => rfl
    | some held =>
      have same : held = index.ofName (dotted space name) := by rw [ofName, found]; rfl
      rw [lists.named] at same
      cases held with
      | nil => exact absurd found (lists.present _)
      | cons d rest =>
        have member : d ∈ definitions.filter (·.name = dotted space name) := by simp [← same]
        obtain ⟨inside, named⟩ := List.mem_filter.mp member
        exact absurd (of_decide_eq_true named) (unnamed d inside)
  have members : definedAs space name definitions = within space (index.ofName name) := by
    rw [lists.named, definedAs]
  have whole : index.lookup (dotted space name) =
      if space = "" then [] else (index.membersIn space).named name := by
    simp only [Index.lookup, unknown, cutLast_dotted plain, membersIn]
    cases index.namespaces.get? space <;> rfl
  rw [whole, members, functionsAmong, typesAmong, constantsAmong, ← consistent.functions,
    ← consistent.types, ← consistent.constants]
  split
  · next empty =>
    have nothing : definedAs space name definitions = [] := by
      refine List.filter_eq_nil_iff.mpr fun d member => ?_
      have some := lists.spaces d ((List.mem_filter.mp member).1)
      simpa [empty] using some
    rw [consistent.functions, consistent.types, consistent.constants, ← members, nothing]
    rfl
  · rfl

/-- The types of a name in a namespace are those of one full name. -/
theorem Lists.typesOf_eq (lists : Lists index definitions) (consistent : index.Consistent)
    (undotted : ∀ d ∈ definitions, '.' ∉ d.name.toList) {t : TypeDefinition}
    (member : .type t ∈ definitions) :
    (index.membersIn t.space).typesOf t.name = (typesAmong definitions).filter (·.full = t.full) := by
  rw [consistent.types, lists.named, within, List.filter_filter]
  refine typesAmong_filter fun u inside => ?_
  have same : u.full = t.full ↔ u.space = t.space ∧ u.name = t.name := by
    constructor
    · exact dotted_inj (undotted _ inside) (undotted _ member)
    · rintro ⟨space, name⟩
      rw [TypeDefinition.full, space, name, TypeDefinition.full]
  rw [Bool.eq_iff_iff, Bool.and_eq_true, decide_eq_true_iff, decide_eq_true_iff, decide_eq_true_iff, same]
  exact Iff.rfl

/-- A reference with no point in its name that has the full name of a type has its parts. -/
theorem parts_eq (undotted : ∀ d ∈ definitions, '.' ∉ d.name.toList) {t : TypeDefinition}
    (member : .type t ∈ definitions)
    {reference : QualifiedName} (plain : '.' ∉ reference.name.toList) (full : t.full = reference.full) :
    t.space = reference.space ∧ t.name = reference.name := by
  unfold QualifiedName.full at full
  split at full
  · have dot : '.' ∈ t.full.toList := by simp [TypeDefinition.full, dotted]
    exact absurd (full ▸ dot) plain
  · exact dotted_inj (undotted _ member) plain full

/-- A reference means the types of its own namespace and name if there are some. -/
theorem resolve_own {reference : QualifiedName} {t : TypeDefinition}
    (member : t ∈ (index.membersIn reference.space).typesOf reference.name) :
    index.resolve reference = (index.membersIn reference.space).typesOf reference.name := by
  unfold Index.resolve
  cases found : (index.namespaces.get? reference.space).bind (·.types.get? reference.name) with
  | some variants =>
    obtain ⟨members, there, held⟩ := Option.bind_eq_some_iff.mp found
    simp [membersIn, Members.typesOf, there, held]
  | none =>
    -- no entry for the name leaves no type in its namespace
    have missing : (index.membersIn reference.space).typesOf reference.name = [] := by
      cases there : index.namespaces.get? reference.space with
      | none => simp [membersIn, Members.typesOf, there]
      | some members =>
        rw [there, Option.bind_some] at found
        simp [membersIn, Members.typesOf, there, found]
    rw [missing] at member
    cases member

theorem Lists.resolve_full (lists : Lists index definitions) (consistent : index.Consistent)
    (undotted : ∀ d ∈ definitions, '.' ∉ d.name.toList) {t : TypeDefinition} (member : .type t ∈ definitions)
    {reference : QualifiedName} (plain : '.' ∉ reference.name.toList) (full : t.full = reference.full) :
    index.resolve reference = (typesAmong definitions).filter (·.full = reference.full) := by
  obtain ⟨space, name⟩ := parts_eq undotted member plain full
  have own := lists.typesOf_eq consistent undotted member
  have held : t ∈ (index.membersIn reference.space).typesOf reference.name := by
    rw [← space, ← name, own]
    exact List.mem_filter.mpr ⟨List.mem_filterMap.mpr ⟨_, member, rfl⟩, by simp⟩
  rw [resolve_own held, ← space, ← name, own, full]

theorem Lists.resolve_variants (lists : Lists index definitions) (consistent : index.Consistent)
    (undotted : ∀ d ∈ definitions, '.' ∉ d.name.toList) (reference : QualifiedName) :
    index.resolve reference = [] ∨ ∃ t ∈ typesAmong definitions,
      index.resolve reference = (typesAmong definitions).filter (·.full = t.full) := by
  cases found : index.resolve reference with
  | nil => exact .inl rfl
  | cons t rest =>
    have member : t ∈ index.resolve reference := by simp [found]
    have variants := consistent.resolve member
    rw [variants] at member
    have held := (consistent.mem_typesOf_iff.mp member).1
    rw [lists.named] at held
    have inside := (List.mem_filter.mp held).1
    refine .inr ⟨t, List.mem_filterMap.mpr ⟨_, inside, rfl⟩, ?_⟩
    rw [← found, variants, lists.typesOf_eq consistent undotted inside]

theorem ofDocuments_describes {roots : List Element} (built : ofDocuments roots = .ok index) :
    ∃ definitions, readDocuments roots = .ok definitions ∧
      ((∀ d ∈ definitions, '.' ∉ d.name.toList) → index.Describes definitions) := by
  obtain ⟨definitions, read, lists⟩ := ofDocuments_lists built
  have consistent := ofDocuments_consistent built
  refine ⟨definitions, read, fun undotted => ?_⟩
  exact {
    simple := fun name plain => lists.lookup_simple plain
    qualified := fun space name plain => lists.lookup_qualified consistent (fun d member same => by
      have dot : '.' ∈ (dotted space name).toList := by simp [dotted]
      exact undotted d member (same ▸ dot)) plain
    modules := lists.modules
    constants := lists.constants
    restrictedOnce := lists.restrictedOnce
    restricted := lists.restricted
    resolves := fun reference _ => lists.resolve_variants consistent undotted reference
    prefers := fun reference plain there => by
      obtain ⟨t, member, full⟩ := there
      obtain ⟨_, inside, same⟩ := List.mem_filterMap.mp member
      obtain rfl := Definition.type?_eq_some_iff.mp same
      exact lists.resolve_full consistent undotted inside plain full }

/-- Two documents with the same namespaces, where a function, a type and a constant share a name. -/
def interleaved : List Element :=
  let function (module : String) : Element :=
    ⟨"function", [("name", "Go"), ("module", module), ("arch", "x64")], "", []⟩
  let struct : Element := ⟨"struct", [("name", "Go")], "", []⟩
  let constant : Element := ⟨"constant", [("name", "Go"), ("type", "i4")], "", []⟩
  [⟨"metadata", [], "", [⟨"namespace", [("name", "Ns")], "", [constant, function "a.dll", struct]⟩,
      ⟨"namespace", [("name", "Ns.Inner")], "", [struct]⟩]⟩,
    ⟨"metadata", [], "", [⟨"namespace", [("name", "Ns.Inner")], "", [function "A", constant]⟩,
      ⟨"namespace", [("name", "Ns")], "", [function "A"]⟩]⟩]

theorem ofDocuments_describes_interleaved : ∃ index definitions,
    ofDocuments interleaved = .ok index ∧ readDocuments interleaved = .ok definitions ∧
      definitions.length = 7 ∧ (∀ d ∈ definitions, '.' ∉ d.name.toList) ∧
      index.Describes definitions := by
  have accepted : (ofDocuments interleaved).toOption.isSome = true := by decide +kernel
  have plain : (readDocuments interleaved).toOption.any (fun definitions => definitions.length = 7 ∧
      ∀ d ∈ definitions, '.' ∉ d.name.toList) = true := by decide +kernel
  cases built : ofDocuments interleaved with
  | error fault => simp [built, Except.toOption] at accepted
  | ok index =>
    obtain ⟨definitions, read, describes⟩ := ofDocuments_describes built
    rw [read] at plain
    obtain ⟨seven, undotted⟩ := of_decide_eq_true plain
    exact ⟨index, definitions, rfl, read, seven, undotted, describes undotted⟩

end Index

/-! ## Release functions -/

/-- The release function that definitions declare for a full name: that of the last type of the name that
    declares one. -/
def lastRelease? (full : String) (definitions : List Definition) : Option String :=
  (((typesAmong definitions).filter (·.full = full)).filterMap (·.release?)).getLast?

theorem lastRelease?_append (full : String) (early late : List Definition) :
    lastRelease? full (early ++ late) = (lastRelease? full late).or (lastRelease? full early) := by
  simp [lastRelease?, typesAmong]

theorem lastRelease?_type (full : String) (t : TypeDefinition) :
    lastRelease? full [.type t] = if t.full = full then t.release? else none := by
  by_cases same : t.full = full
  · cases release : t.release? <;> simp [lastRelease?, typesAmong, Definition.type?, same, release]
  · simp [lastRelease?, typesAmong, Definition.type?, same]

/-- The release function of a full name is declared by one of its variants. -/
theorem mem_of_lastRelease? {full release : String} {definitions : List Definition}
    (last : lastRelease? full definitions = some release) :
    ∃ t, .type t ∈ definitions ∧ t.full = full ∧ t.release? = some release := by
  obtain ⟨t, member, declares⟩ := List.mem_filterMap.mp (List.mem_of_getLast? last)
  obtain ⟨listed, named⟩ := List.mem_filter.mp member
  obtain ⟨d, inside, same⟩ := List.mem_filterMap.mp listed
  exact ⟨t, Definition.type?_eq_some_iff.mp same ▸ inside, of_decide_eq_true named, declares⟩

/-- The variants of a type that declare a release function declare the one that the type declares. -/
def TypeDefinition.ReleasesAlike (t : TypeDefinition) (definitions : List Definition) : Prop :=
  ∀ u, .type u ∈ definitions → u.full = t.full → u.release? = none ∨ u.release? = t.release?

/-- Where the variants of a name release alike, what one of them declares is declared last. -/
theorem TypeDefinition.ReleasesAlike.last {definitions : List Definition} {t : TypeDefinition}
    (alike : t.ReleasesAlike definitions) (member : .type t ∈ definitions) :
    lastRelease? t.full definitions = t.release? := by
  cases last : lastRelease? t.full definitions with
  | some release =>
    obtain ⟨u, inside, named, declares⟩ := mem_of_lastRelease? last
    exact declares.symm.trans ((alike u inside named).resolve_left (by simp [declares]))
  | none =>
    have listed : t ∈ (typesAmong definitions).filter (·.full = t.full) :=
      List.mem_filter.mpr ⟨List.mem_filterMap.mpr ⟨_, member, rfl⟩, by simp⟩
    exact (List.filterMap_eq_nil_iff.mp (List.getLast?_eq_none_iff.mp last) t listed).symm

theorem Index.releaseFor?_add (index : Index) (d : Definition) (full : String) :
    (index.add d).releaseFor? full = (lastRelease? full [d]).or (index.releaseFor? full) := by
  cases d with
  | type t =>
    rw [lastRelease?_type]
    cases release : t.release? with
    | none => simp [releaseFor?, add, release]
    | some r =>
      have written : (index.add (.type t)).releases = index.releases.put t.full r := by
        simp [add, release]
      rw [releaseFor?, written, Table.get?_put]
      split <;> rfl
  | function f => rfl
  | constant c => rfl

/-- The index has for a full name the release function that the documents declare last. -/
theorem Index.ofDocuments_releases {roots : List Element} {index : Index}
    (built : ofDocuments roots = .ok index) : ∃ definitions, readDocuments roots = .ok definitions ∧
      ∀ full, index.releaseFor? full = lastRelease? full definitions :=
  ofDocuments_reads (R := fun index definitions => ∀ full, index.releaseFor? full = lastRelease? full definitions)
    (fun _ reached => reached)
    (fun reached _ full => by rw [releaseFor?_add, lastRelease?_append, reached])
    (fun _ => rfl) built

end Bindings.Metadata
