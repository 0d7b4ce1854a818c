import Mathlib.Data.List.Nodup
import Bindings.Proofs.Request.Helpers
import Bindings.Proofs.Request.Source

/-!
# Names of defined types

Which types a durable record defines, and where their names come from: from the metadata, from the
catalog of templates, or from the generator, which makes names for unmanaged variants, handles and
inline arrays. No two types of one origin have the same name.
-/

namespace Bindings
open Bindings.Metadata Bindings.Text

variable {env : Environment} {D : Discipline env} {s t : State}

/-! ## Types and origins -/

/-- Whether a declaration defines a type. -/
def Declaration.definesType : Declaration → Bool
  | .entryPoint _ | .overload _ | .constant _ => false
  | .template t => t.kind = .special
  | .struct _ | .enum _ | .delegate _ | .interface _ | .vtable _ | .inlineArray _ | .guardedHandle .. => true

/-- Where the name of a declaration comes from. -/
inductive NameOrigin
  | metadata
  | catalog
  | generated
  deriving DecidableEq, Repr

/-- Where the names of the declarations of an entity come from. -/
def EntityKey.origin (key : EntityKey) : NameOrigin :=
  match key.kind with
  | .special | .inlineFunction => .catalog
  | .guardedHandle | .inlineArray => .generated
  | _ => if key.unmanaged then .generated else .metadata

/-- The names of the types that a durable record defines. -/
def Ledger.definedTypes (l : Ledger) : List QualifiedName :=
  (l.declarations.filter (·.definesType)).map (·.declares)

/-- The names of the types that a durable record defines, with their origins. -/
def Ledger.typeNames (l : Ledger) : List (NameOrigin × QualifiedName) :=
  l.committed.entries.flatMap fun c => (c.2.filter (·.definesType)).map fun d => (c.1.origin, d.declares)

theorem typeNames_names (l : Ledger) : l.typeNames.map (·.2) = l.definedTypes := by
  rw [Ledger.typeNames, Ledger.definedTypes, Ledger.declarations, Table.values, List.filter_flatten,
    List.map_flatten, List.map_flatMap, List.flatMap_def, List.map_map, List.map_map]
  simp [Function.comp_def]

/-! ## The durable record has no key twice -/

/-- A request keeps the durable keys distinct. -/
theorem after_distinct (rest : s.AtRest) (r : PublicRequest)
    (distinct : s.ledger.committedKeys.Nodup) : (r.after env s).ledger.committedKeys.Nodup := by
  unfold PublicRequest.after
  rw [run_eq rest, PublicRequest.runOn, Gen.read_bind]
  cases asked : r.work env with
  | error e => exact distinct
  | ok work =>
    have safe : (Discipline.any env).Safe s := safe_any rest.calm
    have ends : (Discipline.any env).Ends s.begun (work.run (Links.upTo env.depth)) fun _ _ => True :=
      Work.ends (upTo_sound _ env.depth) safe.begun (work_gives r work asked)
    unfold Discipline.Ends Gen.Leads at ends
    dsimp only
    rw [inTransaction_eq rest]
    cases ended : work.run (Links.upTo env.depth) env s.begun with
    | ok a t =>
      rw [ended] at ends
      obtain ⟨_, grown, _⟩ := ends
      obtain ⟨x, found, parent, opened⟩ := grown.toKeeps.outermost
      obtain ⟨l, committed, _, _, durable⟩ :=
        Ledger.commit_outermost found opened parent grown.active
      have before : t.ledger.committed = s.ledger.committed := grown.committed
      simp only [committed]
      rw [Ledger.committedKeys, durable, before]
      exact Table.nodup_foldl_putNew _ _ distinct
    | error e t =>
      rw [ended] at ends
      have same := (ends.2.rollback rest ends.1).2
      dsimp only
      rwa [Ledger.committedKeys, same]

theorem session_distinct (env : Environment) (requests : List PublicRequest) :
    (env.session requests).ledger.committedKeys.Nodup := by
  have all : ∀ (requests : List PublicRequest) (s : State), s.AtRest → s.ledger.committedKeys.Nodup →
      (requests.foldl (PublicRequest.after env) s).ledger.committedKeys.Nodup := by
    intro requests
    induction requests with
    | nil => exact fun _ _ distinct => distinct
    | cons r requests ih =>
      intro s rest distinct
      have safe : (Discipline.any env).Safe s := safe_any rest.calm
      exact ih _ (after_advances rest safe r).rest (after_distinct rest r distinct)
  exact all requests {} .empty .nil

/-! ## What a name tells -/

/-- The last character of a name. -/
def lastChar (name : String) : Option Char := name.toList.getLast?

/-- The sort of entity that defines a type, and whether it is an unmanaged variant, by the origin of
    the name and its last character. -/
def NameOrigin.sort : NameOrigin → Option Char → EntityKind × Bool
  | .metadata, _ => (.type, false)
  | .catalog, _ => (.special, false)
  | .generated, some 'd' => (.type, true)
  | .generated, some 'e' => (.guardedHandle, false)
  | .generated, _ => (.inlineArray, false)

/-- A name that was generated and ends in a digit is that of an inline array. -/
theorem NameOrigin.sort_digit {c : Char} (digit : c.isDigit = true) :
    NameOrigin.sort .generated (some c) = (.inlineArray, false) := by
  unfold NameOrigin.sort
  split <;> simp_all

theorem lastChar_append {name ending : String} {c : Char} (last : lastChar ending = some c) :
    lastChar (name ++ ending) = some c := by
  rw [lastChar] at last ⊢
  rw [String.toList_append, List.getLast?_append, last]
  rfl

/-- The name of a helper ends in a digit. -/
theorem lastChar_helperName (env : Environment) (element : TargetType) (length : Int) :
    ∃ c, lastChar (env.helperName element length) = some c ∧ c.isDigit = true := by
  have digits : Nat.toDigits 10 length.natAbs ≠ [] := Nat.toDigits_ne_nil
  have last : lastChar (ofInt length) = some ((Nat.toDigits 10 length.natAbs).getLast digits) := by
    rw [lastChar, ofInt_toList]
    split
    · rw [← List.singleton_append, List.getLast?_append, List.getLast?_eq_some_getLast digits]
      rfl
    · exact List.getLast?_eq_some_getLast digits
  refine ⟨_, lastChar_append last, ?_⟩
  exact Nat.isDigit_of_mem_toDigits (by omega) (by omega) (List.getLast_mem digits)

/-! ## Keys by their names -/

theorem variantName_inj {name other : String} {unmanaged : Bool} :
    variantName name unmanaged = variantName other unmanaged ↔ name = other := by
  cases unmanaged with
  | true => exact String.append_left_inj _
  | false => exact Iff.rfl

/-- A key is told by the sort of its entity and the name that belongs to it. -/
theorem EntityKey.eq_of_declares {key other : EntityKey}
    (sort : (key.kind, key.unmanaged) = (other.kind, other.unmanaged))
    (named : key.declares = other.declares) : key = other := by
  obtain ⟨kind, ⟨space, name⟩, unmanaged⟩ := key
  obtain ⟨_, ⟨otherSpace, otherName⟩, _⟩ := other
  obtain ⟨rfl, rfl⟩ := Prod.mk.inj sort
  obtain ⟨rfl, names⟩ := QualifiedName.mk.inj named
  obtain rfl : name = otherName := variantName_inj.mp names
  rfl

/-- Whether a declaration of an entity may define a type. -/
def EntityKey.definesType (key : EntityKey) : Bool :=
  key.kind ∈ [.type, .special, .guardedHandle, .inlineArray]

/-- The sort of an entity that generation comes to is told by the origin and by the last character of
    the name. -/
theorem Entity.Offered.sort {e : Entity} (offered : e.Offered env) (defines : e.key.definesType = true) :
    (e.key.kind, e.key.unmanaged) = e.key.origin.sort (lastChar e.key.declares.name) := by
  cases e with
  | type t unmanaged =>
    cases unmanaged with
    | false => rfl
    | true =>
      change _ = NameOrigin.sort .generated (lastChar (t.name ++ unmanagedSuffix))
      rw [lastChar_append (c := 'd') (by decide)]
      rfl
  | template t =>
    obtain ⟨name, kind, space, body, requires⟩ := t
    cases kind with
    | special => rfl
    | inlineFunction => cases defines
  | guardedHandle h =>
    obtain ⟨_, release, _, owned⟩ := offered.handle_backed.releases
    change _ = NameOrigin.sort .generated (lastChar h.name)
    rw [owned.name, lastChar_append (c := 'e') (by decide)]
    rfl
  | inlineArray name element length isChar =>
    obtain ⟨c, last, digit⟩ := lastChar_helperName env element length
    change _ = NameOrigin.sort .generated (lastChar name)
    rw [offered.helper_eq, last, NameOrigin.sort_digit digit]
    rfl
  | function | constant => cases defines

/-! ## Declarations of an entity -/

/-- A declaration that defines a type has the name that belongs to the key. -/
theorem Discipline.Fits.defines {e : Entity} {d : Declaration} (fits : D.Fits s e d)
    (defines : d.definesType = true) : d.declares = e.key.declares ∧ e.key.definesType = true := by
  cases fits with
  | entryPoint | overload | constant => cases defines
  | struct _ fits => exact ⟨congrArg₂ QualifiedName.mk fits.space fits.name, rfl⟩
  | enum _ name space => exact ⟨congrArg₂ QualifiedName.mk space name, rfl⟩
  | delegate _ name space => exact ⟨congrArg₂ QualifiedName.mk space name, rfl⟩
  | interface _ fits => exact ⟨congrArg₂ QualifiedName.mk fits.space fits.name, rfl⟩
  | vtable fits => exact ⟨congrArg₂ QualifiedName.mk fits.space fits.name, rfl⟩
  | @template t =>
    have kind : t.kind = .special := of_decide_eq_true defines
    refine ⟨rfl, ?_⟩
    rw [Entity.key, kind]
    rfl
  | guardedHandle | inlineArray => exact ⟨rfl, rfl⟩

/-- What is made of one result has one declaration. -/
theorem single_ok {x : Gen Declaration} {declarations : List Declaration}
    (ended : (do return [← x] : Gen (List Declaration)) env s = .ok declarations t) :
    ∃ d, declarations = [d] := by
  obtain ⟨d, _, _, ended⟩ := Gen.bind_ok ended
  exact ⟨d, (Gen.pure_ok ended).1.symm⟩

/-- An entity other than a function has one declaration. -/
theorem declarationsOf_single {links : Links} {e : Entity} {declarations : List Declaration}
    (ended : declarationsOf links e env s = .ok declarations t) :
    (∃ f, e = .function f) ∨ ∃ d, declarations = [d] := by
  cases e with
  | function f => exact .inl ⟨f, rfl⟩
  | type d unmanaged => exact .inr (single_ok ended)
  | guardedHandle h => exact .inr (single_ok ended)
  | constant c =>
    obtain ⟨d, _, _, ended⟩ := Gen.bind_ok ended
    exact .inr ⟨_, (Gen.pure_ok ended).1.symm⟩
  | template template =>
    obtain ⟨_, _, _, ended⟩ := Gen.bind_ok ended
    exact .inr ⟨_, (Gen.pure_ok ended).1.symm⟩
  | inlineArray name element length isChar =>
    obtain ⟨_, _, _, ended⟩ := Gen.bind_ok ended
    exact .inr ⟨_, (Gen.pure_ok ended).1.symm⟩

/-! ## Names in a session -/

/-- What a completion tells of the types that it defines. -/
structure NamesTypes (c : Completion) : Prop where
  /-- At most one of the declarations defines a type. -/
  single : (c.2.filter (·.definesType)).length ≤ 1
  /-- It has the name that belongs to the key, and the name tells the sort of the entity. -/
  named : ∀ d ∈ c.2, d.definesType = true → d.declares = c.1.declares ∧
    (c.1.kind, c.1.unmanaged) = c.1.origin.sort (lastChar c.1.declares.name)

/-- Two completions that define types of one origin with one name have one key. -/
theorem NamesTypes.key_eq {c c' : Completion} (names : NamesTypes c) (names' : NamesTypes c')
    {d d' : Declaration} (member : d ∈ c.2) (member' : d' ∈ c'.2) (defines : d.definesType = true)
    (defines' : d'.definesType = true) (origin : c.1.origin = c'.1.origin)
    (same : d.declares = d'.declares) : c.1 = c'.1 := by
  obtain ⟨own, sort⟩ := names.named d member defines
  obtain ⟨own', sort'⟩ := names'.named d' member' defines'
  have declares : c.1.declares = c'.1.declares := own.symm.trans (same.trans own')
  exact EntityKey.eq_of_declares (by rw [sort, sort', origin, declares]) declares

theorem session_namesTypes (consistent : env.index.Consistent) (requests : List PublicRequest) :
    ∀ c ∈ (env.session requests).ledger.committed.entries, NamesTypes c := by
  intro c member
  have safe : (Upkeep.backing env).Holds {} := ⟨⟨rfl, rfl, rfl⟩, nofun, nofun⟩
  have durable := Table.get?_of_mem (session_distinct env requests) member
  rcases session_accounted (.any env) requests c member with ⟨_, nothing⟩ | ⟨e, key, _, covers⟩
  · constructor
    · simp [nothing]
    · simp [nothing]
  · have fits := fun d inside defines => (covers.fits d inside).defines defines
    rw [key] at fits
    cases session_sourced consistent safe requests durable with
    | elsewhere _ nothing =>
      obtain ⟨d, inside, _⟩ := covers.named
      rw [nothing] at inside
      cases inside
    | @produced e' _ key' makes =>
      refine ⟨?_, fun d inside defines => ⟨(fits d inside defines).1, ?_⟩⟩
      · obtain ⟨_, _, _, _, _, _, ended, _⟩ := makes.ran
        rcases declarationsOf_single ended with ⟨f, rfl⟩ | ⟨d, single⟩
        · have none : c.2.filter (·.definesType) = [] := by
            refine List.filter_eq_nil_iff.mpr fun d inside defines => ?_
            have typed := (fits d inside defines).2
            rw [← key'] at typed
            cases typed
          simp [none]
        · rw [single]
          exact List.length_filter_le _ _
      · have typed := (fits d inside defines).2
        rw [← key'] at typed ⊢
        exact makes.offered.sort typed

/-- A struct that needs marshaling with a pointer to it, a handle that a function releases, and a struct
    with an array of numbers. -/
def generatedDocument : Markup.Element :=
  oneNamespace "Ns" [
    ⟨"delegate", [("name", "D"), ("returns", "void")], "", []⟩,
    ⟨"struct", [("name", "S")], "", [⟨"field", [("name", "call"), ("type", "D")], "", []⟩]⟩,
    ⟨"struct", [("name", "T")], "",
      [⟨"field", [("name", "p"), ("type", "S*")], "", []⟩,
        ⟨"field", [("name", "a"), ("type", "i4[4]")], "", []⟩]⟩,
    ⟨"struct", [("name", "HTHING"), ("typedef", "true"), ("release", "CloseThing")], "",
      [⟨"field", [("name", "Value"), ("type", "isize")], "", []⟩]⟩,
    ⟨"function", [("name", "CloseThing"), ("module", "thing"), ("returns", "bool")], "",
      [⟨"param", [("name", "thing"), ("type", "HTHING")], "", []⟩]⟩,
    ⟨"function", [("name", "OpenThing"), ("module", "thing"), ("returns", "HTHING")], "", []⟩]

/-- No two types of one origin that are defined in a session have one name. -/
theorem session_typeNames (env : Environment) (roots : List Markup.Element)
    (built : Index.ofDocuments roots = .ok env.index) (requests : List PublicRequest) :
    (env.session requests).ledger.typeNames.Nodup ∧
      (env.session requests).ledger.typeNames.map (·.2) = (env.session requests).ledger.definedTypes := by
  have names := session_namesTypes (Index.ofDocuments_consistent built) requests
  refine ⟨List.nodup_flatMap.mpr ⟨fun c member => ?_, ?_⟩, typeNames_names _⟩
  · have single := (names c member).single
    generalize c.2.filter (·.definesType) = types at single
    match types with
    | [] => exact .nil
    | [d] => exact List.nodup_singleton _
    | d :: d' :: more => simp at single
  · have apart : (env.session requests).ledger.committed.entries.Pairwise fun c c' => c.1 ≠ c'.1 :=
      List.pairwise_map.mp (session_distinct env requests)
    refine apart.imp_of_mem fun {c c'} member member' other => ?_
    rintro ⟨origin, name⟩ there there'
    obtain ⟨d, kept, same⟩ := List.mem_map.mp there
    obtain ⟨d', kept', same'⟩ := List.mem_map.mp there'
    obtain ⟨inside, defines⟩ := List.mem_filter.mp kept
    obtain ⟨inside', defines'⟩ := List.mem_filter.mp kept'
    obtain ⟨origins, declares⟩ := Prod.mk.inj (same.trans same'.symm)
    exact other ((names c member).key_eq (names c' member') inside inside' defines defines' origins declares)

/-- All that the generator makes a name for is defined, each under a name of its own. -/
theorem session_typeNames_generated :
    let l := ((Environment.reading [generatedDocument]).session [.byName "T", .byName "OpenThing"]).ledger
    Index.ofDocuments [generatedDocument] = .ok (Environment.reading [generatedDocument]).index ∧
      (l.typeNames.Nodup ∧ l.typeNames.map (·.2) = l.definedTypes) ∧
      l.typeNames.filterMap (fun e => if e.1 = .generated then some e.2.full else none) =
        ["Ns.S_unmanaged", "Windows.Win32.__int_4", "Ns.CloseThingSafeHandle"] :=
  have built := reading_built (by decide +kernel)
  ⟨built, session_typeNames _ [generatedDocument] built _, by decide +kernel⟩

/-- The metadata names types as the generator names a variant, an array and a handle. -/
def namesakeDocuments : List Markup.Element := [
  generatedDocument,
  oneNamespace "Ns" [
    ⟨"struct", [("name", "S_unmanaged")], "", []⟩,
    ⟨"struct", [("name", "CloseThingSafeHandle")], "", []⟩],
  oneNamespace "Windows.Win32" [⟨"struct", [("name", "__int_4")], "", []⟩]]

/-- The metadata defines a type for constant texts, and a function that takes one. -/
def constantTextDocument : Markup.Element :=
  oneNamespace "Windows.Win32.Foundation" [
    ⟨"struct", [("name", "PWSTR")], "", [⟨"field", [("name", "Value"), ("type", "char*")], "", []⟩]⟩,
    ⟨"struct", [("name", "PCWSTR")], "", [⟨"field", [("name", "Value"), ("type", "char*")], "", []⟩]⟩,
    ⟨"function", [("name", "Show"), ("module", "thing")], "",
      [⟨"param", [("name", "text"), ("type", "const PWSTR")], "", []⟩]⟩]

/-- A struct with a field of a type that the metadata does not define. -/
def undefinedDocument : Markup.Element :=
  oneNamespace "Ns" [
    ⟨"struct", [("name", "U")], "", [⟨"field", [("name", "x"), ("type", "S_unmanaged")], "", []⟩]⟩]

/-- A session with a template for the type that the metadata does not define. -/
def templateNamesake : Environment :=
  { Environment.reading [generatedDocument, undefinedDocument] with
    templates := .ofTemplates [{ name := "S_unmanaged", kind := .special, space := "Ns", body := "" }] }

/-- A durable record defines types of two origins with one name. -/
def Ledger.Shares (l : Ledger) (origin other : NameOrigin) (n : QualifiedName) : Prop :=
  (origin, n) ∈ l.typeNames ∧ (other, n) ∈ l.typeNames ∧ ¬ l.definedTypes.Nodup

instance (l : Ledger) (origin other : NameOrigin) (n : QualifiedName) :
    Decidable (l.Shares origin other n) := inferInstanceAs (Decidable (_ ∧ _))

/-- Types of any two origins may have the same name. -/
theorem typeNames_shared :
    (Index.ofDocuments namesakeDocuments = .ok (Environment.reading namesakeDocuments).index ∧
      ∀ n ∈ [⟨"Ns", "S_unmanaged"⟩, ⟨"Ns", "CloseThingSafeHandle"⟩, ⟨"Windows.Win32", "__int_4"⟩],
        ((Environment.reading namesakeDocuments).session
          [.byName "T", .byName "OpenThing", .byName "S_unmanaged", .byName "CloseThingSafeHandle",
            .byName "__int_4"]).ledger.Shares .metadata .generated n) ∧
    (Index.ofDocuments [constantTextDocument] = .ok (Environment.reading [constantTextDocument]).index ∧
      ((Environment.reading [constantTextDocument]).session
        [.byName "Show", .byName "PCWSTR"]).ledger.Shares .metadata .catalog
          ⟨"Windows.Win32.Foundation", "PCWSTR"⟩) ∧
    Index.ofDocuments [generatedDocument, undefinedDocument] = .ok templateNamesake.index ∧
      (templateNamesake.session [.byName "T", .byName "U"]).ledger.Shares .catalog .generated
        ⟨"Ns", "S_unmanaged"⟩ := by
  refine ⟨⟨reading_built ?_, ?_⟩, ⟨reading_built ?_, ?_⟩, reading_built ?_, ?_⟩ <;> decide +kernel

end Bindings
