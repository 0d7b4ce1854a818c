import Bindings.Proofs.Generation.Asking
import Bindings.Proofs.Request.Source

/-!
# Helpers for inline arrays

A helper is told by its name, and its name by the length and by the text that is left of the element
type once it is cleaned. So two arrays share a helper if their lengths and these texts are the same,
whatever their elements are.
-/

namespace Bindings
open Bindings.Metadata Bindings.Text

variable {env : Environment} {s : State}

/-! ## Names -/

namespace Environment

/-- Whether types of several namespaces have the simple name of an element type. -/
def isAmbiguous (env : Environment) (element : TargetType) : Bool :=
  match element.innermostName? with
  | none => false
  | some name =>
    if name.space = "" then false
    else 1 < ((env.index.findTypes (withoutEnd unmanagedSuffix name.name)).map (·.space)).eraseDups.length

/-- The text that stands for an element type in the names of its helpers. -/
def helperText (env : Environment) (element : TargetType) : String :=
  cleanName (if env.isAmbiguous element then element.qualifiedText else element.text)

/-- The name of the helper for a length and an element type. -/
def helperName (env : Environment) (element : TargetType) (length : Int) : String :=
  inlineArrayName element length (env.isAmbiguous element)

/-- The helper that is asked for where an array of a length has elements of a type. -/
def helper (env : Environment) (element : TargetType) (length : Int) (isChar : Bool) : Entity :=
  .inlineArray (env.helperName element length) element length isChar

/-- The key of the helper for a length and an element type. -/
def helperKey (env : Environment) (element : TargetType) (length : Int) : EntityKey :=
  ⟨.inlineArray, ⟨inlineArraySpace, env.helperName element length⟩, false⟩

end Environment

theorem isAmbiguousElement_eq (element : TargetType) (s : State) :
    isAmbiguousElement element env s = .ok (env.isAmbiguous element) s := by
  unfold isAmbiguousElement Environment.isAmbiguous
  cases element.innermostName? with
  | none => rfl
  | some name =>
    dsimp only
    split
    · rfl
    · rfl

/-- Two rows that go on after their last mark are the same if the parts are. -/
theorem append_last_inj {α : Type} {mark : α} {xs ys us vs : List α} (last : mark ∉ us)
    (lastOther : mark ∉ vs) (same : xs ++ mark :: us = ys ++ mark :: vs) : xs = ys ∧ us = vs := by
  rcases List.append_eq_append_iff.mp same with ⟨more, rfl, rest⟩ | ⟨more, rfl, rest⟩
  · cases more with
    | nil => exact ⟨by simp, (List.cons.inj rest).2⟩
    | cons c more =>
      rw [(List.cons.inj rest).2] at last
      simp at last
  · cases more with
    | nil => exact ⟨by simp, (List.cons.inj rest).2.symm⟩
    | cons c more =>
      rw [(List.cons.inj rest).2] at lastOther
      simp at lastOther

theorem ofInt_toList (n : Int) : (ofInt n).toList =
    if n < 0 then '-' :: Nat.toDigits 10 n.natAbs else Nat.toDigits 10 n.natAbs := by
  unfold ofInt
  split
  · simp [Nat.toList_repr]
  · exact Nat.toList_repr

/-- The digits of a number have no underscore among them, and no minus sign. -/
theorem not_mem_digits {c : Char} (other : c.isDigit = false) (n : Nat) : c ∉ Nat.toDigits 10 n := by
  intro member
  rw [Nat.isDigit_of_mem_toDigits (by omega) (by omega) member] at other
  cases other

theorem underscore_not_mem_ofInt (n : Int) : '_' ∉ (ofInt n).toList := by
  have digits := not_mem_digits (c := '_') rfl n.natAbs
  rw [ofInt_toList]
  split
  · simp [digits]
  · exact digits

theorem ofInt_inj {m n : Int} (same : ofInt m = ofInt n) : m = n := by
  have minus := fun k : Nat => not_mem_digits (c := '-') rfl k
  have digits : ∀ {j k : Nat}, Nat.toDigits 10 j = Nat.toDigits 10 k → j = k := by
    intro j k alike
    rw [← Nat.ofDigitChars_toDigits (b := 10) (n := j) (by omega) (by omega), alike,
      Nat.ofDigitChars_toDigits (by omega) (by omega)]
  have rows := congrArg String.toList same
  rw [ofInt_toList, ofInt_toList] at rows
  split at rows <;> split at rows
  · have := digits (List.cons.inj rows).2
    omega
  · exact absurd (rows ▸ List.mem_cons_self) (minus n.natAbs)
  · exact absurd (rows ▸ List.mem_cons_self) (minus m.natAbs)
  · have := digits rows
    omega

/-- Two helpers have one name if they have one length and one text stands for their elements. -/
theorem helperName_eq_iff {element other : TargetType} {length size : Int} :
    env.helperName element length = env.helperName other size ↔
      env.helperText element = env.helperText other ∧ length = size := by
  have parts : ∀ (element : TargetType) (length : Int), (env.helperName element length).toList =
      ("__".toList ++ (env.helperText element).toList) ++ '_' :: (ofInt length).toList := by
    intro element length
    simp [Environment.helperName, Environment.helperText, inlineArrayName]
  constructor
  · intro same
    have rows := congrArg String.toList same
    rw [parts, parts] at rows
    obtain ⟨texts, lengths⟩ := append_last_inj (underscore_not_mem_ofInt length)
      (underscore_not_mem_ofInt size) rows
    exact ⟨String.toList_inj.mp (List.append_cancel_left texts), ofInt_inj (String.toList_inj.mp lengths)⟩
  · rintro ⟨texts, rfl⟩
    exact String.toList_inj.mp (by rw [parts, parts, texts])

/-! ## The helpers of a session -/

/-- The declaration of the helper for a length and an element type, with elements of a type. -/
def Environment.helperDecl (env : Environment) (element : TargetType) (length : Int) (held : TargetType)
    (isChar : Bool) : Declaration :=
  .inlineArray (inlineArrayDecl env.visibility (env.helperName element length) held length isChar)

/-- What holds of the helpers that are durable in a state. -/
structure State.Helped (env : Environment) (s : State) : Prop where
  /-- Each helper is declared with the elements and the length that its name is made of. -/
  named : ∀ name unmanaged declarations,
    s.ledger.committed.get? ⟨.inlineArray, name, unmanaged⟩ = some declarations →
      ∃ element length isChar, ⟨.inlineArray, name, unmanaged⟩ = env.helperKey element length ∧
        declarations = [env.helperDecl element length element isChar]
  /-- A struct was declared by a run that projected its fields. Each helper that the run asked for is
      durable, with the length that was asked for and with elements of a type that the same text
      stands for as for the type that was asked for. -/
  chosen : ∀ name unmanaged d, s.ledger.committed.get? ⟨.type, name, unmanaged⟩ = some [.struct d] →
    ∃ t r depth id u v, (Entity.type t unmanaged).key = ⟨.type, name, unmanaged⟩ ∧ t.shape = .record r ∧
      u.In id ∧ (Discipline.backing env).Safe u ∧
      structDecl (Links.upTo depth) t r unmanaged env u = .ok d v ∧
      ∀ element length isChar,
        AsksFor env u (Links.upTo depth) (structDecl · t r unmanaged) (env.helper element length isChar) →
          ∃ held flag, env.helperText held = env.helperText element ∧
            s.ledger.committed.get? (env.helperKey element length) =
              some [env.helperDecl element length held flag]

/-- The only type with declarations that begin with a struct is a struct. -/
theorem typeDecl_struct {links : Links} {t : TypeDefinition} {unmanaged : Bool} {d : StructDecl}
    {u v : State} (ended : typeDecl links t unmanaged env u = .ok (.struct d) v) :
    ∃ r, t.shape = .record r ∧ structDecl links t r unmanaged env u = .ok d v := by
  unfold typeDecl at ended
  cases shape : t.shape with
  | record r =>
    simp only [shape] at ended
    obtain ⟨_, _, made, ended⟩ := Gen.bind_ok ended
    obtain ⟨same, rfl⟩ := Gen.pure_ok ended
    cases same
    exact ⟨r, rfl, made⟩
  | interface bases methods guid =>
    simp only [shape] at ended
    rw [Gen.read_bind] at ended
    unfold projectedInterface at ended
    -- it is an interface or a table of methods, whether that was asked or not
    split at ended
    all_goals
      obtain ⟨conforming, _, _, ended⟩ := Gen.bind_ok ended
      cases conforming with
      | true =>
        obtain ⟨_, _, _, ended⟩ := Gen.bind_ok ended
        cases (Gen.pure_ok ended).1
      | false =>
        obtain ⟨_, _, _, ended⟩ := Gen.bind_ok ended
        cases (Gen.pure_ok ended).1
  | enum base members isFlags =>
    simp only [shape] at ended
    obtain ⟨_, _, _, ended⟩ := Gen.bind_ok ended
    cases (Gen.pure_ok ended).1
  | delegate returns params =>
    simp only [shape] at ended
    obtain ⟨_, _, _, ended⟩ := Gen.bind_ok ended
    cases (Gen.pure_ok ended).1

/-- An inline array that generation comes to is the helper for its elements and its length. -/
theorem Entity.Offered.helper_eq {name : String} {element : TargetType} {length : Int} {isChar : Bool}
    (offered : Entity.Offered env (.inlineArray name element length isChar)) :
    name = env.helperName element length := by
  generalize same : Entity.inlineArray name element length isChar = e at offered
  cases offered with
  | inlineArray ambiguous length isChar =>
    cases same
    have only := (ambiguous {}).symm.trans (isAmbiguousElement_eq _ {})
    rw [Environment.helperName, ← (EStateM.Result.ok.inj only).1]
  | @candidate c d offers chosen => cases d <;> cases same
  | type | release | template | guardedHandle => cases same

section
variable (alone : env.available = [])
include alone

/-- A durable helper was made for elements and a length that have its name. -/
theorem Sourced.helper {U : Upkeep env} {c : Completion} (sourced : Sourced U s c)
    (kind : c.1.kind = .inlineArray) : ∃ element length isChar, c.1 = env.helperKey element length ∧
      c.2 = [env.helperDecl element length element isChar] := by
  cases sourced with
  | elsewhere available _ => simp [alone] at available
  | @produced e missing key makes =>
    obtain ⟨_, _, _, _, _, _, ran, _⟩ := makes.ran
    rw [← key] at kind
    cases e with
    | inlineArray name element length isChar =>
      obtain rfl := makes.offered.helper_eq
      exact ⟨element, length, isChar, key.symm, (EStateM.Result.ok.inj ran).1.symm⟩
    | template t => cases sort : t.kind <;> rw [Entity.key, sort] at kind <;> cases kind
    | function | type | constant | guardedHandle => cases kind

/-- In a session without a context that helpers could be available from, each helper is declared with
    the elements and the length of its name. Whenever a field of a durable struct asks for a helper, the
    helper that is durable under that name has the length that was asked for, and its elements are of
    a type that the same text stands for. -/
theorem session_helped {roots : List Markup.Element} (built : Index.ofDocuments roots = .ok env.index)
    (requests : List PublicRequest) : (env.session requests).Helped env := by
  have consistent := Index.ofDocuments_consistent built
  have safe : (Upkeep.backing env).Holds {} := ⟨⟨rfl, rfl, rfl⟩, nofun, nofun⟩
  have sources : ∀ {key declarations}, (env.session requests).ledger.committed.get? key = some declarations →
      Sourced (.backing env) (env.session requests) (key, declarations) :=
    session_sourced consistent safe requests
  have rest := (session_advances (.any env) requests).rest
  refine ⟨fun name unmanaged declarations found => (sources found).helper alone rfl, ?_⟩
  intro name unmanaged d found
  cases sources found with
  | elsewhere available _ => simp [alone] at available
  | @produced e missing key makes =>
    obtain ⟨depth, id, u, v, inside, holds, ran, kept⟩ := makes.ran
    cases e with
    | type t own =>
      obtain rfl : own = unmanaged := congrArg EntityKey.unmanaged key
      obtain ⟨declaration, w, typed, ended⟩ := Gen.bind_ok ran
      obtain ⟨same, rfl⟩ := Gen.pure_ok ended
      obtain rfl := (List.cons.inj same).1
      obtain ⟨r, shape, made⟩ := typeDecl_struct typed
      refine ⟨t, r, depth, id, u, w, key, shape, inside, holds, made, ?_⟩
      rintro element length isChar ⟨alarm, differs⟩
      have heeds : Heeds (.backing env) (env.helperKey element length)
          (structDecl (Links.upTo depth) t r own) _ :=
        structDecl_matches (barring_linked consistent (.backing env) alarm
          (env.helper element length isChar) depth) (makes.offered.chooses consistent) r own
      have known := kept _ (heeds.knows inside holds differs made)
      obtain ⟨declarations, durable⟩ := (rest.knows_iff _).mp known
      obtain ⟨held, size, flag, named, declared⟩ := (sources durable).helper alone rfl
      simp only [Environment.helperKey, EntityKey.mk.injEq, QualifiedName.mk.injEq, true_and, and_true] at named
      obtain ⟨texts, rfl⟩ := helperName_eq_iff.mp named
      refine ⟨held, flag, texts.symm, ?_⟩
      obtain rfl : declarations = _ := declared
      rw [durable, Environment.helperDecl, Environment.helperDecl, named]
    | template t =>
      have kind := congrArg EntityKey.kind key
      cases sort : t.kind <;> rw [Entity.key, sort] at kind <;> cases kind
    | function | constant | guardedHandle | inlineArray => cases congrArg EntityKey.kind key

end

/-- A struct with an array of pointers to one struct, and an array of another struct whose name is that
    of the first one with the word for a pointer after it. -/
def pointerNamedDocument : Markup.Element :=
  oneNamespace "Ns" [
    ⟨"struct", [("name", "Foo")], "", [⟨"field", [("name", "x"), ("type", "i4")], "", []⟩]⟩,
    ⟨"struct", [("name", "Foo_ptr")], "", [⟨"field", [("name", "x"), ("type", "i8")], "", []⟩]⟩,
    ⟨"struct", [("name", "S")], "",
      [⟨"field", [("name", "a"), ("type", "Foo*[4]")], "", []⟩,
        ⟨"field", [("name", "b"), ("type", "Foo_ptr[4]")], "", []⟩]⟩]

/-- The helpers that are durable where two of them have one name. -/
theorem session_helped_pointers :
    Index.ofDocuments [pointerNamedDocument] = .ok (Environment.reading [pointerNamedDocument]).index ∧
      (Environment.reading [pointerNamedDocument]).available = [] ∧
      ((Environment.reading [pointerNamedDocument]).session [.byName "S"]).Helped
        (Environment.reading [pointerNamedDocument]) := by
  have built : Index.ofDocuments [pointerNamedDocument] =
      .ok (Environment.reading [pointerNamedDocument]).index := reading_built (by decide +kernel)
  exact ⟨built, rfl, session_helped rfl built _⟩

/-- How a type is written that a native type is projected to in a field that is not marshaled. -/
def Environment.fieldText (env : Environment) (type : NativeType) : Option String :=
  match project (Links.upTo env.depth) type { allowMarshaling := false, isField := true } {} env
      (State.begun {}) with
  | .ok p _ => some p.type.qualifiedText
  | .error .. => none

/-- A struct. -/
def Declaration.struct? : Declaration → Option StructDecl
  | .struct d => some d
  | _ => none

/-- A helper for inline arrays. -/
def Declaration.inlineArray? : Declaration → Option InlineArrayDecl
  | .inlineArray d => some d
  | _ => none

theorem struct?_eq_some_iff {d : Declaration} {made : StructDecl} :
    d.struct? = some made ↔ d = .struct made := by
  cases d <;> simp [Declaration.struct?]

theorem inlineArray?_eq_some_iff {d : Declaration} {made : InlineArrayDecl} :
    d.inlineArray? = some made ↔ d = .inlineArray made := by
  cases d <;> simp [Declaration.inlineArray?]

/-- What is told of one declaration holds of a declaration of the sort that is told of. -/
theorem only_declaration {α β : Type} {found : Option (List Declaration)} {sort : Declaration → Option α}
    {tell : α → β} {b : β} (told : found.map (·.map fun d => (sort d).map tell) = some [some b]) :
    ∃ d made, found = some [d] ∧ sort d = some made ∧ tell made = b := by
  obtain ⟨declarations, rfl, only⟩ := Option.map_eq_some_iff.mp told
  obtain ⟨d, rfl, one⟩ := List.map_eq_singleton_iff.mp only
  obtain ⟨made, sorted, same⟩ := Option.map_eq_some_iff.mp one
  exact ⟨d, made, rfl, sorted, same⟩

/-- Two fields with elements of different types share a helper, which is declared for those of one. -/
theorem helpers_clash :
    let env := Environment.reading [pointerNamedDocument]
    let s := env.session [.byName "S"]
    let asked := TargetType.named ⟨"Ns", "Foo_ptr"⟩
    Index.ofDocuments [pointerNamedDocument] = .ok env.index ∧ env.available = [] ∧
      env.fieldText (.handle ⟨"Ns", "Foo_ptr"⟩) = some asked.qualifiedText ∧
      (∃ d, s.ledger.committed.get? ⟨.type, ⟨"Ns", "S"⟩, false⟩ = some [.struct d] ∧
        d.fields.map (fun f => (f.name, f.type.qualifiedText)) =
          [("a", (env.helperKey asked 4).name.full), ("b", (env.helperKey asked 4).name.full)]) ∧
      ∃ d, s.ledger.committed.get? (env.helperKey asked 4) = some [.inlineArray d] ∧
        d.elementType.qualifiedText = "Ns.Foo*" ∧ d.elementType ≠ asked := by
  intro env s asked
  have fields : (s.ledger.committed.get? ⟨.type, ⟨"Ns", "S"⟩, false⟩).map
      (·.map fun d => d.struct?.map fun d => d.fields.map fun f => (f.name, f.type.qualifiedText)) =
        some [some [("a", (env.helperKey asked 4).name.full), ("b", (env.helperKey asked 4).name.full)]] := by
    decide +kernel
  have elements : (s.ledger.committed.get? (env.helperKey asked 4)).map
      (·.map fun d => d.inlineArray?.map (·.elementType.qualifiedText)) = some [some "Ns.Foo*"] := by
    decide +kernel
  refine ⟨reading_built (by decide +kernel), rfl, by decide +kernel, ?_, ?_⟩
  · obtain ⟨_, d, durable, sort, fields⟩ := only_declaration fields
    obtain rfl := struct?_eq_some_iff.mp sort
    exact ⟨d, durable, fields⟩
  · obtain ⟨_, d, durable, sort, text⟩ := only_declaration elements
    obtain rfl := inlineArray?_eq_some_iff.mp sort
    refine ⟨d, durable, text, fun same => ?_⟩
    rw [same] at text
    exact absurd text (by decide)

end Bindings
