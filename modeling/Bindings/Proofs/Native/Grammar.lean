import Bindings.Native.Signature
import Bindings.Proofs.Metadata.Reading
import Bindings.Proofs.Native.Splitting

/-!
# The grammar of signatures

A type is a name with suffixes or a function type, behind an optional qualifier. The grammar tells which
rows of tokens are types and what each of them denotes, and reading a signature gives what the grammar
derives for it: it derives no other type, and what it derives nothing for is refused.
-/

namespace Bindings

/-- The faults that a signature is refused with. -/
def Fault.OfSignature (text : String) : Fault → Prop
  | .malformedSignature shown | .truncatedSignature shown | .trailingTokens shown => shown = text
  | .expectedToken _ shown | .unexpectedToken _ shown => shown = text
  | .emptySignature => True
  | _ => False

/-! ## Pointers in place -/

namespace NativeType

/-- Whether a type is a pointer, or an array that holds pointers in place. -/
def holdsPointer : NativeType → Bool
  | pointer .. => true
  | array element _ => element.holdsPointer
  | _ => false

/-- A type with a constant target for its innermost pointer, if it has one. -/
def withConst : NativeType → NativeType
  | pointer element isConst =>
    if element.holdsPointer then pointer element.withConst isConst else pointer element true
  | array element lengths => array element.withConst lengths
  | type => type

/-- A type behind an optional qualifier. -/
def qualified (isConst : Bool) (type : NativeType) : NativeType := if isConst then type.withConst else type

theorem withConst_of_pointerless :
    (type : NativeType) → type.holdsPointer = false → type.withConst = type
  | pointer element isConst, pointerless => by simp [holdsPointer] at pointerless
  | array element lengths, pointerless => by
    have inner : element.withConst = element :=
      withConst_of_pointerless element (by simpa [holdsPointer] using pointerless)
    simp [withConst, inner]
  | primitive code, _ => rfl
  | handle name, _ => rfl
  | function params returns, _ => rfl

end NativeType

namespace Signature

variable {scope text : String} {tokens rest suffixes : List Token} {type base : NativeType}

/-! ## The grammar -/

/-- Whether a token is a suffix of a type. -/
def Token.isSuffix : Token → Bool
  | star | bracket _ => true
  | _ => false

/-- The type that a suffix makes of the type before it. -/
def suffixed (type : NativeType) : Token → NativeType
  | .star => .pointer type false
  | .bracket digits => addDimension (lengthOf digits) type
  | _ => type

/-- The tokens of an optional qualifier. -/
def qualifier (isConst : Bool) : List Token := if isConst then [.word "const"] else []

/-- A row of tokens derives a type in a scope. A qualifier in front is not a name, and it marks the target
    of the innermost pointer; it means nothing before a function type. -/
inductive Derives (scope : String) : List Token → NativeType → Prop
  | named (isConst : Bool) {name : String} {suffixes : List Token}
      (unqualified : name = "const" → isConst = true) (suffix : ∀ t ∈ suffixes, t.isSuffix = true) :
      Derives scope (qualifier isConst ++ .word name :: suffixes)
        (.qualified isConst (suffixes.foldl suffixed (namedType scope name)))
  | function (isConst : Bool) {params : List (List Token × NativeType)} {tokens : List Token}
      {returns : NativeType} (each : ∀ p ∈ params, Derives scope p.1 p.2)
      (result : Derives scope tokens returns) :
      Derives scope (qualifier isConst ++ .functionOpen ::
          ([Token.comma].intercalate (params.map (·.1)) ++ .closeParen :: .arrow :: tokens))
        (.function (params.map (·.2)) returns)

/-! ## Suffixes -/

theorem withConst_addDimension (length : Option Int) (type : NativeType) :
    (addDimension length type).withConst = addDimension length type.withConst := by
  cases type with
  | pointer element isConst =>
    by_cases inner : element.holdsPointer = true <;> simp [addDimension, NativeType.withConst, inner]
  | primitive | array | handle | function => rfl

theorem holdsPointer_addDimension (length : Option Int) (type : NativeType) :
    (addDimension length type).holdsPointer = type.holdsPointer := by
  cases type <;> rfl

/-- A suffix leaves the innermost pointer where it is. -/
theorem suffixed_withConst (holds : type.holdsPointer = true) (t : Token) :
    (suffixed type t).withConst = suffixed type.withConst t ∧ (suffixed type t).holdsPointer = true := by
  cases t with
  | star => simp [suffixed, NativeType.withConst, NativeType.holdsPointer, holds]
  | bracket digits => exact ⟨withConst_addDimension _ type, (holdsPointer_addDimension _ type).trans holds⟩
  | functionOpen | arrow | word | openParen | closeParen | comma => exact ⟨rfl, holds⟩

theorem foldl_suffixed_withConst (holds : type.holdsPointer = true) (suffixes : List Token) :
    (suffixes.foldl suffixed type).withConst = suffixes.foldl suffixed type.withConst := by
  induction suffixes generalizing type with
  | nil => rfl
  | cons t suffixes ih =>
    obtain ⟨same, further⟩ := suffixed_withConst holds t
    rw [List.foldl_cons, List.foldl_cons, ih further, same]

/-- Suffixes are applied one after the other as far as there are any. -/
theorem applySuffixes_false (base : NativeType) (tokens : List Token) :
    applySuffixes false base tokens =
      ((tokens.takeWhile (·.isSuffix)).foldl suffixed base, tokens.dropWhile (·.isSuffix)) := by
  induction tokens generalizing base with
  | nil => rfl
  | cons t tokens ih =>
    cases t with
    | star => exact ih (.pointer base false)
    | bracket digits => exact ih (addDimension (lengthOf digits) base)
    | functionOpen | arrow | word | openParen | closeParen | comma => rfl

/-- The first pointer takes the constness, so the innermost one has it in the end. -/
theorem applySuffixes_eq (isConst : Bool) (pointerless : base.holdsPointer = false) (tokens : List Token) :
    applySuffixes isConst base tokens =
      (.qualified isConst ((tokens.takeWhile (·.isSuffix)).foldl suffixed base),
        tokens.dropWhile (·.isSuffix)) := by
  cases isConst with
  | false => exact applySuffixes_false base tokens
  | true =>
    induction tokens generalizing base with
    | nil => simp [applySuffixes, NativeType.qualified, NativeType.withConst_of_pointerless base pointerless]
    | cons t tokens ih =>
      cases t with
      | star =>
        have first : (NativeType.pointer base false).withConst = .pointer base true := by
          simp [NativeType.withConst, pointerless]
        have later : ((tokens.takeWhile (·.isSuffix)).foldl suffixed (.pointer base false)).withConst =
            (tokens.takeWhile (·.isSuffix)).foldl suffixed (NativeType.pointer base false).withConst :=
          foldl_suffixed_withConst rfl _
        rw [first] at later
        exact (applySuffixes_false (.pointer base true) tokens).trans (by rw [← later]; rfl)
      | bracket digits => exact ih ((holdsPointer_addDimension _ base).trans pointerless)
      | functionOpen | arrow | word | openParen | closeParen | comma =>
        simp [applySuffixes, NativeType.qualified, Token.isSuffix,
          NativeType.withConst_of_pointerless base pointerless]

theorem namedType_pointerless (scope name : String) : (namedType scope name).holdsPointer = false := by
  unfold namedType
  split <;> rfl

/-! ## Reading a row -/

/-- A row of tokens that does not go on with suffixes. -/
def Stops (rest : List Token) : Prop := ∀ t, rest.head? = some t → t.isSuffix = false

theorem takeConst_qualifier {isConst : Bool} {t : Token} (rest : List Token)
    (unqualified : t = .word "const" → isConst = true) :
    takeConst (qualifier isConst ++ t :: rest) = (isConst, t :: rest) := by
  cases isConst with
  | true => rfl
  | false =>
    simp only [qualifier, Bool.false_eq_true, if_false, List.nil_append]
    unfold takeConst
    split
    · next same =>
      obtain ⟨rfl, rfl⟩ := List.cons.inj same
      cases unqualified rfl
    · rfl

/-- What a qualifier was taken from. -/
theorem takeConst_eq {isConst : Bool} (taken : takeConst tokens = (isConst, rest)) :
    tokens = qualifier isConst ++ rest ∧ (isConst = false → ∀ more, rest ≠ .word "const" :: more) := by
  unfold takeConst at taken
  split at taken
  · cases taken
    exact ⟨rfl, nofun⟩
  · next other =>
    cases taken
    exact ⟨rfl, fun _ => other⟩

/-- A derived row begins with a token that does not close anything. -/
theorem Derives.head (derives : Derives scope tokens type) :
    ∃ first more, tokens = first :: more ∧ first ≠ .closeParen := by
  cases derives with
  | @named isConst name suffixes unqualified suffix =>
    cases isConst with
    | true => exact ⟨_, _, rfl, nofun⟩
    | false => exact ⟨_, _, rfl, nofun⟩
  | @function isConst params tokens returns each result =>
    cases isConst with
    | true => exact ⟨_, _, rfl, nofun⟩
    | false => exact ⟨_, _, rfl, nofun⟩

theorem expect_self (t : Token) : expect text t (t :: rest) = .ok rest := if_pos rfl

/-- Types with commas between them are read one after the other. -/
theorem readParams_ok {depth : Nat} {params : List (List Token × NativeType)} (some : params ≠ [])
    (each : ∀ p ∈ params, ∀ rest, Stops rest → ∀ depth, 2 * p.1.length ≤ depth →
      readType scope text depth (p.1 ++ rest) = .ok (p.2, rest))
    (deep : 2 * ([Token.comma].intercalate (params.map (·.1))).length + 1 ≤ depth) :
    readParams scope text depth ([Token.comma].intercalate (params.map (·.1)) ++ .closeParen :: rest) =
      .ok (params.map (·.2), .closeParen :: rest) := by
  induction params generalizing depth with
  | nil => exact absurd rfl some
  | cons p params ih =>
    have own := each p (List.mem_cons_self ..)
    obtain ⟨depth, rfl⟩ : ∃ d, depth = d + 1 := ⟨depth - 1, by omega⟩
    cases params with
    | nil =>
      simp only [List.map_cons, List.map_nil, List.intercalate_singleton] at deep ⊢
      have first := own (.closeParen :: rest) (by simp [Stops, Token.isSuffix]) depth (by omega)
      simp [readParams, first, bind, Except.bind, pure, Except.pure]
    | cons q params =>
      simp only [List.map_cons, List.intercalate_cons_cons, List.length_append, List.length_cons,
        List.length_nil] at deep ih ⊢
      have first := own
        (.comma :: ([Token.comma].intercalate (q.1 :: params.map (·.1)) ++ .closeParen :: rest))
        (by simp [Stops, Token.isSuffix]) depth (by omega)
      have others : readParams scope text depth _ = _ :=
        ih nofun (fun p member => each p (List.mem_cons_of_mem _ member)) (by omega)
      simp [readParams, first, others, bind, Except.bind, pure, Except.pure]

/-- A row of derived rows begins as its first one does. -/
theorem intercalate_head {params : List (List Token × NativeType)} (some : params ≠ [])
    (each : ∀ p ∈ params, Derives scope p.1 p.2) :
    ∃ first more, [Token.comma].intercalate (params.map (·.1)) = first :: more ∧ first ≠ .closeParen := by
  cases params with
  | nil => exact absurd rfl some
  | cons p params =>
    obtain ⟨first, more, same, plain⟩ := (each p (List.mem_cons_self ..)).head
    cases params with
    | nil => exact ⟨first, more, by simpa using same, plain⟩
    | cons q params =>
      exact ⟨first, _, by rw [List.map_cons, List.map_cons, List.intercalate_cons_cons, same]; rfl, plain⟩

/-- What is derived from a row is read from it. -/
theorem Derives.readType (derives : Derives scope tokens type) {rest : List Token} (stops : Stops rest)
    {depth : Nat} (deep : 2 * tokens.length ≤ depth) :
    readType scope text depth (tokens ++ rest) = .ok (type, rest) := by
  induction derives generalizing rest depth with
  | @named isConst name suffixes unqualified suffix =>
    simp only [List.length_append, List.length_cons] at deep
    obtain ⟨depth, rfl⟩ : ∃ d, depth = d + 1 := ⟨depth - 1, by omega⟩
    have taken : takeConst (qualifier isConst ++ .word name :: (suffixes ++ rest)) = _ :=
      takeConst_qualifier _ (by simpa using unqualified)
    have applied : applySuffixes isConst (namedType scope name) (suffixes ++ rest) =
        (.qualified isConst (suffixes.foldl suffixed (namedType scope name)), rest) := by
      obtain ⟨inside, after⟩ := span_eq rest suffix stops
      rw [applySuffixes_eq isConst (namedType_pointerless scope name), inside, after]
    rw [List.append_assoc, List.cons_append]
    simp [Signature.readType, taken, applied]
  | @function isConst params tokens returns each result eachRead resultRead =>
    simp only [List.length_append, List.length_cons] at deep
    obtain ⟨depth, rfl⟩ : ∃ d, depth = d + 1 := ⟨depth - 1, by omega⟩
    have taken : takeConst (qualifier isConst ++ .functionOpen :: _) = _ := takeConst_qualifier
      ([Token.comma].intercalate (params.map (·.1)) ++ .closeParen :: .arrow :: (tokens ++ rest)) nofun
    have returned : Signature.readType scope text depth (tokens ++ rest) = _ := resultRead stops (by omega)
    simp only [List.append_assoc, List.cons_append, Signature.readType, taken]
    cases params with
    | nil => simp [returned, expect_self, bind, Except.bind, pure, Except.pure]
    | cons p params =>
      have opened : readParams scope text depth (_ ++ .closeParen :: .arrow :: (tokens ++ rest)) = _ :=
        readParams_ok (List.cons_ne_nil p params)
          (fun q member rest stops depth deep => eachRead q member stops deep) (by omega)
      obtain ⟨first, more, same, plain⟩ := intercalate_head (List.cons_ne_nil p params) each
      rw [same, List.cons_append] at opened ⊢
      simp [opened, returned, expect_self, bind, Except.bind, pure, Except.pure]
      split
      · next closed => exact absurd (List.cons.inj closed).1 plain
      · next closed => cases closed
      · rfl

/-! ## What is read is derived -/

theorem expect_ok {t : Token} (ok : expect text t tokens = .ok rest) : tokens = t :: rest := by
  cases tokens with
  | nil => cases ok
  | cons first more =>
    simp only [expect] at ok
    split at ok
    · next same => rw [same, Except.ok.inj ok]
    · cases ok

/-- The row that types were read from derives them, by induction on the depth. -/
theorem readType_ok (depth : Nat) :
    (∀ {tokens rest : List Token} {type : NativeType}, readType scope text depth tokens = .ok (type, rest) →
      ∃ taken, tokens = taken ++ rest ∧ Derives scope taken type) ∧
    (∀ {tokens rest : List Token} {types : List NativeType},
      readParams scope text depth tokens = .ok (types, rest) →
      ∃ params : List (List Token × NativeType), params ≠ [] ∧ (∀ p ∈ params, Derives scope p.1 p.2) ∧
        tokens = [Token.comma].intercalate (params.map (·.1)) ++ rest ∧ types = params.map (·.2)) := by
  induction depth with
  | zero =>
    constructor
    · intro tokens rest type read
      cases read
    · intro tokens rest types read
      cases read
  | succ depth ih =>
    obtain ⟨oneRead, manyRead⟩ := ih
    constructor
    · intro tokens rest type read
      simp only [readType] at read
      split at read
      · cases read
      · next isConst opened taken =>
        obtain ⟨rfl, -⟩ := takeConst_eq taken
        have inputs : ∃ (params : List (List Token × NativeType)) (after : List Token),
            (∀ p ∈ params, Derives scope p.1 p.2) ∧
            opened = [Token.comma].intercalate (params.map (·.1)) ++ after ∧
            (expect text .closeParen after >>= fun rest => expect text .arrow rest >>= fun rest =>
              readType scope text depth rest >>= fun returns =>
                pure (NativeType.function (params.map (·.2)) returns.1, returns.2)) = .ok (type, rest) := by
          split at read
          · exact ⟨[], _, by simp, rfl, read⟩
          · exact ⟨[], _, by simp, rfl, read⟩
          · obtain ⟨⟨types, after⟩, paramsRead, read⟩ := bind_eq_ok read
            obtain ⟨params, -, each, same, rfl⟩ := manyRead paramsRead
            exact ⟨params, after, each, same, read⟩
        obtain ⟨params, after, each, row, read⟩ := inputs
        obtain ⟨afterClose, closed, read⟩ := bind_eq_ok read
        obtain ⟨afterArrow, pointed, read⟩ := bind_eq_ok read
        obtain ⟨⟨returns, last⟩, returnsRead, read⟩ := bind_eq_ok read
        obtain ⟨rfl, rfl⟩ := Prod.mk.inj (Except.ok.inj read)
        obtain ⟨result, same, derived⟩ := oneRead returnsRead
        rw [row, expect_ok closed, expect_ok pointed, same]
        exact ⟨_, by simp, .function isConst each derived⟩
      · next isConst name after taken =>
        obtain ⟨rfl, bare⟩ := takeConst_eq taken
        rw [applySuffixes_eq isConst (namedType_pointerless scope name)] at read
        obtain ⟨rfl, rfl⟩ := Prod.mk.inj (Except.ok.inj read)
        refine ⟨qualifier isConst ++ .word name :: after.takeWhile (·.isSuffix), by simp,
          .named isConst ?_ ?_⟩
        · rintro rfl
          cases isConst with
          | true => rfl
          | false => exact absurd rfl (bare rfl after)
        · exact fun t member => List.all_eq_true.mp List.all_takeWhile t member
      · cases read
    · intro tokens rest types read
      simp only [readParams] at read
      obtain ⟨⟨first, after⟩, firstRead, read⟩ := bind_eq_ok read
      obtain ⟨taken, same, derived⟩ := oneRead firstRead
      dsimp only at read
      split at read
      · next after =>
        obtain ⟨⟨others, last⟩, othersRead, read⟩ := bind_eq_ok read
        obtain ⟨rfl, rfl⟩ := Prod.mk.inj (Except.ok.inj read)
        obtain ⟨params, some, each, rfl, rfl⟩ := manyRead othersRead
        obtain ⟨p, params, rfl⟩ := List.exists_cons_of_ne_nil some
        refine ⟨(taken, first) :: p :: params, List.cons_ne_nil _ _, ?_, ?_, rfl⟩
        · intro q member
          rcases List.mem_cons.mp member with rfl | later
          · exact derived
          · exact each q later
        · simp [same, List.intercalate_cons_cons]
      · obtain ⟨rfl, rfl⟩ := Prod.mk.inj (Except.ok.inj read)
        exact ⟨[(taken, first)], List.cons_ne_nil _ _, by simpa using derived, by simpa using same, rfl⟩

/-! ## What is refused -/

/-- A computation that fails with the faults of a signature only. -/
def Refuses {α : Type} (text : String) (x : Except Fault α) : Prop :=
  ∀ fault, x = .error fault → fault.OfSignature text

theorem Refuses.bind {α β : Type} {x : Except Fault α} {f : α → Except Fault β} (first : Refuses text x)
    (then_ : ∀ a, Refuses text (f a)) : Refuses text (x >>= f) := by
  cases x with
  | error e =>
    intro fault failed
    exact first fault (congrArg Except.error (Except.error.inj failed))
  | ok a => exact then_ a

theorem refuses_ok {α : Type} (a : α) : Refuses text (.ok a) := nofun

theorem refuses_error {α : Type} {fault : Fault} (own : fault.OfSignature text) :
    Refuses text (.error fault : Except Fault α) := by
  rintro _ ⟨⟩
  exact own

theorem expect_refuses (t : Token) (tokens : List Token) : Refuses text (expect text t tokens) := by
  cases tokens with
  | nil => exact refuses_error rfl
  | cons first more =>
    simp only [expect]
    split
    · exact refuses_ok _
    · exact refuses_error rfl

theorem readType_refuses (depth : Nat) :
    (∀ tokens, Refuses text (readType scope text depth tokens)) ∧
      ∀ tokens, Refuses text (readParams scope text depth tokens) := by
  induction depth with
  | zero => exact ⟨fun _ => refuses_error rfl, fun _ => refuses_error rfl⟩
  | succ depth ih =>
    obtain ⟨one, many⟩ := ih
    constructor
    · intro tokens
      simp only [readType]
      split
      · exact refuses_error rfl
      · have result (after : List Token) (params : List NativeType) : Refuses text
            (expect text .closeParen after >>= fun rest => expect text .arrow rest >>= fun rest =>
              readType scope text depth rest >>= fun returns =>
                pure (NativeType.function params returns.1, returns.2)) :=
          (expect_refuses _ _).bind fun _ => (expect_refuses _ _).bind fun _ => (one _).bind fun _ => refuses_ok _
        split
        · exact result (.closeParen :: _) []
        · exact result [] []
        · exact (many _).bind fun params => result params.2 params.1
      · exact refuses_ok _
      · exact refuses_error rfl
    · intro tokens
      simp only [readParams]
      refine (one tokens).bind fun first => ?_
      split
      · exact (many _).bind fun _ => refuses_ok _
      · exact refuses_ok _

theorem read_refuses (text scope : String) : Refuses text (NativeType.read text scope) := by
  simp only [NativeType.read]
  split
  · exact refuses_error rfl
  · exact refuses_error trivial
  · refine ((readType_refuses _).1 _).bind fun found => ?_
    split
    · exact refuses_ok _
    · exact refuses_error rfl

/-! ## Reading -/

theorem Derives.some (derives : Derives scope tokens type) : tokens ≠ [] := by
  obtain ⟨first, more, rfl, -⟩ := derives.head
  exact nofun

theorem read_ok_iff : NativeType.read text scope = .ok type ↔
    ∃ tokens, Splits text.toList tokens ∧ Derives scope tokens type := by
  constructor
  · intro read
    simp only [NativeType.read] at read
    split at read
    · cases read
    · cases read
    · next tokens some split =>
      obtain ⟨⟨found, rest⟩, typeRead, read⟩ := bind_eq_ok read
      dsimp only at read
      split at read
      · next empty =>
        obtain rfl := Except.ok.inj read
        obtain rfl := List.isEmpty_iff.mp empty
        obtain ⟨taken, same, derived⟩ := (readType_ok _).1 typeRead
        rw [same, List.append_nil] at split
        exact ⟨taken, tokens?_eq_some_iff.mp split, derived⟩
      · cases read
  · rintro ⟨tokens, splits, derives⟩
    have ended : Stops [] := nofun
    have typeRead : readType scope text (2 * tokens.length + 1) (tokens ++ []) = _ :=
      derives.readType ended (by omega)
    rw [List.append_nil] at typeRead
    simp only [NativeType.read, tokens?_eq_some_iff.mpr splits]
    split
    · next none => cases none
    · next empty => exact absurd (Option.some.inj empty) derives.some
    · next same =>
      obtain rfl := Option.some.inj same
      simp [typeRead, bind, Except.bind, pure, Except.pure]

/-- Reading a signature accepts the grammar and nothing else: it gives the type that the tokens of the
    signature derive, and a signature that does not split into tokens, or whose tokens derive nothing, is
    refused with a structural fault of its own. -/
theorem read_iff_derives (text scope : String) :
    (∀ type, NativeType.read text scope = .ok type ↔
      ∃ tokens, Splits text.toList tokens ∧ Derives scope tokens type) ∧
    ((∀ tokens type, Splits text.toList tokens → ¬ Derives scope tokens type) →
      ∃ fault, NativeType.read text scope = .error fault ∧ fault.OfSignature text) := by
  refine ⟨fun type => read_ok_iff, fun underivable => ?_⟩
  cases read : NativeType.read text scope with
  | error fault => exact ⟨fault, rfl, read_refuses text scope fault read⟩
  | ok type =>
    obtain ⟨tokens, splits, derives⟩ := read_ok_iff.mp read
    exact absurd derives (underivable tokens type splits)

end Signature
end Bindings
