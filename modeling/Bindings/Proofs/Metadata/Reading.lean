import Bindings.Metadata.Reading

/-!
# What is read

What all definitions have in common that were read from an element: since brackets in a row make
one array, no array of theirs has arrays for its elements.
-/

namespace Bindings

/-! ## Computations that succeed -/

/-- A computation in two steps that succeeds does so in both. -/
theorem bind_eq_ok {ε α β : Type} {x : Except ε α} {f : α → Except ε β} {b : β}
    (ends : x >>= f = .ok b) : ∃ a, x = .ok a ∧ f a = .ok b := by
  cases x with
  | error e => cases ends
  | ok a => exact ⟨a, rfl, ends⟩

/-- What is made of each element comes from one of them. -/
theorem mapM_eq_ok {ε α β : Type} {f : α → Except ε β} {xs : List α} {ys : List β}
    (ends : xs.mapM f = .ok ys) : ∀ y ∈ ys, ∃ x ∈ xs, f x = .ok y := by
  induction xs generalizing ys with
  | nil =>
    rw [List.mapM_nil] at ends
    obtain rfl := Except.ok.inj ends
    simp
  | cons x xs ih =>
    rw [List.mapM_cons] at ends
    obtain ⟨first, made, ends⟩ := bind_eq_ok ends
    obtain ⟨rest, others, ends⟩ := bind_eq_ok ends
    obtain rfl := Except.ok.inj ends
    intro y member
    rcases List.mem_cons.mp member with rfl | later
    · exact ⟨x, by simp, made⟩
    · obtain ⟨a, there, same⟩ := ih others y later
      exact ⟨a, List.mem_cons_of_mem x there, same⟩

/-! ## Signatures -/

/-- Whether a native type is an array. -/
def NativeType.isArray : NativeType → Bool
  | array .. => true
  | _ => false

/-- No array in a type has arrays for its elements. -/
inductive NativeType.Flat : NativeType → Prop
  | primitive (code : String) : Flat (.primitive code)
  | handle (name : QualifiedName) : Flat (.handle name)
  | pointer {element : NativeType} {isConst : Bool} (inner : Flat element) :
      Flat (.pointer element isConst)
  | array {element : NativeType} {lengths : List (Option Int)} (inner : Flat element)
      (single : element.isArray = false) : Flat (.array element lengths)
  | function {params : List NativeType} {returns : NativeType} (inputs : ∀ p ∈ params, Flat p)
      (output : Flat returns) : Flat (.function params returns)

namespace Signature
open NativeType

theorem namedType_flat (scope word : String) : Flat (namedType scope word) := by
  unfold namedType
  split
  · exact .primitive word
  · exact .handle _

theorem addDimension_flat {type : NativeType} (flat : Flat type) (length : Option Int) :
    Flat (addDimension length type) := by
  unfold addDimension
  split
  · cases flat with
    | array inner single => exact .array inner single
  · next other =>
    refine .array flat ?_
    cases type with
    | array element lengths => exact absurd rfl (other element lengths)
    | _ => rfl

theorem applySuffixes_flat (isConst : Bool) {base : NativeType} (flat : Flat base)
    (tokens : List Token) : Flat (applySuffixes isConst base tokens).1 := by
  induction tokens generalizing isConst base with
  | nil => exact flat
  | cons token rest ih =>
    cases token with
    | star => exact ih false (.pointer flat)
    | bracket digits => exact ih isConst (addDimension_flat flat _)
    | _ => exact flat

/-- All types that are read are flat, by induction on the depth. -/
theorem readType_flat (scope text : String) (depth : Nat) :
    (∀ tokens type rest, readType scope text depth tokens = .ok (type, rest) → Flat type) ∧
      ∀ tokens types rest, readParams scope text depth tokens = .ok (types, rest) →
        ∀ type ∈ types, Flat type := by
  induction depth with
  | zero =>
    constructor
    · intro tokens type rest read
      unfold readType at read
      cases read
    · intro tokens types rest read
      unfold readParams at read
      cases read
  | succ depth ih =>
    obtain ⟨oneFlat, manyFlat⟩ := ih
    constructor
    · intro tokens type rest read
      unfold readType at read
      split at read
      · cases read
      · next opened _ =>
        have inputs : ∃ params after, (∀ p ∈ params, Flat p) ∧
            (expect text .closeParen after >>= fun rest => expect text .arrow rest >>= fun rest =>
              readType scope text depth rest >>= fun returns =>
                pure (NativeType.function params returns.1, returns.2)) = .ok (type, rest) := by
          dsimp only at read
          split at read
          · obtain ⟨_, made, read⟩ := bind_eq_ok read
            obtain rfl := Except.ok.inj made
            exact ⟨[], _, by simp, read⟩
          · obtain ⟨_, made, read⟩ := bind_eq_ok read
            obtain rfl := Except.ok.inj made
            exact ⟨[], _, by simp, read⟩
          · obtain ⟨⟨params, after⟩, readParams, read⟩ := bind_eq_ok read
            exact ⟨params, after, manyFlat _ _ _ readParams, read⟩
        obtain ⟨params, after, inputs, read⟩ := inputs
        obtain ⟨afterClose, _, read⟩ := bind_eq_ok read
        obtain ⟨afterArrow, _, read⟩ := bind_eq_ok read
        obtain ⟨⟨returns, after⟩, readReturns, read⟩ := bind_eq_ok read
        obtain ⟨rfl, rfl⟩ := Prod.mk.inj (Except.ok.inj read)
        exact .function inputs (oneFlat _ _ _ readReturns)
      · next isConst name after _ =>
        have same := congrArg Prod.fst (Except.ok.inj read)
        dsimp only at same
        rw [← same]
        exact applySuffixes_flat isConst (namedType_flat scope name) after
      · cases read
    · intro tokens types rest read
      unfold readParams at read
      obtain ⟨⟨first, afterFirst⟩, readFirst, read⟩ := bind_eq_ok read
      have flat := oneFlat _ _ _ readFirst
      dsimp only at read
      split at read
      · obtain ⟨⟨others, after⟩, readOthers, read⟩ := bind_eq_ok read
        obtain ⟨rfl, rfl⟩ := Prod.mk.inj (Except.ok.inj read)
        intro type member
        rcases List.mem_cons.mp member with rfl | later
        · exact flat
        · exact manyFlat _ _ _ readOthers type later
      · obtain ⟨rfl, rfl⟩ := Prod.mk.inj (Except.ok.inj read)
        intro type member
        rwa [List.mem_singleton.mp member]

end Signature

/-- A type that is read is flat. -/
theorem NativeType.read_flat {signature scope : String} {type : NativeType}
    (read : NativeType.read signature scope = .ok type) : Flat type := by
  unfold NativeType.read at read
  split at read
  · cases read
  · cases read
  · obtain ⟨⟨found, rest⟩, readType, read⟩ := bind_eq_ok read
    dsimp only at read
    split at read
    · obtain rfl := Except.ok.inj read
      exact (Signature.readType_flat _ _ _).1 _ _ _ readType
    · cases read

/-! ## Definitions -/

namespace Metadata
open NativeType

/-- The native types that a type definition speaks of. -/
def TypeDefinition.signatures (t : TypeDefinition) : List NativeType :=
  match t.shape with
  | .record r => r.fields.map (·.type)
  | .enum .. => []
  | .interface _ methods _ => methods.flatMap fun m => m.returns :: m.params.map (·.type)
  | .delegate returns params => returns :: params.map (·.type)

/-- The native types that a definition speaks of. -/
def Definition.signatures : Definition → List NativeType
  | .function f => f.returns :: f.params.map (·.type)
  | .type t => t.signatures
  | .constant c => [c.type]

theorem Param.read_flat {space : String} {e : Markup.Element} {p : Param}
    (read : Param.read space e = .ok p) : Flat p.type := by
  unfold Param.read at read
  obtain ⟨_, _, read⟩ := bind_eq_ok read
  obtain ⟨_, _, read⟩ := bind_eq_ok read
  obtain ⟨type, readType, read⟩ := bind_eq_ok read
  obtain ⟨_, _, read⟩ := bind_eq_ok read
  obtain rfl := Except.ok.inj read
  exact NativeType.read_flat readType

theorem Field.read_flat {space : String} {e : Markup.Element} {f : Field}
    (read : Field.read space e = .ok f) : Flat f.type := by
  unfold Field.read at read
  obtain ⟨_, _, read⟩ := bind_eq_ok read
  obtain ⟨_, _, read⟩ := bind_eq_ok read
  obtain ⟨type, readType, read⟩ := bind_eq_ok read
  obtain ⟨_, _, read⟩ := bind_eq_ok read
  obtain ⟨_, _, read⟩ := bind_eq_ok read
  obtain rfl := Except.ok.inj read
  exact NativeType.read_flat readType

theorem readParams_flat {space : String} {e : Markup.Element} {params : List Param}
    (read : readParams space e = .ok params) : ∀ p ∈ params, Flat p.type := by
  intro p member
  obtain ⟨child, _, readChild⟩ := mapM_eq_ok read p member
  exact Param.read_flat readChild

theorem signature_flat {space : String} {e : Markup.Element} {returns : NativeType}
    {params : List Param} (readReturn : readReturns space e = .ok returns)
    (readRest : readParams space e = .ok params) :
    ∀ type ∈ returns :: params.map (·.type), Flat type := by
  intro type member
  rcases List.mem_cons.mp member with rfl | later
  · exact NativeType.read_flat readReturn
  · obtain ⟨p, there, rfl⟩ := List.mem_map.mp later
    exact readParams_flat readRest p there

theorem Method.read_flat {space : String} {e : Markup.Element} {m : Method}
    (read : Method.read space e = .ok m) : ∀ type ∈ m.returns :: m.params.map (·.type), Flat type := by
  unfold Method.read at read
  obtain ⟨_, _, read⟩ := bind_eq_ok read
  obtain ⟨returns, readReturn, read⟩ := bind_eq_ok read
  obtain ⟨params, readRest, read⟩ := bind_eq_ok read
  obtain rfl := Except.ok.inj read
  exact signature_flat readReturn readRest

theorem Record.read_flat {space : String} {isUnion : Bool} {e : Markup.Element} {r : Record}
    (read : Record.read space isUnion e = .ok r) : ∀ f ∈ r.fields, Flat f.type := by
  unfold Record.read at read
  obtain ⟨fields, readFields, read⟩ := bind_eq_ok read
  obtain ⟨_, _, read⟩ := bind_eq_ok read
  obtain rfl := Except.ok.inj read
  intro f member
  obtain ⟨child, _, readChild⟩ := mapM_eq_ok readFields f member
  exact Field.read_flat readChild

theorem TypeDefinition.read_flat {space : String} {e : Markup.Element} {t : TypeDefinition}
    (read : TypeDefinition.read space e = .ok t) : ∀ type ∈ t.signatures, Flat type := by
  unfold TypeDefinition.read at read
  obtain ⟨name, _, read⟩ := bind_eq_ok read
  obtain ⟨shape, readShape, read⟩ := bind_eq_ok read
  obtain rfl := Except.ok.inj read
  have record : ∀ isUnion, (do return Shape.record (← Record.read space isUnion e)) = Except.ok shape →
      ∀ type ∈ TypeDefinition.signatures ⟨name, space, shape, readArchitectures e⟩, Flat type := by
    intro isUnion read
    obtain ⟨r, readRecord, read⟩ := bind_eq_ok read
    obtain rfl := Except.ok.inj read
    intro type member
    obtain ⟨f, there, rfl⟩ := List.mem_map.mp member
    exact Record.read_flat readRecord f there
  unfold Shape.read at readShape
  split at readShape
  · exact record false readShape
  · exact record true readShape
  · dsimp only at readShape
    split at readShape
    · obtain ⟨_, _, readShape⟩ := bind_eq_ok readShape
      obtain rfl := Except.ok.inj readShape
      intro type member
      cases member
    · cases readShape
  · obtain ⟨methods, readMethods, readShape⟩ := bind_eq_ok readShape
    obtain rfl := Except.ok.inj readShape
    intro type member
    obtain ⟨m, there, inside⟩ := List.mem_flatMap.mp member
    obtain ⟨child, _, readChild⟩ := mapM_eq_ok readMethods m there
    exact Method.read_flat readChild type inside
  · obtain ⟨returns, readReturn, readShape⟩ := bind_eq_ok readShape
    obtain ⟨params, readRest, readShape⟩ := bind_eq_ok readShape
    obtain rfl := Except.ok.inj readShape
    exact signature_flat readReturn readRest
  · cases readShape

theorem Function.read_flat {space : String} {e : Markup.Element} {f : Function}
    (read : Function.read space e = .ok f) : ∀ type ∈ f.returns :: f.params.map (·.type), Flat type := by
  unfold Function.read at read
  obtain ⟨_, _, read⟩ := bind_eq_ok read
  obtain ⟨_, _, read⟩ := bind_eq_ok read
  obtain ⟨returns, readReturn, read⟩ := bind_eq_ok read
  obtain ⟨params, readRest, read⟩ := bind_eq_ok read
  obtain rfl := Except.ok.inj read
  exact signature_flat readReturn readRest

theorem Constant.read_flat {space : String} {e : Markup.Element} {c : Constant}
    (read : Constant.read space e = .ok c) : Flat c.type := by
  unfold Constant.read at read
  obtain ⟨_, _, read⟩ := bind_eq_ok read
  obtain ⟨type, readType, read⟩ := bind_eq_ok read
  obtain ⟨_, _, read⟩ := bind_eq_ok read
  obtain rfl := Except.ok.inj read
  exact NativeType.read_flat readType

/-- The types of a definition that is read are flat. -/
theorem Definition.read_flat {space : String} {e : Markup.Element} {d : Definition}
    (read : Definition.read space e = .ok d) : ∀ type ∈ d.signatures, Flat type := by
  unfold Definition.read at read
  split at read
  · obtain ⟨f, readFunction, read⟩ := bind_eq_ok read
    obtain rfl := Except.ok.inj read
    exact Function.read_flat readFunction
  · split at read
    · obtain ⟨t, readType, read⟩ := bind_eq_ok read
      obtain rfl := Except.ok.inj read
      exact TypeDefinition.read_flat readType
    · split at read
      · obtain ⟨c, readConstant, read⟩ := bind_eq_ok read
        obtain rfl := Except.ok.inj read
        intro type member
        exact List.mem_singleton.mp member ▸ Constant.read_flat readConstant
      · cases read

/-! ## Layouts -/

theorem Record.read_layout {space : String} {isUnion : Bool} {e : Markup.Element} {r : Record}
    (read : Record.read space isUnion e = .ok r) : r.isUnion = true → r.explicitLayout = true := by
  unfold Record.read at read
  obtain ⟨fields, _, read⟩ := bind_eq_ok read
  obtain ⟨_, _, read⟩ := bind_eq_ok read
  obtain rfl := Except.ok.inj read
  rintro rfl
  rfl

theorem Shape.read_layout {space name : String} {e : Markup.Element} {r : Record}
    (read : Shape.read space name e = .ok (.record r)) : r.isUnion = true → r.explicitLayout = true := by
  have record : ∀ isUnion, (do return Shape.record (← Record.read space isUnion e)) =
      Except.ok (Shape.record r) → r.isUnion = true → r.explicitLayout = true := by
    intro isUnion read
    obtain ⟨found, readRecord, read⟩ := bind_eq_ok read
    cases read
    exact Record.read_layout readRecord
  unfold Shape.read at read
  split at read
  · exact record false read
  · exact record true read
  · dsimp only at read
    split at read
    · obtain ⟨_, _, read⟩ := bind_eq_ok read
      cases read
    · cases read
  · obtain ⟨_, _, read⟩ := bind_eq_ok read
    cases read
  · obtain ⟨_, _, read⟩ := bind_eq_ok read
    obtain ⟨_, _, read⟩ := bind_eq_ok read
    cases read
  · cases read

/-- The unions among the definitions that are read have explicit layouts. -/
theorem Definition.read_layout {space : String} {e : Markup.Element} {d : Definition}
    (read : Definition.read space e = .ok d) : ∀ t r, d = .type t → t.shape = .record r →
      r.isUnion = true → r.explicitLayout = true := by
  rintro t r rfl shape
  unfold Definition.read at read
  split at read
  · obtain ⟨f, _, read⟩ := bind_eq_ok read
    cases read
  · split at read
    · obtain ⟨u, readType, read⟩ := bind_eq_ok read
      cases read
      unfold TypeDefinition.read at readType
      obtain ⟨name, _, readType⟩ := bind_eq_ok readType
      obtain ⟨found, readShape, readType⟩ := bind_eq_ok readType
      obtain rfl := Except.ok.inj readType
      obtain rfl : found = .record r := shape
      exact Shape.read_layout readShape
    · split at read
      · obtain ⟨c, _, read⟩ := bind_eq_ok read
        cases read
      · cases read

end Metadata
end Bindings
