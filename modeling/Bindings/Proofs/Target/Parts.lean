import Bindings.Target.Substitution

/-!
# Parts of types

What occurs in a target type, and which types are built from names, pointers and function
pointers only.
-/

namespace Bindings

/-! ## Parts -/

/-- A type occurs in another one at some depth, or is that. -/
inductive TargetType.Within (part : TargetType) : TargetType → Prop
  | itself : Within part part
  | pointer {element : TargetType} (inner : Within part element) : Within part (.pointer element)
  | array {element : TargetType} (inner : Within part element) : Within part (.array element)
  | span {element : TargetType} {isReadonly : Bool} (inner : Within part element) :
      Within part (.span element isReadonly)
  | nullable {element : TargetType} (inner : Within part element) : Within part (.nullable element)
  | param {params : List TargetType} {returns p : TargetType} (among : p ∈ params)
      (inner : Within part p) : Within part (.functionPointer params returns)
  | returns {params : List TargetType} {returns : TargetType} (inner : Within part returns) :
      Within part (.functionPointer params returns)

/-! ## Names -/

/-- A type that replaces another one, or that a pointer which does so points to. -/
inductive Substitutions.Brings (substitutions : Substitutions) : TargetType → Prop
  | entry {name : String} {type : TargetType} (held : (name, type) ∈ substitutions.types.entries) :
      Brings substitutions type
  | element {type : TargetType} (pointer : Brings substitutions (.pointer type)) :
      Brings substitutions type

/-- A name occurs in a type at some depth, outside of what was brought in. -/
inductive TargetType.Mentions (brought : TargetType → Prop) (n : QualifiedName) : TargetType → Prop
  | named (own : ¬ brought (.named n)) : Mentions brought n (.named n)
  | pointer {element : TargetType} (own : ¬ brought (.pointer element))
      (inner : Mentions brought n element) : Mentions brought n (.pointer element)
  | array {element : TargetType} (own : ¬ brought (.array element))
      (inner : Mentions brought n element) : Mentions brought n (.array element)
  | span {element : TargetType} {isReadonly : Bool} (own : ¬ brought (.span element isReadonly))
      (inner : Mentions brought n element) : Mentions brought n (.span element isReadonly)
  | nullable {element : TargetType} (own : ¬ brought (.nullable element))
      (inner : Mentions brought n element) : Mentions brought n (.nullable element)
  | param {params : List TargetType} {returns p : TargetType}
      (own : ¬ brought (.functionPointer params returns)) (among : p ∈ params)
      (inner : Mentions brought n p) : Mentions brought n (.functionPointer params returns)
  | returns {params : List TargetType} {returns : TargetType}
      (own : ¬ brought (.functionPointer params returns)) (inner : Mentions brought n returns) :
      Mentions brought n (.functionPointer params returns)

theorem TargetType.Mentions.own {brought : TargetType → Prop} {n : QualifiedName} {type : TargetType}
    (mentions : type.Mentions brought n) : ¬ brought type := by
  cases mentions <;> assumption

/-! ## Raw types -/

/-- A type without arrays, spans and nullable types whose names are all allowed. -/
inductive TargetType.Raw (allowed : QualifiedName → Prop) : TargetType → Prop
  | named {n : QualifiedName} (holds : allowed n) : Raw allowed (.named n)
  | pointer {element : TargetType} (inner : Raw allowed element) : Raw allowed (.pointer element)
  | functionPointer {params : List TargetType} {returns : TargetType}
      (inputs : ∀ p ∈ params, Raw allowed p) (output : Raw allowed returns) :
      Raw allowed (.functionPointer params returns)

namespace TargetType.Raw
variable {allowed wider : QualifiedName → Prop} {type part : TargetType}

theorem imp (raw : type.Raw allowed) (implies : ∀ n, allowed n → wider n) : type.Raw wider := by
  induction raw with
  | named holds => exact .named (implies _ holds)
  | pointer inner ih => exact .pointer ih
  | functionPointer inputs output ihInputs ihOutput => exact .functionPointer ihInputs ihOutput

/-- The parts of a raw type are raw. -/
theorem within (raw : type.Raw allowed) (inner : part.Within type) : part.Raw allowed := by
  induction inner with
  | itself => exact raw
  | pointer _ ih =>
    cases raw with
    | pointer raw => exact ih raw
  | array _ _ | span _ _ | nullable _ _ => cases raw
  | param among _ ih =>
    cases raw with
    | functionPointer inputs _ => exact ih (inputs _ among)
  | returns _ ih =>
    cases raw with
    | functionPointer _ output => exact ih output

end TargetType.Raw
end Bindings
