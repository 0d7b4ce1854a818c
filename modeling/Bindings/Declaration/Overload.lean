import Bindings.Declaration.Basic

/-!
# Overloads

A convenience overload of an entry point: what its parameters became, and its body as a
row of statements around one call of the entry point.
-/

namespace Bindings

/-! ## Bodies -/

/-- An argument of the call: a parameter as it is, a local made from one, the length of a
    span, the value of a handle, or the address of a local. -/
inductive CallArgument
  | pass (param : String)
  | localValue (param name : String) (cast : TargetType)
  | lengthOf (param : String) (cast : TargetType)
  | handleValue (param : String) (cast : TargetType)
  | addressOfLocal (param name : String)
  deriving Repr, Inhabited

/-- A statement in the body of an overload. A handle is released whether the call succeeds
    or not. -/
inductive Statement
  | lengthEquality (params : List String)
  | minLength (param : String) (minimum : Int)
  | pinSpan (param name : String)
  | pinReference (param name : String)
  | nullableToPointer (param name : String)
  | encodeString (param name : String) (wide : Bool)
  | handleAddRef (param flag : String)
  | handleRelease (param flag : String)
  | rawCall (function : String) (arguments : List CallArgument) (result : Option String)
  | wrapOutHandle (param name wrapper : String)
  | wrapReturnedHandle (source target wrapper : String)
  | returnValue (name : String)
  deriving Repr, Inhabited

/-! ## Changes to parameters -/

/-- What became of a parameter. -/
inductive Change
  | countedSpan (countParam : Int)
  | fixedSpan (length : Int)
  | countRemoved (span : String)
  | reference (modifier : Modifier)
  | nullable
  | string (wide : Bool)
  | guardedHandle (wrapper : String)
  | guardedHandleOut (wrapper : String)
  deriving DecidableEq, Repr, Inhabited

/-- The modifier that a changed parameter is passed by. -/
def Change.modifier? : Change → Option Modifier
  | reference modifier => some modifier
  | guardedHandleOut _ => some .byOut
  | _ => none

/-- A changed parameter: its position among those of the entry point, and its new type unless
    it was removed. -/
structure ParamTransform where
  index : Nat
  param : String
  newType : Option TargetType
  change : Change
  deriving Repr, Inhabited

/-- A convenience overload over an entry point. -/
structure Overload where
  name : String
  raw : EntryPoint
  params : List ParamDecl
  returnType : TargetType
  transforms : List ParamTransform
  body : List Statement
  visibility : Visibility := .assembly
  deriving Repr, Inhabited

end Bindings
