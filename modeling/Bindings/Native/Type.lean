import Bindings.Text.Part

/-!
# Native types

The types of a native interface, as a signature describes them, and the text that a type
is shown by.
-/

namespace Bindings

/-- A name in a namespace, which may be empty. -/
structure QualifiedName where
  space : String
  name : String
  deriving DecidableEq, Repr, Inhabited

/-- A name behind its namespace. -/
def dotted (space name : String) : String := space ++ "." ++ name

/-- The name behind its namespace, or alone when the namespace is empty. -/
def QualifiedName.full (n : QualifiedName) : String :=
  if n.space = "" then n.name else dotted n.space n.name

/-- A native type. Only the innermost pointer of a type carries the constness of its target.
    An array has a length for each dimension, or none where the length is open. -/
inductive NativeType
  | primitive (code : String)
  | pointer (element : NativeType) (isConst : Bool)
  | array (element : NativeType) (lengths : List (Option Int))
  | handle (name : QualifiedName)
  | function (params : List NativeType) (returns : NativeType)
  deriving Repr, Inhabited

namespace NativeType

/-! ## Primitive types -/

/-- The codes of the primitive types, each with the name of its type in the bindings. -/
def primitiveNames : List (String × String) := [
  ("void", "void"), ("bool", "bool"), ("char", "char"), ("i1", "sbyte"), ("u1", "byte"),
  ("i2", "short"), ("u2", "ushort"), ("i4", "int"), ("u4", "uint"), ("i8", "long"),
  ("u8", "ulong"), ("r4", "float"), ("r8", "double"), ("isize", "nint"), ("usize", "nuint")]

/-- Whether a word is the code of a primitive type. -/
def isPrimitiveCode (code : String) : Bool := (primitiveNames.lookup code).isSome

/-- The type that stands for nothing. -/
def void : NativeType := primitive "void"

/-- Whether a type is the primitive type that stands for nothing. -/
def isVoid : NativeType → Bool
  | primitive code => code = "void"
  | _ => false

/-! ## Arrays -/

/-- The number of elements in all dimensions, if none of them is open. -/
def totalLength? (lengths : List (Option Int)) : Option Int :=
  lengths.foldr (fun length total => do return (← length) * (← total)) (some 1)

/-- The total length of an array type whose dimensions are all closed. -/
def length? : NativeType → Option Int
  | array _ lengths => totalLength? lengths
  | _ => none

/-! ## Text -/

/-- A dimension of an array between its brackets. -/
def dimensionText : Option Int → String
  | none => "[]"
  | some n => "[" ++ Text.ofInt n ++ "]"

/-- The mark of a constant target, unless the text of the target bears it already. -/
def markConst (isConst : Bool) (inner : String) : String :=
  if isConst && !Text.begins "const " inner then "const " ++ inner else inner

mutual

/-- The signature of a type. -/
def text : NativeType → String
  | primitive code => code
  | handle name => name.full
  | pointer element isConst => markConst isConst element.text ++ "*"
  | array element lengths => element.text ++ Text.join "" (lengths.map dimensionText)
  | function params returns => "fn(" ++ Text.join ", " (textAll params) ++ ")->" ++ returns.text

/-- The signatures of several types. -/
def textAll : List NativeType → List String
  | [] => []
  | t :: rest => t.text :: textAll rest

end

end NativeType
end Bindings
