import Bindings.Native.Type

/-!
# Target types

The types of the bindings, and the text that they are shown by.
-/

namespace Bindings

/-- A type of the bindings. A name without a namespace is a word of the target language. -/
inductive TargetType
  | named (name : QualifiedName)
  | pointer (element : TargetType)
  | array (element : TargetType)
  | span (element : TargetType) (isReadonly : Bool)
  | nullable (element : TargetType)
  | functionPointer (params : List TargetType) (returns : TargetType)
  deriving Repr, Inhabited

namespace TargetType

/-! ## Words of the target language -/

/-- A type that the target language has a word for. -/
def word (name : String) : TargetType := named ⟨"", name⟩

/-- The type of nothing. -/
def void : TargetType := word "void"

/-- The type of bytes. -/
def byte : TargetType := word "byte"

/-- The type of integers. -/
def int : TargetType := word "int"

/-- The type of truth values. -/
def bool : TargetType := word "bool"

/-- The type of texts. -/
def string : TargetType := word "string"

/-- The type of all objects. -/
def object : TargetType := word "object"

/-- The type of integers as wide as a pointer. -/
def nint : TargetType := word "nint"

/-- Whether a type is the type of nothing. -/
def isVoid : TargetType → Bool
  | named name => name = ⟨"", "void"⟩
  | _ => false

/-- Whether a type is a pointer. -/
def isPointer : TargetType → Bool
  | pointer _ => true
  | _ => false

/-! ## Text -/

mutual

/-- A type as it is shown, names without their namespace. -/
def text : TargetType → String
  | named name => name.name
  | pointer element => element.text ++ "*"
  | array element => element.text ++ "[]"
  | span element isReadonly =>
    (if isReadonly then "ReadOnlySpan" else "Span") ++ "<" ++ element.text ++ ">"
  | nullable element => element.text ++ "?"
  | functionPointer params returns =>
    "delegate* unmanaged[Stdcall]<" ++ Text.join ", " (textAll params ++ [returns.text]) ++ ">"

/-- Several types as they are shown. -/
def textAll : List TargetType → List String
  | [] => []
  | t :: rest => t.text :: textAll rest

end

/-- A type with the namespaces of the names that only pointers stand around. -/
def qualifiedText : TargetType → String
  | named name => name.full
  | pointer element => element.qualifiedText ++ "*"
  | t => t.text

/-- The name inside pointers, arrays, spans and nullable types. -/
def innermostName? : TargetType → Option QualifiedName
  | named name => some name
  | pointer element | array element | span element _ | nullable element => element.innermostName?
  | functionPointer .. => none

end TargetType
end Bindings
