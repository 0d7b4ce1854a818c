import Bindings.Native.Type

/-!
# Definitions

What the metadata describes: functions, types and constants, each perhaps only for some
architectures, with the way in which each parameter, field and return value is used.
-/

namespace Bindings.Metadata

/-! ## Use -/

/-- Where the length of an array comes from: a parameter, a constant, or a field. -/
structure Extent where
  param : Option Int := none
  const : Option Int := none
  field : Option String := none
  deriving DecidableEq, Repr, Inhabited

/-- How a parameter, a field or a return value is used. -/
structure Usage where
  isIn : Bool := false
  isOut : Bool := false
  isOptional : Bool := false
  isConst : Bool := false
  isRetval : Bool := false
  isNullTerminated : Bool := false
  isComOutPtr : Bool := false
  extent : Option Extent := none
  deriving DecidableEq, Repr, Inhabited

/-- Use for input alone: a constant counts as input. -/
def Usage.isInputOnly (u : Usage) : Bool := (u.isIn || u.isConst) && !u.isOut

/-! ## Parts -/

/-- A parameter of a function, a method or a delegate. -/
structure Param where
  name : String
  type : NativeType
  usage : Usage := {}
  deriving Repr, Inhabited

/-- A field of a struct or a union. -/
structure Field where
  name : String
  type : NativeType
  usage : Usage := {}
  offset : Option Int := none
  deriving Repr, Inhabited

/-- A method of an interface. -/
structure Method where
  name : String
  returns : NativeType
  params : List Param := []
  deriving Repr, Inhabited

/-! ## Definitions -/

/-- A native function and the module that exports it. The architectures that a definition
    holds for are in the order of their code points; none stands for all of them. -/
structure Function where
  name : String
  space : String
  module : String
  returns : NativeType
  params : List Param := []
  setsLastError : Bool := false
  architectures : List String := []
  deriving Repr, Inhabited

/-- The layout of a struct or a union, and what makes it a handle. -/
structure Record where
  isUnion : Bool
  fields : List Field := []
  guid : Option String := none
  isTypedef : Bool := false
  explicitLayout : Bool := false
  release : Option String := none
  invalidValues : List Int := []
  deriving Repr, Inhabited

/-- What a type is made of. -/
inductive Shape
  | record (r : Record)
  | enum (base : String) (members : List (String × Int)) (isFlags : Bool)
  | interface (bases : List QualifiedName) (methods : List Method) (guid : Option String)
  | delegate (returns : NativeType) (params : List Param)
  deriving Repr, Inhabited

/-- A type definition. -/
structure TypeDefinition where
  name : String
  space : String
  shape : Shape
  architectures : List String := []
  deriving Repr, Inhabited

/-- A constant and the encoding of its value. -/
structure Constant where
  name : String
  space : String
  type : NativeType
  value : String
  encoding : String := "int"
  architectures : List String := []
  deriving Repr, Inhabited

/-- The full name of a function. -/
def Function.full (f : Function) : String := dotted f.space f.name

/-- The full name of a type. -/
def TypeDefinition.full (t : TypeDefinition) : String := dotted t.space t.name

/-- The full name of a constant. -/
def Constant.full (c : Constant) : String := dotted c.space c.name

namespace TypeDefinition

/-- The methods of an interface; other types have none. -/
def methods (t : TypeDefinition) : List Method :=
  match t.shape with
  | .interface _ methods _ => methods
  | _ => []

/-- The bases of an interface; other types have none. -/
def bases (t : TypeDefinition) : List QualifiedName :=
  match t.shape with
  | .interface bases _ _ => bases
  | _ => []

/-- The record of a struct or a union. -/
def record? (t : TypeDefinition) : Option Record :=
  match t.shape with
  | .record r => some r
  | _ => none

/-- Whether a type is an interface. -/
def isInterface (t : TypeDefinition) : Bool :=
  match t.shape with
  | .interface .. => true
  | _ => false

/-- Whether a type is a delegate. -/
def isDelegate (t : TypeDefinition) : Bool :=
  match t.shape with
  | .delegate .. => true
  | _ => false

/-- Whether values of a type are laid out in place: structs, unions and enums. -/
def isValue (t : TypeDefinition) : Bool :=
  match t.shape with
  | .record _ | .enum .. => true
  | _ => false

/-- The function that releases a handle of this type; an empty name stands for none. -/
def release? (t : TypeDefinition) : Option String :=
  match t.shape with
  | .record r => r.release.filter (· ≠ "")
  | _ => none

end TypeDefinition

/-- A definition of any sort. -/
inductive Definition
  | function (f : Function)
  | type (t : TypeDefinition)
  | constant (c : Constant)
  deriving Repr, Inhabited

namespace Definition

/-- The simple name of a definition. -/
def name : Definition → String
  | function f => f.name
  | type t => t.name
  | constant c => c.name

/-- The namespace of a definition. -/
def space : Definition → String
  | function f => f.space
  | type t => t.space
  | constant c => c.space

/-- The full name of a definition. -/
def full (d : Definition) : String := dotted d.space d.name

/-- The architectures that a definition holds for; none stands for all of them. -/
def architectures : Definition → List String
  | function f => f.architectures
  | type t => t.architectures
  | constant c => c.architectures

/-- The function that a definition is, if it is one. -/
def function? : Definition → Option Function
  | function f => some f
  | _ => none

/-- The type that a definition is, if it is one. -/
def type? : Definition → Option TypeDefinition
  | type t => some t
  | _ => none

end Definition
end Bindings.Metadata
