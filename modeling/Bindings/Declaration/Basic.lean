import Bindings.Metadata.Definition
import Bindings.Numeral.Binary64
import Bindings.Target.Type

/-!
# Declarations

The declarations of the bindings apart from overloads: entry points, types, constants,
interfaces and the helpers that go with them.
-/

namespace Bindings
open Bindings.Metadata

/-! ## Parts -/

/-- Who sees a declaration. -/
inductive Visibility
  | everyone
  | assembly
  deriving DecidableEq, Repr, Inhabited

/-- How a value is handed over at run time. -/
inductive MarshalKind
  | lpArray
  | byValArray
  | interface
  | functionPtr
  | unknown
  deriving DecidableEq, Repr, Inhabited

/-- The marshaling of a value. -/
structure MarshalAs where
  kind : MarshalKind
  arraySubType : Option MarshalKind := none
  sizeConst : Option Int := none
  sizeParamIndex : Option Int := none
  deriving DecidableEq, Repr, Inhabited

/-- How a parameter is passed when it is not passed by value. -/
inductive Modifier
  | byRef
  | byOut
  | byIn
  deriving DecidableEq, Repr, Inhabited

/-- The keyword of a modifier. -/
def Modifier.text : Modifier → String
  | byRef => "ref"
  | byOut => "out"
  | byIn => "in"

/-- A declared parameter. -/
structure ParamDecl where
  name : String
  type : TargetType
  modifier : Option Modifier := none
  marshalAs : Option MarshalAs := none
  isOptional : Bool := false
  deriving Repr, Inhabited

/-- A parameter as it stands in a signature. -/
def ParamDecl.text (p : ParamDecl) : String :=
  (match p.modifier with
    | some m => m.text ++ " "
    | none => "") ++ p.type.text ++ " " ++ p.name

/-- A declared field. -/
structure FieldDecl where
  name : String
  type : TargetType
  marshalAs : Option MarshalAs := none
  offset : Option Int := none
  extent : Option Extent := none
  deriving Repr, Inhabited

/-! ## Functions -/

/-- The declaration of a native function as it is. -/
structure EntryPoint where
  name : String
  space : String
  module : String
  params : List ParamDecl
  returnType : TargetType
  returnMarshal : Option MarshalAs := none
  setsLastError : Bool := false
  marshaling : Bool := false
  visibility : Visibility := .assembly
  docs : Option String := none
  architectures : List String := []
  deriving Repr, Inhabited

/-- The signature of an entry point on one line. -/
def EntryPoint.signature (e : EntryPoint) : String :=
  e.returnType.text ++ " " ++ e.name ++ "(" ++ Text.join ", " (e.params.map (·.text)) ++ ")"

/-! ## Types -/

/-- The declaration of a struct or a union. -/
structure StructDecl where
  name : String
  space : String
  fields : List FieldDecl
  nativeName : String
  isUnion : Bool := false
  explicitLayout : Bool := false
  isTypedef : Bool := false
  visibility : Visibility := .assembly
  docs : Option String := none
  deriving Repr, Inhabited

/-- The declaration of an enum. -/
structure EnumDecl where
  name : String
  space : String
  baseType : TargetType
  members : List (String × Int)
  isFlags : Bool := false
  visibility : Visibility := .assembly
  docs : Option String := none
  deriving Repr, Inhabited

/-- The declaration of a delegate. -/
structure DelegateDecl where
  name : String
  space : String
  params : List ParamDecl
  returnType : TargetType
  visibility : Visibility := .assembly
  docs : Option String := none
  deriving Repr, Inhabited

/-- A method of a true interface. With `preserveSig` the status code stays the result. -/
structure InterfaceMethodDecl where
  name : String
  params : List ParamDecl
  returnType : TargetType
  returnMarshal : Option MarshalAs := none
  preserveSig : Bool := true
  isInherited : Bool := false
  deriving Repr, Inhabited

/-- A true interface, whose calls the run time dispatches. The methods of the universal base
    are left out and those of the other bases are declared again. -/
structure InterfaceDecl where
  name : String
  space : String
  guid : Option String
  bases : List String
  methods : List InterfaceMethodDecl
  visibility : Visibility := .assembly
  docs : Option String := none
  deriving Repr, Inhabited

/-- A slot of a table of methods. -/
structure VtableSlot where
  index : Nat
  name : String
  owner : String
  functionType : TargetType
  deriving Repr, Inhabited

/-- A call through a slot. -/
structure InvokeSlot where
  slotIndex : Nat
  functionType : TargetType
  arguments : List String
  deriving Repr, Inhabited

/-- A method that forwards to a slot. -/
structure ForwardingMethodDecl where
  name : String
  params : List ParamDecl
  returnType : TargetType
  slotIndex : Nat
  call : InvokeSlot
  deriving Repr, Inhabited

/-- An interface as a struct that points to its table of methods, slots of the bases first. -/
structure VtableStructDecl where
  name : String
  space : String
  interfaceName : String
  guid : Option String
  fields : List FieldDecl
  slots : List VtableSlot
  methods : List ForwardingMethodDecl
  visibility : Visibility := .assembly
  docs : Option String := none
  deriving Repr, Inhabited

/-! ## Constants -/

/-- The value of a constant. -/
inductive ConstantValue
  | integer (n : Int)
  | real (x : Numeral.Binary64)
  | text (s : String)
  deriving Repr, Inhabited

/-- The declaration of a constant. -/
structure ConstantDecl where
  name : String
  space : String
  type : TargetType
  value : ConstantValue
  expression : String
  encoding : String
  visibility : Visibility := .assembly
  docs : Option String := none
  deriving Repr, Inhabited

/-! ## Inline arrays -/

/-- What a member of an inline array does. -/
inductive MemberBehavior
  | constant (n : Int)
  | boundsCheckedRef
  | maxLength
  | truncateAtNull
  deriving DecidableEq, Repr, Inhabited

/-- A member of an inline array. -/
structure InlineArrayMember where
  name : String
  returns : TargetType
  params : List ParamDecl := []
  behavior : Option MemberBehavior := none
  deriving Repr, Inhabited

/-- A helper type that holds a fixed number of elements in place. -/
structure InlineArrayDecl where
  name : String
  space : String
  elementType : TargetType
  length : Int
  isChar : Bool
  members : List InlineArrayMember
  visibility : Visibility := .assembly
  deriving Repr, Inhabited

/-! ## Guarded handles -/

/-- How a release function reports success. -/
inductive SuccessCheck
  | isTrue
  | isZero
  | isNonzero
  | always
  | status (type constant : String)
  deriving DecidableEq, Repr, Inhabited

/-- A class that owns a handle and releases it. -/
structure GuardedHandle where
  name : String
  space : String
  handleType : String
  releaseFunction : String
  releaseSpace : String
  fieldType : TargetType
  invalidValues : List Int
  check : SuccessCheck
  deriving Repr, Inhabited

/-! ## Templates -/

/-- What a template stands for: a special type, or a function-like macro. -/
inductive TemplateKind
  | special
  | inlineFunction
  deriving DecidableEq, Repr, Inhabited

/-- A declaration written by hand, and the names that it needs. -/
structure Template where
  name : String
  kind : TemplateKind
  space : String
  body : String
  requires : List String := []
  deriving DecidableEq, Repr, Inhabited

end Bindings
