import Bindings.Markup.Element
import Bindings.Metadata.Definition
import Bindings.Native.Signature
import Bindings.Text.Case

/-!
# Reading definitions

The definition that an element of a metadata document describes. What is looked at first
decides which fault an element with several faults has.
-/

namespace Bindings.Metadata
open Bindings.Markup Bindings.Text

/-! ## Attributes -/

/-- Whether an attribute says yes. -/
def flag (e : Element) (name : String) : Bool :=
  ["true", "1", "yes"].contains (lower (strip (e.attributeOr name "false")))

/-- The integer of an attribute that may be missing. -/
def integer? (e : Element) (name : String) : Except Fault (Option Int) :=
  match e.attribute? name with
  | none => .ok none
  | some raw =>
    match Numeral.readInteger? raw with
    | some n => .ok (some n)
    | none => .error (.notAnInteger name raw e.tag (e.attribute? "name"))

/-- The value of an attribute that may be neither missing nor empty. -/
def required (e : Element) (name : String) : Except Fault String :=
  match e.attribute? name with
  | some value => if value = "" then .error (.missingAttribute e.tag name) else .ok value
  | none => .error (.missingAttribute e.tag name)

/-- The parts of a text between commas, without blanks around them and without empty ones. -/
def listed (s : String) : List String :=
  ((cutAll ',' s.toList).map fun part => String.ofList (dropBlanks part)).filter (· ≠ "")

/-- The architectures that an element is restricted to. -/
def readArchitectures (e : Element) : List String :=
  sortedSet ((listed (e.attributeOr "arch" "")).map lower)

/-! ## Parts -/

/-- How the parameter or field of an element is used. -/
def Usage.read (e : Element) : Except Fault Usage := do
  let param ← integer? e "count-param"
  let const ← integer? e "count-const"
  let field := e.attribute? "count-field"
  let typeText := strip (e.attributeOr "type" "")
  return {
    isIn := flag e "in"
    isOut := flag e "out"
    isOptional := flag e "optional"
    isConst := flag e "const" || begins "const " typeText
    isRetval := flag e "retval"
    isNullTerminated := flag e "null-terminated"
    isComOutPtr := flag e "com-out-ptr"
    extent := if param.isSome || const.isSome || field.isSome then some { param, const, field }
      else none }

/-- The parameter that an element describes. -/
def Param.read (space : String) (e : Element) : Except Fault Param := do
  let name ← required e "name"
  let type ← NativeType.read (← required e "type") space
  return { name, type, usage := ← Usage.read e }

/-- The field that an element describes. -/
def Field.read (space : String) (e : Element) : Except Fault Field := do
  let name ← required e "name"
  let type ← NativeType.read (← required e "type") space
  let usage ← Usage.read e
  return { name, type, usage, offset := ← integer? e "offset" }

/-- The return type of an element. -/
def readReturns (space : String) (e : Element) : Except Fault NativeType :=
  NativeType.read (e.attributeOr "returns" "void") space

/-- The parameters of an element. -/
def readParams (space : String) (e : Element) : Except Fault (List Param) :=
  (e.childrenTagged "param").mapM (Param.read space)

/-- The method that an element describes. -/
def Method.read (space : String) (e : Element) : Except Fault Method := do
  let name ← required e "name"
  let returns ← readReturns space e
  return { name, returns, params := ← readParams space e }

/-! ## Definitions -/

/-- The function that an element describes. -/
def Function.read (space : String) (e : Element) : Except Fault Function := do
  let name ← required e "name"
  let module ← required e "module"
  let returns ← readReturns space e
  let params ← readParams space e
  return {
    name, space, module, returns, params
    setsLastError := flag e "set-last-error"
    architectures := readArchitectures e }

/-- The values that do not stand for a handle. -/
def readInvalidValues (e : Element) : Except Fault (List Int) :=
  (listed (e.attributeOr "invalid" "")).mapM fun token =>
    match Numeral.readInteger? token with
    | some n => .ok n
    | none => .error (.badInvalidValue token (e.attribute? "name"))

/-- The record of a struct or a union. A union always has an explicit layout. -/
def Record.read (space : String) (isUnion : Bool) (e : Element) : Except Fault Record := do
  let fields ← (e.childrenTagged "field").mapM (Field.read space)
  return {
    isUnion, fields
    guid := e.attribute? "guid"
    isTypedef := flag e "typedef"
    explicitLayout := isUnion || e.attribute? "layout" == some "explicit"
    release := e.attribute? "release"
    invalidValues := ← readInvalidValues e }

/-- A member of an enum; without a value it is zero. -/
def readMember (e : Element) : Except Fault (String × Int) := do
  let value ← integer? e "value"
  return (← required e "name", value.getD 0)

/-- Whether a code is that of a type that an enum can be based on. -/
def isEnumBase (code : String) : Bool :=
  NativeType.isPrimitiveCode code && !(["void", "bool", "r4", "r8"].contains code)

/-- What the element of a type with the given name describes. -/
def Shape.read (space name : String) (e : Element) : Except Fault Shape :=
  match e.tag with
  | "struct" => return .record (← Record.read space false e)
  | "union" => return .record (← Record.read space true e)
  | "enum" => do
    let base := e.attributeOr "base" "i4"
    if isEnumBase base then
      return .enum base (← (e.childrenTagged "member").mapM readMember) (flag e "flags")
    else throw (.badEnumBase space name base)
  | "interface" => do
    let bases := (listed (e.attributeOr "base" "")).map (Signature.nameIn space)
    let methods ← (e.childrenTagged "method").mapM (Method.read space)
    return .interface bases methods (e.attribute? "guid")
  | "delegate" => do
    let returns ← readReturns space e
    return .delegate returns (← readParams space e)
  | tag => throw (.unknownTypeElement tag space name)

/-- The type that an element describes. -/
def TypeDefinition.read (space : String) (e : Element) : Except Fault TypeDefinition := do
  let name ← required e "name"
  return { name, space, shape := ← Shape.read space name e, architectures := readArchitectures e }

/-- The encoding of a constant that names none. -/
def defaultEncoding : NativeType → String
  | .primitive code => if code = "r4" || code = "r8" then "float" else "int"
  | .handle _ => "struct"
  | _ => "int"

/-- The constant that an element describes. -/
def Constant.read (space : String) (e : Element) : Except Fault Constant := do
  let type ← NativeType.read (← required e "type") space
  let name ← required e "name"
  return {
    name, space, type
    value := e.attributeOr "value" ""
    encoding := e.attributeOr "kind" (defaultEncoding type)
    architectures := readArchitectures e }

/-- The tags of the elements that describe a type. -/
def typeTags : List String := ["struct", "union", "enum", "interface", "delegate"]

/-- The definition that an element of a namespace describes. -/
def Definition.read (space : String) (e : Element) : Except Fault Definition := do
  if e.tag = "function" then return .function (← Function.read space e)
  else if typeTags.contains e.tag then return .type (← TypeDefinition.read space e)
  else if e.tag = "constant" then return .constant (← Constant.read space e)
  else throw (.unknownElement e.tag space)

end Bindings.Metadata
