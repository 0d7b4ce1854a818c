import Bindings.Generation.Constant
import Bindings.Generation.Interface
import Bindings.Generation.Lookup
import Bindings.Generation.Overload
import Bindings.Generation.Transaction

/-!
# Production of entities

The declarations of each sort of entity, and the links through which they ask for further
ones. The links are tied to a depth that no chain of entities reaches.
-/

namespace Bindings
open Bindings.Metadata

/-! ## Declarations -/

/-- The entry point of a function. -/
def entryPoint (links : Links) (f : Function) : Gen EntryPoint := do
  let env ← read
  let context ← standardContext
  let returns ← project links f.returns context {}
  let params ← f.params.mapM (paramDecl links context)
  return {
    name := f.name, space := f.space, module := f.module, params
    returnType := returns.type
    returnMarshal := returns.marshalAs
    setsLastError := f.setsLastError
    marshaling := context.allowMarshaling
    visibility := env.visibility
    docs := ← Gen.docs f.name
    architectures := f.architectures }

/-- The declarations of a function: its entry point, and an overload if it has one. -/
def functionDecls (links : Links) (f : Function) : Gen (List Declaration) := do
  let raw ← entryPoint links f
  match ← overload? links raw f with
  | some overload => return [.entryPoint raw, .overload overload]
  | none => return [.entryPoint raw]

/-- Whether the fields of a struct are marshaled: the struct needs it, and this is not its
    unmanaged variant. A struct of an explicit layout has no marshaled fields. -/
def marshalsFields (t : TypeDefinition) (r : Record) (unmanaged : Bool) : Gen Bool := do
  if (← read).options.allowMarshaling && !unmanaged && !r.explicitLayout then isManagedType t true
  else return false

/-- The declaration of a field. All fields of a union begin where it begins. -/
def fieldDecl (links : Links) (context : Context) (isUnion : Bool) (f : Field) :
    Gen FieldDecl := do
  let result ← project links f.type context f.usage
  return { name := f.name, type := result.type, marshalAs := result.marshalAs
           offset := if isUnion then some 0 else f.offset
           extent := result.extent }

/-- The declaration of a struct or a union in one of its variants. -/
def structDecl (links : Links) (t : TypeDefinition) (r : Record) (unmanaged : Bool) :
    Gen StructDecl := do
  let context : Context := {
    allowMarshaling := ← marshalsFields t r unmanaged
    isField := true }
  let fields ← r.fields.mapM (fieldDecl links context r.isUnion)
  return {
    name := variantName t.name unmanaged
    space := t.space, fields
    nativeName := t.name
    isUnion := r.isUnion
    explicitLayout := r.explicitLayout
    isTypedef := r.isTypedef
    visibility := (← read).visibility
    docs := ← Gen.docs t.name }

/-- The declaration of an enum. -/
def enumDecl (t : TypeDefinition) (base : String) (members : List (String × Int))
    (isFlags : Bool) : Gen EnumDecl := do
  return {
    name := t.name, space := t.space, members, isFlags
    baseType := .word ((NativeType.primitiveNames.lookup base).getD base)
    visibility := (← read).visibility
    docs := ← Gen.docs t.name }

/-- The declaration of a delegate. -/
def delegateDecl (links : Links) (t : TypeDefinition) (returns : NativeType)
    (params : List Param) : Gen DelegateDecl := do
  let context ← standardContext
  let returns ← project links returns context {}
  let params ← params.mapM (paramDecl links context)
  return { name := t.name, space := t.space, params, returnType := returns.type
           visibility := (← read).visibility, docs := ← Gen.docs t.name }

/-- The declaration of a type in one of its variants. -/
def typeDecl (links : Links) (t : TypeDefinition) (unmanaged : Bool) : Gen Declaration := do
  match t.shape with
  | .record r => return .struct (← structDecl links t r unmanaged)
  | .enum base members isFlags => return .enum (← enumDecl t base members isFlags)
  | .interface .. =>
    let context : Context :=
      { allowMarshaling := (← read).options.allowMarshaling && !unmanaged }
    projectedInterface links t context (variantName t.name unmanaged)
  | .delegate returns params => return .delegate (← delegateDecl links t returns params)

/-- The declaration of a guarded handle, after having its release function produced. -/
def guardedHandleDecl (links : Links) (handle : GuardedHandle) : Gen Declaration := do
  let variants := (← read).index.findFunctions handle.releaseFunction
  let release ← Gen.ofSelection
    (select (·.architectures) variants (← Gen.platform) handle.releaseFunction)
  links.demand (.function release)
  return .guardedHandle handle (← read).visibility

/-- Has the names produced that a template needs. -/
def requireNames (links : Links) (template : Template) : Gen Unit :=
  template.requires.forM fun requirement => do
    if ← links.name requirement then return
    else Gen.fault (.missingRequirement template.name requirement)

/-- The declarations of an entity. -/
def declarationsOf (links : Links) : Entity → Gen (List Declaration)
  | .function f => functionDecls links f
  | .type t unmanaged => return [← typeDecl links t unmanaged]
  | .constant c => return [.constant (← constantDecl links c)]
  | .template template => do
    requireNames links template
    return [.template template]
  | .guardedHandle handle => return [← guardedHandleDecl links handle]
  | .inlineArray name element length isChar => do
    return [.inlineArray (inlineArrayDecl (← read).visibility name element length isChar)]

/-! ## Tying the links -/

/-- The links for chains of at most the given number of entities and expansions. -/
def Links.upTo : Nat → Links
  | 0 =>
    { demand := fun _ => throw .depthExceeded
      functionPointer := fun _ => throw .depthExceeded }
  | depth + 1 =>
    let inner := Links.upTo depth
    { demand := fun entity => produce entity.key (declarationsOf inner entity)
      functionPointer := expandDelegate inner }

/-- The links of a session. -/
def sessionLinks : Gen Links := do return Links.upTo (← read).depth

/-- Has an entity produced. -/
def demand (entity : Entity) : Gen Unit := do (← sessionLinks).demand entity

end Bindings
