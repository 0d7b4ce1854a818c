import Bindings.Generation.InlineArray
import Bindings.Generation.Managed

/-!
# Projection

The target type of a native type at one place of use. Every type that the result names is
asked for, so that projecting a signature brings in all that it needs.
-/

namespace Bindings
open Bindings.Metadata

/-! ## Places and results -/

/-- The style of a projection and the place it is for. -/
structure Context where
  allowMarshaling : Bool
  isField : Bool := false
  preferInOutRef : Bool := false
  deriving DecidableEq, Repr, Inhabited

/-- The style without marshaling. -/
def Context.raw : Context := { allowMarshaling := false }

/-- The style that the options choose. -/
def standardContext : Gen Context := do
  return { allowMarshaling := (← read).options.allowMarshaling }

/-- A projected type, and how its values are handed over. -/
structure Projection where
  type : TargetType
  marshalAs : Option MarshalAs := none
  extent : Option Extent := none
  modifier : Option Modifier := none
  deriving Repr, Inhabited

/-! ## Named types -/

/-- Whether a struct is projected in its unmanaged variant: marshaling is on, but not here,
    and the struct needs it. -/
def needsUnmanagedVariant (t : TypeDefinition) (context : Context) : Gen Bool := do
  if (← read).options.allowMarshaling && !context.allowMarshaling then isManagedType t true
  else return false

/-- The target type of a definition in one of its variants. -/
def variantType (t : TypeDefinition) (unmanaged : Bool) : TargetType :=
  .named ⟨t.space, variantName t.name unmanaged⟩

/-- Projects a reference to an interface: as itself where it can be marshaled, and else as a
    pointer. A conforming interface has a second form when marshaling is on. -/
def projectInterface (links : Links) (t : TypeDefinition) (context : Context) :
    Gen Projection := do
  let conforming ← isConforming t
  if context.allowMarshaling && conforming then
    links.demand (.type t false)
    return { type := variantType t false, marshalAs := some { kind := .interface } }
  else
    let unmanaged := (← read).options.allowMarshaling && conforming
    links.demand (.type t unmanaged)
    return { type := .pointer (variantType t unmanaged) }

/-- Projects a reference to a type of the metadata. -/
def projectDefinition (links : Links) (t : TypeDefinition) (context : Context) :
    Gen Projection := do
  match t.shape with
  | .enum .. =>
    links.demand (.type t false)
    return { type := variantType t false }
  | .record _ =>
    let unmanaged ← needsUnmanagedVariant t context
    links.demand (.type t unmanaged)
    return { type := variantType t unmanaged }
  | .interface .. => projectInterface links t context
  | .delegate .. =>
    if context.allowMarshaling then
      links.demand (.type t false)
      return { type := variantType t false, marshalAs := some { kind := .functionPtr } }
    else return { type := ← links.functionPointer t }

/-- Projects a name that the metadata does not have: it may be that of a special type. -/
def projectUnknown (links : Links) (reference : QualifiedName) : Gen Projection := do
  match (← read).templates.get? reference.name with
  | some template =>
    if template.kind = .special then
      links.demand (.template template)
      return { type := .named ⟨template.space, template.name⟩ }
    else Gen.fault (.unknownReference reference.full)
  | none => Gen.fault (.unknownReference reference.full)

/-- Projects a name: a replacement first, then the special type for a constant text, then the
    type that the name means. -/
def projectName (links : Links) (reference : QualifiedName) (context : Context) (usage : Usage) :
    Gen Projection := do
  let substitutions := (← read).substitutions
  match substitutions.types.get? reference.full with
  | some type => return { type }
  | none =>
    match if usage.isConst then substitutions.constVariants.get? reference.name else none with
    | some name =>
      let template ← links.special name
      return { type := .named ⟨template.space, template.name⟩ }
    | none =>
      match ← resolve reference with
      | some t => projectDefinition links t context
      | none => projectUnknown links reference

/-! ## Pointers -/

/-- The delegate that a native type names, if it names one. -/
def delegateOf (type : NativeType) : Gen (Option TypeDefinition) := do
  match type with
  | .handle reference => return (← resolve reference).filter (·.isDelegate)
  | _ => return none

/-- Whether a native type is a primitive type of values. -/
def isValuePrimitive : NativeType → Bool
  | .primitive code => code != "void"
  | _ => false

/-- The modifier of a parameter that is passed in, out or both ways. -/
def Metadata.Usage.modifier (usage : Usage) : Modifier :=
  if usage.isIn && usage.isOut then .byRef else if usage.isOut then .byOut else .byIn

/-- The context in which a pointer is projected: in a field only an array is marshaled. -/
def pointerContext (context : Context) (usage : Usage) : Context :=
  if context.allowMarshaling && context.isField && usage.extent.isNone then
    { context with allowMarshaling := false }
  else context

/-- Projects a pointer whose target is handed over by reference or as an array, given the
    projection of the target. -/
def projectReferred (links : Links) (target : NativeType) (context : Context) (usage : Usage)
    (element : Projection) : Gen Projection := do
  let subType := element.marshalAs.map (·.kind)
  match context.allowMarshaling, usage.extent with
  | true, some extent =>
    return {
      type := .array element.type
      marshalAs := some { kind := .lpArray, arraySubType := subType, sizeConst := extent.const
                          sizeParamIndex := extent.param }
      extent := some extent }
  | _, _ =>
    if usage.isIn || usage.isOut then
      if usage.isOut && !usage.isIn && subType == some .interface
          && (← read).options.com.rawPointersForOutInterfaces then
        return { type := .nint, modifier := some .byOut }
      else return { element with modifier := some usage.modifier }
    else
      match ← delegateOf target with
      | some delegate => return { type := ← links.functionPointer delegate }
      | none =>
        if context.allowMarshaling then
          return {
            type := .array element.type
            marshalAs := some { kind := .lpArray, arraySubType := subType }
            extent := element.extent }
        else return { type := .pointer element.type }

/-- Projects a pointer, given the projection of its target. -/
def projectPointer (links : Links) (target : NativeType) (context : Context) (usage : Usage)
    (element : Projection) : Gen Projection := do
  let managed ← if context.allowMarshaling then isManaged target true else pure false
  if element.marshalAs.isSome || managed
      || (context.preferInOutRef && !usage.isOptional && isValuePrimitive target) then
    projectReferred links target context usage element
  else if context.allowMarshaling && usage.isComOutPtr then
    return { type := .object, marshalAs := some { kind := .unknown } }
  else return { type := .pointer element.type }

/-! ## Arrays -/

/-- Whether a native type is that of characters. -/
def isCharType : NativeType → Bool
  | .primitive code => code = "char"
  | _ => false

/-- Projects an array of a fixed length in a struct, given the projection of its elements. -/
def projectFixedField (links : Links) (elementType : NativeType) (length : Int)
    (context : Context) (element : Projection) : Gen Projection := do
  let managed ← if context.allowMarshaling then isManaged elementType true else pure false
  if context.allowMarshaling && (managed || element.marshalAs.isSome) then
    return {
      type := .array element.type
      marshalAs := some { kind := .byValArray, arraySubType := element.marshalAs.map (·.kind)
                          sizeConst := some length } }
  else return { type := ← links.inlineArray element.type length (isCharType elementType) }

/-- Projects an array that is not laid out in place, given the projection of its elements. -/
def projectPassedArray (length : Option Int) (context : Context) (usage : Usage)
    (element : Projection) : Projection :=
  match length with
  | some n => { type := .pointer element.type, extent := some { const := some n } }
  | none =>
    if context.allowMarshaling && !context.isField then
      { type := .array element.type
        marshalAs := some { kind := .lpArray, sizeParamIndex := usage.extent.bind (·.param)
                            sizeConst := usage.extent.bind (·.const) }
        extent := usage.extent }
    else { type := .pointer element.type, extent := usage.extent }

/-! ## All types -/

mutual

/-- Projects a native type at a place of use. -/
def project (links : Links) (type : NativeType) (context : Context) (usage : Usage) :
    Gen Projection :=
  match type with
  | .primitive code =>
    match NativeType.primitiveNames.lookup code with
    | some name => return { type := .word name }
    | none => Gen.fault (.unknownPrimitive code)
  | .pointer target isConst => do
    let context := pointerContext context usage
    let element ← project links target { context with preferInOutRef := false } { isConst }
    projectPointer links target context usage element
  | .array elementType lengths => do
    let inner := { context with preferInOutRef := false }
    match context.isField, NativeType.totalLength? lengths with
    | true, some length =>
      let element ← project links elementType inner {}
      projectFixedField links elementType length context element
    | _, length =>
      let element ← project links elementType { inner with isField := false } {}
      return projectPassedArray length context usage element
  | .handle reference => projectName links reference context usage
  | .function params returns => do
    let params ← projectAll links params
    let returns ← project links returns .raw {}
    return { type := .functionPointer params returns.type }

/-- Projects the parameters of a function type. -/
def projectAll (links : Links) (types : List NativeType) : Gen (List TargetType) :=
  match types with
  | [] => return []
  | type :: rest => do
    let first ← project links type .raw {}
    return first.type :: (← projectAll links rest)

end

/-! ## Parameters and delegates -/

/-- The declaration of a parameter. -/
def paramDecl (links : Links) (context : Context) (p : Param) : Gen ParamDecl := do
  if p.type.isVoid then Gen.fault (.voidParameter p.name)
  else
    let result ← project links p.type context p.usage
    return { name := p.name, type := result.type, modifier := result.modifier
             marshalAs := result.marshalAs, isOptional := p.usage.isOptional }

/-- The return type and the parameters of a delegate. -/
def delegateSignature (t : TypeDefinition) : NativeType × List Param :=
  match t.shape with
  | .delegate returns params => (returns, params)
  | _ => (.void, [])

/-- Writes a delegate as a function pointer. A delegate that is being written is not written
    again inside itself. -/
def expandDelegate (links : Links) (t : TypeDefinition) : Gen TargetType := do
  if (← get).expanding.contains t.full then Gen.fault (.selfReferringDelegate t.full)
  else
    modify fun s => { s with expanding := t.full :: s.expanding }
    let (returns, params) := delegateSignature t
    Gen.ensuring (do
        let params ← params.mapM fun p => return (← project links p.type .raw p.usage).type
        let returns ← project links returns .raw {}
        return .functionPointer params returns.type)
      fun s => { s with expanding := s.expanding.filter (· ≠ t.full) }

end Bindings
