import Bindings.Generation.Projection

/-!
# Interfaces

An interface is declared in one of two forms: as a true interface, whose calls are
marshaled, or as a struct that points to the table of its methods.
-/

namespace Bindings
open Bindings.Metadata Bindings.Text

/-! ## True interfaces -/

/-- Whether the options keep the status code of a method as its result. -/
def preservesReturnCode (owner : TypeDefinition) (m : Method) : Gen Bool := do
  let names := (← read).options.com.preserveReturnCodeMethods
  return names.contains (.ofString (dotted owner.name m.name)) || names.contains (.ofString m.name)

/-- Whether a method reports a status. -/
def returnsStatus (m : Method) : Bool :=
  match m.returns with
  | .handle reference => reference.name = "HRESULT"
  | _ => false

/-- The target of a parameter that stands for the result of a method. -/
def resultTarget? (p : Param) : Option NativeType :=
  match p.type with
  | .pointer target _ =>
    if p.usage.isRetval || (p.usage.isOut && !p.usage.isIn && !p.usage.isOptional) then some target
    else none
  | _ => none

/-- The parameters of a method and the target of the last one, if that stands for the
    result. -/
def splitResult (params : List Param) : List Param × Option NativeType :=
  match params.getLast?.bind resultTarget? with
  | some target => (params.dropLast, some target)
  | none => (params, none)

/-- A method of a true interface. A method that reports a status gives its last parameter as
    the result instead, unless the status is to be kept. -/
def interfaceMethod (links : Links) (context : Context) (owner : TypeDefinition) (m : Method)
    (isInherited : Bool) : Gen InterfaceMethodDecl := do
  let preserved ← preservesReturnCode owner m
  if returnsStatus m && !preserved then
    let (params, target) := splitResult m.params
    let result ← match target with
      | some target => project links target context {}
      | none => pure { type := .void }
    let params ← params.mapM (paramDecl links context)
    return { name := m.name, params, returnType := result.type, returnMarshal := result.marshalAs
             preserveSig := false, isInherited }
  else
    let result ← project links m.returns context {}
    let params ← m.params.mapM (paramDecl links context)
    return { name := m.name, params, returnType := result.type, returnMarshal := result.marshalAs
             preserveSig := true, isInherited }

/-- The methods of an interface with their owners; the flag tells those of its bases. -/
def ownedMethods (chain : List TypeDefinition) (t : TypeDefinition) :
    List (TypeDefinition × Method × Bool) :=
  chain.flatMap (fun owner => owner.methods.map (owner, ·, true))
    ++ t.methods.map (t, ·, false)

/-- The declaration of an interface as a true interface. -/
def interfaceDecl (links : Links) (t : TypeDefinition) : Gen InterfaceDecl := do
  let universal := (← read).substitutions.universalBase
  let chain ← baseChain t
  let bases := chain.filter (·.name ≠ universal)
  bases.forM fun base => links.demand (.type base false)
  let context : Context := { allowMarshaling := true, preferInOutRef := true }
  let owned := (ownedMethods chain t).filter (·.1.name ≠ universal)
  let methods ← owned.mapM fun (owner, m, isInherited) =>
    interfaceMethod links context owner m isInherited
  return {
    name := t.name, space := t.space
    guid := match t.shape with
      | .interface _ _ guid => guid
      | _ => none
    bases := bases.map (·.full)
    methods
    visibility := (← read).visibility
    docs := ← Gen.docs t.name }

/-! ## Tables of methods -/

/-- A slot of a table of methods and the method that forwards to it. -/
def vtableEntry (links : Links) (self : TargetType) (index : Nat) (owner : TypeDefinition)
    (m : Method) : Gen (VtableSlot × ForwardingMethodDecl) := do
  let params ← m.params.mapM (paramDecl links .raw)
  let returns := (← project links m.returns .raw {}).type
  let functionType := TargetType.functionPointer (self :: params.map (·.type)) returns
  return (
    { index, name := m.name, owner := owner.full, functionType },
    { name := m.name, params, returnType := returns, slotIndex := index
      call := { slotIndex := index, functionType
                arguments := "this" :: params.map (·.name) } })

/-- The declaration of an interface as a struct that points to the table of its methods. -/
def vtableDecl (links : Links) (t : TypeDefinition) (name : String) : Gen VtableStructDecl := do
  let self := TargetType.pointer (.named ⟨t.space, name⟩)
  let entries ← (← slotMethods t).zipIdx.mapM fun ((owner, m), index) =>
    vtableEntry links self index owner m
  return {
    name, space := t.space
    interfaceName := t.name
    guid := match t.shape with
      | .interface _ _ guid => guid
      | _ => none
    fields := [{ name := "lpVtbl", type := .pointer (.pointer .void) }]
    slots := entries.map (·.1)
    methods := entries.map (·.2)
    visibility := (← read).visibility
    docs := ← Gen.docs t.name }

/-- The declaration of an interface in the form that its context and its bases allow. -/
def projectedInterface (links : Links) (t : TypeDefinition) (context : Context) (name : String) :
    Gen Declaration := do
  let conforming ← if context.allowMarshaling then isConforming t else pure false
  if conforming then return .interface (← interfaceDecl links t)
  else return .vtable (← vtableDecl links t name)

end Bindings
