import Bindings.Generation.Entity

/-!
# Guarded handles

Whether a release function can back a class that owns a handle: it must need one parameter
only, of a pointer type or an integer as wide as a handle, and report success in a known
way. The answer for each name is remembered.
-/

namespace Bindings
open Bindings.Metadata

/-! ## Types of handles -/

/-- The codes of the integers that can be handles. -/
def handleCodes : List String := ["i4", "u4", "isize", "usize"]

/-- Whether a handle can be of a type. -/
def canWrap : Option NativeType → Bool
  | some (.pointer ..) => true
  | some (.primitive code) => handleCodes.contains code
  | _ => false

/-- The target type of a handle, without asking for anything. -/
def handleTarget : NativeType → Gen TargetType
  | .primitive code =>
    match NativeType.primitiveNames.lookup code with
    | some name => return .word name
    | none => Gen.fault (.unknownPrimitive code)
  | .pointer element _ => do return .pointer (← handleTarget element)
  | .handle reference => return .named reference
  | type => Gen.fault (.notWrappable type.text)

/-- The type of the only field of a struct that stands for that type. -/
def wrappedType? (t : TypeDefinition) : Option NativeType :=
  match t.record? with
  | some r =>
    match r.isTypedef, r.fields with
    | true, [f] => some f.type
    | _, _ => none
  | none => none

/-! ## Release functions -/

/-- How a release function reports success. -/
def successCheck (release : Function) : Gen SuccessCheck := do
  let unknown : Gen SuccessCheck :=
    Gen.fault (.unknownReleaseResult release.returns.text release.name)
  match release.returns with
  | .primitive "void" => return .always
  | .primitive "bool" => return .isTrue
  | .primitive code =>
    if code = "i4" || code = "u4" then return .isZero
    else if code = "i1" || code = "u1" then return .isNonzero
    else unknown
  | .handle reference =>
    if reference.name = "BOOL" then return .isTrue
    else if reference.name = "BOOLEAN" then return .isNonzero
    else
      match (← read).substitutions.statusSuccess.get? reference.name with
      | some success => return .status reference.name success
      | none => unknown
  | _ => unknown

/-- The values that do not stand for a handle when the type names none. -/
def defaultInvalidValues : List Int := [-1]

/-- The values that do not stand for a handle of a type. -/
def invalidValuesOf (t : Option TypeDefinition) : List Int :=
  match (t.bind (·.record?)).map (·.invalidValues) with
  | some (v :: values) => v :: values
  | _ => defaultInvalidValues

/-- The handle that a release function backs, if it can back one. -/
def handleOfRelease (release : Function) : Gen (Option GuardedHandle) := do
  match release.params.filter (!·.usage.isOptional) with
  | [param] =>
    let definition ← match param.type with
      | .handle reference => resolve reference
      | _ => pure none
    let underlying := match param.type with
      | .handle _ => definition.bind wrappedType?
      | type => some type
    match canWrap underlying, underlying with
    | true, some type =>
      return some {
        name := release.name ++ "SafeHandle"
        space := release.space
        handleType := (definition.map (·.full)).getD param.type.text
        releaseFunction := release.name
        releaseSpace := release.space
        fieldType := ← handleTarget type
        invalidValues := invalidValuesOf definition
        check := ← successCheck release }
    | _, _ => return none
  | _ => return none

/-- The handle that the release function of a name backs. One that exists only for other
    platforms backs none. -/
def buildHandle (releaseName : String) : Gen (Option GuardedHandle) := do
  match (← read).index.findFunctions releaseName with
  | [] => return none
  | variants =>
    match select (·.architectures) variants (← Gen.platform) releaseName with
    | .ok release => handleOfRelease release
    | .error (.platformMismatch ..) => return none
    | .error e => throw (.ofSelection e)

/-- The handle that the release function of a name backs, remembered once it is known. -/
def guardedHandle? (releaseName : String) : Gen (Option GuardedHandle) := do
  match (← get).handles.get? releaseName with
  | some answer => return answer
  | none =>
    let answer ← buildHandle releaseName
    modify fun s => { s with handles := s.handles.put releaseName answer }
    return answer

/-- The handle that a release function backs, after having it produced. -/
def Links.guardedHandle (links : Links) (releaseName : String) : Gen (Option GuardedHandle) := do
  if !(← read).options.useGuardedHandles then return none
  else
    match ← guardedHandle? releaseName with
    | none => return none
    | some handle =>
      links.demand (.guardedHandle handle)
      return some handle

end Bindings
