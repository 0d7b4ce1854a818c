import Bindings.Generation.GuardedHandle
import Bindings.Generation.Projection

/-!
# Overloads

A convenience overload of an entry point. The plans for a parameter are tried in a fixed
order: counted spans, spans of a fixed length, guarded handles in and out, texts, and
pointers to values; a parameter takes the first that applies, and passes through if none
does.
-/

namespace Bindings
open Bindings.Metadata

/-! ## Plans -/

/-- What becomes of a parameter: how the overload declares it, what the call gets, what is
    noted of the change, and the statements before and after the call. -/
structure ParamPlan where
  surface : ParamDecl
  argument : CallArgument
  transform : Option ParamTransform := none
  before : List Statement := []
  after : List Statement := []
  deriving Inhabited

/-- The plan that leaves a parameter as it is. -/
def ParamPlan.passing (raw : ParamDecl) : ParamPlan where
  surface := raw
  argument := .pass raw.name

/-- The name of the local that is made from a parameter. -/
def localName (param : String) : String := param ++ "Local"

/-- The element of the span that a raw type becomes. -/
def spanElement : TargetType → TargetType
  | .pointer element => if element.isVoid then .byte else element
  | type => if type.isVoid then .byte else type

/-- The plan for an array whose length another parameter gives. -/
def countedSpanPlan (index : Nat) (p : Param) (raw : ParamDecl) (countParam : Int) : ParamPlan :=
  let span := TargetType.span (spanElement raw.type) p.usage.isInputOnly
  { surface := { name := p.name, type := span, isOptional := p.usage.isOptional }
    argument := .localValue p.name (localName p.name) raw.type
    transform := some { index, param := p.name, newType := some span
                        change := .countedSpan countParam }
    before := [.pinSpan p.name (localName p.name)] }

/-- The plan for an array of a fixed length. -/
def fixedSpanPlan (index : Nat) (p : Param) (raw : ParamDecl) (length : Int) : ParamPlan :=
  let span := TargetType.span (spanElement raw.type) p.usage.isInputOnly
  { surface := { name := p.name, type := span, isOptional := p.usage.isOptional }
    argument := .localValue p.name (localName p.name) raw.type
    transform := some { index, param := p.name, newType := some span, change := .fixedSpan length }
    before := [.minLength p.name length, .pinSpan p.name (localName p.name)] }

/-- The plan for a handle that is passed in. -/
def handlePlan (index : Nat) (p : Param) (raw : ParamDecl) (handle : GuardedHandle) : ParamPlan :=
  let wrapper := TargetType.named ⟨handle.space, handle.name⟩
  let flag := p.name ++ "AddRef"
  { surface := { name := p.name, type := wrapper, isOptional := p.usage.isOptional }
    argument := .handleValue p.name raw.type
    transform := some { index, param := p.name, newType := some wrapper
                        change := .guardedHandle handle.name }
    before := [.handleAddRef p.name flag]
    after := [.handleRelease p.name flag] }

/-- The plan for a handle that is passed out. -/
def handleOutPlan (index : Nat) (p : Param) (handle : GuardedHandle) : ParamPlan :=
  let wrapper := TargetType.named ⟨handle.space, handle.name⟩
  { surface := { name := p.name, type := wrapper, modifier := some .byOut }
    argument := .addressOfLocal p.name (localName p.name)
    transform := some { index, param := p.name, newType := some wrapper
                        change := .guardedHandleOut handle.name }
    after := [.wrapOutHandle p.name (localName p.name) handle.name] }

/-- The plan for a text that is passed in. -/
def textPlan (index : Nat) (p : Param) (raw : ParamDecl) (wide : Bool) : ParamPlan where
  surface := { name := p.name, type := .string, isOptional := p.usage.isOptional }
  argument := .localValue p.name (localName p.name) raw.type
  transform := some { index, param := p.name, newType := some .string, change := .string wide }
  before := [.encodeString p.name (localName p.name) wide]

/-- The plan for a pointer to a value that is passed by reference. -/
def referencePlan (index : Nat) (p : Param) (raw : ParamDecl) (element : TargetType)
    (modifier : Modifier) : ParamPlan where
  surface := { name := p.name, type := element, modifier := some modifier }
  argument := .localValue p.name (localName p.name) raw.type
  transform := some { index, param := p.name, newType := some element
                      change := .reference modifier }
  before := [.pinReference p.name (localName p.name)]

/-- The plan for a pointer to a value that may be missing. -/
def nullablePlan (index : Nat) (p : Param) (raw : ParamDecl) (element : TargetType) :
    ParamPlan where
  surface := { name := p.name, type := .nullable element, isOptional := true }
  argument := .localValue p.name (localName p.name) raw.type
  transform := some { index, param := p.name, newType := some (.nullable element)
                      change := .nullable }
  before := [.nullableToPointer p.name (localName p.name)]

/-! ## Which plan applies -/

/-- The codes of the integer types. -/
def integerCodes : List String := [
  "i1", "u1", "i2", "u2", "i4", "u4", "i8", "u8", "isize", "usize"]

/-- Whether a native type is an integer type. -/
def isIntegerType : NativeType → Bool
  | .primitive code => integerCodes.contains code
  | _ => false

/-- The fixed length of an array. -/
def fixedLength? (p : Param) : Option Int :=
  match p.type.length? with
  | some n => some n
  | none => p.usage.extent.bind (·.const)

/-- The encoding of a text: whether its characters are wide. -/
def textEncoding? (p : Param) : Option Bool :=
  match p.type with
  | .handle reference =>
    if reference.name = "PWSTR" || reference.name = "PCWSTR" then some true
    else if reference.name = "PSTR" || reference.name = "PCSTR" then some false
    else none
  | .pointer (.primitive code) isConst =>
    if isConst || p.usage.isNullTerminated then
      if code = "char" || code = "u2" then some true
      else if code = "i1" || code = "u1" then some false
      else none
    else none
  | _ => none

/-- The encoding of a text that is only passed in. -/
def inputEncoding? (p : Param) : Option Bool :=
  if p.usage.isInputOnly then textEncoding? p else none

/-- How a pointer to a value is passed that may not be missing. -/
def referenceModifier? (usage : Usage) (isConst : Bool) : Option Modifier :=
  if usage.isIn && usage.isOut then some .byRef
  else if usage.isOut then some .byOut
  else if usage.isIn || usage.isConst || isConst then some .byIn
  else none

/-- Whether values of a native type are laid out in place. -/
def isValueType (type : NativeType) : Gen Bool := do
  match type with
  | .primitive code => return code != "void"
  | .handle reference => return (← resolve reference).any (·.isValue)
  | _ => return false

/-- The guarded handle for a type in the overload of a function, after having it produced.
    The function that releases the handle gets it as it is. -/
def handleFor (links : Links) (type : NativeType) (function : Function) :
    Gen (Option GuardedHandle) := do
  match type with
  | .handle reference =>
    match ← resolve reference with
    | none => return none
    | some t =>
      match (← read).index.releaseFor? t.full with
      | none => return none
      | some release =>
        if release = function.name then return none else links.guardedHandle release
  | _ => return none

/-- The plan for a pointer to a value, if it has one. -/
def planReference (index : Nat) (p : Param) (raw : ParamDecl) : Gen (Option ParamPlan) := do
  match p.type, raw.type, raw.modifier with
  | .pointer target isConst, .pointer element, none =>
    if !(← isValueType target) then return none
    else if !p.usage.isOptional then
      return (referenceModifier? p.usage isConst).map (referencePlan index p raw element)
    else if p.usage.isInputOnly then return some (nullablePlan index p raw element)
    else return none
  | _, _, _ => return none

/-- The guarded handle that a parameter passes in. -/
def handleIn (links : Links) (p : Param) (function : Function) : Gen (Option GuardedHandle) := do
  if p.usage.isOut then return none else handleFor links p.type function

/-- The guarded handle that a parameter passes out. -/
def handleOut (links : Links) (p : Param) (raw : ParamDecl) (function : Function) :
    Gen (Option GuardedHandle) := do
  match p.type with
  | .pointer target _ =>
    if p.usage.isOut && !p.usage.isIn && raw.modifier.isNone then handleFor links target function
    else return none
  | _ => return none

/-- The plan for a parameter that is no span with a counted length. -/
def planPlain (links : Links) (index : Nat) (p : Param) (raw : ParamDecl) (function : Function) :
    Gen ParamPlan := do
  match if raw.type.isPointer then fixedLength? p else none with
  | some length => return fixedSpanPlan index p raw length
  | none =>
  match ← handleIn links p function with
  | some handle => return handlePlan index p raw handle
  | none =>
  match ← handleOut links p raw function with
  | some handle => return handleOutPlan index p handle
  | none =>
  match inputEncoding? p with
  | some wide => return textPlan index p raw wide
  | none => return (← planReference index p raw).getD (.passing raw)

/-! ## Counted spans -/

/-- The parameter that gives the length of an array parameter: another one of an integer type,
    for an array that is passed as a pointer. -/
def countOf? (function : Function) (index : Nat) (p : Param) (raw : ParamDecl) : Option Nat :=
  match p.usage.extent.bind (·.param) with
  | none => none
  | some count =>
    if count = index || count < 0 || !raw.type.isPointer then none
    else if (function.params[count.toNat]?).any (isIntegerType ·.type) then some count.toNat
    else none

/-- The array parameters with the parameters that give their lengths. -/
def countedParams (function : Function) (raw : EntryPoint) : List (Nat × Nat) :=
  (function.params.zip raw.params).zipIdx.filterMap fun ((p, r), index) =>
    (countOf? function index p r).map (index, ·)

/-- The array parameters that one parameter gives the length of. -/
def spansOf (counted : List (Nat × Nat)) (count : Nat) : List Nat :=
  (counted.filter (·.2 = count)).map (·.1)

/-- The plan for any parameter. -/
def planParam (links : Links) (function : Function) (counted : List (Nat × Nat)) (index : Nat)
    (p : Param) (raw : ParamDecl) : Gen ParamPlan :=
  match counted.lookup index with
  | some count => return countedSpanPlan index p raw count
  | none => planPlain links index p raw function

/-! ## The overload -/

/-- What becomes of the parameter at a position: it is removed when spans tell its value. -/
inductive ParamOutcome
  | removed (argument : CallArgument) (transform : ParamTransform) (check : List Statement)
  | planned (plan : ParamPlan)
  deriving Inhabited

/-- A parameter that is removed, with the spans whose length it is. Several spans are checked
    to have the same length. -/
def removedParam (function : Function) (index : Nat) (p : Param) (raw : ParamDecl)
    (spans : List Nat) : ParamOutcome :=
  let names := spans.filterMap fun i => function.params[i]?.map (·.name)
  let first := names.headD ""
  .removed (.lengthOf first raw.type)
    { index, param := p.name, newType := none, change := .countRemoved first }
    (if 1 < names.length then [.lengthEquality names] else [])

namespace ParamOutcome

/-- What the call gets. -/
def argument : ParamOutcome → CallArgument
  | removed argument _ _ => argument
  | planned plan => plan.argument

/-- What is noted of the change. -/
def transform? : ParamOutcome → Option ParamTransform
  | removed _ transform _ => some transform
  | planned plan => plan.transform

/-- How the overload declares the parameter, unless it is removed. -/
def surface? : ParamOutcome → Option ParamDecl
  | removed .. => none
  | planned plan => some plan.surface

/-- The checks of lengths before the call. -/
def checks : ParamOutcome → List Statement
  | removed _ _ check => check
  | planned _ => []

/-- The other statements before the call. -/
def before : ParamOutcome → List Statement
  | removed .. => []
  | planned plan => plan.before

/-- The statements after the call. -/
def after : ParamOutcome → List Statement
  | removed .. => []
  | planned plan => plan.after

end ParamOutcome

/-- An overload in the making: a slot for what the call gets for each parameter, and what has been declared,
    noted and stated so far. -/
structure Draft where
  slots : List (Option CallArgument)
  params : List ParamDecl := []
  transforms : List ParamTransform := []
  before : List Statement := []
  after : List Statement := []

/-- Enters what becomes of the parameter at a position. -/
def Draft.enter (draft : Draft) (index : Nat) (outcome : ParamOutcome) : Draft where
  slots := draft.slots.set index (some outcome.argument)
  params := draft.params ++ outcome.surface?.toList
  transforms := draft.transforms ++ outcome.transform?.toList
  before := draft.before ++ outcome.checks ++ outcome.before
  after := draft.after ++ outcome.after

/-- The first pass over the parameters: those are removed whose values spans tell. -/
def removeParams (function : Function) (counted : List (Nat × Nat)) :
    Nat → List (Param × ParamDecl) → Draft → Draft
  | _, [], draft => draft
  | index, (p, raw) :: rest, draft =>
    removeParams function counted (index + 1) rest <|
      match spansOf counted index with
      | [] => draft
      | spans => draft.enter index (removedParam function index p raw spans)

/-- The second pass: each of the others gets its plan. -/
def planParams (links : Links) (function : Function) (counted : List (Nat × Nat)) :
    Nat → List (Param × ParamDecl) → Draft → Gen Draft
  | _, [], draft => return draft
  | index, (p, raw) :: rest, draft => do
    let draft ← match spansOf counted index with
      | [] => (draft.enter index <| .planned ·) <$> planParam links function counted index p raw
      | _ => pure draft
    planParams links function counted (index + 1) rest draft

/-- Both passes over the parameters of a function. -/
def draftParams (links : Links) (function : Function) (raw : EntryPoint) : Gen Draft :=
  let counted := countedParams function raw
  let params := function.params.zip raw.params
  planParams links function counted 0 params
    (removeParams function counted 0 params { slots := .replicate function.params.length none })

/-- Puts a change behind those of the parameters that do not come later. -/
def insertChange (change : ParamTransform) : List ParamTransform → List ParamTransform
  | [] => [change]
  | other :: rest =>
    if change.index < other.index then change :: other :: rest else other :: insertChange change rest

/-- Changes in the order of their parameters. -/
def inParamOrder (changes : List ParamTransform) : List ParamTransform :=
  changes.foldl (fun sorted change => insertChange change sorted) []

/-- The local that holds the result of the call. -/
def resultLocal : String := "__result"

/-- The local that holds the handle made from the result. -/
def wrappedLocal : String := "__handle"

/-- The statements that give the result of the call back. -/
def returnStatements (hasResult : Bool) (guard : Option GuardedHandle) : List Statement :=
  match guard with
  | some handle =>
    [.wrapReturnedHandle resultLocal wrappedLocal handle.name, .returnValue wrappedLocal]
  | none => if hasResult then [.returnValue resultLocal] else []

/-- The type of the result of an overload: that of the guard, if there is one. -/
def resultType (raw : EntryPoint) (guard : Option GuardedHandle) : TargetType :=
  match guard with
  | some handle => .named ⟨handle.space, handle.name⟩
  | none => raw.returnType

/-- The overload of a draft whose result has a guard, unless nothing changes. Slots that are not set are left
    out. The overload has a name of its own when only the result changes. -/
def Draft.finish (draft : Draft) (raw : EntryPoint) (guard : Option GuardedHandle) : Option Overload :=
  if draft.transforms.isEmpty && guard.isNone then none
  else
    let hasResult := !raw.returnType.isVoid
    let call := Statement.rawCall raw.name (draft.slots.filterMap id)
      (if hasResult then some resultLocal else none)
    some {
      name := if draft.transforms.isEmpty then raw.name ++ "_SafeHandle" else raw.name
      raw
      params := draft.params
      returnType := resultType raw guard
      transforms := inParamOrder draft.transforms
      body := draft.before ++ [call] ++ draft.after ++ returnStatements hasResult guard
      visibility := raw.visibility }

/-- The convenience overload of an entry point, if it has one. -/
def overload? (links : Links) (raw : EntryPoint) (function : Function) :
    Gen (Option Overload) := do
  let draft ← draftParams links function raw
  let guard ← handleFor links function.returns function
  return draft.finish raw guard

end Bindings
