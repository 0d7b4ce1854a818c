import Bindings.Config.Error
import Bindings.Json.Reader
import Bindings.Text.Blank
import Bindings.Text.Case

/-!
# Options

The switches that shape every projection, and reading them from a document. The first
wrong member of a document is reported.
-/

namespace Bindings
open Bindings.Json Bindings.Text

/-! ## Platforms -/

/-- The architectures that can be generated for. -/
inductive Platform
  | x86
  | x64
  | arm64
  deriving DecidableEq, Repr, Inhabited

/-- The name of an architecture. -/
def Platform.name : Platform → String
  | x86 => "x86"
  | x64 => "x64"
  | arm64 => "arm64"

/-- The platform that a text names; several words stand for no platform in particular. -/
def Platform.read (raw : LooseText) : Except ConfigError (Option Platform) :=
  match raw.toString?.map fun s => lower (strip s) with
  | some "" | some "any" | some "anycpu" => .ok none
  | some "x86" => .ok (some .x86)
  | some "x64" => .ok (some .x64)
  | some "arm64" => .ok (some .arm64)
  | _ => .error (.platform raw)

/-! ## Options -/

/-- The switches for component interfaces. -/
structure ComOptions where
  rawPointersForOutInterfaces : Bool := false
  preserveReturnCodeMethods : List LooseText := []
  deriving DecidableEq, Repr, Inhabited

/-- The switches of a session. `wideCharOnly` leaves out the narrow variants of functions with
    two, and `platform` is the architecture to generate for, if one is chosen. -/
structure Options where
  allowMarshaling : Bool := true
  wideCharOnly : Bool := true
  isPublic : Bool := false
  useGuardedHandles : Bool := true
  emitSingleUnit : Bool := false
  platform : Option Platform := none
  com : ComOptions := {}
  deriving DecidableEq, Repr, Inhabited

/-- The name of the chosen architecture. -/
def Options.platformName? (o : Options) : Option String := o.platform.map (·.name)

/-! ## Documents -/

/-- A truth value, or the problem with a member that has none. -/
def truth (problem : OptionsProblem) (value : Value) : Except ConfigError Bool :=
  match value with
  | .bool b => .ok b
  | _ => .error (.options problem)

/-- The names of a list, or the problem with a member that has none. -/
def nameList (problem : OptionsProblem) (value : Value) : Except ConfigError (List LooseText) :=
  match value with
  | .array items =>
    match items.mapM (·.text?) with
    | some names => .ok (LooseText.sortedSet names)
    | none => .error (.options problem)
  | _ => .error (.options problem)

/-- The switches for component interfaces with one member of the document applied. -/
def ComOptions.apply (o : ComOptions) (member : LooseText × Value) :
    Except ConfigError ComOptions :=
  let (key, value) := member
  match key.toString? with
  | some "useIntPtrForComOutPointers" => do
    let b ← truth (.comNotBool key) value
    return { o with rawPointersForOutInterfaces := b }
  | some "preserveSigMethods" => do
    let names ← nameList (.comNotNames key) value
    return { o with preserveReturnCodeMethods := names }
  | _ => .error (.options (.unknownCom key))

/-- The platform of a member of the document. -/
def platformOf : Value → Except ConfigError (Option Platform)
  | .null => .ok none
  | .string raw => Platform.read raw
  | _ => .error (.options .platformNotString)

/-- The switches for component interfaces of a member of the document. -/
def comOf (o : ComOptions) : Value → Except ConfigError ComOptions
  | .object members => members.foldlM ComOptions.apply o
  | _ => .error (.options .comNotObject)

/-- The switches with one member of the document applied. -/
def Options.apply (o : Options) (member : LooseText × Value) : Except ConfigError Options :=
  let (key, value) := member
  match key.toString? with
  | some "$schema" => .ok o
  | some "platform" => do
    let platform ← platformOf value
    return { o with platform }
  | some "comInterop" => do
    let com ← comOf o.com value
    return { o with com }
  | some "allowMarshaling" => do
    let b ← truth (.notBool key) value
    return { o with allowMarshaling := b }
  | some "wideCharOnly" => do
    let b ← truth (.notBool key) value
    return { o with wideCharOnly := b }
  | some "public" => do
    let b ← truth (.notBool key) value
    return { o with isPublic := b }
  | some "useSafeHandles" => do
    let b ← truth (.notBool key) value
    return { o with useGuardedHandles := b }
  | some "emitSingleFile" => do
    let b ← truth (.notBool key) value
    return { o with emitSingleUnit := b }
  | _ => .error (.options (.unknown key))

/-- The options that a value describes. -/
def Options.ofValue : Value → Except ConfigError Options
  | .object members => members.foldlM Options.apply {}
  | _ => .error (.options .notObject)

/-- The options that the document at a path describes. -/
def Options.read (path document : String) : Except ConfigError Options :=
  match Value.read? document with
  | some value => Options.ofValue value
  | none => .error (.options (.unreadable path))

/-! ## Documentation -/

/-- The documentation texts that the document at a path gives for names. -/
def readDocumentation (path document : String) :
    Except ConfigError (Table LooseText LooseText) :=
  match Value.read? document with
  | some (.object members) =>
    match members.mapM fun (name, value) => value.text?.map (name, ·) with
    | some texts => .ok ⟨texts⟩
    | none => .error (.docsNotTexts path)
  | some _ => .error (.docsNotTexts path)
  | none => .error (.unreadableDocs path)

end Bindings
