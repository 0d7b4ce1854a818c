import Bindings.Generation.Projection
import Bindings.Json.Value
import Bindings.Numeral.Shortest

/-!
# Constants

The declared value of a constant and the expression that stands for it, by the encoding of
the value.
-/

namespace Bindings
open Bindings.Metadata Bindings.Text

/-- A hexadecimal digit of the basic Latin alphabet. -/
def isHexFigure (c : Char) : Bool :=
  ('0' ≤ c && c ≤ '9') || ('a' ≤ c && c ≤ 'f') || ('A' ≤ c && c ≤ 'F')

/-- Whether a row is a unique identifier: groups of hexadecimal digits with hyphens between. -/
def isGuid (cs : List Char) : Bool :=
  cs.all (fun c => isHexFigure c || c = '-')
    && (cutAll '-' cs).map List.length == [8, 4, 4, 4, 12]

/-- The value of a constant and its expression, if the text of the value fits the encoding. -/
def constantValue (c : Constant) (target : TargetType) :
    Except Fault (ConstantValue × String) :=
  let raw := strip c.value
  let malformed : Fault := .malformedValue c.full c.encoding raw
  match c.encoding with
  | "int" =>
    match Numeral.readInteger? raw with
    | some n => .ok (.integer n, ofInt n)
    | none => .error malformed
  | "float" =>
    match Numeral.Binary64.read? raw with
    | some x => .ok (.real x, x.text)
    | none => .error malformed
  | "struct" =>
    match Numeral.readInteger? raw with
    | some n => .ok (.integer n, "new " ++ target.text ++ "(" ++ ofInt n ++ ")")
    | none => .error malformed
  | "string" => .ok (.text c.value, Json.writtenText c.value)
  | "guid" =>
    if isGuid raw.toList then
      let guid := lower raw
      .ok (.text guid, "new Guid(\"" ++ guid ++ "\")")
    else .error malformed
  | kind => .error (.unknownEncoding kind c.full)

/-- The encodings that a constant may have. -/
def encodings : List String := ["int", "float", "string", "guid", "struct"]

/-- The declaration of a constant. -/
def constantDecl (links : Links) (c : Constant) : Gen ConstantDecl := do
  if !encodings.contains c.encoding then Gen.fault (.unknownEncoding c.encoding c.full)
  else
    let type ← if c.encoding = "string" then pure TargetType.string
      else (·.type) <$> project links c.type .raw {}
    match constantValue c type with
    | .error f => Gen.fault f
    | .ok (value, expression) =>
      return {
        name := c.name, space := c.space, type, value, expression
        encoding := c.encoding
        visibility := (← read).visibility
        docs := ← Gen.docs c.name }

end Bindings
