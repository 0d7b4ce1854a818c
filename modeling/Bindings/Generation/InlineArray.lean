import Bindings.Generation.Entity
import Bindings.Request.Line

/-!
# Inline arrays

A fixed array inside a struct becomes a helper type of its own, one for each element type
and length. Its name tells both, and the namespace too where the name of the element alone
would be ambiguous.
-/

namespace Bindings
open Bindings.Text

/-! ## Names -/

/-- The end of the name of the unmanaged variant of a type. -/
def unmanagedSuffix : String := "_unmanaged"

/-- The name of a variant of a type. -/
def variantName (name : String) (unmanaged : Bool) : String :=
  if unmanaged then name ++ unmanagedSuffix else name

/-- A letter or a figure of the basic Latin alphabet. -/
def isNameChar (c : Char) : Bool := Request.isLetter c || Request.isFigure c

/-- The parts of a row that letters and figures make up. -/
def nameParts : List Char → List (List Char)
  | [] => []
  | c :: rest =>
    if isNameChar c then
      match rest, nameParts rest with
      | d :: _, part :: parts => if isNameChar d then (c :: part) :: parts else [c] :: part :: parts
      | _, parts => [c] :: parts
    else nameParts rest

/-- A row with words for its stars. -/
def withPointerWords (cs : List Char) : List Char :=
  cs.flatMap fun c => if c = '*' then "_ptr".toList else [c]

/-- A text as a part of a name: what is neither letter nor figure becomes one underscore. -/
def cleanName (s : String) : String :=
  join "_" ((nameParts (withPointerWords s.toList)).map String.ofList)

/-- The name of the helper for `length` elements of a type. -/
def inlineArrayName (element : TargetType) (length : Int) (qualified : Bool) : String :=
  "__" ++ cleanName (if qualified then element.qualifiedText else element.text) ++ "_"
    ++ ofInt length

/-- Whether types of several namespaces have the simple name of an element type. -/
def isAmbiguousElement (element : TargetType) : Gen Bool := do
  match element.innermostName? with
  | none => return false
  | some name =>
    if name.space = "" then return false
    else
      let types := (← read).index.findTypes (withoutEnd unmanagedSuffix name.name)
      return 1 < (types.map (·.space)).eraseDups.length

/-! ## Declarations -/

/-- The members that every inline array has. -/
def inlineArrayMembers (element : TargetType) (length : Int) : List InlineArrayMember := [
  { name := "Length", returns := .int, behavior := some (.constant length) },
  { name := "this[]", returns := element, params := [{ name := "index", type := .int }]
    behavior := some .boundsCheckedRef },
  { name := "AsSpan", returns := .span element false },
  { name := "AsReadOnlySpan", returns := .span element true },
  { name := "CopyFrom", returns := .void
    params := [{ name := "source", type := .span element true }], behavior := some .maxLength }]

/-- The members of an inline array of characters that treat it as a text. -/
def textMembers (element helper : TargetType) : List InlineArrayMember := [
  { name := "SliceAtNull", returns := .span element true, behavior := some .truncateAtNull },
  { name := "ToString", returns := .string, behavior := some .truncateAtNull },
  { name := "Equals", returns := .bool, params := [{ name := "value", type := .string }]
    behavior := some .truncateAtNull },
  { name := "op_Implicit", returns := helper, params := [{ name := "value", type := .string }]
    behavior := some .maxLength }]

/-- The declaration of an inline array. -/
def inlineArrayDecl (visibility : Visibility) (name : String) (element : TargetType)
    (length : Int) (isChar : Bool) : InlineArrayDecl where
  name := name
  space := inlineArraySpace
  elementType := element
  length := length
  isChar := isChar
  members := inlineArrayMembers element length
    ++ if isChar then textMembers element (.named ⟨inlineArraySpace, name⟩) else []
  visibility := visibility

/-- Has the helper for an element type and a length produced, and gives its type. -/
def Links.inlineArray (links : Links) (element : TargetType) (length : Int) (isChar : Bool) :
    Gen TargetType := do
  let name := inlineArrayName element length (← isAmbiguousElement element)
  links.demand (.inlineArray name element length isChar)
  return .named ⟨inlineArraySpace, name⟩

end Bindings
