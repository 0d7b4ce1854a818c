import Bindings.Markup.Element
import Bindings.Markup.Piece

/-!
# Documents

The tree that the pieces of a document form, with each name in the namespace that its
qualifier stands for. A document that is not well-formed has no tree.
-/

namespace Bindings.Markup

/-! ## Namespaces -/

/-- What the qualifiers stand for, the innermost binding first; the empty qualifier stands
    for the names without one. -/
abbrev Scope := List (String × String)

/-- The namespace of the qualifier `xml`. -/
def markupUri : String := "http://www.w3.org/XML/1998/namespace"

/-- The namespace of the qualifier `xmlns`. -/
def bindingUri : String := "http://www.w3.org/2000/xmlns/"

/-- The qualifiers of a document outside of all its elements. -/
def outerScope : Scope := [("xml", markupUri)]

/-- The qualifier that an attribute binds, if it binds one. -/
def boundQualifier? (name : Name) : Option String :=
  match name.qualifier with
  | none => if name.part = "xmlns" then some "" else none
  | some qualifier => if qualifier = "xmlns" then some name.part else none

/-- Whether a qualifier may be bound to a namespace. -/
def mayBind (qualifier uri : String) : Bool :=
  if qualifier = "xmlns" then false
  else if qualifier = "xml" then uri = markupUri
  else uri != markupUri && uri != bindingUri && (qualifier = "" || uri != "")
    && !uri.toList.contains '\x7d'

/-- The scope inside an element with the given attributes. -/
def innerScope? (scope : Scope) : List (Name × String) → Option Scope
  | [] => some scope
  | (name, value) :: rest =>
    match boundQualifier? name with
    | none => innerScope? scope rest
    | some qualifier =>
      if mayBind qualifier value then innerScope? ((qualifier, value) :: scope) rest else none

/-- A name with its namespace. -/
def inNamespace (uri part : String) : String :=
  if uri = "" then part else "\x7b" ++ uri ++ "\x7d" ++ part

/-- The full name of an element. -/
def elementName? (scope : Scope) (name : Name) : Option String :=
  match name.qualifier with
  | none => some (inNamespace ((scope.lookup "").getD "") name.part)
  | some qualifier => (scope.lookup qualifier).map fun uri => inNamespace uri name.part

/-- The full name of an attribute; without a qualifier it is in no namespace. -/
def attributeName? (scope : Scope) (name : Name) : Option String :=
  match name.qualifier with
  | none => some name.part
  | some qualifier => (scope.lookup qualifier).map fun uri => inNamespace uri name.part

/-- The attributes of an element that bind no qualifier, under their full names. No full name
    occurs twice. -/
def fullAttributes? (scope : Scope) (attributes : List (Name × String)) :
    Option (List (String × String)) := do
  let plain := attributes.filter fun (name, _) => (boundQualifier? name).isNone
  let full ← plain.mapM fun (name, value) => (attributeName? scope name).map (·, value)
  let names := full.map (·.1)
  if names.eraseDups.length = names.length then return full else failure

/-! ## The tree -/

/-- An element whose closing tag is still to come. Its text and children are in reverse. -/
structure Frame where
  name : Name
  tag : String
  attributes : List (String × String)
  text : List Char
  children : List Element
  scope : Scope

/-- The element of a frame. -/
def Frame.element (f : Frame) : Element :=
  ⟨f.tag, f.attributes, String.ofList f.text.reverse, f.children.reverse⟩

/-- A frame with characters added; those after the first child are no part of the text. -/
def Frame.addText (f : Frame) (text : List Char) : Frame :=
  if f.children.isEmpty then { f with text := text.reverse ++ f.text } else f

/-- The state of building: the open elements, innermost first, and the root once closed. -/
structure Progress where
  frames : List Frame := []
  root : Option Element := none

/-- Puts a closed element into the element around it. -/
def Progress.attach (p : Progress) (e : Element) : Progress :=
  match p.frames with
  | [] => { p with root := some e }
  | f :: frames => { p with frames := { f with children := e :: f.children } :: frames }

/-- Adds characters to the innermost open element. -/
def Progress.addText? (p : Progress) (text : List Char) : Option Progress :=
  match p.frames with
  | [] => none
  | f :: frames => some { p with frames := f.addText text :: frames }

/-- Opens an element. A document has one root. -/
def Progress.open? (p : Progress) (name : Name) (attributes : List (Name × String))
    (closed : Bool) : Option Progress := do
  if p.frames.isEmpty && p.root.isSome then failure
  let scope ← innerScope? ((p.frames.head?.map (·.scope)).getD outerScope) attributes
  let tag ← elementName? scope name
  let full ← fullAttributes? scope attributes
  let frame : Frame := ⟨name, tag, full, [], [], scope⟩
  if closed then return p.attach frame.element
  else return { p with frames := frame :: p.frames }

/-- Closes the innermost open element. -/
def Progress.close? (p : Progress) (name : Name) : Option Progress :=
  match p.frames with
  | [] => none
  | f :: frames => if f.name = name then some ({ p with frames }.attach f.element) else none

/-- Takes in one piece. Outside of the root only blanks and remarks may stand. -/
def Progress.add? (p : Progress) : Piece → Option Progress
  | .remark => some p
  | .characters text =>
    if p.frames.isEmpty && text.all isSpace then some p else p.addText? text
  | .reference c => p.addText? [c]
  | .literal text => p.addText? text
  | .opening name attributes closed => p.open? name attributes closed
  | .closing name => p.close? name

/-- The root element of a document. A document that is not well-formed has none. -/
def Element.read (document : String) : Except DocumentError Element := do
  let pieces ← pieces document
  let final ← orMalformed (pieces.foldlM Progress.add? {})
  if final.frames.isEmpty then orMalformed final.root else throw .malformed

end Bindings.Markup
