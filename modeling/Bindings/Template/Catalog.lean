import Bindings.Declaration.Basic
import Bindings.Metadata.Reading

/-!
# Template catalogs

Declarations written by hand for special types and function-like macros: the ones that are
always there, and those of a catalog document, which replace them by name.
-/

namespace Bindings
open Bindings.Markup Bindings.Metadata Bindings.Text

/-- The namespace of templates that name none, and of function-like macros. -/
def defaultSpace : String := "Windows.Win32"

/-- Templates by name. -/
abbrev Catalog := Table String Template

namespace Catalog

/-- The catalog of several templates. The last one of a name counts. -/
def ofTemplates (templates : List Template) : Catalog :=
  Table.ofList (templates.map fun t => (t.name, t))

/-- The names of the templates in the order of their code points. -/
def names (c : Catalog) : List String := sorted c.keys

/-- The templates in the order of their names. -/
def inOrder (c : Catalog) : List Template := c.names.filterMap (c.get? ·)

/-- The templates of two catalogs. The second one replaces those of the first. -/
def merge (c d : Catalog) : Catalog := ofTemplates (c.inOrder ++ d.inOrder)

/-- The templates that are always there. -/
def standard : Catalog := ofTemplates [
  { name := "PCWSTR", kind := .special, space := "Windows.Win32.Foundation"
    body := "readonly partial struct PCWSTR \x7b internal readonly char* Value; \x7d" },
  { name := "PCSTR", kind := .special, space := "Windows.Win32.Foundation"
    body := "readonly partial struct PCSTR \x7b internal readonly byte* Value; \x7d" },
  { name := "MAKELONG", kind := .inlineFunction, space := defaultSpace
    body := "static uint MAKELONG(ushort low, ushort high) => (uint)(low | (high << 16));" },
  { name := "HRESULT_FROM_WIN32", kind := .inlineFunction, space := defaultSpace
    body := "static HRESULT HRESULT_FROM_WIN32(WIN32_ERROR error) => "
      ++ "new(error <= 0 ? (int)error : (int)(((uint)error & 0x0000FFFF) | 0x80070000));"
    requires := ["HRESULT", "WIN32_ERROR"] }]

end Catalog

/-- The kind of template that a word stands for. -/
def TemplateKind.read? : String → Option TemplateKind
  | "special" => some .special
  | "macro" => some .inlineFunction
  | _ => none

/-- The template that an element describes. -/
def Template.read (e : Element) : Except Fault Template :=
  let word := e.attributeOr "kind" "special"
  match TemplateKind.read? word with
  | none => .error (.unknownTemplateKind word (e.attribute? "name"))
  | some kind => do
    let name ← required e "name"
    return {
      name, kind
      space := e.attributeOr "namespace" defaultSpace
      body := strip e.text
      requires := listed (e.attributeOr "requires" "") }

/-- The catalog that a document describes. -/
def Catalog.read (root : Element) : Except Fault Catalog :=
  if root.tag = "templates" then
    return Catalog.ofTemplates (← (root.childrenTagged "template").mapM Template.read)
  else .error (.unknownTemplateRoot root.tag)

end Bindings
