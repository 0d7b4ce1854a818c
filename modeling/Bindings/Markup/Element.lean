import Bindings.Table

/-!
# Elements

A document as a tree of elements. Comments and instructions are no part of it.
-/

namespace Bindings.Markup

/-- An element. The tag and the attribute names carry their namespace as `{uri}name`; `text`
    holds the characters before the first child. -/
structure Element where
  tag : String
  attributes : List (String × String)
  text : String
  children : List Element
  deriving Repr, Inhabited

namespace Element

/-- The value of an attribute. -/
def attribute? (e : Element) (name : String) : Option String := e.attributes.lookup name

/-- The value of an attribute, or what stands for a missing one. -/
def attributeOr (e : Element) (name default : String) : String := (e.attribute? name).getD default

/-- The children with the given tag. -/
def childrenTagged (e : Element) (tag : String) : List Element := e.children.filter (·.tag == tag)

end Element
end Bindings.Markup
