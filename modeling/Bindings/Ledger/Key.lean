import Bindings.Native.Type

/-!
# Entity keys

What identifies a generated entity: its sort, its name, and for types whether it is the
variant without marshaling.
-/

namespace Bindings

/-- The sorts of entities. Those of the generator have names of their own; whoever keeps
    other things in a ledger may use any word. -/
inductive EntityKind
  | function
  | type
  | constant
  | inlineFunction
  | special
  | guardedHandle
  | inlineArray
  | other (word : String)
  deriving DecidableEq, Repr, Inhabited

namespace EntityKind

/-- The sorts of entities that are generated. -/
def generated : List EntityKind :=
  [function, type, constant, inlineFunction, special, guardedHandle, inlineArray]

/-- The word for a sort of entities in the text of a key. -/
def text : EntityKind → String
  | function => "function"
  | type => "type"
  | constant => "constant"
  | inlineFunction => "macro"
  | special => "special"
  | guardedHandle => "guarded_handle"
  | inlineArray => "inline_array"
  | other word => word

/-- The sort of entities that a word stands for. -/
def ofText (word : String) : EntityKind := (generated.find? (·.text = word)).getD (other word)

end EntityKind

/-- The identity of a generated entity. The unmanaged variant of a type is an entity of its
    own beside the type. -/
structure EntityKey where
  kind : EntityKind
  name : QualifiedName
  unmanaged : Bool := false
  deriving DecidableEq, Repr, Inhabited

/-- The text of a key. -/
def EntityKey.text (k : EntityKey) : String :=
  k.kind.text ++ ":" ++ k.name.full ++ if k.unmanaged then " (unmanaged)" else ""

end Bindings
