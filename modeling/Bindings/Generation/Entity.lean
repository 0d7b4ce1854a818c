import Bindings.Generation.Session

/-!
# Entities

What can be asked for while declarations are being made, and how it is asked for. A step
of generation gets its links to further entities from outside, so each step stands alone.
-/

namespace Bindings
open Bindings.Metadata

/-- An entity that can be generated, with what its declarations are made from. -/
inductive Entity
  | function (f : Function)
  | type (t : TypeDefinition) (unmanaged : Bool)
  | constant (c : Constant)
  | template (t : Template)
  | guardedHandle (h : GuardedHandle)
  | inlineArray (name : String) (element : TargetType) (length : Int) (isChar : Bool)
  deriving Inhabited

/-- The namespace of inline arrays. -/
def inlineArraySpace : String := "Windows.Win32"

/-- The sort of entity that a template is. -/
def TemplateKind.entityKind : TemplateKind → EntityKind
  | special => .special
  | inlineFunction => .inlineFunction

/-- The key of an entity. -/
def Entity.key : Entity → EntityKey
  | function f => ⟨.function, ⟨f.space, f.name⟩, false⟩
  | type t unmanaged => ⟨.type, ⟨t.space, t.name⟩, unmanaged⟩
  | constant c => ⟨.constant, ⟨c.space, c.name⟩, false⟩
  | template t => ⟨t.kind.entityKind, ⟨t.space, t.name⟩, false⟩
  | guardedHandle h => ⟨.guardedHandle, ⟨h.space, h.name⟩, false⟩
  | inlineArray name _ _ _ => ⟨.inlineArray, ⟨inlineArraySpace, name⟩, false⟩

/-- The entity of a definition, a type in its own variant. -/
def Entity.ofDefinition : Definition → Entity
  | .function f => function f
  | .type t => type t false
  | .constant c => constant c

/-- The ways from one step of generation to the next: having an entity produced, and writing a
    delegate as a function pointer. -/
structure Links where
  demand : Entity → Gen Unit
  functionPointer : TypeDefinition → Gen TargetType

/-- Has a special type produced, and gives its template. -/
def Links.special (links : Links) (name : String) : Gen Template := do
  match (← read).templates.get? name with
  | none => Gen.fault (.missingSpecial name)
  | some template =>
    links.demand (.template template)
    return template

end Bindings
