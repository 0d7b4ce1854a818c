import Bindings.Declaration.Overload

/-!
# All declarations

Every sort of declaration as one type, and what is common to them.
-/

namespace Bindings

/-- A declaration of the bindings. -/
inductive Declaration
  | entryPoint (e : EntryPoint)
  | overload (o : Overload)
  | struct (s : StructDecl)
  | enum (e : EnumDecl)
  | delegate (d : DelegateDecl)
  | constant (c : ConstantDecl)
  | interface (i : InterfaceDecl)
  | vtable (v : VtableStructDecl)
  | inlineArray (a : InlineArrayDecl)
  | guardedHandle (h : GuardedHandle) (visibility : Visibility)
  | template (t : Template)
  deriving Repr, Inhabited

namespace Declaration

/-- The name that a declaration introduces. -/
def name : Declaration → String
  | entryPoint e => e.name
  | overload o => o.name
  | struct s => s.name
  | enum e => e.name
  | delegate d => d.name
  | constant c => c.name
  | interface i => i.name
  | vtable v => v.name
  | inlineArray a => a.name
  | guardedHandle h _ => h.name
  | template t => t.name

/-- The namespace that a declaration belongs to. -/
def space : Declaration → String
  | entryPoint e => e.space
  | overload o => o.raw.space
  | struct s => s.space
  | enum e => e.space
  | delegate d => d.space
  | constant c => c.space
  | interface i => i.space
  | vtable v => v.space
  | inlineArray a => a.space
  | guardedHandle h _ => h.space
  | template t => t.space

/-- The name of the sort of a declaration in a manifest. -/
def sort : Declaration → String
  | entryPoint _ => "ExternMethodDecl"
  | overload _ => "FriendlyOverloadDescriptor"
  | struct _ => "StructDecl"
  | enum _ => "EnumDecl"
  | delegate _ => "DelegateDecl"
  | constant _ => "ConstantDecl"
  | interface _ => "InterfaceDecl"
  | vtable _ => "VtableStructDecl"
  | inlineArray _ => "InlineArrayDecl"
  | guardedHandle .. => "GuardedHandleDecl"
  | template _ => "TemplateDeclaration"

end Declaration
end Bindings
