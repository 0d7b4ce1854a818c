import Bindings.Metadata.Reading

/-!
# The index

The definitions of all documents, found by simple name, by namespace and by module. The
index is built once, element by element in document order, and then only read.
-/

namespace Bindings.Metadata
open Bindings.Markup Bindings.Text

/-! ## Modules -/

/-- The name of a module without case, blanks around it and the ending of its file. -/
def moduleName (written : String) : String :=
  let name := strip written
  lower (if ends ".dll" (lower name) then dropEnd 4 name else name)

/-! ## Tables -/

/-- The definitions of a namespace by name, each with all its variants in document order. -/
structure Members where
  functions : Table String (List Function) := {}
  types : Table String (List TypeDefinition) := {}
  constants : Table String (List Constant) := {}
  deriving Inhabited

/-- The tables over the definitions of all documents. -/
structure Index where
  namespaces : Table String Members := {}
  releases : Table String String := {}
  restricted : List String := []
  byName : Table String (List Definition) := {}
  byModule : Table String (List Function) := {}
  deriving Inhabited

namespace Members

/-- The members with one more definition. -/
def add (m : Members) : Definition → Members
  | .function f => { m with functions := m.functions.push f.name f }
  | .type t => { m with types := m.types.push t.name t }
  | .constant c => { m with constants := m.constants.push c.name c }

/-- All variants of a name: functions, then types, then constants. -/
def named (m : Members) (name : String) : List Definition :=
  ((m.functions.get? name).getD []).map .function
    ++ ((m.types.get? name).getD []).map .type
    ++ ((m.constants.get? name).getD []).map .constant

end Members

namespace Index

/-! ## Building -/

/-- The index with one more namespace, empty unless it is there. -/
def addNamespace (index : Index) (space : String) : Index :=
  { index with namespaces := index.namespaces.putNew space {} }

/-- The index with one more definition in its namespace. -/
def add (index : Index) (d : Definition) : Index :=
  let members := ((index.namespaces.get? d.space).getD {}).add d
  { namespaces := index.namespaces.put d.space members
    releases := match d with
      | .type t => match t.release? with
        | some release => index.releases.put t.full release
        | none => index.releases
      | _ => index.releases
    restricted := if d.architectures.isEmpty || index.restricted.contains d.full
      then index.restricted else index.restricted ++ [d.full]
    byName := index.byName.push d.name d
    byModule := match d with
      | .function f => index.byModule.push (moduleName f.module) f
      | _ => index.byModule }

/-- The index with the definitions of a namespace element. -/
def addNamespaceElement (index : Index) (e : Element) : Except Fault Index := do
  let space ← required e "name"
  e.children.foldlM
    (fun index child => return index.add (← Definition.read space child))
    (index.addNamespace space)

/-- The index with the definitions of a document. -/
def addDocument (index : Index) (root : Element) : Except Fault Index :=
  if root.tag = "metadata" then
    (root.childrenTagged "namespace").foldlM addNamespaceElement index
  else .error (.unknownRoot root.tag)

/-- The index of several documents. -/
def ofDocuments (roots : List Element) : Except Fault Index := roots.foldlM addDocument {}

/-! ## Looking up -/

/-- Whether a namespace occurs in the documents. -/
def hasNamespace (index : Index) (space : String) : Bool := index.namespaces.has space

/-- Every variant of a name, simple or qualified. -/
def lookup (index : Index) (name : String) : List Definition :=
  match index.byName.get? name with
  | some found => found
  | none =>
    let (space, simple) := cutLast '.' name
    if space = "" then []
    else match index.namespaces.get? space with
      | some members => members.named simple
      | none => []

/-- The functions among the variants of a name. -/
def findFunctions (index : Index) (name : String) : List Function :=
  (index.lookup name).filterMap (·.function?)

/-- The types among the variants of a name. -/
def findTypes (index : Index) (name : String) : List TypeDefinition :=
  (index.lookup name).filterMap (·.type?)

/-- The variants of the type that a reference means: in its own namespace, or else in the
    only namespace that has a type of that name. -/
def resolve (index : Index) (reference : QualifiedName) : List TypeDefinition :=
  match (index.namespaces.get? reference.space).bind (·.types.get? reference.name) with
  | some variants => variants
  | none =>
    let candidates := ((index.byName.get? reference.name).getD []).filterMap (·.type?)
    if (candidates.map (·.space)).eraseDups.length = 1 then candidates else []

/-- The function that releases handles of a type. -/
def releaseFor? (index : Index) (typeName : String) : Option String :=
  index.releases.get? typeName

/-- The functions that a module exports. -/
def functionsInModule (index : Index) (module : String) : List Function :=
  (index.byModule.get? (moduleName module)).getD []

/-- The constants whose name begins with a text. -/
def constantsWithPrefix (index : Index) (start : String) : List Constant :=
  index.namespaces.values.flatMap fun members =>
    (members.constants.entries.filter fun (name, _) => begins start name).flatMap (·.2)

/-- The simple names of all definitions in the order of their code points. -/
def names (index : Index) : List String := sorted index.byName.keys

end Index
end Bindings.Metadata
