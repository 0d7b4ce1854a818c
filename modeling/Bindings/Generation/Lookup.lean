import Bindings.Generation.Entity

/-!
# Finding what a name means

The definitions that a name stands for, one group for each sort and full name. A name that
belongs to several namespaces is ambiguous. A simple name of a function may leave out the
letter at its end that tells wide characters from narrow ones.
-/

namespace Bindings
open Bindings.Metadata Bindings.Text

/-- The variants of one definition, under its full name. -/
abbrev Candidate := String × List Definition

/-! ## Groups -/

/-- The sort, the namespace and the name of a definition. -/
abbrev GroupKey := EntityKind × String × String

/-- The group that a definition belongs to. -/
def groupKey (d : Definition) : GroupKey :=
  match d with
  | .function _ => (.function, d.space, d.name)
  | .type _ => (.type, d.space, d.name)
  | .constant _ => (.constant, d.space, d.name)

/-- Definitions in groups, in the order of their first members. -/
def grouped (definitions : List Definition) : Table GroupKey (List Definition) :=
  definitions.foldl (fun groups d => groups.push (groupKey d) d) {}

/-- The groups of the definitions that have exactly the given name. -/
def exactGroups (name : String) : Gen (List Candidate) := do
  let groups := grouped ((← read).index.lookup name)
  if 1 < (groups.keys.map (·.2.1)).eraseDups.length then
    let names := sortedSet (groups.keys.map fun (_, space, name) => dotted space name)
    throw (.input (.ambiguous name names))
  else return groups.entries.map fun ((_, space, name), variants) => (dotted space name, variants)

/-- The letters that a function name may leave out: `W` for wide characters and `A` for narrow
    ones. -/
def omittedLetters (options : Options) : List String :=
  if options.wideCharOnly then ["W"] else ["W", "A"]

/-- The groups of the functions that have the given name with a letter after it. -/
def groupsWithLetter (name letter : String) : Gen (List Candidate) := do
  return (← exactGroups (name ++ letter)).filter (·.2.any (·.function?.isSome))

/-- The groups that a name stands for. -/
def groupsOf (name : String) : Gen (List Candidate) := do
  let exact ← exactGroups name
  if !exact.isEmpty || holds name '.' then return exact
  else return (← (omittedLetters (← read).options).mapM (groupsWithLetter name)).flatten

/-! ## Asking by name -/

/-- Has the variant of a definition produced that applies on the chosen platform. -/
def Links.candidate (links : Links) (candidate : Candidate) : Gen Unit := do
  let chosen ← Gen.ofSelection
    (select (·.architectures) candidate.2 (← Gen.platform) candidate.1)
  links.demand (.ofDefinition chosen)

/-- Has all that a name stands for produced: definitions, or else a template. Tells whether
    the name stands for anything. -/
def Links.name (links : Links) (name : String) : Gen Bool := do
  match ← groupsOf name with
  | [] =>
    match (← read).templates.get? (lastSegment name) with
    | none => return false
    | some template =>
      links.demand (.template template)
      return true
  | groups =>
    groups.forM links.candidate
    return true

end Bindings
