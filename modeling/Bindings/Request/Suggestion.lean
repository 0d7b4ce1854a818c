import Bindings.Generation.Session
import Bindings.Text.Similarity

/-!
# Suggestions

Names that resemble one that was not found: first those that hold it, then those that are
spelt much alike.
-/

namespace Bindings
open Bindings.Text

/-- The names that can be suggested: of definitions, namespaces and templates. -/
def Environment.knownNames (env : Environment) : List String :=
  env.index.names ++ env.index.namespaces.keys ++ env.templates.names

/-- The names of a pool that hold the last segment of a name, in any case. -/
def containing (name : String) (pool : List String) : List String :=
  let needle := lower (lastSegment name)
  if needle = "" then [] else (sortedSet pool).filter fun known => occurs needle (lower known)

/-- Names without those that came before. -/
def withoutRepeats (found : List String) : List String → List String
  | [] => found
  | name :: rest =>
    withoutRepeats (if found.contains name then found else found ++ [name]) rest

/-- At most `limit` names that resemble a name. -/
def Environment.suggest (env : Environment) (name : String) (limit : Nat) : List String :=
  let pool := env.knownNames
  (withoutRepeats (containing name pool) (Similarity.closest name pool limit)).take limit

/-- At most `limit` names that resemble a name; the limit has to be positive. -/
def suggestions (name : String) (limit : Int) : Gen (List String) := do
  if limit ≤ 0 then throw (.badLimit limit)
  else return (← read).suggest name limit.toNat

end Bindings
