import Bindings.Generation.Session

/-!
# Base chains

The line of first bases of an interface. An interface conforms if the line begins with the
universal base.
-/

namespace Bindings
open Bindings.Metadata

/-- The bases of an interface, nearest first; `seen` are the names met on the way. Each step
    meets a new type, so the number of types bounds the depth. -/
def climb : Nat → List String → TypeDefinition → Gen (List TypeDefinition)
  | 0, _, _ => throw .depthExceeded
  | depth + 1, seen, t =>
    match t.bases with
    | [] => return []
    | reference :: _ => do
      match ← resolve reference with
      | none => Gen.fault (.unknownBase reference.full t.full)
      | some base =>
        if !base.isInterface then Gen.fault (.unknownBase reference.full t.full)
        else if seen.contains base.full then Gen.fault (.inheritanceCycle base.full)
        else return base :: (← climb depth (base.full :: seen) base)

/-- The line of first bases of an interface, the root first. -/
def baseChain (t : TypeDefinition) : Gen (List TypeDefinition) := do
  let depth := (← read).typeCount + 2
  return (← climb depth [t.full] t).reverse

/-- Whether an interface is the universal base, or derives from it. -/
def reachesUniversalBase (t : TypeDefinition) : Gen Bool := do
  let universal := (← read).substitutions.universalBase
  if t.name = universal then return true
  else
    match ← baseChain t with
    | [] => return false
    | root :: _ => return root.name = universal

/-- Whether an interface conforms. The answer is remembered. -/
def isConforming (t : TypeDefinition) : Gen Bool := do
  match (← get).conformance.get? t.full with
  | some b => return b
  | none =>
    let b ← reachesUniversalBase t
    modify fun s => { s with conformance := s.conformance.put t.full b }
    return b

/-- The methods of an interface with their owners, those of the root first. -/
def slotMethods (t : TypeDefinition) : Gen (List (TypeDefinition × Method)) := do
  let chain ← baseChain t
  return (chain ++ [t]).flatMap fun owner => owner.methods.map (owner, ·)

end Bindings
