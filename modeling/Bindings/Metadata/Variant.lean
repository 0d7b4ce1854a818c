import Bindings.Fault
import Bindings.Metadata.Definition

/-!
# Variants

A name may have several definitions for different architectures. For a platform exactly
one of them has to apply.
-/

namespace Bindings.Metadata

/-- Why no single variant could be chosen. -/
inductive SelectionError
  | fault (f : Fault)
  | platformMismatch (name : String) (platform : Option String) (architectures : List String)
  deriving DecidableEq, Repr

/-- Whether a definition restricted to some architectures applies on a platform. Without a
    platform a restricted definition never applies. -/
def applies (platform : Option String) (architectures : List String) : Bool :=
  architectures.isEmpty || platform.any architectures.contains

/-- The only variant that applies on a platform; `architecturesOf` tells what each variant is
    restricted to and `name` names the variants in errors. -/
def select {α : Type} (architecturesOf : α → List String) (variants : List α)
    (platform : Option String) (name : String) : Except SelectionError α :=
  if variants.isEmpty then .error (.fault (.noEntry name))
  else
    match variants.filter fun v => applies platform (architecturesOf v) with
    | [] =>
      .error (.platformMismatch name platform
        (Text.sortedSet (variants.flatMap architecturesOf)))
    | [v] => .ok v
    | matching => .error (.fault (.ambiguousVariants matching.length name))

end Bindings.Metadata
