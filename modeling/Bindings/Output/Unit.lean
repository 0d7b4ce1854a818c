import Bindings.Generation.Session
import Bindings.Json.Value

/-!
# Output units

The declarations of a session in the files that they go to, and the manifest of these.
-/

namespace Bindings
open Bindings.Text

/-- A file of declarations. -/
structure OutputUnit where
  name : String
  declarations : List Declaration
  deriving Inhabited

/-- The unit of the functions of a module. -/
def moduleUnit (module : String) : String := "PInvoke." ++ upper (Metadata.moduleName module)

/-- The unit that a declaration belongs to. -/
def unitName (d : Declaration) : String :=
  match d with
  | .entryPoint e => moduleUnit e.module
  | .overload o => moduleUnit o.raw.module
  | .constant _ => "PInvoke.Constants"
  | .inlineArray _ => "InlineArrays"
  | .template t => if t.kind = .inlineFunction then "PInvoke.Macros" else dotted t.space t.name
  | d => dotted d.space d.name

/-- The unit of all declarations when there is one unit only. -/
def singleUnitName : String := "NativeMethods"

/-- Declarations in units, in the order of the names of the units. Inside a unit they keep
    their order. -/
def groupUnits (declarations : List Declaration) (single : Bool) : List OutputUnit :=
  if declarations.isEmpty then []
  else if single then [⟨singleUnitName, declarations⟩]
  else
    let groups : Table String (List Declaration) :=
      declarations.foldl (fun groups d => groups.push (unitName d) d) {}
    (groups.entries.mergeSort fun a b => !(b.1 < a.1)).map fun (name, ds) => ⟨name, ds⟩

/-- The units of what a session has committed. -/
def committedUnits : Gen (List OutputUnit) := do
  return groupUnits (← get).ledger.declarations (← read).options.emitSingleUnit

/-! ## Manifests -/

/-- The line of a manifest for a declaration. -/
def manifestLine (d : Declaration) : String := d.sort ++ ":" ++ d.name

/-- The declarations of each unit. -/
def manifest (units : List OutputUnit) : Table String (List String) :=
  units.foldl (fun table u => table.put u.name (u.declarations.map manifestLine)) {}

/-- The text of a manifest. -/
def manifestText (units : List OutputUnit) : String :=
  (Json.Value.object ((manifest units).entries.map fun (name, lines) =>
    (.ofString name, .array (lines.map fun line => .string (.ofString line))))).indented 0 ++ "\n"

end Bindings
