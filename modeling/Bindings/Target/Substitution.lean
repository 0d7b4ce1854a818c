import Bindings.Table
import Bindings.Target.Type

/-!
# Substitutions

Names that are replaced before the metadata is asked for them.
-/

namespace Bindings

/-- What stands for some names of the metadata.

`types` gives the target type of a full name, `constVariants` the special type that a string
type becomes where it is constant, `statusSuccess` the constant that a status type reports
success by, and `universalBase` the name of the interface that all others derive from. -/
structure Substitutions where
  types : Table String TargetType := {}
  constVariants : Table String String := {}
  statusSuccess : Table String String := {}
  universalBase : String := "IUnknown"
  deriving Inhabited

/-- The substitutions of a session that names none of its own. -/
def Substitutions.standard : Substitutions where
  types := ⟨[
    ("System.Guid", .named ⟨"System", "Guid"⟩),
    ("Windows.Win32.Foundation.Guid", .named ⟨"System", "Guid"⟩)]⟩
  constVariants := ⟨[("PWSTR", "PCWSTR"), ("PSTR", "PCSTR")]⟩
  statusSuccess := ⟨[
    ("NTSTATUS", "STATUS_SUCCESS"), ("HRESULT", "S_OK"), ("WIN32_ERROR", "ERROR_SUCCESS")]⟩

end Bindings
