import Interpose.Memory

/-!
The leak check that every sandbox has: after a reset its memory must be as declared.
-/

namespace Interpose

def pristineCheckName : String := "pristine-namespace"

def pristineReport? (m : Memory) : Option String :=
  if m.violations.isEmpty then none else some (", ".intercalate m.violations)

end Interpose
