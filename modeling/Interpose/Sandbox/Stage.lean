/-!
The stages of a sandbox's life.
-/

namespace Interpose

/-- Where a sandbox stands in its life. -/
inductive Stage where
  | uninitialized
  | configured
  | active
  | idle
  | destroyed
deriving DecidableEq, Repr

namespace Stage

def text : Stage → String
  | uninitialized => "Uninitialized"
  | configured => "Configured"
  | active => "Active"
  | idle => "Idle"
  | destroyed => "Destroyed"

def acceptsRegistry (s : Stage) : Bool :=
  s = configured || s = idle

def acceptsTask (s : Stage) : Bool :=
  s = configured

end Stage

end Interpose
