import Interpose.Sandbox.Pristine

/-!
Leak checks: questions asked of the memory of a sandbox after every reset.
-/

namespace Interpose

/-- What a leak check says. -/
inductive Finding where
  | clean
  | leak (details : String)
  | panic (payload : Option String)
deriving DecidableEq

/-- A leak check. What it says may depend on how often it was asked before, in any sandbox. -/
structure LeakCheck where
  name : String
  /-- Identifies the check: no two checks share a serial number. -/
  serial : Nat
  inspect : Nat → Memory → Finding

/-- A text with each occurrence of a marker replaced, from the left. The first `skip` characters belong to an
occurrence that is replaced already. -/
def substituteFrom (marker replacement : List Char) : Nat → List Char → List Char
  | _, [] => []
  | skip + 1, _ :: rest => substituteFrom marker replacement skip rest
  | 0, c :: rest =>
    if marker.isPrefixOf (c :: rest) then
      replacement ++ substituteFrom marker replacement (marker.length - 1) rest
    else c :: substituteFrom marker replacement 0 rest

def substitute (marker replacement text : String) : String :=
  String.ofList (substituteFrom marker.toList replacement.toList 0 text.toList)

namespace LeakCheck

def generationMarker : String := "\x7bgen\x7d"

def fill (m : Memory) : Finding → Finding
  | .leak details => .leak (substitute generationMarker (toString m.generation) details)
  | finding => finding

/-- A check that says one thing after another, and nothing once all is said. -/
def ofFindings (name : String) (serial : Nat) (findings : List Finding) : LeakCheck where
  name := name
  serial := serial
  inspect count m := fill m (findings[count]?.getD .clean)

end LeakCheck

end Interpose
