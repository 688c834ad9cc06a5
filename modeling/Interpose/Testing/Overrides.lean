import Interpose.Shadow
import Interpose.Testing.Levels

/-!
What a single test changes: shadows of its own, the levels it runs at, and extra interception rules.
-/

namespace Interpose

structure Overrides where
  shadows : List Shadow
  levels : LevelChoice
  includedTypes : List String
  excludedPackages : List String
deriving DecidableEq

namespace Overrides

def none : Overrides := ⟨[], .default, [], []⟩

/-- The changes of a test within a surrounding one: lists are joined, outer part first, and the inner choice
of levels wins unless it leaves them at the default. -/
def merge (outer inner : Overrides) : Overrides where
  shadows := outer.shadows ++ inner.shadows
  levels := if inner.levels = .default then outer.levels else inner.levels
  includedTypes := outer.includedTypes ++ inner.includedTypes
  excludedPackages := outer.excludedPackages ++ inner.excludedPackages

/-- The changes of nested tests, outermost first. -/
def mergeAll : List Overrides → Overrides
  | [] => none
  | first :: rest => rest.foldl merge first

def shadowsText (shadows : List Shadow) : String :=
  Text.list (shadows.map (·.id))

end Overrides

end Interpose
