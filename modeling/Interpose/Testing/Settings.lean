import Interpose.Rules
import Interpose.Testing.Levels

/-!
Settings that hold for all tests of a harness.
-/

namespace Interpose

structure Settings where
  supportedLevels : List Nat
  defaultLevel : Nat
  maxSandboxes : Nat
  detectLeaks : Bool
  rules : Rules
deriving DecidableEq

def defaultMaxSandboxes : Nat := 8

namespace Settings

def defaultLevels : List Nat := [21, 23, 26, 28, 29, 30, 31, 33, 34]

def default : Settings where
  supportedLevels := defaultLevels
  defaultLevel := 34
  maxSandboxes := defaultMaxSandboxes
  detectLeaks := true
  rules := Rules.none.withDefaultExclusions

def single (level : Nat) : Settings :=
  { default with supportedLevels := [level], defaultLevel := level }

def exhaustive : Settings :=
  { default with maxSandboxes := 2 * defaultLevels.length }

/-- Supports the given levels; the highest one becomes the default. -/
def withLevels (s : Settings) (levels : List Nat) : Settings :=
  { s with
    supportedLevels := ascending levels
    defaultLevel := (ascending levels).getLast?.getD s.defaultLevel }

def fault? (s : Settings) : Option Error :=
  if s.supportedLevels.isEmpty then some (.misconfigured "No API level is supported")
  else if !s.supportedLevels.contains s.defaultLevel then
    some (.misconfigured ("Default API level " ++ toString s.defaultLevel ++
      " is not among the supported levels " ++ levelsText s.supportedLevels))
  else if s.maxSandboxes = 0 then
    some (.misconfigured "Sandbox pool bound must be at least 1")
  else none

end Settings

end Interpose
