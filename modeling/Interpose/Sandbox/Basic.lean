import Interpose.Execution.Machine
import Interpose.Sandbox.LeakCheck

/-!
Sandboxes: a dispatcher and a memory of their own, with a stage of life.
-/

namespace Interpose

/-- What sandboxes are shared by: one sandbox serves all tests with the same rules at the same level. -/
structure SandboxKey where
  rules : Rules
  level : Nat
deriving DecidableEq

def SandboxKey.text (k : SandboxKey) : String :=
  "api " ++ toString k.level ++ " / " ++ toString k.rules.boundShadows.size ++ " shadowed types"

structure Sandbox where
  id : Nat
  key : SandboxKey
  stage : Stage
  /-- Whether a leak was found; such a sandbox is never used again. -/
  poisoned : Bool
  runs : Nat
  detectLeaks : Bool
  /-- Leak checks beyond the one that every sandbox has, in the order they are asked. -/
  checks : List LeakCheck
  dispatcher : Dispatcher
  memory : Memory

namespace Sandbox

def new (id : Nat) (key : SandboxKey) (hierarchy : Hierarchy) : Sandbox where
  id := id
  key := key
  stage := .uninitialized
  poisoned := false
  runs := 0
  detectLeaks := true
  checks := []
  dispatcher := .new hierarchy key.rules key.level
  memory := .blank

def withLeakDetection (s : Sandbox) (enabled : Bool) : Sandbox := { s with detectLeaks := enabled }

def withCheck (s : Sandbox) (check : LeakCheck) : Sandbox := { s with checks := s.checks ++ [check] }

/-- A new sandbox with some leak checks. -/
def assemble (id : Nat) (key : SandboxKey) (hierarchy : Hierarchy) (detectLeaks : Bool)
    (checks : List LeakCheck) : Sandbox :=
  checks.foldl withCheck ((new id key hierarchy).withLeakDetection detectLeaks)

def hierarchy (s : Sandbox) : Hierarchy := s.dispatcher.setting.hierarchy

def describe (s : Sandbox) : String :=
  Text.openRecord "Sandbox"
    [("id", toString s.id), ("api_level", toString s.key.level), ("state", s.stage.text),
      ("poisoned", Text.bool s.poisoned), ("runs", toString s.runs)]

def machine (s : Sandbox) (j : Journal) : Machine := ⟨s.id, s.dispatcher, s.memory, j⟩

/-- Keeps what a machine made of dispatcher and memory. -/
def afterRun (s : Sandbox) (m : Machine) : Sandbox :=
  { s with dispatcher := m.dispatcher, memory := m.memory }

end Sandbox

end Interpose
