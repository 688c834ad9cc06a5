import Interpose.Sandbox.Basic

/-!
The life of a sandbox: configured once, then a registry and a task at a time, with a reset after every task.

The reset runs the resetter of every shadow in use, restores the memory and asks the leak checks. Whatever
fails there poisons the sandbox, which is destroyed at once. A panic of a task is caught; a panic of a resetter
or a leak check is not, and leaves the sandbox in the stage that it was in.
-/

namespace Interpose.Sandbox

/-- Why an operation is not possible, given the stages that allow it. -/
def rejection? (s : Sandbox) (operation : String) (allowed : Stage → Bool) : Option Error :=
  if s.poisoned then some (.poisoned s.id)
  else if s.stage = .destroyed || !allowed s.stage then some (.invalidStage s.stage operation)
  else none

def configure (s : Sandbox) (j : Journal) : Except Error Unit × Sandbox × Journal :=
  match s.rejection? "configure" (· = .uninitialized) with
  | some e => (.error e, s, j)
  | none =>
    (.ok (), { s with memory := s.memory.load s.hierarchy, stage := .configured },
      j.addEvent .sandboxBuild (toString s.id))

/-- Puts a registry in force, after which a task may start. The answer is the set of types that are bound
differently. -/
def install (s : Sandbox) (registry : Registry) (j : Journal) :
    Except Error KeySet × Sandbox × Journal :=
  match s.rejection? "install_registry" Stage.acceptsRegistry with
  | some e => (.error e, s, j)
  | none =>
    let (changed, dispatcher) := s.dispatcher.install registry
    (.ok changed, { s with dispatcher := dispatcher, stage := .configured },
      j.addEvent .registrySwap (toString s.id))

/-- Forgets everything and ends the life of a sandbox. -/
def destroy (s : Sandbox) : Sandbox :=
  if s.stage = .destroyed then s
  else { s with dispatcher := s.dispatcher.clear, memory := s.memory.clear, stage := .destroyed }

/-- Marks a sandbox as leaking and destroys it. -/
def poison (s : Sandbox) : Sandbox := destroy { s with poisoned := true }

def resetterFailure (shadow : ShadowLayer) : Except Error Unit → List String
  | .ok _ => []
  | .error e => ["resetter of " ++ shadow.id ++ " failed: " ++ e.text]

/-- Runs the resetters of shadows one after another; the answer holds what failed. -/
def runResetters (code : Code) : List ShadowLayer → Machine → Outcome (List String) × Machine
  | [], m => (.done [], m)
  | shadow :: rest, m =>
    if shadow.hasResetter then
      Outcome.andThen (code.run (code.resetter shadow.serial) m) fun answer m =>
        Outcome.andThen (runResetters code rest m) fun failures m =>
          (.done (resetterFailure shadow answer ++ failures), m)
    else runResetters code rest m

/-- What a leak check reports, if it does; the panic of a check is a panic here. -/
def reportOf (check : LeakCheck) : Finding → Outcome (List String)
  | .clean => .done []
  | .leak details => .done [check.name ++ ": " ++ details]
  | .panic payload => .panicked payload

/-- Asks leak checks one after another; the answer holds what they report. -/
def askChecks (memory : Memory) : List LeakCheck → Journal → Outcome (List String) × Journal
  | [], j => (.done [], j)
  | check :: rest, j =>
    let (count, j) := j.ask check.serial
    Outcome.andThen (reportOf check (check.inspect count memory), j) fun report j =>
      Outcome.andThen (askChecks memory rest j) fun reports j => (.done (report ++ reports), j)

/-- What the check that every sandbox has reports. -/
def ownReport (memory : Memory) : List String :=
  ((pristineReport? memory).map fun report => pristineCheckName ++ ": " ++ report).toList

/-- What the check that every sandbox has reports, and then the others. -/
def findLeaks (s : Sandbox) (j : Journal) : Outcome (List String) × Journal :=
  if s.detectLeaks then
    Outcome.andThen (askChecks s.memory s.checks j) fun reports j =>
      (.done (ownReport s.memory ++ reports), j)
  else (.done [], j)

/-- Resets the memory; the answer holds all that failed. -/
def resetMemory (code : Code) (s : Sandbox) (j : Journal) :
    Outcome (List String) × Sandbox × Journal :=
  let (outcome, m) := runResetters code s.dispatcher.registry.shadows (s.machine j)
  Outcome.andThen (outcome, s.afterRun m, m.journal) fun failures (s, j) =>
    let s : Sandbox := { s with memory := s.memory.reset }
    let (outcome, j) := s.findLeaks j
    Outcome.andThen (outcome, s, j) fun reports (s, j) =>
      (.done (failures ++ reports), s, j.addEvent .sandboxReset (toString s.id))

/-- The leak that failures of a reset amount to. -/
def leakOf (s : Sandbox) (failures : List String) : Error :=
  .leak s.id ("; ".intercalate failures)

def reset (code : Code) (s : Sandbox) (j : Journal) :
    Outcome (Except Error Unit) × Sandbox × Journal :=
  match s.rejection? "reset" Stage.acceptsRegistry with
  | some e => (.done (.error e), s, j)
  | none =>
    Outcome.andThen (s.resetMemory code j) fun failures (s, j) =>
      if failures.isEmpty then (.done (.ok ()), s, j)
      else (.done (.error (s.leakOf failures)), s.poison, j)

/-- The result of a task; a panic is one way to fail. -/
def taskResult : Outcome (Except Error Value) → Outcome (Except Error Value)
  | .panicked payload => .done (.error (.taskPanicked (payload.getD "task panicked")))
  | outcome => outcome

/-- Runs a task and resets. The error of the task goes before what the reset found. -/
def execute (code : Code) (task : Program (Except Error Value)) (s : Sandbox) (j : Journal) :
    Outcome (Except Error Value) × Sandbox × Journal :=
  let j := { j with record := [] }
  match s.rejection? "execute" Stage.acceptsTask with
  | some e => (.done (.error e), s, j)
  | none =>
    let s : Sandbox := { s with stage := .active, runs := s.runs + 1 }
    let (outcome, m) := code.run task (s.machine j)
    Outcome.andThen (taskResult outcome, s.afterRun m, m.journal) fun result (s, j) =>
      Outcome.andThen (s.resetMemory code j) fun failures (s, j) =>
        if failures.isEmpty then (.done result, { s with stage := .idle }, j)
        else (.done (result.bind fun _ => .error (s.leakOf failures)), s.poison, j)

def build (id : Nat) (key : SandboxKey) (hierarchy : Hierarchy) (j : Journal) : Sandbox × Journal :=
  ((new id key hierarchy).configure j).2

/-- So many new sandboxes that share a key and leak checks, in the order of their ids, configured or not. -/
def makeAll (key : SandboxKey) (hierarchy : Hierarchy) (configured detectLeaks : Bool)
    (checks : List LeakCheck) : Nat → Journal → List Sandbox × Journal
  | 0, j => ([], j)
  | n + 1, j =>
    let (id, j) := j.takeSandboxId
    let (made, j) := if configured then build id key hierarchy j else (new id key hierarchy, j)
    let (others, j) := makeAll key hierarchy configured detectLeaks checks n j
    (checks.foldl withCheck (made.withLeakDetection detectLeaks) :: others, j)

end Interpose.Sandbox
