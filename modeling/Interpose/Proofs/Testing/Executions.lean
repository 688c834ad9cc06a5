import Interpose.Proofs.Execution.Moments
import Interpose.Proofs.Pool.Waiting
import Interpose.Testing.Harness

/-!
# The executions of a harness

An execution is one task at one level, in the sandbox that was leased for it. The executions of a harness are
listed in the order they happen, whatever becomes of them. A sandbox is used by one execution after another, and
a harness makes sure that each one finds it as declared, in a generation that counts the executions before it.
-/

namespace Interpose

/-- A task at one level, with the sandbox that was leased for it and the journal as it was then. -/
structure Execution where
  code : Code
  registry : Registry
  task : Program (Except Error Value)
  sandbox : Sandbox
  journal : Journal

/-- The operations that resetters perform, one resetter after another. -/
inductive ResettersPerform (code : Code) : List ShadowLayer → Machine → Op → Machine → Prop
  | here {shadow : ShadowLayer} {rest : List ShadowLayer} {m m' : Machine} {op : Op}
      (hr : shadow.hasResetter = true) (h : code.Performs code.depth (code.resetter shadow.serial) m op m') :
      ResettersPerform code (shadow :: rest) m op m'
  | next {shadow : ShadowLayer} {rest : List ShadowLayer} {m m₁ m' : Machine} {op : Op}
      {answer : Except Error Unit} (hr : shadow.hasResetter = true)
      (hdone : code.run (code.resetter shadow.serial) m = (.done answer, m₁))
      (h : ResettersPerform code rest m₁ op m') : ResettersPerform code (shadow :: rest) m op m'
  | skip {shadow : ShadowLayer} {rest : List ShadowLayer} {m m' : Machine} {op : Op}
      (hr : shadow.hasResetter = false) (h : ResettersPerform code rest m op m') :
      ResettersPerform code (shadow :: rest) m op m'

theorem ResettersPerform.reaches {code : Code} {shadows : List ShadowLayer} {m m' : Machine} {op : Op}
    (h : ResettersPerform code shadows m op m') : Machine.Reaches m m' := by
  induction h with
  | here _ h => exact h.reaches
  | next _ hdone _ ih => exact (Code.reaches_of_run hdone).trans ih
  | skip _ _ ih => exact ih

namespace Execution

/-- The generation of the objects that are made. -/
def generation (e : Execution) : Nat := e.sandbox.memory.generation

/-- The machine that the task starts on. -/
def start (e : Execution) : Machine :=
  let installed := e.sandbox.install e.registry { e.journal with record := [] }
  installed.2.1.machine { installed.2.2 with record := [] }

/-- The task up to the reset. -/
def taskRun (e : Execution) : Outcome (Except Error Value) × Machine := e.code.run e.task e.start

/-- The operations that are performed during an execution, each with the machine it is performed on: by the task
and the bodies it calls, and then by resetters. -/
inductive Performs (e : Execution) : Op → Machine → Prop
  | task {op : Op} {m : Machine} (h : e.code.Performs e.code.depth e.task e.start op m) : Performs e op m
  | resetter {op : Op} {m : Machine} (hended : e.taskRun.1 ≠ .unfinished)
      (h : ResettersPerform e.code e.taskRun.2.dispatcher.registry.shadows e.taskRun.2 op m) : Performs e op m

/-- A handle is given out during an execution, for an object that is made then. -/
def Allocates (e : Execution) (handle : ObjectHandle) : Prop :=
  ∃ typeId m memory, e.Performs (.create typeId) m ∧
    m.memory.create m.hierarchy typeId = .ok (handle, memory)

theorem Performs.reaches {e : Execution} {op : Op} {m : Machine} (h : e.Performs op m) :
    Machine.Reaches e.start m := by
  cases h with
  | task h => exact h.reaches
  | resetter _ h =>
    have hrun : Machine.Reaches e.start e.taskRun.2 := e.code.reaches_run _ _
    exact hrun.trans h.reaches

end Execution

namespace Harness

/-- The execution that running a task at one level amounts to, if a sandbox is got. -/
def executionAt (code : Code) (h : Harness) (key : SandboxKey) (registry : Registry)
    (task : Program (Except Error Value)) : List Execution :=
  match h.lease key with
  | (.done (.granted s), h) => [⟨code, registry, task, s, h.journal⟩]
  | _ => []

/-- The executions at one level after another; a panic keeps the levels after it from being run. -/
def levelExecutions (code : Code) (rules : Rules) (registry : Registry)
    (task : Program (Except Error Value)) : List Nat → Harness → List Execution
  | [], _ => []
  | level :: rest, h =>
    h.executionAt code ⟨rules, level⟩ registry task ++
      match h.runAt code ⟨rules, level⟩ registry task with
      | (.done _, h) => levelExecutions code rules registry task rest h
      | _ => []

/-- The executions of a run. -/
def executions (code : Code) (h : Harness) (test : Overrides) (task : Program (Except Error Value)) :
    List Execution :=
  match test.levels.select h.settings.supportedLevels h.settings.defaultLevel with
  | .error _ => []
  | .ok levels =>
    match h.registryFor test with
    | (.error _, _) => []
    | (.ok registry, h) => levelExecutions code (h.rulesFor test) registry task levels h

/-- What can become of a harness, with the executions so far. Code that panics may be run by a harness that is
used on, and sandboxes may be built ahead in any interleaving. -/
inductive History : Harness → List Execution → Prop
  | new {hierarchy : Hierarchy} {settings : Settings} {h : Harness}
      (hnew : Harness.new hierarchy settings = .ok h) : History h []
  | withProvider {h : Harness} {past : List Execution} (hist : History h past) (p : Provider) :
      History (h.withProvider p) past
  | withCheck {h : Harness} {past : List Execution} (hist : History h past) (check : LeakCheck) :
      History (h.withCheck check) past
  | run {h : Harness} {past : List Execution} (hist : History h past) (code : Code) (test : Overrides)
      (task : Program (Except Error Value)) :
      History (h.run code test task).2 (past ++ h.executions code test task)
  | prewarm {h : Harness} {past : List Execution} (hist : History h past) (code : Code)
      (levels schedule : List Nat) : History (h.prewarm code levels schedule).2 past
  | clearPool {h : Harness} {past : List Execution} (hist : History h past) : History h.clearPool past

end Harness

end Interpose
