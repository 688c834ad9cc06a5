import Interpose.Call.Site
import Interpose.Event
import Interpose.Table

/-!
The journal: what outlives any one sandbox, namely records of what happened and counters.
-/

namespace Interpose

/-- A method body that was started, by the serial number of its declaration. -/
structure Started where
  serial : Nat
  frame : Frame
deriving DecidableEq

/-- Records and counters that all sandboxes share. -/
structure Journal where
  events : Recording
  /-- Values that running code traced, oldest first. -/
  trace : List Value
  /-- Values that the steps of the running task gave, oldest first. -/
  record : List Value
  draws : Table String Nat
  /-- How often each leak check was asked, by its serial number. -/
  checks : Table Nat Nat
  started : List Started
  /-- The id of the next sandbox. -/
  nextSandbox : Nat
deriving DecidableEq

namespace Journal

/-- The journal at the beginning; sandboxes are numbered from one. -/
def empty : Journal := ⟨[], [], [], Table.empty, Table.empty, [], 1⟩

def addEvents (j : Journal) (events : List Event) : Journal :=
  { j with events := j.events ++ events }

def addEvent (j : Journal) (kind : EventKind) (subject : String) : Journal :=
  j.addEvents [{ kind := kind, subject := subject }]

/-- Draws from a named counter: how often it was drawn from before. -/
def draw (j : Journal) (name : String) : Nat × Journal :=
  let count := (j.draws.get? name).getD 0
  (count, { j with draws := j.draws.put name (count + 1) })

/-- Counts a question to a leak check: how often it was asked before. -/
def ask (j : Journal) (serial : Nat) : Nat × Journal :=
  let count := (j.checks.get? serial).getD 0
  (count, { j with checks := j.checks.put serial (count + 1) })

def takeSandboxId (j : Journal) : Nat × Journal :=
  (j.nextSandbox, { j with nextSandbox := j.nextSandbox + 1 })

end Journal

end Interpose
