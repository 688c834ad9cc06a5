import Interpose.Pool.Basic

/-!
Lending: a pool together with the sandboxes that are out of it, each under the name of its lease.
-/

namespace Interpose

/-- A sandbox that is out of the pool, with the key it goes back to. -/
structure Lease where
  key : SandboxKey
  sandbox : Sandbox

/-- A pool and its outstanding leases. -/
structure Lending where
  pool : Pool
  leases : Table String Lease
  journal : Journal

namespace Lending

def new (max : Nat) : Lending := ⟨.new max, Table.empty, .empty⟩

def sandbox? (l : Lending) (name : String) : Option Sandbox :=
  (l.leases.get? name).map (·.sandbox)

def release (code : Code) (l : Lending) (name : String) : Outcome Unit × Lending :=
  match l.leases.get? name with
  | none => (.done (), l)
  | some lease =>
    let (outcome, pool, j) := l.pool.release code lease.key lease.sandbox l.journal
    (outcome, ⟨pool, l.leases.erase name, j⟩)

/-- Keeps a lease under a name. No lease is lost: the sandbox of an earlier one of that name is given back. -/
def keep (code : Code) (l : Lending) (name : String) (lease : Lease) : Outcome Unit × Lending :=
  let (outcome, l) := l.release code name
  (outcome, { l with leases := l.leases.put name lease })

def acquire (code : Code) (l : Lending) (name : String) (key : SandboxKey) (build : Pool.Builder) :
    Outcome Pool.Grant × Lending :=
  match l.pool.acquire key build l.journal with
  | (.done (.granted s), pool, j) =>
    Outcome.andThen (keep code { l with pool := pool, journal := j } name ⟨key, s⟩) fun _ l =>
      (.done (.granted s), l)
  | (outcome, pool, j) => (outcome, { l with pool := pool, journal := j })

/-- Passes a key on: another user asks for it and waits until the sandbox is given back, and then has it
under a name of its own. -/
def contend (code : Code) (l : Lending) (name other : String) (build : Pool.Builder) :
    Outcome Pool.Grant × Lending :=
  match l.leases.get? name with
  | none => (.done .waiting, l)
  | some lease =>
    let waiting := { l with pool := (l.pool.claim lease.key).2 }
    Outcome.andThen (waiting.release code name) fun _ l => l.acquire code other lease.key build

/-- Does something with the sandbox of a lease. -/
def onLease {α : Type} (l : Lending) (name : String)
    (work : Sandbox → Journal → α × Sandbox × Journal) :
    Option α × Lending :=
  match l.leases.get? name with
  | none => (none, l)
  | some lease =>
    let (answer, s, j) := work lease.sandbox l.journal
    (some answer, { l with leases := l.leases.put name { lease with sandbox := s }, journal := j })

def clear (l : Lending) : Lending := { l with pool := l.pool.clear.2 }

end Lending

/-- How a sandbox is built for a pool. -/
inductive BuildPlan where
  | ready
  | unconfigured
  | destroyed
  | fails (error : Error)
  | panics (payload : Option String)

def BuildPlan.builder (plan : BuildPlan) (key : SandboxKey) (hierarchy : Hierarchy)
    (detectLeaks : Bool) (checks : List LeakCheck) : Pool.Builder := fun j =>
  let (id, j) := j.takeSandboxId
  let made := Sandbox.assemble id key hierarchy detectLeaks checks
  match plan with
  | .ready =>
    match made.configure j with
    | (.ok _, s, j) => (.done (.ok s), j)
    | (.error e, _, j) => (.done (.error e), j)
  | .unconfigured => (.done (.ok made), j)
  | .destroyed => (.done (.ok made.destroy), j)
  | .fails error => (.done (.error error), j)
  | .panics payload => (.panicked payload, j)

end Interpose
