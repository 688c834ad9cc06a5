import Interpose.Pool.Lending

/-!
Crews: workers who make sure, all at the same time, that a pool has seen a sandbox of each of their keys.

A worker leases the sandbox of its key and gives it back at once. Everything that it does under the lock of the pool
is one step, and so is everything that it does to a sandbox in between; a schedule says who takes the next step. A
worker who finds its key in use waits. It may wake up at any time, and then claims its key again.
-/

namespace Interpose

/-- How far a worker has come. -/
inductive Progress where
  | fresh
  | waiting
  | building
  /-- It has a sandbox that is still to be configured. -/
  | made (sandbox : Sandbox)
  /-- The sandbox is configured and still to be entered into the pool. -/
  | ready (sandbox : Sandbox)
  | holding (sandbox : Sandbox)
  /-- The lease was dropped and its sandbox is ready to be put back. -/
  | returning (sandbox : Sandbox)
  | finished
  | failed (error : Error)
  | panicked (payload : Option String)

namespace Progress

/-- What a claim makes of a worker. -/
def ofClaim : Claim → Progress
  | .build => building
  | .reuse s => holding s
  | .wait => waiting

def isFresh : Progress → Bool
  | fresh => true
  | _ => false

/-- Whether a worker began and did not come to its end. -/
def isUnderWay : Progress → Bool
  | fresh | finished | failed _ | panicked _ => false
  | _ => true

def error? : Progress → Option Error
  | failed e => some e
  | _ => none

def panic? : Progress → Option (Option String)
  | panicked payload => some payload
  | _ => none

end Progress

structure Worker where
  key : SandboxKey
  progress : Progress

structure Crew where
  pool : Pool
  journal : Journal
  workers : List Worker

namespace Crew

/-- One worker for each key. -/
def new (p : Pool) (j : Journal) (keys : List SandboxKey) : Crew := ⟨p, j, keys.map (⟨·, .fresh⟩)⟩

/-- The next step of a worker for a key, if there is one. A reset that goes on for ever has no end. -/
def advance (code : Code) (assemble : SandboxKey → Nat → Sandbox) (key : SandboxKey) (p : Pool)
    (j : Journal) : Progress → Option (Progress × Pool × Journal)
  | .fresh | .waiting =>
    let (claim, p) := p.claim key
    some (.ofClaim claim, p, j)
  | .building =>
    let (id, j) := j.takeSandboxId
    some (.made (assemble key id), p, j)
  | .made s =>
    match s.configure j with
    | (.ok _, s, j) => some (.ready s, p, j)
    | (.error e, _, j) => some (.failed e, p.abandon key, j)
  | .ready s => some (.holding s, (p.finishBuild key).2, j)
  | .holding s =>
    match Pool.tidy code s j with
    | (.done _, s, j) => some (.returning s, p, j)
    | (.panicked payload, _, j) => some (.panicked payload, p, j)
    | (.unfinished, _, _) => none
  | .returning s => some (.finished, (p.putBack key s).2, j)
  | .finished | .failed _ | .panicked _ => none

/-- The worker at a place takes its next step. Once one has failed, no other begins. -/
def step (code : Code) (assemble : SandboxKey → Nat → Sandbox) (c : Crew) (i : Nat) : Crew :=
  match c.workers[i]? with
  | none => c
  | some w =>
    if w.progress.isFresh && c.workers.any (·.progress.error?.isSome) then c
    else
      match advance code assemble w.key c.pool c.journal w.progress with
      | none => c
      | some (progress, p, j) => ⟨p, j, c.workers.set i ⟨w.key, progress⟩⟩

def run (code : Code) (assemble : SandboxKey → Nat → Sandbox) (c : Crew) (schedule : List Nat) : Crew :=
  schedule.foldl (step code assemble) c

/-- One worker after the other, each as often as there are steps from its beginning to its end. -/
def round (c : Crew) : List Nat := (List.range c.workers.length).flatMap (List.replicate 6)

/-- Goes by a schedule and then takes all workers to their end. One of them may wait for another who comes after it,
and has its turn again for that. -/
def complete (code : Code) (assemble : SandboxKey → Nat → Sandbox) (c : Crew) (schedule : List Nat) : Crew :=
  c.run code assemble (schedule ++ c.round ++ c.round)

/-- What the workers say in the end: a panic, or else the error of one who failed. -/
def answer (c : Crew) : Outcome (Except Error Unit) :=
  if c.workers.any (·.progress.isUnderWay) then .unfinished
  else
    match c.workers.findSome? (·.progress.panic?), c.workers.findSome? (·.progress.error?) with
    | some payload, _ => .panicked payload
    | none, some e => .done (.error e)
    | none, none => .done (.ok ())

end Crew

end Interpose
